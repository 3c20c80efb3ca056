import EntityStore.Proofs.Connection.Quiet
import EntityStore.Proofs.Memory.Saves
import EntityStore.Proofs.Result.Sequence
import EntityStore.Proofs.Schema.Validity
import EntityStore.Proofs.Store.Cache
import EntityStore.Proofs.Store.Saves
import EntityStore.Relational.Driver

/-!
# Reports of failures

Whatever fails on the way to the caller of a store is reported once, by the operation or by the
sequence that hands it over. So the reports of a run are its failures, in the same order.
-/

namespace EntityStore

open Connection Run

/-- An event that reports a failure under the name of a store. -/
structure Reports (store : String) (event : LogEvent) (e : StoreError) : Prop where
  named : ("store", store) ∈ event.fields
  cancelled : e = .cancelled → event.level = .debug ∧ event.message = "operation cancelled"
  failed : e ≠ .cancelled → event.level = .error ∧ event.message = "data store operation failed" ∧
    ("error", e.message) ∈ event.fields

theorem reports_failure (store operation : String) (e : StoreError) :
    Reports store (.failure store operation e) e := by
  cases e with
  | cancelled => exact ⟨List.mem_cons_self, fun _ => ⟨rfl, rfl⟩, fun h => absurd rfl h⟩
  | _ =>
    refine ⟨List.mem_cons_self, nofun, fun _ => ⟨rfl, rfl, ?_⟩⟩
    exact List.mem_cons_of_mem _ (List.mem_cons_of_mem _ (List.mem_singleton_self _))

theorem isReport_failure (store operation : String) (e : StoreError) :
    (LogEvent.failure store operation e).isReport = true := by
  cases e <;> rfl

variable {σ γ α β : Type}

def failuresOf : Except StoreError α → List StoreError
  | .ok _ => []
  | .error e => [e]

def Session.reports (session : Session σ) : List LogEvent := session.events.filter (·.isReport)

theorem Run.Confined.reports_eq {r : Run σ α} (h : ReportsNothing r) (session : Session σ) :
    (r session).2.reports = session.reports := by
  obtain ⟨events, hevents, hquiet⟩ := (h session).events
  have hnone : events.filter (·.isReport) = [] := by
    refine List.filter_eq_nil_iff.2 ?_
    intro event hevent hreport
    cases (hquiet event hevent).symm.trans hreport
  rw [Session.reports, hevents, List.filter_append, hnone, List.append_nil]
  rfl

theorem reports_logged {r : Run σ α} (h : ReportsNothing r) (store operation : String)
    (session : Session σ) :
    (Run.logged store operation r session).2.reports = session.reports ++
      (failuresOf (Run.logged store operation r session).1).map (.failure store operation) := by
  have hreports := h.reports_eq session
  rw [Run.run_logged]
  generalize r session = ended at hreports
  obtain ⟨outcome, session'⟩ := ended
  cases outcome with
  | ok a => exact hreports.trans (List.append_nil _).symm
  | error e =>
    simp only [Session.reports] at hreports
    simp only [failuresOf, Session.reports, List.filter_append, hreports, List.map_cons, List.map_nil]
    rw [List.filter_singleton, isReport_failure]
    rfl

def Run.Gives (P : α → Prop) (r : Run σ α) : Prop := ∀ session a, (r session).1 = .ok a → P a

theorem Run.Gives.pure {P : α → Prop} {a : α} (h : P a) : Gives P (Pure.pure a : Run σ α) := by
  intro session a' ha
  cases ha
  exact h

theorem Run.Gives.bind {P : α → Prop} (x : Run σ β) {f : β → Run σ α} (hf : ∀ b, Gives P (f b)) :
    Gives P (x >>= f) := by
  intro session a ha
  rw [Run.run_bind] at ha
  generalize x session = ended at ha
  obtain ⟨outcome, session'⟩ := ended
  cases outcome with
  | ok b => exact hf b session' a ha
  | error e => cases ha

namespace Backend

/-- A backend that leaves it to the store to report failures. -/
structure Quiet (b : Backend σ γ) : Prop where
  compile (q : Query) : ∀ event ∈ (b.compile q).events, event.isReport = false
  run (mode : Mode) (q : γ) (parameters : Parameters) : ReportsNothing (b.run mode q parameters)
  save (mode : Mode) (entries : List PendingEntry) : ReportsNothing (b.save mode entries)

variable {b : Backend σ γ}

theorem Quiet.runCompiled (h : b.Quiet) (mode : Mode) (operation : String) {compilation : Compilation γ}
    (hcompilation : ∀ event ∈ compilation.events, event.isReport = false) (parameters : Parameters) :
    ReportsNothing (b.runCompiled mode operation compilation parameters) := by
  refine (Confined.log hcompilation).bind (fun _ => (Relates.ofExcept _).bind (fun compiled => ?_))
  refine (Relates.checkCancelledBy b mode).bind (fun _ => ?_)
  refine (h.run mode compiled parameters).bind (fun rows => ?_)
  refine (Relates.checkCancelledBy b mode).bind (fun _ => ?_)
  cases mode with
  | plain => exact (reportsNothing_log rfl).bind (fun _ => .pure _)
  | cancellable => exact .pure _

theorem Quiet.saveChanges (h : b.Quiet) (mode : Mode) (entries : List PendingEntry) (session : Session σ) :
    (b.saveChanges mode entries session).2.reports = session.reports ++
      (failuresOf (b.saveChanges mode entries session).1).map (.failure b.name (saveOperation mode)) := by
  refine reports_logged ?_ b.name (saveOperation mode) session
  refine (Relates.checkCancelledBy b mode).bind (fun _ => ?_)
  cases entries with
  | nil => exact .pure 0
  | cons entry rest =>
    exact (h.save mode _).bind (fun affected => (reportsNothing_log rfl).bind (fun _ => .pure affected))

end Backend

namespace Store

variable {s : Store σ γ}

theorem quiet_compiled (h : s.backend.Quiet) (q : Query) :
    ∀ event ∈ (s.compiled q).1.events, event.isReport = false := by
  change ∀ event ∈ (s.cache.getOrAdd q.fingerprint (s.backend.compile q)).1.events, event.isReport = false
  rw [QueryCache.getOrAdd_fst]
  cases s.cache.find? q.fingerprint with
  | some c => exact List.forall_mem_singleton.2 rfl
  | none => exact List.forall_mem_cons.2 ⟨rfl, h.compile q⟩

theorem reports_query (h : s.backend.Quiet) (mode : Mode) (q : Query) (session : Session σ) :
    ((s.query mode q).1 session).2.reports = session.reports ++
      (failuresOf ((s.query mode q).1 session).1).map
        (.failure s.backend.name (Backend.queryOperation mode)) :=
  reports_logged (h.runCompiled mode _ (quiet_compiled h q) q.parameters) _ _ session

theorem origin_of_query {mode : Mode} {q : Query} {session : Session σ} {results : Results}
    (h : ((s.query mode q).1 session).1 = .ok results) :
    results.origin = some ⟨s.backend.name, Backend.queryOperation mode⟩ := by
  have hgives : Gives (fun r : Results => r.origin = some ⟨s.backend.name, Backend.queryOperation mode⟩)
      (s.backend.runCompiled mode (Backend.queryOperation mode) (s.compiled q).1 q.parameters) := by
    refine .bind _ (fun _ => .bind _ (fun compiled => .bind _ (fun _ => .bind _ (fun rows => ?_))))
    refine .bind _ (fun _ => ?_)
    cases mode with
    | plain => exact .bind _ (fun _ => .pure rfl)
    | cancellable => exact .pure rfl
  exact hgives session results ((Run.outcome_logged _ _ _ _).symm.trans h)

end Store

def Pull.failures (p : Pull α) : List StoreError := (p.item.map failuresOf).getD []

namespace Results

theorem reports_nextUnless {r : Results} {o : Origin} (h : r.origin = some o) (cancelled : Bool)
    (convert : Conversion α) :
    (r.nextUnless cancelled convert).rest.origin = some o ∧
      (r.nextUnless cancelled convert).events =
        (r.nextUnless cancelled convert).failures.map (.failure o.store o.operation) := by
  have hfail (r' : Results) (h' : r'.origin = some o) (e : StoreError) :
      (r'.fail e : Pull α).rest.origin = some o ∧
        (r'.fail e : Pull α).events = (r'.fail e : Pull α).failures.map (.failure o.store o.operation) := by
    refine ⟨h', ?_⟩
    rw [fail, failureEvents, h']
    rfl
  cases hfailed : r.failed with
  | true =>
    rw [nextUnless, if_pos hfailed]
    exact ⟨h, rfl⟩
  | false =>
    cases cancelled with
    | true =>
      rw [nextUnless, if_neg (Bool.eq_false_iff.1 hfailed), if_pos rfl]
      exact hfail r h .cancelled
    | false =>
      rw [nextUnless_false]
      cases hrows : r.rows with
      | nil =>
        rw [next_nil hfailed hrows]
        exact ⟨h, rfl⟩
      | cons row rows =>
        cases hitem : itemOf r.shape convert row with
        | ok a =>
          rw [next_cons_ok hfailed hrows hitem]
          exact ⟨h, rfl⟩
        | error e =>
          rw [next_cons_error hfailed hrows hitem]
          exact hfail { r with rows := rows } h e

end Results

/-- A caller of a store: the sequences that it has got, and the failures. -/
structure Caller (σ γ : Type) where
  store : Store σ γ
  session : Session σ
  sequences : List (Mode × Results)
  failures : List StoreError

namespace Caller

inductive Action (σ : Type)
  | query (mode : Mode) (q : Query)
  | save (mode : Mode) (entries : List PendingEntry)
  /-- Pulls a sequence in some type. Only one of a cancellable query looks at the cancellation. -/
  | pull {α : Type} (i : Nat) (cancelled : Bool) (convert : Conversion α)
  | elapse (change : σ → σ)

def fresh (store : Store σ γ) (state : σ) : Caller σ γ := ⟨store, .ofState state, [], []⟩

def step (c : Caller σ γ) : Action σ → Caller σ γ
  | .query mode q =>
    let (outcome, session) := (c.store.query mode q).1 c.session
    { store := (c.store.query mode q).2
      session := session
      sequences := c.sequences ++ (outcome.toOption.map (mode, ·)).toList
      failures := c.failures ++ failuresOf outcome }
  | .save mode entries =>
    let (outcome, session) := c.store.backend.saveChanges mode entries c.session
    { c with session := session, failures := c.failures ++ failuresOf outcome }
  | .pull i cancelled convert =>
    match c.sequences[i]? with
    | none => c
    | some (mode, results) =>
      let pull := results.nextUnless (mode = .cancellable && cancelled) convert
      { c with
        session := { c.session with events := c.session.events ++ pull.events }
        sequences := c.sequences.set i (mode, pull.rest)
        failures := c.failures ++ pull.failures }
  | .elapse change => { c with session := { c.session with state := change c.session.state } }

def run (c : Caller σ γ) (actions : List (Action σ)) : Caller σ γ := actions.foldl step c

/-- Every failure so far has been reported once, and no sequence will fail in silence. -/
structure Accounted (b : Backend σ γ) (c : Caller σ γ) : Prop where
  backend_eq : c.store.backend = b
  reports : List.Forall₂ (Reports b.name) c.session.reports c.failures
  origins : ∀ x ∈ c.sequences, ∃ operation, x.2.origin = some ⟨b.name, operation⟩

variable {b : Backend σ γ}

theorem accounted_fresh (cache : QueryCache γ) (state : σ) : (fresh ⟨b, cache⟩ state).Accounted b where
  backend_eq := rfl
  reports := .nil
  origins := List.forall_mem_nil _

theorem forall₂_failures (store operation : String) (failures : List StoreError) :
    List.Forall₂ (Reports store) (failures.map (.failure store operation)) failures := by
  induction failures with
  | nil => exact .nil
  | cons e rest ih => exact .cons (reports_failure store operation e) ih

theorem filter_failures (store operation : String) (failures : List StoreError) :
    (failures.map (.failure store operation)).filter (·.isReport) =
      failures.map (LogEvent.failure store operation) := by
  refine List.filter_eq_self.2 ?_
  intro event hevent
  obtain ⟨e, -, rfl⟩ := List.mem_map.1 hevent
  exact isReport_failure store operation e

theorem Accounted.step {c : Caller σ γ} (h : c.Accounted b) (hquiet : b.Quiet) (action : Action σ) :
    (c.step action).Accounted b := by
  obtain ⟨rfl, hreports, horigins⟩ := h
  cases action with
  | query mode q =>
    refine ⟨rfl, ?_, ?_⟩
    · change List.Forall₂ _ ((c.store.query mode q).1 c.session).2.reports _
      rw [Store.reports_query hquiet]
      exact List.rel_append hreports (forall₂_failures _ _ _)
    · change ∀ x ∈ c.sequences ++ (((c.store.query mode q).1 c.session).1.toOption.map (mode, ·)).toList, _
      refine List.forall_mem_append.2 ⟨horigins, ?_⟩
      cases houtcome : ((c.store.query mode q).1 c.session).1 with
      | ok results => exact List.forall_mem_singleton.2 ⟨_, Store.origin_of_query houtcome⟩
      | error e => exact List.forall_mem_nil _
  | save mode entries =>
    refine ⟨rfl, ?_, horigins⟩
    change List.Forall₂ _ (c.store.backend.saveChanges mode entries c.session).2.reports _
    rw [hquiet.saveChanges]
    exact List.rel_append hreports (forall₂_failures _ _ _)
  | pull i cancelled convert =>
    rw [Caller.step]
    cases hpulled : c.sequences[i]? with
    | none => exact ⟨rfl, hreports, horigins⟩
    | some x =>
      obtain ⟨mode, results⟩ := x
      -- the sequence reports for itself, under the name that its query has given it
      obtain ⟨operation, horigin⟩ := horigins _ (List.mem_of_getElem? hpulled)
      obtain ⟨hrest, hevents⟩ := Results.reports_nextUnless horigin (mode = .cancellable && cancelled) convert
      refine ⟨rfl, ?_, ?_⟩
      · simp only [Session.reports, List.filter_append, hevents, filter_failures]
        exact List.rel_append hreports (forall₂_failures _ _ _)
      · intro x hx
        rcases List.mem_or_eq_of_mem_set hx with hx | rfl
        · exact horigins x hx
        · exact ⟨operation, hrest⟩
  | elapse change => exact ⟨rfl, hreports, horigins⟩

theorem Accounted.run {c : Caller σ γ} (h : c.Accounted b) (hquiet : b.Quiet) (actions : List (Action σ)) :
    (c.run actions).Accounted b := by
  induction actions generalizing c with
  | nil => exact h
  | cons action rest ih => exact ih (h.step hquiet action)

end Caller

/-- However a store is used from the start, whatever it has compiled before, its reports are the
failures that its caller has got. -/
def Backend.AccountsFor (b : Backend σ γ) : Prop :=
  ∀ (cache : QueryCache γ) (state : σ) (actions : List (Caller.Action σ)),
    ((Caller.fresh ⟨b, cache⟩ state).run actions).Accounted b

theorem Backend.Quiet.accountsFor {b : Backend σ γ} (h : b.Quiet) : b.AccountsFor :=
  fun cache state actions => (Caller.accounted_fresh cache state).run h actions

namespace Memory

theorem quiet_backend (name : String) (s : Schema) : (backend name s).Quiet where
  compile q := by
    simp only [backend, compile]
    cases Plan.ofQuery s q with
    | ok plan => exact List.forall_mem_singleton.2 rfl
    | error e => exact List.forall_mem_nil _
  run mode plan parameters := Relates.state.bind (fun state => .ofExcept _)
  save mode entries session := by
    have hsame : Run.Adds (fun _ => True) (fun event => event.isReport = false) session session := .refl session
    change Run.Adds _ _ session (Memory.save s entries session).2
    rcases run_save_cases s entries session with ⟨e, hsave⟩ | ⟨_, _, _, -, -, hsave⟩
    · rw [hsave]
      exact hsame
    · rw [hsave]
      exact ⟨hsame.calls, hsame.events⟩

end Memory

namespace Relational

variable {c : Connection σ}

theorem reportsNothing_run (h : c.Quiet) (sensitive : Bool) (mode : Mode) (q : CompiledQuery)
    (parameters : Parameters) : ReportsNothing (run c sensitive mode q parameters) := by
  have hopen : ReportsNothing (runOpen c sensitive mode q parameters) := by
    refine (Relates.checkCancelled c mode).bind (fun _ => ?_)
    exact (Relates.ofExcept _).bind (fun values => h.rows mode sensitive q.sql.text values)
  have hstart : ReportsNothing c.start := h.call (fun _ => rfl)
  refine (Relates.checkCancelled c mode).bind (fun _ => (confined_renew trivial).bind (fun _ => ?_))
  refine hstart.bind (fun _ => hopen.attempt.bind (fun outcome => ?_))
  exact h.close.bind (fun _ => .ofExcept outcome)

theorem quiet_backendOver {d : Driver σ} (h : ∀ mode, (d.forMode mode).Quiet) (name : String) (s : Schema)
    (options : StoreOptions) : (backendOver d name s options).Quiet where
  compile q := by
    simp only [backendOver, backend, compile]
    cases Plan.ofQuery s q with
    | ok plan => exact List.forall_mem_singleton.2 rfl
    | error e => exact List.forall_mem_nil _
  run mode := reportsNothing_run (h mode) options.sensitiveLogging mode
  save mode entries := by
    refine (Relates.ofExcept _).bind (fun batches => (confined_renew trivial).bind (fun _ => ?_))
    exact (h mode).save mode options.sensitiveLogging batches

end Relational

/-- Nothing fails in silence and nothing is reported twice, by an in-memory store or by a relational one
over a driver that leaves it to the store to report failures. -/
theorem accountsFor_backends {d : Driver σ} (h : ∀ mode, (d.forMode mode).Quiet) (name : String) (s : Schema)
    (options : StoreOptions) :
    (Memory.backend name s).AccountsFor ∧ (Relational.backendOver d name s options).AccountsFor :=
  ⟨(Memory.quiet_backend name s).accountsFor, (Relational.quiet_backendOver h name s options).accountsFor⟩

/-- A row of another type, a full disk, and a caller who gives up. -/
theorem accountsFor_backends_blogs :
    let d := Driver.embedded Scripted.connection
    let b := Relational.backendOver d "blogs" Schema.blogs .standard
    let mistyped := StoreError.schema (.typeMismatch .integer (.text "two"))
    let full := StoreError.connection "blogs.db" .other "disk full"
    let script := { Script.empty with query := [⟨[[.integer 1], [.text "two"]], none⟩], execute := [.error full] }
    let pull : Caller.Action Scripted := .pull 0 false (fun _ => .ok ())
    let entries : List PendingEntry := [⟨⟨0⟩, .added, .ofList [("Id", .integer 1)], .empty⟩]
    let actions := [.query .cancellable (.entities ⟨0⟩), pull, pull, pull, .save .plain entries,
      .elapse (fun s => { s with isCancelled := true }), .save .cancellable entries]
    let c := (Caller.fresh (.ofBackend b) ⟨"blogs.db", script, false, false, none⟩).run actions
    (∀ mode, (d.forMode mode).Quiet) ∧
      ((Memory.backend "blogs" Schema.blogs).AccountsFor ∧ b.AccountsFor) ∧
      c.failures = [mistyped, full, .cancelled] ∧
      c.session.reports = [
        .error "data store operation failed"
          [("store", "blogs"), ("operation", "query_async"), ("error", mistyped.message)],
        .error "data store operation failed"
          [("store", "blogs"), ("operation", "save_changes"), ("error", full.message)],
        .debug "operation cancelled" [("store", "blogs"), ("operation", "save_changes_async")]] := by
  intro d b mistyped full script pull entries actions c
  have hquiet (mode : Mode) : (d.forMode mode).Quiet := by
    cases mode
    · exact Scripted.quiet_connection
    · exact Scripted.quiet_connection
  exact ⟨hquiet, accountsFor_backends hquiet "blogs" Schema.blogs .standard, by decide +kernel, by decide +kernel⟩

end EntityStore
