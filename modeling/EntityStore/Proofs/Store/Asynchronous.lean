import EntityStore.Connection.Scripted
import EntityStore.Proofs.Connection.Asynchronous
import EntityStore.Proofs.Result.Sequence
import EntityStore.Proofs.Schema.Validity

/-!
# Asynchronous operations of relational stores

The operations of a store that await its connection do the same as those that do not, as long as the
caller does not give up: from the same state they come to the same results or the same failure, after
the same calls and the same waits.
-/

namespace EntityStore

open Run

variable {σ γ α : Type}

/-- The items of a query that is run and pulled to its end. Each pull of a stream looks at whether
the caller has given up; no pull makes a call. -/
def Store.itemsOf (s : Store σ γ) (mode : Mode) (q : Query) (convert : Conversion α) :
    Run σ (List (Except StoreError α)) := do
  let results ← (s.query mode q).1
  let state ← Run.state
  match mode with
  | .plain => return results.items convert
  | .cancellable => return results.streamed (s.backend.isCancelled state) convert

namespace Driver.AnswersAlike

variable {d : Driver σ} (h : d.AnswersAlike)

include h

theorem runOpen (sensitive : Bool) (q : Relational.CompiledQuery) (parameters : Parameters) :
    SameRun d.NeverCancelled Eq (Relational.runOpen d.toConnection sensitive .plain q parameters)
      (Relational.runOpen d.awaiting sensitive .cancellable q parameters) := by
  refine sameRun_checkCancelled.bind (fun _ _ _ => ?_)
  refine (SameRun.ofExcept _).bind ?_
  rintro values _ rfl
  exact h.rows sensitive q.sql.text values

theorem runQuery (sensitive : Bool) (q : Relational.CompiledQuery) (parameters : Parameters) :
    SameRun d.NeverCancelled Eq (Relational.run d.toConnection sensitive .plain q parameters)
      (Relational.run d.awaiting sensitive .cancellable q parameters) := by
  refine sameRun_checkCancelled.bind (fun _ _ _ => ?_)
  refine sameRun_renew.bind (fun _ _ _ => ?_)
  refine h.start.bind (fun _ _ _ => ?_)
  refine (h.runOpen sensitive q parameters).attempt_eq.bind ?_
  rintro outcome _ rfl
  exact sameRun_close.bind (fun _ _ _ => .ofExcept _)

theorem saveEntries (s : Schema) (options : StoreOptions) (entries : List PendingEntry) :
    SameRun d.NeverCancelled Eq (Relational.save d.toConnection s options .plain entries)
      (Relational.save d.awaiting s options .cancellable entries) := by
  refine (SameRun.ofExcept _).bind ?_
  rintro batches _ rfl
  exact sameRun_renew.bind (fun _ _ _ => h.save options.sensitiveLogging batches)

theorem saveChanges (name : String) (s : Schema) (options : StoreOptions)
    (entries : List PendingEntry) :
    SameRun d.NeverCancelled Eq
      ((Relational.backendOver d name s options).saveChanges .plain entries)
      ((Relational.backendOver d name s options).saveChanges .cancellable entries) := by
  refine SameRun.logged ?_ _ _ _ _
  refine sameRun_checkCancelled.bind (fun _ _ _ => ?_)
  cases entries with
  | nil => exact .pure rfl
  | cons entry rest =>
    refine (h.saveEntries s options (entry :: rest)).bind ?_
    rintro affected _ rfl
    exact (SameRun.log _ _).bind (fun _ _ _ => .pure rfl)

theorem runCompiled (name : String) (s : Schema) (options : StoreOptions)
    (compilation : Compilation Relational.CompiledQuery) (parameters : Parameters)
    (operation operation' : String) :
    SameRun d.NeverCancelled Results.Alike
      ((Relational.backendOver d name s options).runCompiled .plain operation compilation parameters)
      ((Relational.backendOver d name s options).runCompiled .cancellable operation' compilation
        parameters) := by
  refine (SameRun.log _ _).bind (fun _ _ _ => ?_)
  refine (SameRun.ofExcept _).bind ?_
  rintro compiled _ rfl
  refine sameRun_checkCancelled.bind (fun _ _ _ => ?_)
  refine (h.runQuery options.sensitiveLogging compiled parameters).bind ?_
  rintro rows _ rfl
  refine sameRun_checkCancelled.bind (fun _ _ _ => ?_)
  -- only a plain run logs the number of rows
  exact SameRun.bind (SameRun.log _ []) (fun _ _ _ => .pure ⟨rfl, rfl, rfl⟩)

theorem itemsOf (name : String) (s : Schema) (options : StoreOptions)
    (cache : QueryCache Relational.CompiledQuery) (q : Query) (convert : Conversion α) :
    SameRun d.NeverCancelled Eq
      ((⟨Relational.backendOver d name s options, cache⟩ : Store σ _).itemsOf .plain q convert)
      ((⟨Relational.backendOver d name s options, cache⟩ : Store σ _).itemsOf .cancellable q convert) := by
  refine ((h.runCompiled name s options _ q.parameters _ _).logged _ _ _ _).bind ?_
  intro results results' halike session session' hnever hstate htrace
  refine ⟨?_, hstate, htrace, hnever⟩
  -- every pull of the stream meets the state that the query has left
  have hgoes : d.isCancelled session'.state = false := hstate ▸ hnever.isCancelled
  change results.items convert = results'.streamed (d.isCancelled session'.state) convert
  rw [hgoes, Results.streamed_false, halike.items_eq]

theorem ensureCreatedOver (name : String) (s : Schema) (options : StoreOptions) :
    SameRun d.NeverCancelled Eq (Relational.ensureCreatedOver d name s options .plain)
      (Relational.ensureCreatedOver d name s options .cancellable) :=
  SameRun.logged (sameRun_renew.bind (fun _ _ _ => h.ensureCreated s options)) _ _ _ _

end Driver.AnswersAlike

def ModesAgree (program : Mode → Run σ α) (session : Session σ) : Prop :=
  Agrees (program .plain session) (program .cancellable session)

namespace Scripted

theorem count_of_none {s : Scripted} (h : s.cancelAt = none) (r : Request) : s.count r = s := by
  simp [count, h]

theorem neverCancelled_connection {s : Scripted} (hnone : s.cancelAt = none)
    (hgoes : s.isCancelled = false) : connection.NeverCancelled s := by
  intro s' hleads
  have hquiet : s'.cancelAt = none ∧ s'.isCancelled = false := by
    induction hleads with
    | refl => exact ⟨hnone, hgoes⟩
    | @call s' _ call ih =>
      have hcount (r : Request) : (s'.count r).cancelAt = none ∧ (s'.count r).isCancelled = false := by
        rw [count_of_none ih.1 r]
        exact ih
      cases call with
      | closeLink =>
        change (closeLink s').state.cancelAt = none ∧ (closeLink s').state.isCancelled = false
        unfold closeLink
        split
        · exact hcount .closeLink
        · exact ih
      | wait => exact ih
      | _ => exact hcount _
    | @deliver s' _ ih =>
      change (s'.count .row).cancelAt = none ∧ (s'.count .row).isCancelled = false
      rw [count_of_none ih.1]
      exact ih
  exact hquiet.2

end Scripted

namespace Relational

/-- What can be awaited of a store over a driver, from the execution of batches to its queries, does
the same when it is awaited. -/
structure AgreesAwaited (d : Driver σ) (name : String) (s : Schema) (options : StoreOptions)
    (session : Session σ) : Prop where
  execute (batches : List Batch) :
    ModesAgree (fun mode => (d.forMode mode).save mode options.sensitiveLogging batches) session
  create : ModesAgree (fun mode => (d.forMode mode).create options.retry) session
  ensureCreated : ModesAgree (ensureCreatedOver d name s options) session
  saveChanges (entries : List PendingEntry) :
    ModesAgree (fun mode => (backendOver d name s options).saveChanges mode entries) session
  query {α : Type} (cache : QueryCache CompiledQuery) (q : Query) (convert : Conversion α) :
    ModesAgree (fun mode =>
      (⟨backendOver d name s options, cache⟩ : Store σ _).itemsOf mode q convert) session
  /-- Either way the store has compiled the same queries afterwards. -/
  compiled (cache : QueryCache CompiledQuery) (q : Query) :
    ((⟨backendOver d name s options, cache⟩ : Store σ _).query .cancellable q).2 =
      ((⟨backendOver d name s options, cache⟩ : Store σ _).query .plain q).2

/-- With a driver that answers those who await it as it answers the others, and a caller who does not
give up, every asynchronous operation comes to the same outcome and state as the synchronous one,
after the same calls and waits, whatever the driver answers. -/
theorem asynchronous_agrees {d : Driver σ} (h : d.AnswersAlike) {session : Session σ}
    (hnever : d.NeverCancelled session.state) (name : String) (s : Schema) (options : StoreOptions) :
    AgreesAwaited d name s options session where
  execute batches := (h.save options.sensitiveLogging batches).agrees hnever
  create := (h.create options.retry).agrees hnever
  ensureCreated := (h.ensureCreatedOver name s options).agrees hnever
  saveChanges entries := (h.saveChanges name s options entries).agrees hnever
  query cache q convert := (h.itemsOf name s options cache q convert).agrees hnever
  compiled _ _ := rfl

/-- A database that cannot be opened at first. -/
theorem asynchronous_agrees_zoo :
    let d := Driver.embedded Scripted.connection
    let e := StoreError.connection "zoo.db" .databaseUnavailable "starting up"
    let session := Session.ofState
      (⟨"zoo.db", { Script.empty with openLink := [.error e] }, false, false, none⟩ : Scripted)
    (d.AnswersAlike ∧ d.NeverCancelled session.state) ∧
      AgreesAwaited d "zoo" Schema.blogs .standard session ∧
      (d.awaiting.create RetryConfig.standard session).2.trace =
        [.probeDatabase, .openLink, .closeLink false, .wait 100, .probeDatabase, .openLink] := by
  intro d e session
  have halike : d.AnswersAlike := Driver.answersAlike_embedded Scripted.connection
  have hnever : d.NeverCancelled session.state := Scripted.neverCancelled_connection rfl rfl
  exact ⟨⟨halike, hnever⟩, asynchronous_agrees halike hnever "zoo" Schema.blogs .standard, rfl⟩

theorem backendOver_embedded (c : Connection σ) (name : String) (s : Schema) (options : StoreOptions) :
    backendOver (.embedded c) name s options = backend c name s options := by
  have hmode (mode : Mode) : (Driver.embedded c).forMode mode = c := by cases mode <;> rfl
  simp only [backendOver, hmode]
  rfl

theorem ensureCreatedOver_embedded (c : Connection σ) (name : String) (s : Schema)
    (options : StoreOptions) :
    ensureCreatedOver (.embedded c) name s options = ensureCreated c name s options := by
  funext mode
  cases mode <;> rfl

end Relational

end EntityStore
