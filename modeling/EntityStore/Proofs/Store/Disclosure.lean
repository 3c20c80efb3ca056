import EntityStore.Connection.Scripted
import EntityStore.Proofs.Connection.Disclosure
import EntityStore.Proofs.OrderedMap
import EntityStore.Proofs.Result.Sequence
import EntityStore.Proofs.Schema.Validity
import EntityStore.Relational.Store

/-!
# Values do not show in the log

A relational store that may not log sensitive data logs the same whatever the values of the parameters
of a query or of the columns of a save are, provided that the connection answers alike.
-/

namespace EntityStore

open Run Connection

variable {σ σ' γ α : Type}

/-- Queries that differ at most in the values of their parameters. -/
structure Query.SameNames (q q' : Query) : Prop where
  shape : q.shape = q'.shape
  names : ∀ name, q.parameters.contains name = q'.parameters.contains name

theorem Plan.ofQuery_congr {q q' : Query} (h : q.shape = q'.shape) (s : Schema) :
    ofQuery s q = ofQuery s q' := by
  rw [ofQuery, ofQuery, Query.sources, Query.sources, h]

theorem Parameters.corresponds_value {p p' : Parameters} {name : String}
    (h : p.contains name = p'.contains name) :
    Corresponds (fun _ _ => True) (p.value name) (p'.value name) := by
  rw [OrderedMap.contains, OrderedMap.contains] at h
  unfold value
  cases hv : p.get? name with
  | some v =>
    rw [hv] at h
    obtain ⟨v', hv'⟩ := Option.isSome_iff_exists.1 h.symm
    rw [hv']
    trivial
  | none =>
    rw [hv] at h
    have hv' : p'.get? name = none := Option.not_isSome_iff_eq_none.1 (Bool.eq_false_iff.1 h.symm)
    rw [hv']
    rfl

/-- Everything that is logged by a query whose results are pulled to the end. -/
def Store.logOf (s : Store σ γ) (mode : Mode) (q : Query) (convert : Conversion α) (session : Session σ) :
    List LogEvent :=
  match (s.query mode q).1 session with
  | (.error _, after) => after.events
  | (.ok results, after) => after.events ++
      results.pullEvents (mode = .cancellable && s.backend.isCancelled after.state) convert

namespace Relational

theorem CompiledQuery.corresponds_bind {p p' : Parameters}
    (h : ∀ name, p.contains name = p'.contains name) (q : CompiledQuery) :
    Corresponds (fun values values' => values.length = values'.length) (q.bind p) (q.bind p') := by
  unfold bind
  induction q.sql.parameterNames with
  | nil => exact rfl
  | cons name names ih =>
    rw [List.mapM_cons, List.mapM_cons]
    refine (Parameters.corresponds_value (h name)).bind (fun value value' _ => ?_)
    exact ih.bind (fun values values' hlength => congrArg (· + 1) hlength)

def Asks (q : CompiledQuery) (p p' : Parameters) (call call' : Call) : Prop :=
  ∃ values values', q.bind p = .ok values ∧ q.bind p' = .ok values' ∧
    call = .query q.sql.text values ∧ call' = .query q.sql.text values'

def Writes (batches batches' : List Batch) (call call' : Call) : Prop :=
  ∃ b ∈ batches.zip batches', ∃ x ∈ b.1.zip b.2, call = statement x.1 ∧ call' = statement x.2

theorem sends_of_sameText {batches batches' : List Batch}
    (h : List.Forall₂ (List.Forall₂ Command.SameText) batches batches') :
    List.Forall₂ (List.Forall₂ (Sends (Writes batches batches'))) batches batches' := by
  obtain ⟨hlength, hbatches⟩ := List.forall₂_iff_zip.1 h
  refine List.forall₂_iff_zip.2 ⟨hlength, ?_⟩
  intro batch batch' hmem
  obtain ⟨hlength', hcommands⟩ := List.forall₂_iff_zip.1 (hbatches hmem)
  refine List.forall₂_iff_zip.2 ⟨hlength', ?_⟩
  intro x y hxy
  exact ⟨hcommands hxy, _, hmem, _, hxy, rfl, rfl⟩

section

variable {c : Connection σ} {c' : Connection σ'} {S : σ → σ' → Prop}

section

variable {sent : Call → Call → Prop} (h : AnswersLike c c' S sent) {p p' : Parameters}
  (hnames : ∀ name, p.contains name = p'.contains name) {compiled : CompiledQuery}
  (hsent : ∀ call call', Asks compiled p p' call call' → sent call call') (mode : Mode)

include h hnames hsent

theorem coupled_runOpen :
    Coupled (LoggedAlike S) Eq (runOpen c false mode compiled p) (runOpen c' false mode compiled p') := by
  refine (h.checkCancelled mode).bind (fun _ _ _ => ?_)
  refine (Coupled.ofExcept (compiled.corresponds_bind hnames).with_eq).bind ?_
  rintro values values' ⟨hlength, hvalues, hvalues'⟩
  exact h.rows mode hlength (hsent _ _ ⟨values, values', hvalues, hvalues', rfl, rfl⟩)

theorem coupled_run :
    Coupled (LoggedAlike S) Eq (run c false mode compiled p) (run c' false mode compiled p') := by
  refine (h.checkCancelled mode).bind (fun _ _ _ => ?_)
  refine h.renew.bind (fun _ _ _ => ?_)
  refine h.start.bind (fun _ _ _ => ?_)
  refine (coupled_runOpen h hnames hsent mode).attempt_eq.bind ?_
  rintro outcome _ rfl
  exact h.close.bind (fun _ _ _ => .ofExcept (corresponds_eq_iff.2 rfl))

end

variable (name : String) (s : Schema) {options : StoreOptions} (hoff : options.sensitiveLogging = false)

def storeOver (c : Connection σ) (name : String) (s : Schema) (options : StoreOptions)
    (cache : QueryCache CompiledQuery) : Store σ CompiledQuery :=
  ⟨backend c name s options, cache⟩

/-- The calls by which a store sends one of two queries and the other. -/
def Queries (store : Store σ CompiledQuery) (q q' : Query) (call call' : Call) : Prop :=
  ∃ compiled, (store.compiled q).1.result = .ok compiled ∧ Asks compiled q.parameters q'.parameters call call'

include hoff

theorem coupled_query {cache : QueryCache CompiledQuery} {q q' : Query} (hq : q.SameNames q')
    (h : AnswersLike c c' S (Queries (storeOver c name s options cache) q q')) (mode : Mode) :
    Coupled (LoggedAlike S) Eq ((storeOver c name s options cache).query mode q).1
      ((storeOver c' name s options cache).query mode q').1 := by
  have hcompiled : ((storeOver c' name s options cache).compiled q').1 =
      ((storeOver c name s options cache).compiled q).1 := by
    change (cache.getOrAdd q'.shape.fingerprint (compile s name q')).1 =
      (cache.getOrAdd q.shape.fingerprint (compile s name q)).1
    rw [compile, compile, Plan.ofQuery_congr hq.shape, hq.shape]
  refine Coupled.logged ?_ (fun e => loggedAlike_log _)
  change Coupled (LoggedAlike S) Eq
    ((backend c name s options).runCompiled mode _ ((storeOver c name s options cache).compiled q).1 q.parameters)
    ((backend c' name s options).runCompiled mode _ ((storeOver c' name s options cache).compiled q').1
      q'.parameters)
  rw [hcompiled]
  generalize hfound : ((storeOver c name s options cache).compiled q).1 = compilation at *
  refine (loggedAlike_log _).bind (fun _ _ _ => ?_)
  have hself : Corresponds Eq compilation.result compilation.result := corresponds_eq_iff.2 rfl
  refine (Coupled.ofExcept hself.with_eq).bind ?_
  rintro compiled _ ⟨rfl, hresult, -⟩
  refine (h.checkCancelled mode).bind (fun _ _ _ => ?_)
  have hrun : Coupled (LoggedAlike S) Eq (run c options.sensitiveLogging mode compiled q.parameters)
      (run c' options.sensitiveLogging mode compiled q'.parameters) := by
    rw [hoff]
    refine coupled_run h hq.names ?_ mode
    intro call call' hasks
    exact ⟨compiled, hfound ▸ hresult, hasks⟩
  refine hrun.bind ?_
  rintro rows _ rfl
  refine (h.checkCancelled mode).bind (fun _ _ _ => ?_)
  cases mode with
  | plain => exact (loggedAlike_log _).bind (fun _ _ _ => .pure rfl)
  | cancellable => exact .pure rfl

theorem logOf_eq {cache : QueryCache CompiledQuery} {q q' : Query} (hq : q.SameNames q')
    (h : AnswersLike c c' S (Queries (storeOver c name s options cache) q q')) (mode : Mode)
    (convert : Conversion α) {session : Session σ} {session' : Session σ'}
    (hsession : LoggedAlike S session session') :
    (storeOver c name s options cache).logOf mode q convert session =
      (storeOver c' name s options cache).logOf mode q' convert session' := by
  obtain ⟨houtcome, hafter⟩ := coupled_query name s hoff hq h mode session session' hsession
  rw [Store.logOf, Store.logOf]
  generalize ((storeOver c name s options cache).query mode q).1 session = ended at *
  generalize ((storeOver c' name s options cache).query mode q').1 session' = ended' at *
  obtain ⟨outcome, after⟩ := ended
  obtain ⟨outcome', after'⟩ := ended'
  obtain rfl : outcome = outcome' := corresponds_eq_iff.1 houtcome
  have hcancelled : c.isCancelled after.state = c'.isCancelled after'.state := h.isCancelled hafter.state
  have hevents : after.events = after'.events := hafter.events
  cases outcome with
  | error e => exact hevents
  | ok results =>
    change after.events ++ results.pullEvents (_ && c.isCancelled after.state) convert =
      after'.events ++ results.pullEvents (_ && c'.isCancelled after'.state) convert
    rw [hevents, hcancelled]

end

/-- Without leave to log sensitive data, queries that differ in the values of their parameters log the
same, up to the last of their results, and leave the same compiled queries; and saves of commands that
differ in the values of their columns log the same. -/
theorem undisclosed_values {c : Connection σ} {c' : Connection σ'} {S : σ → σ' → Prop} (name : String)
    (s : Schema) {options : StoreOptions} (hoff : options.sensitiveLogging = false) (mode : Mode)
    {session : Session σ} {session' : Session σ'} (hsession : LoggedAlike S session session') :
    (∀ (cache : QueryCache CompiledQuery) (q q' : Query), q.SameNames q' →
      AnswersLike c c' S (Queries (storeOver c name s options cache) q q') →
        (∀ convert : Conversion α, (storeOver c name s options cache).logOf mode q convert session =
          (storeOver c' name s options cache).logOf mode q' convert session') ∧
        ((storeOver c name s options cache).query mode q).2.cache =
          ((storeOver c' name s options cache).query mode q').2.cache) ∧
    ∀ batches batches' : List Batch, List.Forall₂ (List.Forall₂ Command.SameText) batches batches' →
      AnswersLike c c' S (Writes batches batches') →
        (c.save mode options.sensitiveLogging batches session).2.events =
          (c'.save mode options.sensitiveLogging batches' session').2.events := by
  constructor
  · intro cache q q' hq h
    refine ⟨fun convert => logOf_eq name s hoff hq h mode convert hsession, ?_⟩
    change (cache.getOrAdd q.shape.fingerprint (compile s name q)).2 =
      (cache.getOrAdd q'.shape.fingerprint (compile s name q')).2
    rw [compile, compile, Plan.ofQuery_congr hq.shape, hq.shape]
  · intro batches batches' hsame h
    rw [hoff]
    exact (h.save mode (sends_of_sameText hsame) session session' hsession).2.events

end Relational

theorem Scripted.answersLike_connection (sent : Call → Call → Prop) :
    AnswersLike connection connection Eq sent where
  connect h := congrArg connection.connect h
  database h := congrArg connection.database h
  isOpen h := congrArg connection.isOpen h
  isCancelled h := congrArg connection.isCancelled h
  openLink h := h ▸ ⟨rfl, rfl, rfl⟩
  closeLink h := h ▸ ⟨rfl, rfl, rfl⟩
  beginTransaction h := h ▸ ⟨rfl, rfl, rfl⟩
  commit h := h ▸ ⟨rfl, rfl, rfl⟩
  rollback h := h ▸ ⟨rfl, rfl, rfl⟩
  execute _ _ _ h := h ▸ ⟨rfl, rfl, rfl⟩
  query _ _ _ h := h ▸ ⟨rfl, rfl, rfl⟩
  deliver h := congrArg connection.deliver h

namespace Relational

def blogsAfter (v : Value) : Query :=
  ((Query.entities ⟨0⟩).restrict (.compare .gt (.property ⟨0⟩ "Id") (.parameter "id"))).withParameter "id" v

def insertBlog (v : Value) : Command :=
  { entityType := ⟨0⟩, table := "Blog", state := .added, key := [v]
    columns := [⟨"Id", "Id", v, true, true⟩] }

/-- A row of another type, and a full disk. -/
theorem undisclosed_values_blogs :
    let e := StoreError.connection "blogs.db" .other "disk full"
    let script := { Script.empty with query := [⟨[[.text "two"]], none⟩], execute := [.error e] }
    let session := Session.ofState (⟨"blogs.db", script, false, false, none⟩ : Scripted)
    let store := storeOver Scripted.connection "blogs" Schema.blogs .standard .empty
    let q := blogsAfter (.integer 1)
    let q' := blogsAfter (.text "secret")
    let batches (v : Value) : List Batch := [[insertBlog v]]
    let convert : Conversion Unit := fun _ => .ok ()
    (StoreOptions.standard.sensitiveLogging = false ∧ q.SameNames q' ∧
      (∀ sent, AnswersLike Scripted.connection Scripted.connection Eq sent) ∧
      List.Forall₂ (List.Forall₂ Command.SameText) (batches (.integer 1)) (batches (.text "secret"))) ∧
    store.logOf .plain q convert session = store.logOf .plain q' convert session ∧
    (Scripted.connection.save .plain false (batches (.integer 1)) session).2.events =
      (Scripted.connection.save .plain false (batches (.text "secret")) session).2.events ∧
    (Scripted.connection.save .plain false (batches (.text "secret")) session).2.events =
      [.debug "executing batch" [("batch", "0"), ("commands", "1")],
        .debug "executing command" [("database", "blogs.db"),
          ("sql", "INSERT INTO \"Blog\" (\"Id\") VALUES (?1)"), ("parameters", "1")]] := by
  intro e script session store q q' batches convert
  have hq : q.SameNames q' := by
    refine ⟨rfl, fun name => ?_⟩
    change (OrderedMap.insert .empty "id" _).contains name = (OrderedMap.insert .empty "id" _).contains name
    rw [OrderedMap.contains, OrderedMap.contains, OrderedMap.get?_insert, OrderedMap.get?_insert]
    split <;> rfl
  have halike (sent : Call → Call → Prop) : AnswersLike Scripted.connection Scripted.connection Eq sent :=
    Scripted.answersLike_connection sent
  have hbatches : List.Forall₂ (List.Forall₂ Command.SameText) (batches (.integer 1))
      (batches (.text "secret")) := .cons (.cons ⟨rfl, rfl, rfl, rfl⟩ .nil) .nil
  have hsession : LoggedAlike Eq session session := ⟨rfl, rfl⟩
  have hoff : StoreOptions.standard.sensitiveLogging = false := rfl
  obtain ⟨hqueries, hsaves⟩ := @undisclosed_values Scripted Scripted Unit Scripted.connection
    Scripted.connection Eq "blogs" Schema.blogs _ hoff .plain session session hsession
  refine ⟨⟨rfl, hq, halike, hbatches⟩, ?_, ?_, ?_⟩
  · exact (hqueries .empty q q' hq (halike _)).1 convert
  · exact hsaves _ _ hbatches (halike _)
  · decide +kernel

end Relational

end EntityStore
