import EntityStore.Proofs.Query.Entities
import EntityStore.Proofs.Result.Sequence
import EntityStore.Proofs.Store.Cache
import EntityStore.Proofs.Store.Saves
import EntityStore.Memory.Store

/-!
# Results of an in-memory store

What a caller gets who runs a query and pulls all its results. For the entities of a type they are
made of the records of the type one by one, up to the first that cannot be materialized.
-/

namespace EntityStore.Memory

open Traversal Reading Results

/-- The results of a query for a caller who has not given up, in a store that has not compiled the
query before. -/
def results (name : String) (s : Schema) (mode : Mode) (db : MemoryDatabase) (q : Query) :
    Except StoreError (List (Except StoreError Entity)) :=
  let session := Session.ofState (State.mk db false)
  let outcome := (((Store.ofBackend (backend name s)).query mode q).1.run session).1
  outcome.map (·.items Materialized.asEntity)

theorem run_checkCancelled_of_not_cancelled {name : String} {s : Schema} (mode : Mode)
    {session : Session State} (h : session.state.isCancelled = false) :
    (backend name s).checkCancelled mode session = (.ok (), session) := by
  have hnot : (backend name s).isCancelled session.state = false := h
  rw [Backend.run_checkCancelled, hnot]
  simp

theorem run_runCompiled (name : String) (s : Schema) (mode : Mode) (operation : String)
    (compilation : Compilation Plan) (parameters : Parameters) {session : Session State}
    (h : session.state.isCancelled = false) :
    ((backend name s).runCompiled mode operation compilation parameters session).1 = (do
      let plan ← compilation.result
      let rows ← session.state.database.evaluate plan.select parameters
      return (Results.ofRows rows plan.shape).loggedAs name operation) := by
  rw [Backend.runCompiled, Run.run_bind, Run.run_log]
  simp only [Run.run_bind, Run.run_ofExcept]
  cases compilation.result with
  | error e => rfl
  | ok plan =>
    have hrun : ∀ session : Session State, (backend name s).run mode plan parameters session =
        (session.state.database.evaluate plan.select parameters, session) := by
      intro session
      change (Run.state >>= fun state => Run.ofExcept (state.database.evaluate plan.select parameters))
        session = _
      rw [Run.run_bind, Run.run_state]
      exact Run.run_ofExcept _ session
    have hcheck : ∀ events, (backend name s).checkCancelled mode { session with events := events } =
        (.ok (), { session with events := events }) :=
      fun events => run_checkCancelled_of_not_cancelled mode h
    simp only [hcheck, hrun, ok_bind]
    cases session.state.database.evaluate plan.select parameters with
    | error e => rfl
    | ok rows =>
      simp only [hcheck]
      split <;> rfl

theorem results_eq (name : String) (s : Schema) (mode : Mode) (db : MemoryDatabase) (q : Query) :
    results name s mode db q = (do
      let plan ← Plan.ofQuery s q
      let rows ← db.evaluate plan.select q.parameters
      return upToFailure (rows.map (itemOf plan.shape Materialized.asEntity))) := by
  have hfresh : ((Store.ofBackend (backend name s)).compiled q).1.result = Plan.ofQuery s q := by
    change (QueryCache.empty.getOrAdd q.fingerprint ((backend name s).compile q)).1.result = _
    rw [QueryCache.getOrAdd_fst]
    change (compile s name q).result = _
    unfold compile
    cases Plan.ofQuery s q <;> rfl
  have hstate : (Session.ofState (State.mk db false)).state.isCancelled = false := rfl
  have houtcome : (((Store.ofBackend (backend name s)).query mode q).1
      (Session.ofState (State.mk db false))).1 = _ :=
    (Run.outcome_logged _ _ _ _).trans (run_runCompiled name s mode (Backend.queryOperation mode)
      ((Store.ofBackend (backend name s)).compiled q).1 q.parameters hstate)
  rw [hfresh] at houtcome
  change Except.map _ (((Store.ofBackend (backend name s)).query mode q).1 _).1 = _
  rw [houtcome]
  cases Plan.ofQuery s q with
  | error e => rfl
  | ok plan =>
    simp only [ok_bind]
    change Except.map _ (db.evaluate plan.select q.parameters >>= _) = _
    cases db.evaluate plan.select q.parameters with
    | error e => rfl
    | ok rows =>
      have hitems := items_eq (r := (Results.ofRows rows plan.shape).loggedAs name
        (Backend.queryOperation mode)) rfl Materialized.asEntity
      exact congrArg Except.ok hitems

theorem exists_plan_of_results {name : String} {s : Schema} {mode : Mode} {db : MemoryDatabase} {q : Query}
    {items : List (Except StoreError Entity)} (h : results name s mode db q = .ok items) :
    ∃ plan, Plan.ofQuery s q = .ok plan := by
  rw [results_eq] at h
  obtain ⟨plan, hplan, -⟩ := bind_eq_ok_iff.1 h
  exact ⟨plan, hplan⟩

def recordsOf (s : Schema) (db : MemoryDatabase) (id : TypeId) : List Record :=
  (records s db.rows (entitySource id)).filter (isRecordOf s id)

theorem itemOf_entity (m : Materializer) (row : Row) :
    itemOf (.entity m) Materialized.asEntity row = m.materialize row := by
  rw [itemOf, ResultShape.shape]
  cases m.materialize row <;> rfl

theorem results_entities {s : Schema} {id : TypeId} {plan : Plan}
    (h : Plan.ofQuery s (Query.entities id) = .ok plan) :
    ∃ m, ReadsSource s (selected s (Query.entities id)) ⟨0⟩ id m ∧
      ∀ name mode db, results name s mode db (Query.entities id) =
        .ok (upToFailure ((recordsOf s db id).map (fun r => m.materialize (entityRow s id r)))) := by
  have hplanned := planned_ofQuery h
  obtain ⟨select, shape⟩ := plan
  obtain ⟨m, rfl, hm⟩ : ∃ m, shape = .entity m ∧
      ReadsSource s (selected s (Query.entities id)) ⟨0⟩ id m := by
    cases hplanned.shape with
    | entity hany =>
      obtain ⟨id', hid, hm⟩ := hany
      cases hid
      exact ⟨_, rfl, hm⟩
  refine ⟨m, hm, ?_⟩
  intro name mode db
  have hrows := hplanned.evaluate_of_scoped (scoped_entities id) (supplied_entities id) db
  rw [rows_entities] at hrows
  rw [results_eq, h, ok_bind, hrows, ok_bind, List.map_map]
  simp only [Function.comp_def, itemOf_entity]
  rfl

theorem results_congr {s : Schema} {id : TypeId} {db db' : MemoryDatabase}
    (h : recordsOf s db id = recordsOf s db' id) (name : String) (mode : Mode) :
    results name s mode db (Query.entities id) = results name s mode db' (Query.entities id) := by
  cases hplan : Plan.ofQuery s (Query.entities id) with
  | error e => rw [results_eq, results_eq, hplan]; rfl
  | ok plan =>
    obtain ⟨m, -, hresults⟩ := results_entities hplan
    rw [hresults, hresults, h]

end EntityStore.Memory
