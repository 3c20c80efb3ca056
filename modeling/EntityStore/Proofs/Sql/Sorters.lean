import EntityStore.Proofs.Sorting
import EntityStore.Sql.Evaluation

/-!
# Evaluation by any sorting procedure

The only step of an evaluation that depends on how the bindings are sorted is the one that sorts them. A
procedure that gives up ends the evaluation there.
-/

namespace EntityStore.Select

variable (sorter : Sorter)

def sortBindingsBy (orderBy : List SqlOrder) (parameters : Parameters) (bindings : List Binding) :
    Except StoreError (Option (List Binding)) :=
  if orderBy.isEmpty then .ok (some bindings)
  else do
    let keyed ← bindings.mapM (fun b => do
      let keys ← orderBy.mapM (fun o => o.expr.eval parameters b)
      return (keys, b))
    let directions := orderBy.map (·.direction)
    let sorted := sorter.sort (fun x y => compareKeys directions x.1 y.1 == .lt) keyed
    return sorted.map (·.map (·.2))

/-- The rows of a statement; none if the sort gives up. -/
def evaluateBy (s : Select) (parameters : Parameters) (tables : TableContents) :
    Except StoreError (Option (List (List Value))) := do
  let bindings ← s.candidates parameters tables
  let bindings ← keep s.predicate parameters bindings
  let sorted ← sortBindingsBy sorter s.orderBy parameters bindings
  sorted.mapM (fun bindings => (page s.offset s.limit bindings).mapM (s.projectRow parameters))

theorem sortBindingsBy_insertion (orderBy : List SqlOrder) (parameters : Parameters) (bindings : List Binding) :
    sortBindingsBy .insertion orderBy parameters bindings =
      (sortBindings orderBy parameters bindings).map some := by
  unfold sortBindingsBy sortBindings
  split
  · rfl
  · simp only [Sorter.sort_insertion]
    generalize (bindings.mapM _ : Except StoreError (List (List Value × Binding))) = keyed
    cases keyed with
    | error e => rfl
    | ok keyed => rfl

/-- The evaluation is the one by insertion sort. -/
theorem evaluateBy_insertion (s : Select) (parameters : Parameters) (tables : TableContents) :
    s.evaluateBy .insertion parameters tables = (s.evaluate parameters tables).map some := by
  unfold evaluateBy evaluate
  simp only [sortBindingsBy_insertion]
  cases s.candidates parameters tables with
  | error e => rfl
  | ok bindings =>
    change (keep s.predicate parameters bindings >>= _) = Except.map some (keep s.predicate parameters bindings >>= _)
    cases keep s.predicate parameters bindings with
    | error e => rfl
    | ok bindings =>
      change (Except.map some (sortBindings s.orderBy parameters bindings) >>= _) =
        Except.map some (sortBindings s.orderBy parameters bindings >>= _)
      cases sortBindings s.orderBy parameters bindings with
      | error e => rfl
      | ok bindings => rfl

end EntityStore.Select
