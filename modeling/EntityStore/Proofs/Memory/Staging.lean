import EntityStore.Memory.Database
import EntityStore.Proofs.OrderedMap
import EntityStore.Proofs.Traversal

/-!
# Staged changes

Commands that are applied to copies of tables, which are swapped in at the end, leave the database
that results from applying them to the tables themselves, one after the other. This holds for every
order in which the tables are named, and up to a failure at any place.
-/

namespace EntityStore.MemoryDatabase

open Traversal

def applyCommand (db : MemoryDatabase) (c : Command) : Except StoreError MemoryDatabase := do
  let t ← applyToTable c (db.table c.table)
  return db.putTable c.table t

theorem table_swapIn (db : MemoryDatabase) (staged : OrderedMap String Table) (name : String) :
    (db.swapIn staged).table name = (staged.get? name).getD (db.table name) := by
  rw [table, swapIn, OrderedMap.get?_override]
  cases staged.get? name <;> rfl

theorem swapIn_insert (db : MemoryDatabase) (staged : OrderedMap String Table) (name : String) (t : Table) :
    db.swapIn (staged.insert name t) = (db.swapIn staged).putTable name t :=
  congrArg MemoryDatabase.mk (OrderedMap.override_insert _ staged name t)

theorem applyCommand_swapIn (db : MemoryDatabase) (staged : OrderedMap String Table) (c : Command) :
    (db.swapIn staged).applyCommand c = db.swapIn <$> db.stage staged c := by
  rw [applyCommand, stage, table_swapIn]
  cases applyToTable c ((staged.get? c.table).getD (db.table c.table)) with
  | error e => rfl
  | ok t => exact congrArg Except.ok (swapIn_insert db staged c.table t).symm

theorem foldlM_applyCommand_swapIn (db : MemoryDatabase) (commands : List Command)
    (staged : OrderedMap String Table) :
    commands.foldlM applyCommand (db.swapIn staged) =
      db.swapIn <$> commands.foldlM db.stage staged := by
  induction commands generalizing staged with
  | nil => rfl
  | cons c commands ih =>
    rw [List.foldlM_cons, List.foldlM_cons, applyCommand_swapIn db staged]
    cases hstage : db.stage staged c with
    | error e => rfl
    | ok staged' => exact ih staged'

/-- A list of commands is applied as if it were applied to the tables themselves. -/
theorem apply_eq (db : MemoryDatabase) (commands : List Command) :
    db.apply commands = (fun db' => (commands.length, db')) <$> commands.foldlM applyCommand db := by
  have hfold : commands.foldlM applyCommand db = db.swapIn <$> commands.foldlM db.stage .empty :=
    foldlM_applyCommand_swapIn db commands .empty
  rw [hfold, apply]
  cases commands.foldlM db.stage .empty <;> rfl

end EntityStore.MemoryDatabase
