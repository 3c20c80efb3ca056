import EntityStore.Save.Command
import EntityStore.Sql.Evaluation
import EntityStore.Log

/-!
# In-memory databases

Tables of records under their keys. A list of commands is applied as a whole or not at all.
-/

namespace EntityStore

/-- The records of a table under their keys, in the order of insertion. -/
abbrev Table := OrderedMap EntityKey Record

structure MemoryDatabase where
  tables : OrderedMap String Table
deriving Inhabited

namespace MemoryDatabase

def empty : MemoryDatabase := ⟨.empty⟩

/-- The table under a name; one that does not exist counts as empty. -/
def table (db : MemoryDatabase) (name : String) : Table := (db.tables.get? name).getD .empty

def putTable (db : MemoryDatabase) (name : String) (t : Table) : MemoryDatabase :=
  ⟨db.tables.insert name t⟩

def rows (db : MemoryDatabase) (name : String) : List Record := (db.table name).values

def tableNames (db : MemoryDatabase) : List String :=
  db.tables.keys.mergeSort (fun a b => decide (a ≤ b))

def createTables (db : MemoryDatabase) (s : Schema) : MemoryDatabase × Bool :=
  (s.roots.map Schema.tableOf).foldl (fun (db, created) name =>
    if db.tables.contains name then (db, created) else (db.putTable name .empty, true))
    (db, false)

def createdEvents (db : MemoryDatabase) (created : Bool) : List LogEvent :=
  if created then
    [.info "created in-memory tables" [("tables", toString db.tables.size)]]
  else []

def insertedRecord (c : Command) : Record :=
  .ofList (c.writeColumns.map (fun w => (w.column, w.value)))

def updatedRecord (c : Command) (r : Record) : Record :=
  c.writeColumns.foldl (fun r w => r.insert w.column w.value) r

def missingRow (c : Command) : StoreError := .concurrencyConflict c.state.name c.table 0

def applyToTable (c : Command) (t : Table) : Except StoreError Table :=
  match c.state, t.get? c.key with
  | .added, some _ => .error (.duplicateKey c.table (Value.inspectList c.key))
  | .added, none => .ok (t.insert c.key (insertedRecord c))
  | .modified, some r => .ok (t.insert c.key (updatedRecord c r))
  | .deleted, some _ => .ok (t.erase c.key)
  | .modified, none | .deleted, none => .error (missingRow c)

/-- Applies a command to the copy of its table, which is taken when the table is first named. -/
def stage (db : MemoryDatabase) (staged : OrderedMap String Table) (c : Command) :
    Except StoreError (OrderedMap String Table) := do
  let t ← applyToTable c ((staged.get? c.table).getD (db.table c.table))
  return staged.insert c.table t

def swapIn (db : MemoryDatabase) (staged : OrderedMap String Table) : MemoryDatabase :=
  ⟨db.tables.override staged⟩

/-- Applies commands one after the other to copies, which are swapped in once all have passed. The
number of affected rows is that of the commands. -/
def apply (db : MemoryDatabase) (commands : List Command) :
    Except StoreError (Nat × MemoryDatabase) := do
  let staged ← commands.foldlM db.stage .empty
  return (commands.length, db.swapIn staged)

def evaluate (db : MemoryDatabase) (select : Select) (parameters : Parameters) :
    Except StoreError (List (List Value)) :=
  select.evaluate parameters db.rows

end MemoryDatabase

end EntityStore
