import EntityStore.Memory.Database
import EntityStore.Plan
import EntityStore.Store.Basic

/-!
# In-memory stores

A store over an in-memory database. Its queries are evaluated as they are planned.
-/

namespace EntityStore.Memory

structure State where
  database : MemoryDatabase
  isCancelled : Bool

def compile (s : Schema) (store : String) (q : Query) : Compilation Plan :=
  match Plan.ofQuery s q with
  | .ok plan => ⟨.ok plan, [.debug "compiled in-memory query" [("store", store)]]⟩
  | .error e => ⟨.error e, []⟩

def run (plan : Plan) (parameters : Parameters) : Run State (List Row) := do
  let state ← Run.state
  Run.ofExcept (state.database.evaluate plan.select parameters)

def apply (commands : List Command) : Run State Nat := do
  let session ← get
  match session.state.database.apply commands with
  | .error e => throw e
  | .ok (affected, database) =>
    set { session with state := { session.state with database := database } }
    return affected

def save (s : Schema) (entries : List PendingEntry) : Run State Nat := do
  let commands ← Run.ofExcept (entries.mapM (Command.ofEntry s))
  apply commands

def backend (name : String) (s : Schema) : Backend State Plan :=
  { name := name
    isCancelled := (·.isCancelled)
    compile := compile s name
    shapeOf := (·.shape)
    run := fun _ => run
    save := fun _ => save s }

def ensureCreated (s : Schema) : Run State Bool := do
  let session ← get
  let (database, created) := session.state.database.createTables s
  set { session with state := { session.state with database := database } }
  Run.log (database.createdEvents created)
  return created

def ensureDeleted : Run State Bool := do
  let session ← get
  set { session with state := { session.state with database := .empty } }
  return session.state.database.tables.size != 0

end EntityStore.Memory
