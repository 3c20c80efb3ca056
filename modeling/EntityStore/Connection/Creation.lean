import EntityStore.Connection.Session
import EntityStore.Connection.Retry
import EntityStore.Sql.Definition

/-!
# Creating databases

A database is created if it is missing and then opened, to see that it can be. What fails for a
passing reason is tried again. Tables are created in one transaction if the database has none.
-/

namespace EntityStore.Connection

variable {σ : Type} (c : Connection σ)

/-- Creates the database if it is missing and opens a connection to it. Whether the database has
been created, now or before, is kept also when the opening fails. -/
def probe (created : Bool) : Run σ (Except StoreError Unit × Bool) := do
  match ← Run.attempt (Run.call .probeDatabase c.databaseExists) with
  | .error e => return (.error e, created)
  | .ok true =>
    let opened ← Run.attempt c.start
    return (opened, created)
  | .ok false =>
    match ← Run.attempt (Run.call .createDatabase c.createDatabase) with
    | .error e => return (.error e, created)
    | .ok () =>
      let opened ← Run.attempt c.start
      return (opened, true)

/-- Attempts, as many as are left. The policy never asks for more attempts than its limit. -/
def createWith : Nat → RetryState → Bool → Run σ Bool
  | 0, _, _ => throw (.invalidArgument "attempts" "no attempt is left")
  | left + 1, state, created => do
    let state := state.beginAttempt
    let (outcome, created) ← c.probe created
    let (step, state, events) := state.next outcome
    Run.log events
    match step with
    | .done () => return created
    | .fail e =>
      c.close
      throw e
    | .wait delay =>
      c.close
      Run.wait delay
      createWith left state created

/-- Makes sure that the database exists and can be opened; the connection stays open. Says whether
the database was created. -/
def create (retry : RetryConfig) : Run σ Bool :=
  c.createWith retry.attemptLimit (RetryState.start retry) false

/-- Creates the tables of some roots. After a failure the transaction is rolled back, and a failure
of that takes the place of the first one. -/
def createTablesOf (s : Schema) (sensitive : Bool) : List EntityType → Run σ Unit
  | [] => return ()
  | root :: rest => do
    let statement := s.createTable root.id
    match statement with
    | .error e =>
      Run.call .rollback c.rollback
      throw (.schema e)
    | .ok sql =>
      match ← Run.attempt (c.run sensitive sql []) with
      | .error e =>
        Run.call .rollback c.rollback
        throw e
      | .ok _ => createTablesOf s sensitive rest

def createTables (s : Schema) (sensitive : Bool) (databaseCreated : Bool) : Run σ Bool := do
  let present ←
    if databaseCreated then pure false else Run.call .probeTables c.hasTables
  if present then return false
  c.startTransaction
  c.createTablesOf s sensitive s.roots
  Run.call .commit c.commit
  let database ← c.databaseName
  Run.log [.info "created tables" [("database", database)]]
  return true

def ensureCreated (s : Schema) (options : StoreOptions) : Run σ Bool := do
  let created ← c.create options.retry
  let outcome ← Run.attempt (c.createTables s options.sensitiveLogging created)
  c.close
  Run.ofExcept outcome

def ensureDeleted : Run σ Bool := do
  let present ← Run.call .probeDatabase c.databaseExists
  if present then
    c.close
    Run.call .deleteDatabase c.deleteDatabase
    return true
  else return false

end EntityStore.Connection
