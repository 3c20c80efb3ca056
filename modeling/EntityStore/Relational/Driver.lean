import EntityStore.Relational.Store

/-!
# Drivers

A driver is a connection that can be awaited. An embedded engine has nothing to wait for and answers
asynchronous requests like the others. Operations that await their connection open it and run
statements and queries on it in the asynchronous way; all else they ask of it directly.
-/

namespace EntityStore

structure Driver (σ : Type) extends Connection σ where
  openAsync : σ → Reply σ Unit := openLink
  executeAsync : String → List Value → σ → Reply σ UInt64 := execute
  queryAsync : String → List Value → σ → Reply σ RowSource := query

namespace Driver

variable {σ : Type} (d : Driver σ)

def embedded (c : Connection σ) : Driver σ := { c with }

def awaiting : Connection σ :=
  { d.toConnection with openLink := d.openAsync, execute := d.executeAsync, query := d.queryAsync }

/-- The connection as the operations of a mode use it. -/
def forMode : Mode → Connection σ
  | .plain => d.toConnection
  | .cancellable => d.awaiting

/-- Creates whatever is missing and closes the connection. Only the database can be awaited, its
tables are always created directly. -/
def ensureCreated (mode : Mode) (s : Schema) (options : StoreOptions) : Run σ Bool := do
  let created ← (d.forMode mode).create options.retry
  let outcome ← Run.attempt (d.createTables s options.sensitiveLogging created)
  d.close
  Run.ofExcept outcome

end Driver

namespace Relational

variable {σ : Type} (d : Driver σ)

def backendOver (name : String) (s : Schema) (options : StoreOptions) : Backend σ CompiledQuery :=
  { backend d.toConnection name s options with
    run := fun mode => run (d.forMode mode) options.sensitiveLogging mode
    save := fun mode => save (d.forMode mode) s options mode }

def ensureCreatedOver (name : String) (s : Schema) (options : StoreOptions) (mode : Mode) :
    Run σ Bool :=
  Run.logged name (creationOperation mode) (do
    d.renew
    d.ensureCreated mode s options)

end Relational

end EntityStore
