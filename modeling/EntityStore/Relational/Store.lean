import EntityStore.Connection.Transaction
import EntityStore.Connection.Creation
import EntityStore.Plan
import EntityStore.Store.Basic

/-!
# Relational stores

A store over connections to a database. Every operation gets a connection of its own and closes it
before it returns.
-/

namespace EntityStore.Relational

/-- A query as SQL text, with the names of the parameters that it binds. -/
structure CompiledQuery where
  sql : SqlText
  shape : ResultShape
deriving DecidableEq

def CompiledQuery.bind (q : CompiledQuery) (parameters : Parameters) :
    Except StoreError (List Value) :=
  q.sql.parameterNames.mapM parameters.value

def compile (s : Schema) (store : String) (q : Query) : Compilation CompiledQuery :=
  match Plan.ofQuery s q with
  | .error e => ⟨.error e, []⟩
  | .ok plan =>
    let sql := plan.select.render
    ⟨.ok { sql := sql, shape := plan.shape },
      [.debug "compiled query" [("store", store), ("sql", sql.text)]]⟩

variable {σ : Type} (c : Connection σ)

def runOpen (sensitive : Bool) (mode : Mode) (q : CompiledQuery) (parameters : Parameters) :
    Run σ (List Row) := do
  c.checkCancelled mode
  let values ← Run.ofExcept (q.bind parameters)
  c.rows mode sensitive q.sql.text values

def run (sensitive : Bool) (mode : Mode) (q : CompiledQuery) (parameters : Parameters) :
    Run σ (List Row) := do
  c.checkCancelled mode
  c.renew
  c.start
  let outcome ← Run.attempt (runOpen c sensitive mode q parameters)
  c.close
  Run.ofExcept outcome

def save (s : Schema) (options : StoreOptions) (mode : Mode) (entries : List PendingEntry) :
    Run σ Nat := do
  let batches ← Run.ofExcept (Batches.ofEntries s options entries)
  c.renew
  c.save mode options.sensitiveLogging batches

def backend (name : String) (s : Schema) (options : StoreOptions) : Backend σ CompiledQuery :=
  { name := name
    isCancelled := c.isCancelled
    compile := compile s name
    shapeOf := (·.shape)
    run := run c options.sensitiveLogging
    save := save c s options }

def databaseExists : Run σ Bool := do
  c.renew
  Run.call .probeDatabase c.databaseExists

def creationOperation : Mode → String
  | .plain => "ensure_created"
  | .cancellable => "ensure_created_async"

def ensureCreated (name : String) (s : Schema) (options : StoreOptions) (mode : Mode) :
    Run σ Bool :=
  Run.logged name (creationOperation mode) (do
    c.renew
    c.ensureCreated s options)

def ensureDeleted (name : String) : Run σ Bool :=
  Run.logged name "ensure_deleted" (do
    c.renew
    c.ensureDeleted)

end EntityStore.Relational
