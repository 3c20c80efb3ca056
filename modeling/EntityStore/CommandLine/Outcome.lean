import EntityStore.CommandLine.Arguments
import EntityStore.Engine.Link
import EntityStore.Relational.Store
import EntityStore.Schema.Document

/-!
# What a command does

The effect of a command on a disk: what it prints, how it exits and which disk it leaves.
-/

namespace EntityStore.CommandLine

open EntityStore.Engine (Disk Link)

structure Outcome where
  code : Nat
  output : List String
  /-- Failures, each to be printed after `Error: `. -/
  errors : List String
  disk : Disk

def failed (disk : Disk) (code : Nat) (message : String) : Outcome :=
  { code := code, output := [], errors := [message], disk := disk }

def printed (disk : Disk) (line : String) : Outcome :=
  { code := 0, output := [line], errors := [], disk := disk }

def quoted (path : String) : String := "'" ++ path ++ "'"

def loadSchema (disk : Disk) (path : String) : Except String Schema :=
  match disk.readText path with
  | .error fault => .error ("failed to read model file " ++ quoted path ++ ": " ++ fault.message)
  | .ok text =>
    let invalid (reason : String) : Except String Schema :=
      .error ("invalid model file " ++ quoted path ++ ": " ++ reason)
    match SchemaDef.ofText? text with
    | none => invalid "not a model document"
    | some d =>
      match Schema.ofDef d with
      | .error e => invalid e.message
      | .ok s => .ok s

/-- Runs an operation of a store on the disk. -/
def onDisk (disk : Disk) (path : String) (r : Run Link α) : Except StoreError α × Disk :=
  let (outcome, session) := r.run (Session.ofState (Link.ofPath disk path))
  (outcome, session.state.disk)

def createOutcome (db : String) : Except StoreError Bool × Disk → Outcome
  | (.ok true, disk) => printed disk ("created " ++ quoted db)
  | (.ok false, disk) => printed disk (quoted db ++ " is up to date")
  | (.error e, disk) => failed disk 1 ("failed to create " ++ quoted db ++ ": " ++ e.message)

def dropOutcome (db : String) : Except StoreError Bool × Disk → Outcome
  | (.ok true, disk) => printed disk ("deleted " ++ quoted db)
  | (.ok false, disk) => printed disk (quoted db ++ " does not exist")
  | (.error e, disk) => failed disk 1 ("failed to delete " ++ quoted db ++ ": " ++ e.message)

def printRows (disk : Disk) (shape : ResultShape) : List Row → Outcome
  | [] => { code := 0, output := [], errors := [], disk := disk }
  | row :: rest =>
    match shape.shape row with
    | .error e => failed disk 1 e.message
    | .ok m =>
      let after := printRows disk shape rest
      { after with output := m.toJson.text :: after.output }

def queryOutcome : Except StoreError Results × Disk → Outcome
  | (.ok results, disk) => printRows disk results.shape results.rows
  | (.error e, disk) => failed disk 1 ("query failed: " ++ e.message)

def queryFor (s : Schema) (entity : String) (orderBy : Option String) (take : Option UInt64) :
    Except SchemaError Query := do
  let t ← s.entityTypeByName entity
  let query := Query.entities t.id
  let query ← match orderBy with
    | none => pure query
    | some property => do
      discard (s.property t.id property)
      pure (query.orderBy (.property query.rootSource property) .ascending)
  match take with
  | none => return query
  | some n => return query.take n

def perform (options : StoreOptions) (disk : Disk) : Invocation → Outcome
  | .create db model =>
    match loadSchema disk model with
    | .error message => failed disk 3 message
    | .ok s =>
      createOutcome db
        (onDisk disk db (Relational.ensureCreated Link.connection db s options .plain))
  | .drop db model =>
    match loadSchema disk model with
    | .error message => failed disk 3 message
    | .ok _ => dropOutcome db (onDisk disk db (Relational.ensureDeleted Link.connection db))
  | .query db model entity orderBy take =>
    match loadSchema disk model with
    | .error message => failed disk 3 message
    | .ok s =>
      match queryFor s entity orderBy take with
      | .error e => failed disk 2 e.message
      | .ok query =>
        let store := Store.ofBackend (Relational.backend Link.connection db s options)
        queryOutcome (onDisk disk db (store.query .plain query).1)

/-- Runs the command that the arguments ask for; refused arguments do nothing. -/
def run (environment : String → Option String) (disk : Disk) (arguments : List String) : Outcome :=
  match Invocation.ofArguments? arguments with
  | none => { code := 2, output := [], errors := [], disk := disk }
  | some invocation => perform (StoreOptions.ofEnvironment environment) disk invocation

end EntityStore.CommandLine
