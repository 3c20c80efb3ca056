import EntityStore.Connection.Call
import EntityStore.Log
import EntityStore.Result.Materializer

/-!
# Connections and sessions

A connection to a database is a state machine: a request is answered, or fails, and leads to a new
state. A session runs requests one after the other and keeps the calls that were made, with the waits
between them, and the events that were logged, also when it ends in a failure.
-/

namespace EntityStore

structure Reply (σ α : Type) where
  result : Except StoreError α
  state : σ
  events : List LogEvent

/-- The rows that a query delivers, and the failure it ends in, if it does. -/
structure RowSource where
  rows : List Row
  failure : Option StoreError

/-- A connection by its answers. The state also knows whether the caller has given up. -/
structure Connection (σ : Type) where
  /-- A new, closed connection in place of the current one. -/
  connect : σ → σ
  /-- The name of the database, for messages. -/
  database : σ → String
  isOpen : σ → Bool
  isCancelled : σ → Bool
  openLink : σ → Reply σ Unit
  closeLink : σ → Reply σ Unit
  beginTransaction : σ → Reply σ Unit
  commit : σ → Reply σ Unit
  rollback : σ → Reply σ Unit
  databaseExists : σ → Reply σ Bool
  hasTables : σ → Reply σ Bool
  createDatabase : σ → Reply σ Unit
  deleteDatabase : σ → Reply σ Unit
  /-- Runs a statement and gives the number of affected rows. -/
  execute : String → List Value → σ → Reply σ UInt64
  query : String → List Value → σ → Reply σ RowSource
  /-- A row of a query is about to be handed over. -/
  deliver : σ → σ

structure Session (σ : Type) where
  state : σ
  /-- Every call and every wait, in order. -/
  trace : List Call
  events : List LogEvent

def Session.ofState (state : σ) : Session σ :=
  { state := state, trace := [], events := [] }

/-- The calls that did something. -/
def Session.calls {σ : Type} (session : Session σ) : List Call := session.trace.filter Call.hasEffect

/-- Whether an operation looks at the caller's cancellation. -/
inductive Mode
  | plain
  | cancellable
deriving DecidableEq

/-- A program over a session. -/
abbrev Run (σ : Type) := ExceptT StoreError (StateM (Session σ))

namespace Run

variable {σ α : Type}

def ofExcept : Except StoreError α → Run σ α
  | .ok a => pure a
  | .error e => throw e

def attempt (r : Run σ α) : Run σ (Except StoreError α) :=
  fun session => match r.run session with
    | (outcome, session) => (.ok outcome, session)

def state : Run σ σ := do
  let session ← get
  return session.state

def log (events : List LogEvent) : Run σ Unit :=
  modify (fun session => { session with events := session.events ++ events })

def record (call : Call) : Run σ Unit :=
  modify (fun session => { session with trace := session.trace ++ [call] })

def wait (milliseconds : Nat) : Run σ Unit := record (.wait milliseconds)

def request (f : σ → Reply σ α) : Run σ α := do
  let session ← get
  let reply := f session.state
  set { session with state := reply.state, events := session.events ++ reply.events }
  ofExcept reply.result

def call (c : Call) (f : σ → Reply σ α) : Run σ α := do
  record c
  request f

/-- Logs the failure of an operation of a store before it is handed to the caller. -/
def logged (store operation : String) (r : Run σ α) : Run σ α := do
  match ← attempt r with
  | .ok a => return a
  | .error e =>
    log [.failure store operation e]
    throw e

end Run

namespace Connection

variable {σ : Type} (c : Connection σ)

/-- Fails once the caller has given up, if the operation looks at that. -/
def checkCancelled (mode : Mode) : Run σ Unit := do
  let s ← Run.state
  if mode = .cancellable ∧ c.isCancelled s then throw .cancelled

def renew : Run σ Unit := do
  Run.record .connect
  modify (fun session => { session with state := c.connect session.state })

def openNow : Run σ Bool := do
  let s ← Run.state
  return c.isOpen s

def databaseName : Run σ String := do
  let s ← Run.state
  return c.database s

def start : Run σ Unit := Run.call .openLink c.openLink

/-- Closes the connection, which cannot fail. -/
def close : Run σ Unit := do
  let wasOpen ← c.openNow
  discard (Run.attempt (Run.call (.closeLink wasOpen) c.closeLink))

def startTransaction : Run σ Unit := Run.call .beginTransaction c.beginTransaction

def run (sensitive : Bool) (sql : String) (parameters : List Value) : Run σ UInt64 := do
  let database ← c.databaseName
  Run.log [.command database sql parameters sensitive]
  Run.call (.execute sql parameters) (c.execute sql parameters)

def collect (mode : Mode) : List Row → Run σ (List Row)
  | [] => return []
  | row :: rest => do
    modify (fun session => { session with state := c.deliver session.state })
    c.checkCancelled mode
    let rows ← collect mode rest
    return row :: rows

def rows (mode : Mode) (sensitive : Bool) (sql : String) (parameters : List Value) :
    Run σ (List Row) := do
  let database ← c.databaseName
  Run.log [.command database sql parameters sensitive]
  let source ← Run.call (.query sql parameters) (c.query sql parameters)
  let rows ← c.collect mode source.rows
  match source.failure with
  | none => return rows
  | some e => throw e

end Connection

end EntityStore
