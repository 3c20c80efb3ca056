import EntityStore.Schema.Error

/-!
# Store errors

Every way in which an operation of a store can fail, and the classes that callers act on:
transient failures may be tried again, a cancellation is no failure.
-/

namespace EntityStore

inductive ConnectionFault
  | serverUnavailable
  | timeout
  | databaseUnavailable
  | authentication
  | other
deriving DecidableEq

namespace ConnectionFault

def isTransient : ConnectionFault → Bool
  | .serverUnavailable | .timeout | .databaseUnavailable => true
  | .authentication | .other => false

def message : ConnectionFault → String
  | .serverUnavailable => "server unavailable"
  | .timeout => "timeout"
  | .databaseUnavailable => "database unavailable"
  | .authentication => "authentication failed"
  | .other => "connection failed"

end ConnectionFault

inductive EngineFault
  | busy
  | locked
  | cannotOpen
  | other
deriving DecidableEq

namespace EngineFault

/-- The low byte of a result code is its class. -/
def ofCode (code : Nat) : EngineFault :=
  match code % 256 with
  | 5 => .busy
  | 6 => .locked
  | 14 => .cannotOpen
  | _ => .other

def isTransient : EngineFault → Bool
  | .busy | .locked | .cannotOpen => true
  | .other => false

end EngineFault

inductive StoreError
  | schema (e : SchemaError)
  | engine (fault : EngineFault) (message : String)
  | connection (database : String) (fault : ConnectionFault) (message : String)
  | connectionClosed (database : String)
  | unableToDiscriminate (entityType value : String)
  | invalidArgument (name reason : String)
  | cancelled
  | concurrencyConflict (operation table : String) (affected : Nat)
  | duplicateKey (table key : String)
  | circularDependency (reason : String)
  | queryRejected (reason : String)
  | retryLimitExceeded (attempts : Nat) (last : StoreError)
deriving DecidableEq

namespace StoreError

def message : StoreError → String
  | .schema e => e.message
  | .engine _ message => "sqlite error: " ++ message
  | .connection database fault message =>
    fault.message ++ " while connecting to '" ++ database ++ "': " ++ message
  | .connectionClosed database => "connection to '" ++ database ++ "' is not open"
  | .unableToDiscriminate entityType value =>
    "unable to materialize entity of type '" ++ entityType ++ "': discriminator value " ++ value ++
      " matches no known subtype"
  | .invalidArgument name reason => "invalid argument '" ++ name ++ "': " ++ reason
  | .cancelled => "operation was cancelled"
  | .concurrencyConflict operation table affected =>
    "concurrency conflict: " ++ operation ++ " on '" ++ table ++ "' expected 1 row, affected " ++
      toString affected
  | .duplicateKey table key => "duplicate key " ++ key ++ " in table '" ++ table ++ "'"
  | .circularDependency reason =>
    "circular dependency between pending changes: " ++ reason
  | .queryRejected reason => "query translation failed: " ++ reason
  | .retryLimitExceeded attempts last =>
    "gave up after " ++ toString attempts ++ " attempt(s): " ++ last.message

/-- Failures that are expected to clear up on their own. -/
def isTransient : StoreError → Bool
  | .connection _ fault _ => fault.isTransient
  | .engine fault _ => fault.isTransient
  | _ => false

def isCancelled : StoreError → Bool
  | .cancelled => true
  | _ => false

end StoreError

instance : MonadLift (Except SchemaError) (Except StoreError) where
  monadLift := fun r => match r with
    | .ok a => .ok a
    | .error e => .error (.schema e)

end EntityStore
