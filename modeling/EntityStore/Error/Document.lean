import EntityStore.Error
import EntityStore.Json.Reader

/-!
# Documents of failures

A failure is written as its kind and its message. An outcome is the result under `ok`, or a
failure.
-/

namespace EntityStore

def SchemaError.kind : SchemaError → String
  | .duplicateEntityType _ => "DuplicateEntityType"
  | .entityTypeNotFound _ => "EntityTypeNotFound"
  | .entityTypeNameNotFound _ => "EntityTypeNameNotFound"
  | .propertyNotFound _ _ => "PropertyNotFound"
  | .querySourceNotFound _ => "QuerySourceNotFound"
  | .invalidHierarchy _ _ => "InvalidHierarchy"
  | .duplicateDiscriminator _ _ => "DuplicateDiscriminator"
  | .typeMismatch _ _ => "TypeMismatch"
  | .resultShape _ => "ResultShape"

namespace StoreError

def kind : StoreError → String
  | .schema e => e.kind
  | .engine _ _ => "Sqlite"
  | .connection _ _ _ => "Connection"
  | .connectionClosed _ => "ConnectionClosed"
  | .unableToDiscriminate _ _ => "UnableToDiscriminate"
  | .invalidArgument _ _ => "InvalidArgument"
  | .cancelled => "Cancelled"
  | .concurrencyConflict _ _ _ => "ConcurrencyConflict"
  | .duplicateKey _ _ => "DuplicateKey"
  | .circularDependency _ => "CircularDependency"
  | .queryRejected _ => "Translation"
  | .retryLimitExceeded _ _ => "RetryLimitExceeded"

def toJson (e : StoreError) : Json := .obj [("error", .str e.kind), ("message", .str e.message)]

def outcome : Except StoreError Json → Json
  | .ok j => .obj [("ok", j)]
  | .error e => e.toJson

end StoreError

def SchemaError.outcome : Except SchemaError Json → Json
  | .ok j => .obj [("ok", j)]
  | .error e => (StoreError.schema e).toJson

namespace ConnectionFault

def tag : ConnectionFault → String
  | .serverUnavailable => "ServerUnavailable"
  | .timeout => "Timeout"
  | .databaseUnavailable => "DatabaseUnavailable"
  | .authentication => "Authentication"
  | .other => "Other"

def ofTag? (s : String) : Option ConnectionFault :=
  [serverUnavailable, timeout, databaseUnavailable, authentication, other].find? (·.tag == s)

end ConnectionFault

namespace StoreError

/-- What a document says about a failure; what it does not say is empty. -/
structure Description where
  kind : String
  message : String
  name : String
  database : String
  code : Nat
  affected : Nat
  attempts : Nat

/-- The failure that is described. The last one before a retry limit is given apart. -/
def ofDescription? (d : Description) (last : Option StoreError) : Option StoreError :=
  match d.kind with
  | "Sqlite" => some (.engine (.ofCode d.code) d.message)
  | "SqliteNoRows" => some (.engine .other "Query returned no rows")
  | "Core" => some (.schema (.resultShape d.message))
  | "Closed" => some (.connectionClosed d.message)
  | "Discriminate" => some (.unableToDiscriminate d.name d.message)
  | "InvalidArgument" => some (.invalidArgument d.name d.message)
  | "Cancelled" => some .cancelled
  | "Conflict" => some (.concurrencyConflict d.name d.message d.affected)
  | "DuplicateKey" => some (.duplicateKey d.name d.message)
  | "Circular" => some (.circularDependency d.message)
  | "Translation" => some (.queryRejected d.message)
  | "RetryLimit" => last.map (.retryLimitExceeded d.attempts)
  | tag => (ConnectionFault.ofTag? tag).map (.connection d.database · d.message)

/-- Reads a failure; the first argument bounds how often one is the cause of another. -/
def ofJsonWith : Nat → Json → Option StoreError
  | 0, _ => none
  | depth + 1, j => do
    match ← j.record? ["kind", "message", "name", "database", "code", "affected", "attempts",
        "source"] with
    | [kind, message, name, database, code, affected, attempts, source] =>
      let number := Json.orDefault 0 (Json.nat? UInt64.size)
      let d : Description :=
        { kind := ← Json.required Json.str? kind
          message := ← Json.orDefault "" Json.str? message
          name := ← Json.orDefault "" Json.str? name
          database := ← Json.orDefault "mock" Json.str? database
          code := ← number code
          affected := ← number affected
          attempts := ← number attempts }
      ofDescription? d (source.bind (ofJsonWith depth))
    | _ => none

def ofJson? (j : Json) : Option StoreError := ofJsonWith (j.depth + 1) j

end StoreError

end EntityStore
