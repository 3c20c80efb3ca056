import EntityStore.Value.Tagged

/-!
# Calls

The calls that are made on a connection and the waits between them, and their JSON form: a name, or
a list of a name, a statement and its parameters.
-/

namespace EntityStore

inductive Call
  | connect
  | openLink
  /-- Closing, with whether there was anything to close. -/
  | closeLink (wasOpen : Bool)
  | beginTransaction
  | commit
  | rollback
  | probeDatabase
  | probeTables
  | createDatabase
  | deleteDatabase
  | execute (sql : String) (parameters : List Value)
  | query (sql : String) (parameters : List Value)
  /-- A wait of the caller, which the connection does not see. -/
  | wait (milliseconds : Nat)
deriving DecidableEq

namespace Call

def tag : Call → String
  | .connect => "connect"
  | .openLink => "open"
  | .closeLink _ => "close"
  | .beginTransaction => "begin"
  | .commit => "commit"
  | .rollback => "rollback"
  | .probeDatabase => "exists"
  | .probeTables => "has_tables"
  | .createDatabase => "create_database"
  | .deleteDatabase => "delete_database"
  | .execute _ _ => "execute"
  | .query _ _ => "query"
  | .wait _ => "wait"

/-- Waiting, and closing a closed connection, do nothing. -/
def hasEffect : Call → Bool
  | .closeLink wasOpen => wasOpen
  | .wait _ => false
  | _ => true

def toJson : Call → Json
  | .execute sql parameters =>
    .arr [.str "execute", .str sql, Value.listToTagged parameters]
  | .query sql parameters => .arr [.str "query", .str sql, Value.listToTagged parameters]
  | c => .str c.tag

end Call

end EntityStore
