import EntityStore.Connection.Session
import EntityStore.Error.Document

/-!
# Scripts

The answers that a scripted connection will give, by kind of request, and their JSON form: a list of
answers under the name of the request, a failure under `error`.
-/

namespace EntityStore

/-- The kinds of requests, and the delivery of a row. -/
inductive Request
  | connect
  | openLink
  | closeLink
  | beginTransaction
  | commit
  | rollback
  | databaseExists
  | hasTables
  | createDatabase
  | deleteDatabase
  | execute
  | query
  | row
deriving DecidableEq

/-- The answers that are still to be given, by kind of request. -/
structure Script where
  openLink : List (Except StoreError Unit)
  beginTransaction : List (Except StoreError Unit)
  commit : List (Except StoreError Unit)
  rollback : List (Except StoreError Unit)
  databaseExists : List (Except StoreError Bool)
  hasTables : List (Except StoreError Bool)
  createDatabase : List (Except StoreError Unit)
  deleteDatabase : List (Except StoreError Unit)
  execute : List (Except StoreError UInt64)
  query : List RowSource

def Script.empty : Script :=
  { openLink := [], beginTransaction := [], commit := [], rollback := [], databaseExists := []
    hasTables := [], createDatabase := [], deleteDatabase := [], execute := [], query := [] }

namespace Request

def tag : Request → String
  | .connect => "connect"
  | .openLink => "open"
  | .closeLink => "close"
  | .beginTransaction => "begin"
  | .commit => "commit"
  | .rollback => "rollback"
  | .databaseExists => "exists"
  | .hasTables => "has_tables"
  | .createDatabase => "create_database"
  | .deleteDatabase => "delete_database"
  | .execute => "execute"
  | .query => "query"
  | .row => "row"

def ofTag? (s : String) : Option Request :=
  [connect, openLink, closeLink, beginTransaction, commit, rollback, databaseExists, hasTables,
    createDatabase, deleteDatabase, execute, query, row].find? (·.tag == s)

end Request

namespace Script

def failureOf? (j : Json) : Option (Option StoreError) :=
  match j with
  | .obj fields =>
    match fields.lookup "error" with
    | some e => (StoreError.ofJson? e).map some
    | none => some none
  | _ => some none

def answerOf? (read : Json → Option α) (j : Json) : Option (Except StoreError α) := do
  match ← failureOf? j with
  | some e => return .error e
  | none => return .ok (← read j)

def rowSourceOf? (j : Json) : Option RowSource := do
  match ← j.record? ["rows"] with
  | [rows] =>
    return {
      rows := ← Json.orDefault [] (Json.list? (Json.list? Value.ofTagged?)) rows
      failure := ← failureOf? j }
  | _ => none

def queueOf? (fields : List (String × Json)) (r : Request) (read : Json → Option α) :
    Option (List α) :=
  match fields.lookup r.tag with
  | none => some []
  | some j => j.list? read

def ofFields? (fields : List (String × Json)) : Option Script := do
  let unit := answerOf? (fun _ => some ())
  let truth := answerOf? Json.bool?
  return {
    openLink := ← queueOf? fields .openLink unit
    beginTransaction := ← queueOf? fields .beginTransaction unit
    commit := ← queueOf? fields .commit unit
    rollback := ← queueOf? fields .rollback unit
    databaseExists := ← queueOf? fields .databaseExists truth
    hasTables := ← queueOf? fields .hasTables truth
    createDatabase := ← queueOf? fields .createDatabase unit
    deleteDatabase := ← queueOf? fields .deleteDatabase unit
    execute := ← queueOf? fields .execute (answerOf? Json.uint64?)
    query := ← queueOf? fields .query rowSourceOf? }

def cancelAtOf? (fields : List (String × Json)) : Option (Option (Request × Nat)) :=
  match fields.lookup "cancel_on" with
  | none => some none
  | some j => do
    match ← j.record? ["call", "n"] with
    | [call, n] =>
      let r ← Json.required (fun j => j.str?.bind Request.ofTag?) call
      return some (r, ← Json.required (Json.nat? UInt64.size) n)
    | _ => none

end Script

end EntityStore
