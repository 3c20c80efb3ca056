import EntityStore.Connection.Script

/-!
# Scripted connections

A connection that answers every kind of request from a queue, and with a usual answer once the queue
is empty. The caller can be made to give up at a chosen request.
-/

namespace EntityStore

structure Scripted where
  database : String
  script : Script
  isOpen : Bool
  isCancelled : Bool
  /-- The request at which the caller gives up, counted among those of its kind from now on. -/
  cancelAt : Option (Request × Nat)

namespace Scripted

def count (s : Scripted) (r : Request) : Scripted :=
  match s.cancelAt with
  | none => s
  | some (r', n) =>
    if r' ≠ r then s
    else if n = 1 then { s with cancelAt := none, isCancelled := true }
    else { s with cancelAt := some (r', n - 1) }

def answer (usual : β) : List β → β × List β
  | [] => (usual, [])
  | a :: rest => (a, rest)

def reply (s : Scripted) (r : Request) (usual : Except StoreError α)
    (queue : List (Except StoreError α)) (put : List (Except StoreError α) → Script) :
    Reply Scripted α :=
  let (a, rest) := answer usual queue
  ⟨a, { s.count r with script := put rest }, []⟩

def openLink (s : Scripted) : Reply Scripted Unit :=
  let a := s.reply .openLink (.ok ()) s.script.openLink (fun q => { s.script with openLink := q })
  { a with state := { a.state with isOpen := a.state.isOpen || a.result.isOk } }

/-- Closing a closed connection does nothing. -/
def closeLink (s : Scripted) : Reply Scripted Unit :=
  ⟨.ok (), if s.isOpen then { s.count .closeLink with isOpen := false } else s, []⟩

def beginTransaction (s : Scripted) : Reply Scripted Unit :=
  s.reply .beginTransaction (.ok ()) s.script.beginTransaction
    (fun q => { s.script with beginTransaction := q })

def commit (s : Scripted) : Reply Scripted Unit :=
  s.reply .commit (.ok ()) s.script.commit (fun q => { s.script with commit := q })

def rollback (s : Scripted) : Reply Scripted Unit :=
  s.reply .rollback (.ok ()) s.script.rollback (fun q => { s.script with rollback := q })

def databaseExists (s : Scripted) : Reply Scripted Bool :=
  s.reply .databaseExists (.ok true) s.script.databaseExists
    (fun q => { s.script with databaseExists := q })

def hasTables (s : Scripted) : Reply Scripted Bool :=
  s.reply .hasTables (.ok false) s.script.hasTables (fun q => { s.script with hasTables := q })

def createDatabase (s : Scripted) : Reply Scripted Unit :=
  s.reply .createDatabase (.ok ()) s.script.createDatabase
    (fun q => { s.script with createDatabase := q })

def deleteDatabase (s : Scripted) : Reply Scripted Unit :=
  s.reply .deleteDatabase (.ok ()) s.script.deleteDatabase
    (fun q => { s.script with deleteDatabase := q })

def execute (_ : String) (_ : List Value) (s : Scripted) : Reply Scripted UInt64 :=
  s.reply .execute (.ok 1) s.script.execute (fun q => { s.script with execute := q })

def query (_ : String) (_ : List Value) (s : Scripted) : Reply Scripted RowSource :=
  let (source, rest) := answer { rows := [], failure := none } s.script.query
  ⟨.ok source, { s.count .query with script := { s.script with query := rest } }, []⟩

def ofJson? (database : String) : Json → Option Scripted
  | .obj fields => do
    return { database := database, script := ← Script.ofFields? fields, isOpen := false
             isCancelled := false, cancelAt := ← Script.cancelAtOf? fields }
  | _ => none

def connection : Connection Scripted :=
  { connect := fun s => { s.count .connect with isOpen := false }
    database := (·.database)
    isOpen := (·.isOpen)
    isCancelled := (·.isCancelled)
    openLink := openLink
    closeLink := closeLink
    beginTransaction := beginTransaction
    commit := commit
    rollback := rollback
    databaseExists := databaseExists
    hasTables := hasTables
    createDatabase := createDatabase
    deleteDatabase := deleteDatabase
    execute := execute
    query := query
    deliver := fun s => s.count .row }

end Scripted

end EntityStore
