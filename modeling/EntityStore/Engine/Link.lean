import EntityStore.Engine.Disk
import EntityStore.Connection.Session

/-!
# Connections to database files

A link is a connection to the database in one file of a disk. A transaction sees the database as it
was when the transaction first looked at it, with its own changes; other links see these once it
has been committed.
-/

namespace EntityStore.Engine

structure Transaction where
  /-- The database as the transaction sees it, once it has looked. -/
  view : Option Database
  isChanged : Bool

structure Link where
  disk : Disk
  path : String
  /-- The number of the open file. -/
  opened : Option Nat
  transaction : Option Transaction
  isCancelled : Bool

namespace Link

def ofPath (disk : Disk) (path : String) : Link :=
  { disk := disk, path := path, opened := none, transaction := none, isCancelled := false }

def isOpen (l : Link) : Bool := l.opened.isSome

def cannotOpen (path : String) : StoreError :=
  .engine .cannotOpen ("unable to open database file: " ++ path)

def notADatabase : StoreError := failure "file is not a database"

def event (l : Link) (message : String) : List LogEvent :=
  [.debug message [("database", l.path)]]

def ok (l : Link) (a : α) (events : List LogEvent) : Reply Link α := ⟨.ok a, l, events⟩

def refuse (l : Link) (e : StoreError) : Reply Link α := ⟨.error e, l, []⟩

def databaseFile (d : Disk) (path : String) : Except StoreError Nat :=
  match d.node? path with
  | some (.file number) =>
    match (d.content? number).bind Content.database? with
    | some _ => .ok number
    | none => .error notADatabase
  | _ => .error (cannotOpen path)

/-- Opening an open link does nothing; a missing file is not made. -/
def openLink (l : Link) : Reply Link Unit :=
  match l.opened with
  | some _ => l.ok () []
  | none =>
    match databaseFile l.disk l.path with
    | .ok number => { l with opened := some number }.ok () (l.event "opened connection")
    | .error e => l.refuse e

/-- Closing drops a transaction that is under way. -/
def closeLink (l : Link) : Reply Link Unit :=
  match l.opened with
  | some _ => { l with opened := none, transaction := none }.ok () (l.event "closed connection")
  | none => l.ok () []

def whenOpen (l : Link) (answer : Nat → Reply Link α) : Reply Link α :=
  match l.opened with
  | some number => answer number
  | none => l.refuse (.connectionClosed l.path)

def beginTransaction (l : Link) : Reply Link Unit :=
  l.whenOpen fun _ =>
    match l.transaction with
    | some _ => l.refuse (failure "cannot start a transaction within a transaction")
    | none =>
      { l with transaction := some { view := none, isChanged := false } }.ok ()
        (l.event "began transaction")

def committed (l : Link) (number : Nat) (t : Transaction) : Disk :=
  match t.view, t.isChanged with
  | some db, true => l.disk.write number db
  | _, _ => l.disk

def commit (l : Link) : Reply Link Unit :=
  l.whenOpen fun number =>
    match l.transaction with
    | some t =>
      { l with disk := l.committed number t, transaction := none }.ok ()
        (l.event "committed transaction")
    | none => l.refuse (failure "cannot commit - no transaction is active")

def rollback (l : Link) : Reply Link Unit :=
  l.whenOpen fun _ =>
    match l.transaction with
    | some _ => { l with transaction := none }.ok () (l.event "rolled back transaction")
    | none => l.refuse (failure "cannot rollback - no transaction is active")

def seen (l : Link) (number : Nat) : Database :=
  match l.transaction with
  | some { view := some db, isChanged := _ } => db
  | _ => l.disk.database number

def looked (l : Link) (number : Nat) : Link :=
  { l with transaction :=
      l.transaction.map (fun t => { t with view := some (l.seen number) }) }

/-- The link after a statement: the change waits for the end of the transaction, if there is one. -/
def changed (l : Link) (number : Nat) (db : Database) : Link :=
  match l.transaction with
  | some _ => { l with transaction := some { view := some db, isChanged := true } }
  | none => { l with disk := l.disk.write number db }

def databaseExists (l : Link) : Reply Link Bool := l.ok (l.disk.isFile l.path) []

def hasTables (l : Link) : Reply Link Bool :=
  l.whenOpen fun number => (l.looked number).ok (l.seen number).hasTables []

/-- The disk with a database in a file, which is made if it is missing. -/
def createOn (d : Disk) (path : String) : Except StoreError Disk :=
  match d.node? path with
  | some _ => (databaseFile d path).map (fun _ => d)
  | none =>
    if d.hasParent path then .ok (d.addFile path (.database .empty))
    else .error (cannotOpen path)

def createDatabase (l : Link) : Reply Link Unit :=
  match createOn l.disk l.path with
  | .ok disk =>
    { l with disk := disk }.ok () [.info "created database" [("database", l.path)]]
  | .error e => l.refuse e

/-- A database file and the two files that an engine may keep beside it. -/
def databaseFiles (path : String) : List String := [path, path ++ "-wal", path ++ "-shm"]

/-- Removes files that may be missing. A directory is not removed and ends the removal. -/
def removeFiles (l : Link) : List String → Reply Link Unit
  | [] => l.ok () [.info "deleted database" [("database", l.path)]]
  | path :: rest =>
    match l.disk.node? path with
    | some .directory =>
      l.refuse (.connection l.path .other Disk.ReadFault.isDirectory.message)
    | _ => { l with disk := l.disk.remove path }.removeFiles rest

def deleteDatabase (l : Link) : Reply Link Unit :=
  let closed := l.closeLink
  let removed := closed.state.removeFiles (databaseFiles l.path)
  { removed with events := closed.events ++ removed.events }

def withStatement (l : Link) (sql : String) (answer : Nat → Sql.Statement → Reply Link α) :
    Reply Link α :=
  l.whenOpen fun number =>
    match Sql.Statement.ofText? sql with
    | some statement => answer number statement
    | none => l.refuse (failure "syntax error")

def execute (l : Link) (sql : String) (parameters : List Value) : Reply Link Nat :=
  l.withStatement sql fun number statement =>
    match (l.seen number).execute parameters statement with
    | .ok (affected, db) => (l.changed number db).ok affected []
    | .error e => (l.looked number).refuse e

def query (l : Link) (sql : String) (parameters : List Value) : Reply Link RowSource :=
  l.withStatement sql fun number statement =>
    match (l.seen number).query parameters statement with
    | .ok rows => (l.looked number).ok { rows := rows, failure := none } []
    | .error e => (l.looked number).refuse e

def connection : Connection Link :=
  { connect := fun l => { l with opened := none, transaction := none }
    database := (·.path)
    isOpen := isOpen
    isCancelled := (·.isCancelled)
    openLink := openLink
    closeLink := closeLink
    beginTransaction := beginTransaction
    commit := commit
    rollback := rollback
    databaseExists := databaseExists
    hasTables := hasTables
    createDatabase := createDatabase
    deleteDatabase := deleteDatabase
    execute := fun sql parameters l =>
      let reply := l.execute sql parameters
      ⟨reply.result.map UInt64.ofNat, reply.state, reply.events⟩
    query := fun sql parameters l => l.query sql parameters
    deliver := fun l => l }

end Link

end EntityStore.Engine
