import EntityStore.Engine.Database

/-!
# Disks

Names stand for directories and files, and files hold text, a database or something else. A file
that is open stays what it is when its name is removed.
-/

namespace EntityStore.Engine

/-- What a file holds. An empty text is also an empty database. -/
inductive Content
  | text (s : String)
  | database (db : Database)
  | other

/-- What a name stands for; files are numbered. -/
inductive Node
  | directory
  | file (number : Nat)
deriving DecidableEq

structure Disk where
  nodes : OrderedMap String Node
  contents : OrderedMap Nat Content

def Content.database? : Content → Option Database
  | .database db => some db
  | .text s => if s.isEmpty then some .empty else none
  | .other => none

namespace Disk

def empty : Disk := ⟨.empty, .empty⟩

def addDirectory (d : Disk) (path : String) : Disk :=
  { d with nodes := d.nodes.insert path .directory }

def addFile (d : Disk) (path : String) (content : Content) : Disk :=
  { nodes := d.nodes.insert path (.file d.contents.size)
    contents := d.contents.insert d.contents.size content }

def node? (d : Disk) (path : String) : Option Node := d.nodes.get? path

def isFile (d : Disk) (path : String) : Bool :=
  match d.node? path with
  | some (.file _) => true
  | _ => false

def remove (d : Disk) (path : String) : Disk := { d with nodes := d.nodes.erase path }

def content? (d : Disk) (number : Nat) : Option Content := d.contents.get? number

def database (d : Disk) (number : Nat) : Database :=
  ((d.content? number).bind Content.database?).getD .empty

def write (d : Disk) (number : Nat) (db : Database) : Disk :=
  { d with contents := d.contents.insert number (.database db) }

def parent? (path : String) : Option String :=
  match (path.toList.reverse.dropWhile (fun c => c != '/')) with
  | [] => none
  | _ :: rest => some (String.ofList rest.reverse)

def hasParent (d : Disk) (path : String) : Bool :=
  match parent? path with
  | none => true
  | some p => d.node? p == some .directory

def names (d : Disk) : List String :=
  (d.nodes.keys.filter (fun path => (parent? path).isNone)).mergeSort (fun a b => decide (a ≤ b))

inductive ReadFault
  | missing
  | isDirectory
  | notText
deriving DecidableEq

def ReadFault.message : ReadFault → String
  | .missing => "No such file or directory (os error 2)"
  | .isDirectory => "Is a directory (os error 21)"
  | .notText => "stream did not contain valid UTF-8"

def readText (d : Disk) (path : String) : Except ReadFault String :=
  match d.node? path with
  | none => .error .missing
  | some .directory => .error .isDirectory
  | some (.file number) =>
    match d.content? number with
    | some (.text s) => .ok s
    | _ => .error .notText

end Disk

end EntityStore.Engine
