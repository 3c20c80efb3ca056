import EntityStore.CommandLine.Outcome
import EntityStore.Engine.Document

/-!
# The command line

Reads the files that a command is about, runs it, prints what it says and writes the database file
back if the command changed it. The files are taken not to change meanwhile, so there is no wait
before an attempt is repeated.
-/

namespace EntityStore.CommandLine

open EntityStore.Engine (Content Database Disk Link)

def Invocation.databasePath : Invocation → String
  | .create db _ | .drop db _ | .query db _ _ _ _ => db

def Invocation.modelPath : Invocation → String
  | .create _ model | .drop _ model | .query _ model _ _ _ => model

/-- Adds what a path stands for in the file system: what is there and cannot be read as a file is
taken for a directory. -/
def readPath (disk : Disk) (path : String) : IO Disk := do
  try
    let bytes ← IO.FS.readBinFile (if path.isEmpty then "/" else path)
    return disk.addFile path (((String.fromUTF8? bytes).map Content.ofText).getD .other)
  catch
    | .noFileOrDirectory .. => return disk
    | _ => return disk.addDirectory path

/-- The files that a command looks at, and the directory that a database is made in. -/
def readDisk (invocation : Invocation) : IO Disk :=
  let db := invocation.databasePath
  ((Disk.parent? db).toList ++ Link.databaseFiles db ++ [invocation.modelPath]).foldlM readPath
    .empty

def databaseText? (disk : Disk) (path : String) : Option String :=
  match disk.node? path with
  | some (.file number) =>
    match disk.content? number with
    | some (.database db) => some db.toText
    | _ => none
  | _ => none

/-- Makes the file at a path what it is on the later disk. -/
def writePath (before after : Disk) (path : String) : IO Unit := do
  match databaseText? after path with
  | some text =>
    if databaseText? before path != some text then IO.FS.writeFile path text
  | none =>
    if before.isFile path && !after.isFile path then IO.FS.removeFile path

def environmentNames : List String :=
  ["QUARRY_SENSITIVE_LOGGING", "QUARRY_MAX_BATCH_SIZE", "QUARRY_RETRY_MAX_ATTEMPTS",
    "QUARRY_RETRY_BASE_DELAY_MS"]

def readEnvironment : IO (List (String × String)) := do
  let values ← environmentNames.mapM (fun name => do
    return (← IO.getEnv name).map (fun value => (name, value)))
  return values.filterMap (fun v => v)

def runOnFiles (arguments : List String) : IO UInt32 := do
  match Invocation.ofArguments? arguments with
  | none => return 2
  | some invocation =>
    let environment ← readEnvironment
    let before ← readDisk invocation
    let options := StoreOptions.ofEnvironment (fun name => List.lookup name environment)
    let outcome := perform options before invocation
    (Link.databaseFiles invocation.databasePath).forM (writePath before outcome.disk)
    outcome.output.forM (fun line => IO.println line)
    outcome.errors.forM (fun line => IO.eprintln ("Error: " ++ line))
    return UInt32.ofNat outcome.code

end EntityStore.CommandLine

def main (arguments : List String) : IO UInt32 :=
  EntityStore.CommandLine.runOnFiles arguments
