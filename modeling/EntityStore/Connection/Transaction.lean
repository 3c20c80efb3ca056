import EntityStore.Connection.Session
import EntityStore.Save.Batches

/-!
# Saves in a transaction

All batches of a save run in one transaction. It is committed once every command has passed and
rolled back otherwise. A connection that had to be opened for the save is closed after it. Affected
rows are counted in 64 bits; a total beyond that wraps, as sums do that are not checked.
-/

namespace EntityStore.Connection

variable {σ : Type} (c : Connection σ)

/-- An update or delete must have found its row. -/
def checkAffected (command : Command) (affected : UInt64) : Except StoreError UInt64 :=
  if command.needsRow && affected == 0 then
    .error (.concurrencyConflict command.state.name command.table affected.toNat)
  else .ok affected

def runCommand (mode : Mode) (sensitive : Bool) (command : Command) : Run σ UInt64 := do
  c.checkCancelled mode
  let (sql, parameters) := command.sql
  let affected ← c.run sensitive sql parameters
  Run.ofExcept (checkAffected command affected)

def runCommands (mode : Mode) (sensitive : Bool) : UInt64 → List Command → Run σ UInt64
  | total, [] => return total
  | total, command :: rest => do
    let affected ← c.runCommand mode sensitive command
    runCommands mode sensitive (total + affected) rest

def batchEvent (index : Nat) (batch : Batch) : LogEvent :=
  .debug "executing batch"
    [("batch", toString index), ("commands", toString batch.length)]

def runBatches (mode : Mode) (sensitive : Bool) : Nat → UInt64 → List Batch → Run σ UInt64
  | _, total, [] => return total
  | index, total, batch :: rest => do
    Run.log [batchEvent index batch]
    let total ← c.runCommands mode sensitive total batch
    runBatches mode sensitive (index + 1) total rest

def transactionBody (mode : Mode) (sensitive : Bool) (batches : List Batch) : Run σ Nat := do
  let total ← c.runBatches mode sensitive 0 0 batches
  c.checkCancelled mode
  Run.call .commit c.commit
  return total.toNat

/-- Rolls back; a failure to do so is only logged. -/
def abandon : Run σ Unit := do
  match ← Run.attempt (Run.call .rollback c.rollback) with
  | .ok () => return ()
  | .error e =>
    let database ← c.databaseName
    Run.log [.warn "rollback failed" [("database", database), ("error", e.message)]]

def closeIf (opened : Bool) : Run σ Unit := do
  if opened then c.close

/-- One transaction on an open connection, which is closed after it if it was opened for it. -/
def transact (mode : Mode) (sensitive : Bool) (batches : List Batch) (opened : Bool) : Run σ Nat := do
  match ← Run.attempt c.startTransaction with
  | .error e =>
    c.closeIf opened
    throw e
  | .ok () =>
    match ← Run.attempt (c.transactionBody mode sensitive batches) with
    | .ok total =>
      c.closeIf opened
      return total
    | .error e =>
      c.abandon
      c.closeIf opened
      throw e

def save (mode : Mode) (sensitive : Bool) (batches : List Batch) : Run σ Nat := do
  c.checkCancelled mode
  let wasOpen ← c.openNow
  if !wasOpen then c.start
  c.transact mode sensitive batches !wasOpen

end EntityStore.Connection
