import EntityStore.Store.Cache
import EntityStore.Connection.Session
import EntityStore.Query.Parameters
import EntityStore.Result.Shaper

/-!
# Stores

What every store does in the same way, whatever it keeps its rows in: queries are compiled once per
shape, failures are logged before they reach the caller, and saving nothing does nothing.
-/

namespace EntityStore

/-- A kind of store over states `σ` with compiled queries `γ`. -/
structure Backend (σ γ : Type) where
  name : String
  isCancelled : σ → Bool
  compile : Query → Compilation γ
  shapeOf : γ → ResultShape
  /-- The rows of a compiled query. -/
  run : Mode → γ → Parameters → Run σ (List Row)
  /-- Makes the pending changes, of which there is at least one, and gives the number of affected
  rows. -/
  save : Mode → List PendingEntry → Run σ Nat

/-- A store: its kind and the queries it has compiled. -/
structure Store (σ γ : Type) where
  backend : Backend σ γ
  cache : QueryCache γ

namespace Backend

variable {σ γ : Type} (b : Backend σ γ)

def checkCancelled (mode : Mode) : Run σ Unit := do
  let s ← Run.state
  if mode = .cancellable ∧ b.isCancelled s then throw .cancelled

/-- Runs a query that has been compiled. A plain run logs the number of rows. -/
def runCompiled (mode : Mode) (operation : String) (compilation : Compilation γ)
    (parameters : Parameters) : Run σ Results := do
  Run.log compilation.events
  let compiled ← Run.ofExcept compilation.result
  b.checkCancelled mode
  let rows ← b.run mode compiled parameters
  b.checkCancelled mode
  if mode = .plain then
    Run.log [.debug "query executed"
      [("store", b.name), ("rows", toString rows.length)]]
  return (Results.ofRows rows (b.shapeOf compiled)).loggedAs b.name operation

def queryOperation : Mode → String
  | .plain => "query"
  | .cancellable => "query_async"

def saveOperation : Mode → String
  | .plain => "save_changes"
  | .cancellable => "save_changes_async"

def savedEvent (entries : List PendingEntry) (affected : Nat) : LogEvent :=
  .debug "saved changes"
    [("store", b.name), ("entries", toString entries.length), ("affected", toString affected)]

def saveChanges (mode : Mode) (entries : List PendingEntry) : Run σ Nat :=
  Run.logged b.name (saveOperation mode) (do
    b.checkCancelled mode
    if entries.isEmpty then return 0
    let affected ← b.save mode entries
    Run.log [b.savedEvent entries affected]
    return affected)

end Backend

namespace Store

variable {σ γ : Type}

def ofBackend (b : Backend σ γ) : Store σ γ := ⟨b, .empty⟩

/-- Looks up a query that would compile to `compilation` now. -/
def lookUp (s : Store σ γ) (q : Query) (compilation : Compilation γ) : Compilation γ × Store σ γ :=
  let (found, cache) := s.cache.getOrAdd q.fingerprint compilation
  (found, { s with cache := cache })

def compiled (s : Store σ γ) (q : Query) : Compilation γ × Store σ γ :=
  s.lookUp q (s.backend.compile q)

def query (s : Store σ γ) (mode : Mode) (q : Query) : Run σ Results × Store σ γ :=
  let operation := Backend.queryOperation mode
  let (compilation, after) := s.compiled q
  (Run.logged s.backend.name operation
    (s.backend.runCompiled mode operation compilation q.parameters), after)

end Store

end EntityStore
