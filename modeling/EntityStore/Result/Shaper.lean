import EntityStore.Result.Materializer
import EntityStore.Log

/-!
# Result sequences

Rows are turned into results one at a time, as the caller pulls. The first failure is the last
item of a sequence.
-/

namespace EntityStore

structure ValueColumn where
  index : Nat
  type : ValueType
deriving DecidableEq

inductive ResultShape
  | entity (m : Materializer)
  | entities (ms : List Materializer)
  | values (columns : List ValueColumn)
deriving DecidableEq

def ResultShape.shape (s : ResultShape) (row : Row) : Except StoreError Materialized :=
  match s with
  | .entity m => do
    let e ← m.materialize row
    return .entity e
  | .entities ms => do
    let parts ← ms.mapM (·.materialize row)
    return .tuple parts
  | .values columns => do
    let vs ← columns.mapM (fun c => row.readAs c.index c.type)
    return .values vs

/-- The store and the operation under which failures of a sequence are logged. -/
structure Origin where
  store : String
  operation : String
deriving DecidableEq

/-- A sequence of results that is still to be pulled. -/
structure Results where
  rows : List Row
  shape : ResultShape
  failed : Bool
  origin : Option Origin

/-- A caller's type for results. -/
abbrev Conversion (α : Type) := Materialized → Except SchemaError α

/-- What one pull gives: an item, unless the sequence has ended, with the events it logs. -/
structure Pull (α : Type) where
  item : Option (Except StoreError α)
  rest : Results
  events : List LogEvent

namespace Results

def ofRows (rows : List Row) (shape : ResultShape) : Results :=
  { rows := rows, shape := shape, failed := false, origin := none }

def loggedAs (r : Results) (store operation : String) : Results :=
  { r with origin := some ⟨store, operation⟩ }

def remaining (r : Results) : Nat := if r.failed then 0 else r.rows.length

def sizeHint (r : Results) : Nat × Option Nat := (0, some r.remaining)

def itemOf (shape : ResultShape) (convert : Conversion α) (row : Row) :
    Except StoreError α := do
  let m ← shape.shape row
  convert m

def failureEvents (r : Results) (e : StoreError) : List LogEvent :=
  match r.origin with
  | some o => [.failure o.store o.operation e]
  | none => []

def fail (r : Results) (e : StoreError) : Pull α :=
  { item := some (.error e), rest := { r with failed := true }, events := r.failureEvents e }

def next (r : Results) (convert : Conversion α) : Pull α :=
  if r.failed then { item := none, rest := r, events := [] }
  else
    match r.rows with
    | [] => { item := none, rest := r, events := [] }
    | row :: rows =>
      let r := { r with rows := rows }
      match itemOf r.shape convert row with
      | .ok a => { item := some (.ok a), rest := r, events := [] }
      | .error e => r.fail e

/-- A pull that a cancellation can interrupt. -/
def nextUnless (r : Results) (cancelled : Bool) (convert : Conversion α) : Pull α :=
  if r.failed then { item := none, rest := r, events := [] }
  else if cancelled then r.fail .cancelled
  else r.next convert

end Results

end EntityStore
