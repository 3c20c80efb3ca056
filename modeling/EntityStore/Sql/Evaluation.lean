import EntityStore.Sql.Render
import EntityStore.Sorting
import EntityStore.Value.Order
import EntityStore.Query.Parameters

/-!
# Meaning of select statements

A statement is evaluated over tables of records. Predicates are three-valued: null is unknown, and
a row is kept only where the predicate is known to hold.
-/

namespace EntityStore

/-- The values of a stored row under column names. A column that is missing is null. -/
abbrev Record := OrderedMap String Value

/-- The records bound to the tables of a statement, in the order of the tables. -/
abbrev Binding := List (String × Record)

namespace Value

/-- A value read as a truth value; `none` is unknown. -/
def truth : Value → Option Bool
  | .null => none
  | .bool b => some b
  | .integer i => some (i != 0)
  | .real r => some (!r.numericEq .zero)
  | .text _ | .blob _ => some false

def ofTruth : Option Bool → Value
  | none => .null
  | some b => .bool b

end Value

/-- Unknown unless one side decides or both are known. -/
def andTruth : Option Bool → Option Bool → Option Bool
  | _, some false => some false
  | some true, some true => some true
  | some false, _ => some false
  | _, _ => none

def orTruth : Option Bool → Option Bool → Option Bool
  | _, some true => some true
  | some false, some false => some false
  | some true, _ => some true
  | _, _ => none

namespace SqlExpr

def unknownTable (label : String) : StoreError :=
  .queryRejected ("unknown table alias '" ++ label ++ "'")

/-- The value of an expression. The right side of a connective is not evaluated if the left one
decides. -/
def eval (parameters : Parameters) (binding : Binding) : SqlExpr → Except StoreError Value
  | .column t c =>
    match OrderedMap.lookup t binding with
    | some record => .ok ((record.get? c).getD .null)
    | none => .error (unknownTable t)
  | .literal v => .ok v
  | .parameter name => parameters.value name
  | .compare op l r => do
    let l ← l.eval parameters binding
    let r ← r.eval parameters binding
    return .ofTruth ((l.compare? r).map op.holds)
  | .and l r => do
    let l ← l.eval parameters binding
    if l.truth = some false then return .bool false
    let r ← r.eval parameters binding
    return .ofTruth (andTruth l.truth r.truth)
  | .or l r => do
    let l ← l.eval parameters binding
    if l.truth = some true then return .bool true
    let r ← r.eval parameters binding
    return .ofTruth (orTruth l.truth r.truth)
  | .not e => do
    let v ← e.eval parameters binding
    return .ofTruth (v.truth.map (!·))
  | .isNull e => do
    let v ← e.eval parameters binding
    return .bool v.isNull
  | .discriminator _ e => e.eval parameters binding

/-- Whether a predicate is known to be true. -/
def holds (parameters : Parameters) (binding : Binding) (e : SqlExpr) : Except StoreError Bool := do
  let v ← e.eval parameters binding
  return v.truth == some true

end SqlExpr

/-- The records of a table by its name; an unknown table has none. -/
abbrev TableContents := String → List Record

namespace Select

def extendBinding (parameters : Parameters) (tables : TableContents) (j : TableJoin)
    (binding : Binding) : Except StoreError (List Binding) :=
  ((tables j.table.table).map (fun record => binding ++ [(j.table.label, record)])).filterM
    (fun candidate => j.condition.holds parameters candidate)

def joinTable (parameters : Parameters) (tables : TableContents) (bindings : List Binding)
    (j : TableJoin) : Except StoreError (List Binding) := do
  let extended ← bindings.mapM (extendBinding parameters tables j)
  return extended.flatten

/-- The bindings of all tables for which the join conditions hold. -/
def candidates (s : Select) (parameters : Parameters) (tables : TableContents) :
    Except StoreError (List Binding) :=
  s.joins.foldlM (joinTable parameters tables)
    ((tables s.source.table).map (fun record => [(s.source.label, record)]))

def keep (predicate : Option SqlExpr) (parameters : Parameters) (bindings : List Binding) :
    Except StoreError (List Binding) :=
  match predicate with
  | none => .ok bindings
  | some p => bindings.filterM (fun b => p.holds parameters b)

/-- Lexicographic comparison of sort keys, each in its direction. -/
def compareKeys : List Direction → List Value → List Value → Ordering
  | d :: ds, v :: vs, w :: ws =>
    let o := match d with
      | .ascending => v.sortOrder w
      | .descending => w.sortOrder v
    o.then (compareKeys ds vs ws)
  | _, _, _ => .eq

def sortBindings (orderBy : List SqlOrder) (parameters : Parameters) (bindings : List Binding) :
    Except StoreError (List Binding) :=
  if orderBy.isEmpty then .ok bindings
  else do
    let keyed ← bindings.mapM (fun b => do
      let keys ← orderBy.mapM (fun o => o.expr.eval parameters b)
      return (keys, b))
    let directions := orderBy.map (·.direction)
    let sorted := Sorting.sort (fun x y => compareKeys directions x.1 y.1 == .lt) keyed
    return sorted.map (·.2)

def page (offset limit : Option UInt64) (rows : List α) : List α :=
  let rows := rows.drop ((offset.map UInt64.toNat).getD 0)
  match limit with
  | none => rows
  | some n => rows.take n.toNat

def projectRow (s : Select) (parameters : Parameters) (binding : Binding) :
    Except StoreError (List Value) :=
  s.projection.mapM (fun c => c.expr.eval parameters binding)

def evaluate (s : Select) (parameters : Parameters) (tables : TableContents) :
    Except StoreError (List (List Value)) := do
  let bindings ← s.candidates parameters tables
  let bindings ← keep s.predicate parameters bindings
  let bindings ← sortBindings s.orderBy parameters bindings
  (page s.offset s.limit bindings).mapM (s.projectRow parameters)

end Select

end EntityStore
