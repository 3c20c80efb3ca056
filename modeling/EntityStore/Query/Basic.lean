import EntityStore.Schema.Error
import EntityStore.OrderedMap

/-!
# Queries

A query names sources of entities, the first one read from and the others joined to it, a filter,
an order, a page, and what is selected. Values that change from run to run are parameters; all
else is the shape of the query.
-/

namespace EntityStore

structure QuerySource where
  id : SourceId
  entityType : TypeId
deriving DecidableEq, Inhabited

inductive CompareOp
  | eq
  | ne
  | lt
  | le
  | gt
  | ge
deriving DecidableEq, Inhabited

def CompareOp.holds : CompareOp → Ordering → Bool
  | .eq, o => o == .eq
  | .ne, o => o != .eq
  | .lt, o => o == .lt
  | .le, o => o != .gt
  | .gt, o => o == .gt
  | .ge, o => o != .lt

/-- An expression over the properties of query sources. -/
inductive Expr
  | property (source : SourceId) (name : String)
  | constant (v : Value)
  | parameter (name : String)
  | compare (op : CompareOp) (left right : Expr)
  | and (left right : Expr)
  | or (left right : Expr)
  | not (inner : Expr)
  | isNull (inner : Expr)
deriving DecidableEq, Inhabited

inductive Direction
  | ascending
  | descending
deriving DecidableEq, Inhabited

structure OrderTerm where
  expr : Expr
  direction : Direction
deriving DecidableEq

/-- A joined source; rows match where `innerKey` of the new source equals `outerKey`. -/
structure Join where
  source : QuerySource
  outerKey : Expr
  innerKey : String
deriving DecidableEq

/-- What a query gives per row: an entity, one entity for each of several sources, or values. -/
inductive Selector
  | entity (source : SourceId)
  | entities (sources : List SourceId)
  | properties (exprs : List Expr)
deriving DecidableEq

/-- Everything of a query but the values of its parameters. -/
structure QueryShape where
  source : QuerySource
  joins : List Join
  filter : Option Expr
  orderBy : List OrderTerm
  skip : Option UInt64
  take : Option UInt64
  selector : Selector
deriving DecidableEq

abbrev Parameters := OrderedMap String Value

structure Query where
  shape : QueryShape
  parameters : Parameters
deriving DecidableEq

namespace Expr

def equals (left right : Expr) : Expr := .compare .eq left right

/-- Equality of expressions with reals compared as numbers. -/
def same : Expr → Expr → Bool
  | .property s p, .property s' p' => decide (s = s' ∧ p = p')
  | .constant v, .constant w => v.same w
  | .parameter p, .parameter q => p == q
  | .compare op l r, .compare op' l' r' => decide (op = op') && same l l' && same r r'
  | .and l r, .and l' r' => same l l' && same r r'
  | .or l r, .or l' r' => same l l' && same r r'
  | .not e, .not e' => same e e'
  | .isNull e, .isNull e' => same e e'
  | _, _ => false

end Expr

namespace Query

/-- All entities of a type, subtypes included, read through source 0. -/
def entities (entityType : TypeId) : Query :=
  { shape :=
      { source := ⟨⟨0⟩, entityType⟩, joins := [], filter := none, orderBy := []
        skip := none, take := none, selector := .entity ⟨0⟩ }
    parameters := .empty }

def rootSource (q : Query) : SourceId := q.shape.source.id

def restrict (q : Query) (e : Expr) : Query :=
  let filter := match q.shape.filter with
    | some present => Expr.and present e
    | none => e
  { q with shape := { q.shape with filter := some filter } }

def orderBy (q : Query) (e : Expr) (d : Direction) : Query :=
  { q with shape := { q.shape with orderBy := q.shape.orderBy ++ [⟨e, d⟩] } }

def skip (q : Query) (n : UInt64) : Query :=
  { q with shape := { q.shape with skip := some n } }

def take (q : Query) (n : UInt64) : Query :=
  { q with shape := { q.shape with take := some n } }

def join (q : Query) (entityType : TypeId) (outerKey : Expr) (innerKey : String) :
    Query × SourceId :=
  let id : SourceId := ⟨UInt32.ofNat q.shape.joins.length + 1⟩
  let j : Join := ⟨⟨id, entityType⟩, outerKey, innerKey⟩
  ({ q with shape := { q.shape with joins := q.shape.joins ++ [j] } }, id)

def select (q : Query) (s : Selector) : Query :=
  { q with shape := { q.shape with selector := s } }

def withParameter (q : Query) (name : String) (v : Value) : Query :=
  { q with parameters := q.parameters.insert name v }

def sources (q : Query) : List QuerySource := q.shape.source :: q.shape.joins.map (·.source)

def findSource (q : Query) (id : SourceId) : Except SchemaError QuerySource :=
  match q.sources.find? (·.id == id) with
  | some s => .ok s
  | none => .error (.querySourceNotFound id)

end Query

end EntityStore
