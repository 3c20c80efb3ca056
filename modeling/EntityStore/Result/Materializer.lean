import EntityStore.Sql.Select
import EntityStore.Entity

/-!
# Materializers

A materializer makes an entity of a result row. It is built together with the select statement:
building it adds the columns it reads and, for a type that shares its table, restricts the source
to the rows of the type.

* If the only concrete type is the root, rows need no discriminator.
* If it is another type, an equation on the discriminator column restricts the rows.
* If there are several, the discriminator of each row picks the type, and a disjunction of
  equations restricts the rows.
-/

namespace EntityStore

abbrev Row := List Value

namespace Row

def outOfRange (index count : Nat) : StoreError :=
  .invalidArgument "index" ("column " ++ toString index ++ " out of range for row of " ++
    toString count ++ " column(s)")

def read (row : Row) (index : Nat) : Except StoreError Value :=
  match row[index]? with
  | some v => .ok v
  | none => .error (outOfRange index row.length)

def readAs (row : Row) (index : Nat) (t : ValueType) : Except StoreError Value := do
  let v ← row.read index
  v.coerce t

end Row

structure PropertyColumn where
  name : String
  index : Nat
  type : ValueType
deriving DecidableEq

structure EntityShape where
  entityType : TypeId
  typeName : String
  columns : List PropertyColumn
deriving DecidableEq

def EntityShape.shape (s : EntityShape) (row : Row) : Except StoreError Entity := do
  let pairs ← s.columns.mapM (fun c => do
    let v ← row.readAs c.index c.type
    return (c.name, v))
  return { entityType := s.entityType, typeName := s.typeName, values := .ofList pairs }

inductive Materializer
  | plain (shape : EntityShape)
  | dispatching (root : String) (index : Nat) (type : ValueType)
      (shapes : List (DiscriminatorKey × EntityShape))
deriving DecidableEq

namespace Materializer

def shapeFor? (shapes : List (DiscriminatorKey × EntityShape)) (v : Value) : Option EntityShape :=
  v.discriminatorKey?.bind (fun key => OrderedMap.lookup key shapes)

def materialize (m : Materializer) (row : Row) : Except StoreError Entity :=
  match m with
  | .plain shape => shape.shape row
  | .dispatching root index type shapes => do
    let v ← row.readAs index type
    match shapeFor? shapes v with
    | some shape => shape.shape row
    | none => throw (.unableToDiscriminate root v.display)

def readsDiscriminator : Materializer → Bool
  | .plain _ => false
  | .dispatching _ _ _ _ => true

def concreteProperties (s : Schema) (id : TypeId) :
    Except SchemaError (List (EntityType × List Property)) := do
  let types ← s.concreteTypes id
  types.mapM (fun t => do
    let properties ← s.properties t.id
    return (t, properties))

/-- How a property finds its place in the row while a select statement is being built. -/
abbrev ColumnAdder := Select → Property → Nat × Select

def addColumns (add : ColumnAdder) : Select → List Property → List PropertyColumn × Select
  | select, [] => ([], select)
  | select, p :: rest =>
    let (index, select) := add select p
    let (columns, select) := addColumns add select rest
    ({ name := p.name, index := index, type := p.type } :: columns, select)

def addShapes (add : ColumnAdder) :
    Select → List (EntityType × List Property) → List (EntityType × EntityShape) × Select
  | select, [] => ([], select)
  | select, (t, properties) :: rest =>
    let (columns, select) := addColumns add select properties
    let (shapes, select) := addShapes add select rest
    ((t, { entityType := t.id, typeName := t.name, columns := columns }) :: shapes, select)

def discriminatorValue (t : EntityType) : Except StoreError Value :=
  match t.discriminatorValue with
  | some v => .ok v
  | none => .error (.queryRejected ("concrete type '" ++ t.name ++ "' has no discriminator value"))

/-- The column that a source reads the discriminator from, which the statement must contain. -/
def discriminatorColumn (s : Schema) (id : TypeId) (select : Select) (source : SourceId) :
    Except StoreError (SqlExpr × Property) := do
  let root ← s.root id
  let discriminator ← s.discriminator? id
  match discriminator with
  | none =>
    throw (.queryRejected ("hierarchy '" ++ root.name ++ "' has no discriminator property"))
  | some p =>
    match select.findColumn? source p.columnName with
    | none =>
      throw (.queryRejected ("discriminator column '" ++ p.columnName ++
        "' is not part of the query"))
    | some entry => return (entry.expr, p)

def discriminatorIndex (select : Select) (column : SqlExpr) : Except StoreError Nat :=
  match select.projection.findIdx? (·.expr.same column) with
  | some i => .ok i
  | none => .error (.queryRejected "discriminator column is not projected")

def typeTest (column : SqlExpr) (t : EntityType) : Except StoreError SqlExpr := do
  let v ← discriminatorValue t
  return .equals column (.literal v)

def dispatchEntry (t : EntityType) (shape : EntityShape) :
    Except StoreError (DiscriminatorKey × EntityShape) := do
  let v ← discriminatorValue t
  match v.discriminatorKey? with
  | some key => return (key, shape)
  | none =>
    throw (.queryRejected ("discriminator value " ++ v.display ++ " of '" ++ t.name ++
      "' is not text or integer"))

/-- The materializer for the given shapes, and the restriction of the source if it needs one. -/
def assemble (s : Schema) (id : TypeId) (root : EntityType) (select : Select)
    (source : SourceId) (shapes : List (EntityType × EntityShape)) :
    Except StoreError (Materializer × Option SqlExpr) :=
  match shapes with
  | [] => do
    let t ← s.entityType id
    throw (.queryRejected ("entity type '" ++ t.name ++ "' has no concrete type to materialize"))
  | [(t, shape)] =>
    if t.id = root.id then return (.plain shape, none)
    else do
      let (column, _) ← discriminatorColumn s id select source
      let test ← typeTest column t
      return (.plain shape, some test)
  | shapes => do
    let (column, p) ← discriminatorColumn s id select source
    let index ← discriminatorIndex select column
    let entries ← shapes.mapM (fun (t, shape) => dispatchEntry t shape)
    let tests ← shapes.mapM (fun (t, _) => typeTest column t)
    return (.dispatching root.name index p.type entries, SqlExpr.any? tests)

/-- Builds the materializer for a type read through a source. The statement keeps the columns that
were added to it even if the building fails. -/
def build (s : Schema) (id : TypeId) (add : ColumnAdder) (source : SourceId) (select : Select) :
    Except StoreError Materializer × Select :=
  match (do
      let types ← concreteProperties s id
      let root ← s.root id
      return (types, root) : Except SchemaError _) with
  | .error e => (.error (.schema e), select)
  | .ok (types, root) =>
    let (shapes, select) := addShapes add select types
    match assemble s id root select source shapes with
    | .error e => (.error e, select)
    | .ok (m, none) => (.ok m, select)
    | .ok (m, some p) => (.ok m, select.setDiscriminator source p)

/-- The discriminator property by which the rows of a type are told from others of its table,
unless the only concrete type is the root or there is no discriminator. -/
def restrictingProperty (s : Schema) (id : TypeId) :
    Except SchemaError (Option (Property × List EntityType)) := do
  let types ← s.concreteTypes id
  let root ← s.root id
  if types.map (·.id) = [root.id] then return none
  let discriminator ← s.discriminator? id
  return discriminator.map (·, types)

def restriction (s : Schema) (id : TypeId) (column : SqlExpr) (types : List EntityType) :
    Except StoreError SqlExpr := do
  let tests ← types.mapM (typeTest column)
  match SqlExpr.any? tests with
  | some p => return p
  | none =>
    throw (.queryRejected ("entity type '" ++
      ((s.type? id).map (·.name)).getD "?" ++ "' has no concrete type to query"))

/-- Restricts a source that is not materialized to the rows of its type. The discriminator column
serves the predicate only. -/
def restrict (s : Schema) (id : TypeId) (column : Property → SqlExpr) (source : SourceId)
    (select : Select) : Except StoreError Unit × Select :=
  match restrictingProperty s id with
  | .error e => (.error (.schema e), select)
  | .ok none => (.ok (), select)
  | .ok (some (p, types)) =>
    let e := column p
    let select := select.addFilterColumn e (some source)
    match restriction s id e types with
    | .error e => (.error e, select)
    | .ok predicate => (.ok (), select.setDiscriminator source predicate)

end Materializer

end EntityStore
