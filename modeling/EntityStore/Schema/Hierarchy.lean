import EntityStore.Schema.Basic

/-!
# Hierarchies

The chain of bases above a type and the tree of subtypes below it, and what types inherit through
them: properties, key, discriminator, table and columns. A base is registered before its subtypes,
so the number of types bounds both walks. Only where there are more types than numbers, and a type
got the number of an earlier one, can the walk down come back to where it was.
-/

namespace EntityStore.Schema

/-- A type followed by its bases up to the root. -/
def upward (s : Schema) : Nat → TypeId → Except SchemaError (List EntityType)
  | 0, _ => .ok []
  | steps + 1, id => do
    let t ← s.entityType id
    match t.base with
    | none => return [t]
    | some base =>
      let above ← s.upward steps base
      return t :: above

def baseChain (s : Schema) (id : TypeId) : Except SchemaError (List EntityType) := do
  let chain ← s.upward (s.types.length + 1) id
  return chain.reverse

def topFrom (s : Schema) : Nat → EntityType → Except SchemaError EntityType
  | 0, t => .ok t
  | steps + 1, t =>
    match t.base with
    | none => .ok t
    | some base => do
      let above ← s.entityType base
      s.topFrom steps above

def root (s : Schema) (id : TypeId) : Except SchemaError EntityType := do
  let t ← s.entityType id
  s.topFrom s.types.length t

def isAssignable (s : Schema) (id ancestor : TypeId) : Except SchemaError Bool := do
  let chain ← s.baseChain id
  return chain.any (fun t => t.id == ancestor)

/-- A type followed by the trees of its direct subtypes, if there are at most so many levels. -/
def subtree? (s : Schema) : Nat → EntityType → Option (List EntityType)
  | 0, _ => none
  | levels + 1, t => do
    let below ← (s.derived t.id).mapM (s.subtree? levels)
    return t :: below.flatten

/-- A type and everything derived from it, each type before its subtypes. -/
def hierarchy (s : Schema) (id : TypeId) : Except SchemaError (List EntityType) := do
  let t ← s.entityType id
  match s.subtree? s.types.length t with
  | some types => return types
  | none => throw (.invalidHierarchy t.name .endless)

def concreteTypes (s : Schema) (id : TypeId) : Except SchemaError (List EntityType) := do
  let types ← s.hierarchy id
  return types.filter (fun t => !t.isAbstract)

/-- All properties of a type, inherited ones first. -/
def properties (s : Schema) (id : TypeId) : Except SchemaError (List Property) := do
  let chain ← s.baseChain id
  return chain.flatMap (·.properties)

def typeName (s : Schema) (id : TypeId) : String := ((s.type? id).map (·.name)).getD ""

def property (s : Schema) (id : TypeId) (name : String) : Except SchemaError Property := do
  let all ← s.properties id
  match all.find? (·.name == name) with
  | some p => return p
  | none => throw (.propertyNotFound (s.typeName id) name)

/-- The key of a type is declared on its root. -/
def keyProperties (s : Schema) (id : TypeId) : Except SchemaError (List Property) := do
  let root ← s.root id
  root.key.mapM (s.property root.id)

def discriminator? (s : Schema) (id : TypeId) : Except SchemaError (Option Property) := do
  let root ← s.root id
  match root.discriminatorProperty with
  | none => return none
  | some name =>
    let p ← s.property root.id name
    return some p

def tableOf (root : EntityType) : String := root.table.getD root.name

def tableName (s : Schema) (id : TypeId) : Except SchemaError String := do
  let root ← s.root id
  return tableOf root

def distinctColumns (properties : List Property) : List Property :=
  (properties.foldl (fun kept p =>
    if kept.any (fun q => q.columnName == p.columnName) then kept else p :: kept) []).reverse

/-- The columns of the table of a hierarchy: every property of every type in it, the first
declaration of a column counting. -/
def tableColumns (s : Schema) (id : TypeId) : Except SchemaError (List Property) := do
  let root ← s.root id
  let types ← s.hierarchy root.id
  return distinctColumns (types.flatMap (·.properties))

end EntityStore.Schema
