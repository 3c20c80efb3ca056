import EntityStore.Schema.Hierarchy
import EntityStore.OrderedMap
import EntityStore.Error

/-!
# Entities and pending changes

An entity is an instance of a concrete type. A pending entry is a change to one entity that a save
will make in the store.
-/

namespace EntityStore

abbrev Values := OrderedMap String Value

structure Entity where
  entityType : TypeId
  typeName : String
  values : Values
deriving DecidableEq

namespace Entity

def get? (e : Entity) (property : String) : Option Value := e.values.get? property

def isOf (e : Entity) (typeName : String) : Bool := e.typeName == typeName

def toJson (e : Entity) : Json :=
  .obj [("entity_type", .int e.entityType.toNat), ("type_name", .str e.typeName),
    ("values", .obj (e.values.entries.map (fun p => (p.1, p.2.toJson))))]

end Entity

inductive Materialized
  | entity (e : Entity)
  | values (vs : List Value)
  | tuple (parts : List Entity)
deriving DecidableEq

namespace Materialized

def toJson : Materialized → Json
  | .entity e => e.toJson
  | .values vs => .arr (vs.map Value.toJson)
  | .tuple parts => .arr (parts.map Entity.toJson)

def asEntity : Materialized → Except SchemaError Entity
  | .entity e => .ok e
  | _ => .error (.resultShape "entity")

def asValues : Materialized → Except SchemaError (List Value)
  | .values vs => .ok vs
  | _ => .error (.resultShape "value list")

def asValue : Materialized → Except SchemaError Value
  | .values [v] => .ok v
  | _ => .error (.resultShape "single value")

def asPair : Materialized → Except SchemaError (Entity × Entity)
  | .tuple [a, b] => .ok (a, b)
  | _ => .error (.resultShape "pair of entities")

end Materialized

/-- The values that identify a row, in the order of the key. -/
abbrev EntityKey := List Value

inductive EntryState
  | added
  | modified
  | deleted
deriving DecidableEq

/-- A pending change with the values of the entity now and as last loaded. -/
structure PendingEntry where
  entityType : TypeId
  state : EntryState
  current : Values
  loaded : Values

namespace PendingEntry

/-- The value that identifies the entity in the store: once it is stored, the loaded one comes
first. -/
def identifying? (e : PendingEntry) (property : String) : Option Value :=
  match e.state with
  | .added => e.current.get? property
  | .modified | .deleted => (e.loaded.get? property).or (e.current.get? property)

def key (e : PendingEntry) (s : Schema) : Except SchemaError EntityKey := do
  let properties ← s.keyProperties e.entityType
  properties.mapM (fun p =>
    match e.identifying? p.name with
    | some v => .ok v
    | none => .error (.propertyNotFound (s.typeName e.entityType) p.name))

end PendingEntry

end EntityStore
