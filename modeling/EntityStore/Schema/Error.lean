import EntityStore.Value.Text

/-!
# Schema errors

What can be wrong with a schema, with a reference into it, or with the shape of a value.
-/

namespace EntityStore

/-- The number of an entity type: its position in the order of registration. -/
structure TypeId where
  index : UInt32
deriving DecidableEq, Inhabited

structure SourceId where
  index : UInt32
deriving DecidableEq, Inhabited

namespace TypeId

def toNat (id : TypeId) : Nat := id.index.toNat

def text (id : TypeId) : String := toString id.toNat

end TypeId

namespace SourceId

def toNat (id : SourceId) : Nat := id.index.toNat

def text (id : SourceId) : String := toString id.toNat

end SourceId

inductive HierarchyFault
  | rootSettingOnDerived (typeName : String)
  | redeclared (typeName property : String)
  | noKey
  | noDiscriminator
  | discriminatorType (property : String)
  | noDiscriminatorValue (typeName : String)
  | discriminatorValue (value : Value) (typeName : String)
  | endless
deriving DecidableEq

def HierarchyFault.message : HierarchyFault → String
  | .rootSettingOnDerived name =>
    "derived type '" ++ name ++ "' cannot declare a key, table, or discriminator property"
  | .redeclared name property =>
    "'" ++ name ++ "' redeclares inherited property '" ++ property ++ "'"
  | .noKey => "root type declares no key"
  | .noDiscriminator => "hierarchy with derived types requires a discriminator property"
  | .discriminatorType property =>
    "discriminator property '" ++ property ++ "' must be text or integer"
  | .noDiscriminatorValue name =>
    "concrete type '" ++ name ++ "' has no discriminator value"
  | .discriminatorValue value name =>
    "discriminator value " ++ value.display ++ " of '" ++ name ++ "' must be text or integer"
  | .endless => "the types derived from it have no end"

inductive SchemaError
  | duplicateEntityType (name : String)
  | entityTypeNotFound (id : TypeId)
  | entityTypeNameNotFound (name : String)
  | propertyNotFound (typeName property : String)
  | querySourceNotFound (id : SourceId)
  | invalidHierarchy (root : String) (fault : HierarchyFault)
  | duplicateDiscriminator (root : String) (value : Value)
  | typeMismatch (expected : ValueType) (found : Value)
  | resultShape (expected : String)
deriving DecidableEq

def SchemaError.message : SchemaError → String
  | .duplicateEntityType name => "duplicate entity type name: '" ++ name ++ "'"
  | .entityTypeNotFound id => "entity type not found: EntityTypeId(" ++ id.text ++ ")"
  | .entityTypeNameNotFound name => "entity type not found: '" ++ name ++ "'"
  | .propertyNotFound typeName property =>
    "property '" ++ property ++ "' not found on entity type '" ++ typeName ++ "'"
  | .querySourceNotFound id => "query source not found: QuerySourceId(" ++ id.text ++ ")"
  | .invalidHierarchy root fault =>
    "invalid hierarchy rooted at '" ++ root ++ "': " ++ fault.message
  | .duplicateDiscriminator root value =>
    "duplicate discriminator value " ++ value.display ++ " in hierarchy '" ++ root ++ "'"
  | .typeMismatch expected found =>
    "type mismatch: expected " ++ expected.name ++ ", found " ++ found.display
  | .resultShape expected => "result shape mismatch: expected " ++ expected

def Value.coerce (v : Value) (t : ValueType) : Except SchemaError Value :=
  match v.convert? t with
  | some w => .ok w
  | none => .error (.typeMismatch t v)

end EntityStore
