import EntityStore.Schema.Error

/-!
# Schemas

A schema lists entity types in order of registration, so the number of a type is its position,
and the foreign keys between them. Types form hierarchies that share the table of their root.
-/

namespace EntityStore

structure Property where
  name : String
  column : Option String
  type : ValueType
  nullable : Bool
deriving DecidableEq, Inhabited

/-- The column of a property is named as the property unless said otherwise. -/
def Property.columnName (p : Property) : String := p.column.getD p.name

/-- What is said about a type when it is registered. Key, table and discriminator property are for
roots only. -/
structure EntityTypeDef where
  name : String
  base : Option String
  isAbstract : Bool
  properties : List Property
  key : List String
  table : Option String
  discriminatorProperty : Option String
  discriminatorValue : Option Value
deriving DecidableEq, Inhabited

/-- A registered type; `properties` are those declared on the type itself. -/
structure EntityType where
  id : TypeId
  name : String
  base : Option TypeId
  isAbstract : Bool
  properties : List Property
  key : List String
  table : Option String
  discriminatorProperty : Option String
  discriminatorValue : Option Value
deriving DecidableEq, Inhabited

def EntityType.isRoot (t : EntityType) : Bool := t.base.isNone

structure ForeignKeyDef where
  dependent : String
  principal : String
  dependentProperties : List String
  principalProperties : List String
deriving DecidableEq

/-- A reference from rows of `dependent` to rows of `principal`. -/
structure ForeignKey where
  dependent : TypeId
  principal : TypeId
  dependentProperties : List String
  principalProperties : List String
deriving DecidableEq

structure SchemaDef where
  entityTypes : List EntityTypeDef
  foreignKeys : List ForeignKeyDef

structure Schema where
  types : List EntityType
  foreignKeys : List ForeignKey
deriving DecidableEq, Inhabited

namespace Schema

def empty : Schema := ⟨[], []⟩

def type? (s : Schema) (id : TypeId) : Option EntityType := s.types[id.toNat]?

def entityType (s : Schema) (id : TypeId) : Except SchemaError EntityType :=
  match s.type? id with
  | some t => .ok t
  | none => .error (.entityTypeNotFound id)

def findByName? (s : Schema) (name : String) : Option EntityType :=
  s.types.find? (·.name == name)

def entityTypeByName (s : Schema) (name : String) : Except SchemaError EntityType :=
  match s.findByName? name with
  | some t => .ok t
  | none => .error (.entityTypeNameNotFound name)

/-- The roots in order of registration; each has a table. -/
def roots (s : Schema) : List EntityType := s.types.filter (·.isRoot)

def derived (s : Schema) (id : TypeId) : List EntityType :=
  s.types.filter (fun t => t.base == some id)

end Schema

end EntityStore
