import EntityStore.Schema.Hierarchy

/-!
# Building schemas

Types and foreign keys are registered one at a time; a refused registration leaves the schema as it
was. `Schema.validate` checks what can only be said about a whole hierarchy.
-/

namespace EntityStore.Schema

/-- A derived type leaves the settings of the hierarchy to its root and does not redeclare what it
inherits. -/
def checkDerived (s : Schema) (base : TypeId) (d : EntityTypeDef) : Except SchemaError Unit := do
  if !d.key.isEmpty || d.table.isSome || d.discriminatorProperty.isSome then
    let root ← s.root base
    throw (.invalidHierarchy root.name (.rootSettingOnDerived d.name))
  let inherited ← s.properties base
  match d.properties.find? (fun p => inherited.any (fun q => q.name == p.name)) with
  | some p =>
    let root ← s.root base
    throw (.invalidHierarchy root.name (.redeclared d.name p.name))
  | none => return ()

def nextId (s : Schema) : TypeId := ⟨UInt32.ofNat s.types.length⟩

def addType (s : Schema) (d : EntityTypeDef) : Except SchemaError (TypeId × Schema) := do
  if (s.findByName? d.name).isSome then throw (.duplicateEntityType d.name)
  let base ← match d.base with
    | none => pure none
    | some name => do
      let t ← s.entityTypeByName name
      pure (some t.id)
  match base with
  | some id => s.checkDerived id d
  | none => pure ()
  let t : EntityType :=
    { id := s.nextId, name := d.name, base := base, isAbstract := d.isAbstract
      properties := d.properties, key := d.key, table := d.table
      discriminatorProperty := d.discriminatorProperty
      discriminatorValue := d.discriminatorValue }
  return (s.nextId, { s with types := s.types ++ [t] })

def addForeignKey (s : Schema) (d : ForeignKeyDef) : Except SchemaError Schema := do
  let dependent ← s.entityTypeByName d.dependent
  let principal ← s.entityTypeByName d.principal
  d.dependentProperties.forM (fun name => discard (s.property dependent.id name))
  d.principalProperties.forM (fun name => discard (s.property principal.id name))
  let fk : ForeignKey :=
    { dependent := dependent.id, principal := principal.id
      dependentProperties := d.dependentProperties
      principalProperties := d.principalProperties }
  return { s with foreignKeys := s.foreignKeys ++ [fk] }

/-- Every concrete type has a discriminator value of the discriminator's type, and no two have the
same. The keys seen so far are passed along. -/
def validateDiscriminators (root : EntityType) (discriminator : Property) :
    List DiscriminatorKey → List EntityType → Except SchemaError Unit
  | _, [] => return ()
  | seen, t :: rest => do
    let value ← match t.discriminatorValue with
      | some v => pure v
      | none => throw (.invalidHierarchy root.name (.noDiscriminatorValue t.name))
    let key ← match value.discriminatorKey? with
      | some k => pure k
      | none => throw (.invalidHierarchy root.name (.discriminatorValue value t.name))
    discard (value.coerce discriminator.type)
    if seen.contains key then throw (.duplicateDiscriminator root.name value)
    validateDiscriminators root discriminator (key :: seen) rest

def canDiscriminate : ValueType → Bool
  | .text | .integer | .bool => true
  | .real | .blob => false

def validateRoot (s : Schema) (root : EntityType) : Except SchemaError Unit := do
  if root.key.isEmpty then throw (.invalidHierarchy root.name .noKey)
  root.key.forM (fun name => discard (s.property root.id name))
  let types ← s.hierarchy root.id
  let discriminator ← s.discriminator? root.id
  match discriminator with
  | none =>
    if 1 < types.length then throw (.invalidHierarchy root.name .noDiscriminator)
  | some p =>
    if !canDiscriminate p.type then
      throw (.invalidHierarchy root.name (.discriminatorType p.name))
    validateDiscriminators root p [] (types.filter (fun t => !t.isAbstract))

def validate (s : Schema) : Except SchemaError Unit := s.roots.forM s.validateRoot

def addTypes (s : Schema) (ds : List EntityTypeDef) : Except SchemaError Schema :=
  ds.foldlM (fun s d => do let (_, s) ← s.addType d; return s) s

def addForeignKeys (s : Schema) (ds : List ForeignKeyDef) : Except SchemaError Schema :=
  ds.foldlM addForeignKey s

/-- The schema of a definition, not validated. -/
def register (d : SchemaDef) : Except SchemaError Schema := do
  let s ← empty.addTypes d.entityTypes
  s.addForeignKeys d.foreignKeys

def ofDef (d : SchemaDef) : Except SchemaError Schema := do
  let s ← register d
  s.validate
  return s

end EntityStore.Schema
