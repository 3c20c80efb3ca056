import EntityStore.Sql.Definition
import EntityStore.Query.Document
import EntityStore.Value.Tagged
import EntityStore.Error.Document

/-!
# Descriptions of schemas

Everything that can be asked about the types of a schema, as a document.
-/

namespace EntityStore

def Property.describe (p : Property) : Json :=
  .arr [.str p.name, .str p.columnName, .str p.type.name, .bool p.nullable]

def Property.describeAll (properties : List Property) : Json :=
  .arr (properties.map describe)

def EntityType.namesOf (types : List EntityType) : Json := .arr (types.map (fun t => .str t.name))

namespace Schema

def describeType (s : Schema) (id : TypeId) : Except SchemaError Json := do
  let t ← s.entityType id
  let root ← s.root id
  let chain ← s.baseChain id
  let hierarchy ← s.hierarchy id
  let concrete ← s.concreteTypes id
  let properties ← s.properties id
  let key ← s.keyProperties id
  let discriminator ← s.discriminator? id
  let table ← s.tableName id
  let columns ← s.tableColumns id
  return .obj [("id", t.id.toJson), ("name", .str t.name), ("abstract", .bool t.isAbstract),
    ("is_root", .bool t.isRoot), ("base", Json.ofOption TypeId.toJson t.base),
    ("discriminator_value", Json.ofOption Value.toTagged t.discriminatorValue),
    ("root", .str root.name), ("base_chain", EntityType.namesOf chain),
    ("derived", EntityType.namesOf (s.derived id)), ("hierarchy", EntityType.namesOf hierarchy),
    ("concrete", EntityType.namesOf concrete), ("properties", Property.describeAll properties),
    ("key", Property.describeAll key),
    ("discriminator", Json.ofOption (fun p : Property => .str p.name) discriminator),
    ("table", .str table), ("columns", Property.describeAll columns)]

def describeForeignKey (fk : ForeignKey) : Json :=
  .arr [fk.dependent.toJson, fk.principal.toJson, .arr (fk.dependentProperties.map .str),
    .arr (fk.principalProperties.map .str)]

def describe (s : Schema) : Json :=
  .obj [("types", .arr (s.types.map (fun t => SchemaError.outcome (s.describeType t.id)))),
    ("roots", EntityType.namesOf s.roots),
    ("foreign_keys", .arr (s.foreignKeys.map describeForeignKey)),
    ("ddl", .arr (s.roots.map (fun t => SchemaError.outcome ((s.createTable t.id).map .str))))]

end Schema

end EntityStore
