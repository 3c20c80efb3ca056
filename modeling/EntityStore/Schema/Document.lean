import EntityStore.Schema.Registration
import EntityStore.Json.Parser

/-!
# Schema documents

The JSON form of definitions.
-/

namespace EntityStore

namespace Property

def ofJson? (j : Json) : Option Property := do
  match ← j.record? ["name", "column", "value_type", "nullable"] with
  | [name, column, type, nullable] =>
    return {
      name := ← Json.required Json.str? name
      column := ← Json.optional Json.str? column
      type := ← Json.required ValueType.ofJson? type
      nullable := ← Json.orDefault false Json.bool? nullable }
  | _ => none

def toJson (p : Property) : Json :=
  .obj [("name", .str p.name), ("column", Json.ofOption .str p.column),
    ("value_type", .str p.type.tag), ("nullable", .bool p.nullable)]

end Property

namespace EntityTypeDef

def ofJson? (j : Json) : Option EntityTypeDef := do
  match ← j.record? ["name", "base", "abstract", "properties", "key", "table",
      "discriminator_property", "discriminator_value"] with
  | [name, base, isAbstract, properties, key, table, discriminator, value] =>
    return {
      name := ← Json.required Json.str? name
      base := ← Json.optional Json.str? base
      isAbstract := ← Json.orDefault false Json.bool? isAbstract
      properties := ← Json.orDefault [] (Json.list? Property.ofJson?) properties
      key := ← Json.orDefault [] (Json.list? Json.str?) key
      table := ← Json.optional Json.str? table
      discriminatorProperty := ← Json.optional Json.str? discriminator
      discriminatorValue := ← Json.optional Value.ofJson? value }
  | _ => none

def toJson (d : EntityTypeDef) : Json :=
  .obj [("name", .str d.name), ("base", Json.ofOption .str d.base),
    ("abstract", .bool d.isAbstract),
    ("properties", .arr (d.properties.map Property.toJson)),
    ("key", .arr (d.key.map .str)), ("table", Json.ofOption .str d.table),
    ("discriminator_property", Json.ofOption .str d.discriminatorProperty),
    ("discriminator_value", Json.ofOption Value.toJson d.discriminatorValue)]

def named (name : String) : EntityTypeDef :=
  { name := name, base := none, isAbstract := false, properties := [], key := [], table := none
    discriminatorProperty := none, discriminatorValue := none }

end EntityTypeDef

namespace ForeignKeyDef

def ofJson? (j : Json) : Option ForeignKeyDef := do
  match ← j.record? ["dependent", "principal", "dependent_properties",
      "principal_properties"] with
  | [dependent, principal, dependentProperties, principalProperties] =>
    return {
      dependent := ← Json.required Json.str? dependent
      principal := ← Json.required Json.str? principal
      dependentProperties := ← Json.required (Json.list? Json.str?) dependentProperties
      principalProperties := ← Json.required (Json.list? Json.str?) principalProperties }
  | _ => none

def toJson (d : ForeignKeyDef) : Json :=
  .obj [("dependent", .str d.dependent), ("principal", .str d.principal),
    ("dependent_properties", .arr (d.dependentProperties.map .str)),
    ("principal_properties", .arr (d.principalProperties.map .str))]

end ForeignKeyDef

namespace SchemaDef

def ofJson? (j : Json) : Option SchemaDef := do
  match ← j.record? ["entity_types", "foreign_keys"] with
  | [types, foreignKeys] =>
    return {
      entityTypes := ← Json.orDefault [] (Json.list? EntityTypeDef.ofJson?) types
      foreignKeys := ← Json.orDefault [] (Json.list? ForeignKeyDef.ofJson?) foreignKeys }
  | _ => none

def toJson (d : SchemaDef) : Json :=
  .obj [("entity_types", .arr (d.entityTypes.map EntityTypeDef.toJson)),
    ("foreign_keys", .arr (d.foreignKeys.map ForeignKeyDef.toJson))]

def ofText? (text : String) : Option SchemaDef := do
  let j ← Json.parse? Json.nestingLimit text
  ofJson? j

end SchemaDef

end EntityStore
