import EntityStore.Schema.Document
import EntityStore.Value.Tagged

/-!
# Building definitions step by step

A definition starts with a name; each step says one thing more about it. A step is also a document:
a list of its name and what it says.
-/

namespace EntityStore

namespace Property

/-- A required property whose column is named as the property. -/
def named (name : String) (type : ValueType) : Property :=
  { name := name, column := none, type := type, nullable := false }

def asNullable (p : Property) : Property := { p with nullable := true }

def inColumn (p : Property) (column : String) : Property := { p with column := some column }

def step? (p : Property) : Json → Option Property
  | .arr [.str "nullable"] => some p.asNullable
  | .arr [.str "column", .str column] => some (p.inColumn column)
  | _ => none

end Property

namespace EntityTypeDef

def derives (d : EntityTypeDef) (base : String) : EntityTypeDef := { d with base := some base }

def asAbstract (d : EntityTypeDef) : EntityTypeDef := { d with isAbstract := true }

def withProperty (d : EntityTypeDef) (p : Property) : EntityTypeDef :=
  { d with properties := d.properties ++ [p] }

def withKey (d : EntityTypeDef) (names : List String) : EntityTypeDef := { d with key := names }

def inTable (d : EntityTypeDef) (table : String) : EntityTypeDef := { d with table := some table }

def discriminatedBy (d : EntityTypeDef) (property : String) : EntityTypeDef :=
  { d with discriminatorProperty := some property }

def withDiscriminator (d : EntityTypeDef) (v : Value) : EntityTypeDef :=
  { d with discriminatorValue := some v }

def step? (d : EntityTypeDef) : Json → Option EntityTypeDef
  | .arr [.str "derives", .str base] => some (d.derives base)
  | .arr [.str "abstract"] => some d.asAbstract
  | .arr [.str "key", names] => (names.list? Json.str?).map d.withKey
  | .arr [.str "table", .str table] => some (d.inTable table)
  | .arr [.str "discriminator", .str property] => some (d.discriminatedBy property)
  | .arr [.str "value", v] => (Value.ofTagged? v).map d.withDiscriminator
  | .arr [.str "property", .str name, type, .arr steps] => do
    let type ← ValueType.ofJson? type
    let p ← steps.foldlM Property.step? (.named name type)
    return d.withProperty p
  | _ => none

def afterSteps? : EntityTypeDef → List Json → Option (List EntityTypeDef)
  | _, [] => some []
  | d, j :: rest => do
    let d ← d.step? j
    let more ← afterSteps? d rest
    return d :: more

end EntityTypeDef

end EntityStore
