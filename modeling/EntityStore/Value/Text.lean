import EntityStore.Value.Basic
import EntityStore.Number.Layout
import EntityStore.Text.Quoted
import EntityStore.Json.Reader

/-!
# Written forms of values

`display` is used in messages, `inspect` where the type of a value must show, and JSON in
documents. In JSON a value carries no mark of its type: integer and real literals tell numbers
apart, and a blob is a list of its bytes.
-/

namespace EntityStore.Value

def display : Value → String
  | .null => "NULL"
  | .bool b => if b then "true" else "false"
  | .integer i => toString i.toInt
  | .real r => Layout.plain.render r
  | .text s => "'" ++ s ++ "'"
  | .blob bytes => "<" ++ toString bytes.length ++ " bytes>"

def inspect : Value → String
  | .null => "Null"
  | .bool b => "Bool(" ++ (if b then "true" else "false") ++ ")"
  | .integer i => "Integer(" ++ toString i.toInt ++ ")"
  | .real r => "Real(" ++ Layout.faithful.render r ++ ")"
  | .text s => "Text(" ++ Text.quote s ++ ")"
  | .blob bytes => "Blob(" ++ Text.bracketed (bytes.map fun b => toString b.toNat) ++ ")"

def inspectList (values : List Value) : String := Text.bracketed (values.map inspect)

def toJson : Value → Json
  | .null => .null
  | .bool b => .bool b
  | .integer i => .int i.toInt
  | .real r => if r.isFinite then .real r else .null
  | .text s => .str s
  | .blob bytes => .arr (bytes.map fun b => .int b.toNat)

def byte? (j : Json) : Option UInt8 := (j.nat? 256).map UInt8.ofNat

/-- An integer literal outside the signed range is read as a real. -/
def ofJson? : Json → Option Value
  | .null => some .null
  | .bool b => some (.bool b)
  | .int i =>
    if Int64.minValue.toInt ≤ i ∧ i ≤ Int64.maxValue.toInt then some (.integer (Int64.ofInt i))
    else some (.real (Binary64.ofInt i))
  | .real r => if r.isFinite then some (.real r) else none
  | .str s => some (.text s)
  | .arr items => (items.mapM byte?).map .blob
  | .obj _ => none

end EntityStore.Value

namespace EntityStore.ValueType

def tag : ValueType → String
  | .bool => "Bool"
  | .integer => "Integer"
  | .real => "Real"
  | .text => "Text"
  | .blob => "Blob"

def ofTag? (s : String) : Option ValueType :=
  [ValueType.bool, .integer, .real, .text, .blob].find? (·.tag == s)

def ofJson? (j : Json) : Option ValueType := do
  let (name, content) ← j.variant?
  Json.unit? content
  ofTag? name

end EntityStore.ValueType
