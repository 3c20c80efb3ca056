import EntityStore.Number.Notation
import EntityStore.OrderedMap
import EntityStore.Text.Hex
import EntityStore.Value.Text

/-!
# Tagged values

A JSON form of values that keeps their types: a real is an object with its text under `$real`, a
blob one with its bytes in hexadecimal under `$blob`. Named values are a list of pairs.
-/

namespace EntityStore

namespace Value

def toTagged : Value → Json
  | .null => .null
  | .bool b => .bool b
  | .integer i => .int i.toInt
  | .real r => .obj [("$real", .str (Layout.faithful.render r))]
  | .text s => .str s
  | .blob bytes => .obj [("$blob", .str (Hex.encode bytes))]

def ofTagged? : Json → Option Value
  | .null => some .null
  | .bool b => some (.bool b)
  | .int i =>
    if Int64.minValue.toInt ≤ i ∧ i ≤ Int64.maxValue.toInt then some (.integer (Int64.ofInt i))
    else none
  | .str s => some (.text s)
  | .obj [("$real", .str s)] => (Binary64.ofText? s).map .real
  | .obj [("$blob", .str s)] => (Hex.decode? s.toList).map .blob
  | _ => none

def listToTagged (values : List Value) : Json := .arr (values.map toTagged)

def pairOfTagged? : Json → Option (String × Value)
  | .arr [.str name, v] => (ofTagged? v).map (name, ·)
  | _ => none

end Value

def OrderedMap.toTagged (m : OrderedMap String Value) : Json :=
  .arr (m.entries.map (fun (name, v) => .arr [.str name, v.toTagged]))

/-- Of two pairs with one name the second gives the value. -/
def OrderedMap.ofTagged? (j : Json) : Option (OrderedMap String Value) :=
  (j.list? Value.pairOfTagged?).map .ofList

namespace Json

mutual

/-- A document with its tagged values in the plain form, in which a number that is not finite is
null. -/
def untag : Json → Json
  | .obj [("$real", .str s)] => (((Binary64.ofText? s).map Value.real).getD .null).toJson
  | .obj [("$blob", .str s)] => (((Hex.decode? s.toList).map Value.blob).getD .null).toJson
  | .obj fields => .obj (untagFields fields)
  | .arr items => .arr (untagItems items)
  | j => j

def untagItems : List Json → List Json
  | [] => []
  | j :: rest => j.untag :: untagItems rest

def untagFields : List (String × Json) → List (String × Json)
  | [] => []
  | (name, j) :: rest => (name, j.untag) :: untagFields rest

end

end Json

end EntityStore
