import EntityStore.Number.Binary64

/-!
# Values

A value is what a property of an entity, a column of a row, a constant or a parameter holds.
Equality of the type `Value` compares reals by their bits, as keys do; `Value.same` compares them
as numbers.
-/

namespace EntityStore

inductive ValueType
  | bool
  | integer
  | real
  | text
  | blob
deriving DecidableEq, Inhabited

inductive Value
  | null
  | bool (b : Bool)
  | integer (i : Int64)
  | real (r : Binary64)
  | text (s : String)
  | blob (bytes : List UInt8)
deriving DecidableEq, Inhabited

/-- The form of a value that can tell the types of a hierarchy apart. -/
inductive DiscriminatorKey
  | integer (i : Int64)
  | text (s : String)
deriving DecidableEq, Inhabited

namespace ValueType

def name : ValueType → String
  | .bool => "bool"
  | .integer => "integer"
  | .real => "real"
  | .text => "text"
  | .blob => "blob"

/-- The column type in a table definition; truth values are stored as integers. -/
def columnType : ValueType → String
  | .bool | .integer => "INTEGER"
  | .real => "REAL"
  | .text => "TEXT"
  | .blob => "BLOB"

end ValueType

namespace Value

def type? : Value → Option ValueType
  | .null => none
  | .bool _ => some .bool
  | .integer _ => some .integer
  | .real _ => some .real
  | .text _ => some .text
  | .blob _ => some .blob

def isNull : Value → Bool
  | .null => true
  | _ => false

/-- Numerical equality on reals, equality on everything else. -/
def same : Value → Value → Bool
  | .real x, .real y => x.numericEq y
  | v, w => decide (v = w)

def ofBool (b : Bool) : Int64 := if b then 1 else 0

def toInt64? : Value → Option Int64
  | .integer i => some i
  | .bool b => some (ofBool b)
  | _ => none

def toReal? : Value → Option Binary64
  | .integer i => some (Binary64.ofInt i.toInt)
  | .bool b => some (Binary64.ofInt (ofBool b).toInt)
  | .real r => some r
  | _ => none

def discriminatorKey? : Value → Option DiscriminatorKey
  | .integer i => some (.integer i)
  | .bool b => some (.integer (ofBool b))
  | .text s => some (.text s)
  | _ => none

/-- The value in a declared type, or nothing if it does not fit. Null fits every type, truth values
and whole numbers pass into each other where that loses nothing, integers widen to reals, and a
real without fractional part narrows to an integer. -/
def convert? : Value → ValueType → Option Value
  | .null, _ => some .null
  | .bool b, .bool => some (.bool b)
  | .bool b, .integer => some (.integer (ofBool b))
  | .integer i, .integer => some (.integer i)
  | .integer i, .bool =>
    if i = 0 then some (.bool false) else if i = 1 then some (.bool true) else none
  | .integer i, .real => some (.real (Binary64.ofInt i.toInt))
  | .real r, .real => some (.real r)
  | .real r, .integer => if r.isWhole then some (.integer r.toInt64) else none
  | .text s, .text => some (.text s)
  | .blob b, .blob => some (.blob b)
  | _, _ => none

end Value

end EntityStore
