import EntityStore.Number.Shortest

/-!
# Written forms of a number

One `Layout` says everything in which two spellings of the same shortest decimal differ.
-/

namespace EntityStore

/-- How a number is written once its digits are known. -/
structure Layout where
  /-- Positional notation is used when the decimal point lies above this place … -/
  above : Option Int
  /-- … and not above this one; no bound means always. -/
  upTo : Option Int
  /-- A whole number in positional notation ends in `.0`. -/
  wholeMark : Bool
  /-- A positive exponent carries a plus sign. -/
  plusSign : Bool
  tie : TieRule
  nan : String
  infinity : String
  negativeInfinity : String

namespace Layout

/-- Always positional, as numbers stand in messages. -/
def plain : Layout :=
  { above := none, upTo := none, wholeMark := false, plusSign := false, tie := .up
    nan := "NaN", infinity := "inf", negativeInfinity := "-inf" }

/-- As `plain`, but reals stay recognisable as reals and extreme sizes take an exponent. -/
def faithful : Layout :=
  { above := some (-4), upTo := some 16, wholeMark := true, plusSign := false, tie := .up
    nan := "NaN", infinity := "inf", negativeInfinity := "-inf" }

/-- As numbers stand in JSON, which has no form for the values that are no finite number. -/
def json : Layout :=
  { above := some (-5), upTo := some 16, wholeMark := true, plusSign := true, tie := .even
    nan := "null", infinity := "null", negativeInfinity := "null" }

def isPositional (l : Layout) (point : Int) : Bool :=
  (match l.above with | some p => decide (p < point) | none => true) &&
  (match l.upTo with | some p => decide (point ≤ p) | none => true)

def positional (l : Layout) (d : Decimal) : List Char :=
  if d.point ≤ 0 then
    '0' :: '.' :: (List.replicate (-d.point).toNat '0' ++ d.digits)
  else
    let whole := d.point.toNat
    if d.digits.length ≤ whole then
      d.digits ++ List.replicate (whole - d.digits.length) '0' ++
        (if l.wholeMark then ['.', '0'] else [])
    else
      d.digits.take whole ++ '.' :: d.digits.drop whole

def exponential (l : Layout) (d : Decimal) : List Char :=
  let exponent := d.point - 1
  let fraction := match d.digits.drop 1 with
    | [] => []
    | rest => '.' :: rest
  let sign := if exponent < 0 then ['-'] else if l.plusSign then ['+'] else []
  d.digits.take 1 ++ fraction ++ 'e' :: sign ++ Nat.toDigits 10 exponent.natAbs

def zero (l : Layout) : List Char := if l.wholeMark then ['0', '.', '0'] else ['0']

def render (l : Layout) (x : Binary64) : String :=
  if x.isNaN then l.nan
  else if x.isFinite then
    let sign := if x.isNegative then ['-'] else []
    let body :=
      if x.units = 0 then l.zero
      else
        let d := Shortest.decimal l.tie x
        if l.isPositional d.point then l.positional d else l.exponential d
    String.ofList (sign ++ body)
  else if x.isNegative then l.negativeInfinity else l.infinity

end Layout

end EntityStore
