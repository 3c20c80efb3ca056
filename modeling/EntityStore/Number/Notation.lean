import EntityStore.Json.Token

/-!
# Reading decimal notation

A sign, digits with or without a point, and an exponent; or the name of a value that is no finite
number. The result is the nearest number.
-/

namespace EntityStore.Binary64

open Json.Token (digitRun digitsValue exponentPart?)

def sign : List Char → Bool × List Char
  | '-' :: rest => (true, rest)
  | '+' :: rest => (false, rest)
  | cs => (false, cs)

def fractionDigits : List Char → List Char × List Char
  | '.' :: rest => digitRun rest
  | cs => ([], cs)

def ofDecimalText? (text : String) : Option Binary64 := do
  let (negative, cs) := sign text.toList
  let (whole, cs) := digitRun cs
  let (fraction, cs) := fractionDigits cs
  match exponentPart? cs with
  | some (exponent, []) =>
    if whole.isEmpty && fraction.isEmpty then none
    else
      return .ofDecimal negative (digitsValue (whole ++ fraction))
        (exponent.getD 0 - (fraction.length : Int))
  | _ => none

def ofText? (text : String) : Option Binary64 :=
  if text == "NaN" then some .nan
  else if text == "inf" then some (.infinity false)
  else if text == "-inf" then some (.infinity true)
  else ofDecimalText? text

end EntityStore.Binary64
