import EntityStore.Number.Binary64

/-!
# Real literals

How the digits of a literal become a real number. As many leading digits as fit into 64 bits are
taken as a whole number; it is rounded, and then multiplied or divided by a rounded power of ten.
With up to fifteen digits and a power of at most twenty-two this is the nearest real, otherwise its
last bits may differ.
-/

namespace EntityStore

namespace Binary64

def times (x y : Binary64) : Binary64 := nearest false (x.units * y.units) unitsPerOne

def dividedBy (x y : Binary64) : Binary64 := nearest false (x.units * unitsPerOne) y.units

def powerOfTen (n : Nat) : Binary64 := ofDecimal false 1 n

def withSign (negative : Bool) (x : Binary64) : Binary64 := ofMagnitude negative x.magnitude

/-- A whole number scaled by a power of ten. The greatest power is the 308th: a larger scale gives
an infinity, and a smaller one than its inverse takes two steps. -/
def scaled (n : Nat) (exponent : Int) : Binary64 :=
  let x := ofInt n
  if n = 0 then zero
  else if 308 < exponent then infinity false
  else if 0 ≤ exponent then x.times (powerOfTen exponent.toNat)
  else if -308 ≤ exponent then x.dividedBy (powerOfTen (-exponent).toNat)
  else if -616 ≤ exponent then
    (x.dividedBy (powerOfTen 308)).dividedBy (powerOfTen (-exponent - 308).toNat)
  else zero

end Binary64

namespace Json

/-- Appends decimal digits to a number as long as it fits into 64 bits; gives the number and the
digits that are left. -/
def appendDigits (n : Nat) : List Char → Nat × List Char
  | [] => (n, [])
  | c :: rest =>
    let longer := n * 10 + (c.toNat - '0'.toNat)
    if longer < UInt64.size then appendDigits longer rest else (n, c :: rest)

/-- The real that a literal stands for, given by its digits before and after the point and its
exponent. -/
def realOf (negative : Bool) (whole fraction : List Char) (exponent : Int) : Binary64 :=
  let (n, left) := appendDigits 0 whole
  let (n, dropped) := appendDigits n fraction
  let taken := (fraction.length - dropped.length : Nat)
  (Binary64.scaled n (exponent + left.length - taken)).withSign negative

end Json

end EntityStore
