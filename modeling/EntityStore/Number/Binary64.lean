/-!
# Binary64 numbers

A real number of the store is its 64-bit pattern. Finite numbers are whole multiples of the
least subnormal `2 ^ -1074`, so comparison, rounding and truncation are exact integer
arithmetic on that multiple. An infinity counts as `2 ^ 2098` of these units, which exceeds
every finite number.
-/

namespace EntityStore

/-- A binary64 number, given by its bits. Equality of this type is equality of bits. -/
structure Binary64 where
  bits : UInt64
deriving DecidableEq, Inhabited

namespace Binary64

def signWeight : Nat := Nat.pow 2 63

/-- The number of magnitudes with one exponent field. -/
def binadeSize : Nat := Nat.pow 2 52

def isNegative (x : Binary64) : Bool := decide (signWeight ≤ x.bits.toNat)

def magnitude (x : Binary64) : Nat := x.bits.toNat % signWeight

def exponentField (x : Binary64) : Nat := x.magnitude / binadeSize

def fraction (x : Binary64) : Nat := x.magnitude % binadeSize

/-- The magnitude of an infinity; magnitudes above it are not numbers. -/
def infinityMagnitude : Nat := 2047 * binadeSize

def isNaN (x : Binary64) : Bool := decide (infinityMagnitude < x.magnitude)

def isFinite (x : Binary64) : Bool := decide (x.magnitude < infinityMagnitude)

/-- Units in one: `1 = unitsPerOne * 2 ^ -1074`. -/
def unitsPerOne : Nat := Nat.pow 2 1074

def units (x : Binary64) : Nat :=
  if x.exponentField = 0 then x.fraction
  else (binadeSize + x.fraction) * Nat.pow 2 (x.exponentField - 1)

def signedUnits (x : Binary64) : Int :=
  if x.isNegative then -(x.units : Int) else x.units

/-- Numerical comparison; nothing compares with a NaN, and the two zeros are equal. -/
def compare? (x y : Binary64) : Option Ordering :=
  if x.isNaN || y.isNaN then none else some (compare x.signedUnits y.signedUnits)

/-- Numerical equality: false on a NaN, true on the two zeros. -/
def numericEq (x y : Binary64) : Bool := x.compare? y == some .eq

def ofMagnitude (negative : Bool) (magnitude : Nat) : Binary64 :=
  ⟨UInt64.ofNat (if negative then magnitude + signWeight else magnitude)⟩

def nan : Binary64 := ofMagnitude false (infinityMagnitude + binadeSize / 2)

def infinity (negative : Bool) : Binary64 := ofMagnitude negative infinityMagnitude

/-- The nearest whole number to `num / den`, a tie going to the even one. -/
def nearestEven (num den : Nat) : Nat :=
  let low := num / den
  let twice := 2 * (num % den)
  if twice < den then low
  else if den < twice then low + 1
  else if low % 2 = 0 then low else low + 1

/-- The magnitude nearest to `num / den` units. The significand of a magnitude of `b` bits is
cut `b - 53` places above the unit, and consecutive binades are contiguous as bit patterns. -/
def nearestMagnitude (num den : Nat) : Nat :=
  let shift := (num / den).log2 - 52
  min infinityMagnitude (shift * binadeSize + nearestEven num (den * Nat.pow 2 shift))

/-- The binary64 number nearest to `± num / den` units. -/
def nearest (negative : Bool) (num den : Nat) : Binary64 :=
  ofMagnitude negative (nearestMagnitude num den)

def ofInt (i : Int) : Binary64 :=
  nearest (decide (i < 0)) (i.natAbs * unitsPerOne) 1

def zero : Binary64 := ⟨0⟩

def one : Binary64 := ofInt 1

/-- The nearest number to `± digits * 10 ^ exponent`. Magnitudes that are certainly out of range
are decided by their number of digits, so the powers stay small. -/
def ofDecimal (negative : Bool) (digits : Nat) (exponent : Int) : Binary64 :=
  let size := exponent + ((Nat.toDigits 10 digits).length : Int)
  if digits = 0 then ofMagnitude negative 0
  else if 400 < size then infinity negative
  else if size < -400 then ofMagnitude negative 0
  else if 0 ≤ exponent then nearest negative (digits * Nat.pow 10 exponent.toNat * unitsPerOne) 1
  else nearest negative (digits * unitsPerOne) (Nat.pow 10 (-exponent).toNat)

def isWhole (x : Binary64) : Bool := x.isFinite && x.units % unitsPerOne == 0

def truncate (x : Binary64) : Int := x.signedUnits.tdiv unitsPerOne

/-- The whole part brought into the 64-bit range; zero for a NaN. -/
def toInt64 (x : Binary64) : Int64 :=
  if x.isNaN then 0 else Int64.ofIntClamp x.truncate

end Binary64

end EntityStore
