import EntityStore.Number.Shortest
import Mathlib.Order.Monotone.Basic
import Mathlib.Tactic.Ring
import Mathlib.Tactic.Linarith

/-!
# Intervals of reals that round to one number

The intervals of neighbouring numbers share an end, which belongs to the one with the even
significand. So no point lies in the intervals of two numbers.
-/

namespace EntityStore

namespace Binary64

theorem eq_of_magnitude_eq {x y : Binary64} (hsign : x.isNegative = y.isNegative)
    (hmagnitude : x.magnitude = y.magnitude) : x = y := by
  have hweight : signWeight = 9223372036854775808 := rfl
  have hx := x.bits.toNat_lt
  have hy := y.bits.toNat_lt
  rw [isNegative, isNegative, hweight, decide_eq_decide] at hsign
  rw [magnitude, magnitude, hweight] at hmagnitude
  obtain ⟨bits⟩ := x
  obtain ⟨bits'⟩ := y
  congr 1
  apply UInt64.toNat_inj.1
  simp only at *
  omega

def stepOf (m : Nat) : Nat := 2 ^ (m / binadeSize - 1)

def unitsOf (m : Nat) : Nat :=
  if m / binadeSize = 0 then m % binadeSize else (binadeSize + m % binadeSize) * 2 ^ (m / binadeSize - 1)

theorem units_eq (x : Binary64) : x.units = unitsOf x.magnitude := rfl

theorem stepOf_pos (m : Nat) : 0 < stepOf m := Nat.two_pow_pos _

theorem binadeSize_eq : binadeSize = 4503599627370496 := rfl

theorem succ_cases (m : Nat) :
    ((m + 1) / binadeSize = m / binadeSize ∧ (m + 1) % binadeSize = m % binadeSize + 1) ∨
      ((m + 1) / binadeSize = m / binadeSize + 1 ∧ (m + 1) % binadeSize = 0 ∧
        m % binadeSize = binadeSize - 1) := by
  rw [binadeSize_eq]
  omega

theorem stepOf_next {m : Nat} (h : (m + 1) / binadeSize = m / binadeSize + 1) :
    stepOf (m + 1) = if m / binadeSize = 0 then stepOf m else 2 * stepOf m := by
  unfold stepOf
  rw [h]
  split
  · next hzero => rw [hzero]
  · next hfirst =>
    have hfield := Nat.pos_of_ne_zero hfirst
    rw [Nat.add_sub_cancel, ← Nat.pow_succ', Nat.succ_eq_add_one, Nat.sub_add_cancel hfield]

theorem unitsOf_binade {m : Nat} (hfield : m / binadeSize ≠ 0) (hfraction : m % binadeSize = 0) :
    unitsOf m = binadeSize * stepOf m := by
  rw [unitsOf, if_neg hfield, hfraction, stepOf, Nat.add_zero]

theorem unitsOf_succ (m : Nat) : unitsOf (m + 1) = unitsOf m + stepOf m := by
  rcases succ_cases m with ⟨hfield, hfraction⟩ | ⟨hfield, hfraction, hlast⟩
  · unfold unitsOf stepOf
    rw [hfield, hfraction]
    split
    · next hzero =>
      rw [hzero]
      rfl
    · ring
  · have hlater : (m + 1) / binadeSize ≠ 0 := by
      rw [hfield]
      exact Nat.succ_ne_zero _
    rw [unitsOf_binade hlater hfraction, stepOf_next hfield]
    unfold unitsOf
    split
    · next hzero =>
      have hone : stepOf m = 1 := by rw [stepOf, hzero]; rfl
      rw [hone, hlast, binadeSize_eq]
    · rw [hlast, ← stepOf, binadeSize_eq]
      omega

theorem unitsOf_pos {m : Nat} (h : m ≠ 0) : 0 < unitsOf m := by
  obtain ⟨k, rfl⟩ := Nat.exists_eq_succ_of_ne_zero h
  have hstep := stepOf_pos k
  rw [unitsOf_succ]
  omega

theorem unitsOf_lt (m : Nat) : unitsOf m < 2 * binadeSize * stepOf m := by
  have hfraction : m % binadeSize < binadeSize := Nat.mod_lt _ (by decide)
  have hstep := stepOf_pos m
  unfold unitsOf
  split
  · calc m % binadeSize < 2 * binadeSize := by omega
      _ ≤ 2 * binadeSize * stepOf m := Nat.le_mul_of_pos_right _ hstep
  · rw [← stepOf]
    exact Nat.mul_lt_mul_of_pos_right (by omega) hstep

end Binary64

namespace Shortest

open Binary64 (binadeSize unitsOf stepOf)

/-- The upper end of the interval of a magnitude, in quarters of a unit. -/
def upper (m : Nat) : Nat := 4 * unitsOf m + 2 * stepOf m

theorem upper_strictMono : StrictMono upper := by
  apply strictMono_nat_of_lt_succ
  intro m
  have hstep := Binary64.stepOf_pos m
  have hnext := Binary64.stepOf_pos (m + 1)
  rw [upper, upper, Binary64.unitsOf_succ]
  omega

/-- A scale is too large to be evaluated, so its exponent stays a variable here. -/
theorem scale_pos {base : Nat} (h : 0 < base) (exponent : Nat) : 0 < Nat.pow base exponent := Nat.pow_pos h

theorem decimalScale_pos : 0 < decimalScale := by
  unfold decimalScale
  apply scale_pos
  decide

theorem high_interval (x : Binary64) : (interval x).high = upper x.magnitude * decimalScale := rfl

theorem closed_interval (x : Binary64) :
    (interval x).closed = true ↔ x.magnitude % 2 = 0 := by
  change ((x.magnitude % binadeSize) % 2 == 0) = true ↔ _
  rw [beq_iff_eq, Nat.mod_mod_of_dvd _ (by decide)]

theorem low_interval {x : Binary64} {m : Nat} (h : x.magnitude = m + 1) :
    (interval x).low = upper m * decimalScale := by
  change (4 * unitsOf x.magnitude - (if x.magnitude % binadeSize = 0 ∧ 1 < x.magnitude / binadeSize
    then stepOf x.magnitude else 2 * stepOf x.magnitude)) * decimalScale = _
  congr 1
  rw [h, Binary64.unitsOf_succ, upper]
  rcases Binary64.succ_cases m with ⟨hfield, hfraction⟩ | ⟨hfield, hfraction, -⟩
  · have hstep : stepOf (m + 1) = stepOf m := by rw [stepOf, stepOf, hfield]
    rw [if_neg (by omega), hstep]
    omega
  · rw [Binary64.stepOf_next hfield]
    by_cases hzero : m / binadeSize = 0
    · rw [if_neg (by omega), if_pos hzero]
      omega
    · have hpos := Nat.pos_of_ne_zero hzero
      rw [if_pos ⟨hfraction, by omega⟩, if_neg hzero]
      omega

theorem Interval.contains_iff (i : Interval) (p : Nat) :
    i.contains p = true ↔
      i.low ≤ p ∧ p ≤ i.high ∧ (i.closed = true ∨ i.low < p ∧ p < i.high) := by
  unfold Interval.contains
  cases hclosed : i.closed with
  | true => simp
  | false =>
    simp only [Bool.false_eq_true, if_false, Bool.and_eq_true, decide_eq_true_eq]
    constructor
    · rintro ⟨hlow, hhigh⟩
      exact ⟨hlow.le, hhigh.le, Or.inr ⟨hlow, hhigh⟩⟩
    · rintro ⟨-, -, hfalse | hinside⟩
      · cases hfalse
      · exact hinside

theorem not_contains_of_lt {x y : Binary64} (h : x.magnitude < y.magnitude) {p : Nat}
    (hx : (interval x).contains p = true) : (interval y).contains p = false := by
  rw [← Bool.not_eq_true]
  intro hy
  obtain ⟨m, hm⟩ : ∃ m, y.magnitude = m + 1 := ⟨y.magnitude - 1, by omega⟩
  rw [Interval.contains_iff] at hx hy
  obtain ⟨-, hhigh, hend⟩ := hx
  obtain ⟨hlow, -, hbegin⟩ := hy
  rw [high_interval] at hhigh hend
  rw [low_interval hm] at hlow hbegin
  have hle : upper m ≤ upper x.magnitude :=
    Nat.le_of_mul_le_mul_right (hlow.trans hhigh) decimalScale_pos
  -- the two are neighbours, and the point is their common end
  obtain rfl : x.magnitude = m :=
    Nat.le_antisymm (by omega) (upper_strictMono.le_iff_le.1 hle)
  have hx_even : (interval x).closed = true := hend.resolve_right (by omega)
  have hy_even : (interval y).closed = true := hbegin.resolve_right (by omega)
  rw [closed_interval] at hx_even hy_even
  omega

theorem magnitude_eq_of_contains {x y : Binary64} {p : Nat} (hx : (interval x).contains p = true)
    (hy : (interval y).contains p = true) : x.magnitude = y.magnitude := by
  rcases Nat.lt_trichotomy x.magnitude y.magnitude with hlt | heq | hgt
  · rw [not_contains_of_lt hlt hx] at hy
    cases hy
  · exact heq
  · rw [not_contains_of_lt hgt hy] at hx
    cases hx

end Shortest

end EntityStore
