import EntityStore.Proofs.Number.Interval
import Mathlib.Data.Rat.Defs
import Mathlib.Algebra.Order.Field.Rat
import Mathlib.Tactic.Positivity
import Mathlib.Tactic.FieldSimp
import Mathlib.Tactic.NormNum

/-!
# The shortest decimal lies in the interval

Seventeen digits always suffice: a grid of that many digits is finer than the interval is wide. So
the shortest decimal of a number rounds to it, and no two numbers have decimals of one value.
-/

namespace EntityStore.Shortest

open Binary64 (binadeSize unitsOf stepOf)

theorem gridScale_pos : 0 < gridScale := by
  unfold gridScale
  apply scale_pos
  decide

theorem gridScale_le_decimalScale : 10 ^ 16 * gridScale ≤ decimalScale := by decide +kernel

theorem Interval.contains_of_inside {i : Interval} {p : Nat} (hlow : i.low < p) (hhigh : p < i.high) :
    i.contains p = true :=
  (i.contains_iff p).2 ⟨hlow.le, hhigh.le, Or.inr ⟨hlow, hhigh⟩⟩

theorem Interval.contains_between {i : Interval} {p q : Nat} (hp : i.contains p = true)
    (hvalue : i.low < i.value ∧ i.value < i.high) (h : p ≤ q ∧ q ≤ i.value ∨ i.value ≤ q ∧ q ≤ p) :
    i.contains q = true := by
  rw [contains_iff] at hp ⊢
  obtain ⟨hlow, hhigh, hclosed | hinside⟩ := hp
  · exact ⟨by omega, by omega, Or.inl hclosed⟩
  · exact ⟨by omega, by omega, Or.inr (by omega)⟩

theorem pointOn_cases (i : Interval) (tie : TieRule) (grid : Nat) :
    (∃ d, pointOn i tie grid = some d ∧ i.contains (d * grid) = true) ∨
      (pointOn i tie grid = none ∧ i.contains (i.value / grid * grid) = false ∧
        i.contains ((i.value / grid + 1) * grid) = false) := by
  unfold pointOn
  cases hlow : i.contains (i.value / grid * grid) <;>
    cases hhigh : i.contains ((i.value / grid + 1) * grid)
  case false.false => exact Or.inr ⟨by simp [hlow, hhigh], rfl, rfl⟩
  case false.true => exact Or.inl ⟨i.value / grid + 1, by simp [hlow, hhigh], hhigh⟩
  case true.false => exact Or.inl ⟨i.value / grid, by simp [hlow, hhigh], hlow⟩
  case true.true =>
    left
    simp only [hlow, hhigh, Bool.and_self, if_true]
    by_cases hbelow : 2 * (i.value % grid) < grid
    · exact ⟨_, if_pos hbelow, hlow⟩
    rw [if_neg hbelow]
    by_cases habove : grid < 2 * (i.value % grid)
    · exact ⟨_, if_pos habove, hhigh⟩
    rw [if_neg habove]
    cases tie with
    | up => exact ⟨_, rfl, hhigh⟩
    | even =>
      by_cases heven : i.value / grid % 2 = 0
      · exact ⟨_, if_pos heven, hlow⟩
      · exact ⟨_, if_neg heven, hhigh⟩

/-- A grid that is finer than the interval is wide has a point in it, next to the value. -/
theorem exists_pointOn {i : Interval} (tie : TieRule) {grid : Nat} (hgrid : 0 < grid)
    (hvalue : i.low < i.value ∧ i.value < i.high) (hwidth : i.low + grid < i.high) :
    pointOn i tie grid ≠ none := by
  intro hnone
  have hfirst : i.contains ((i.low / grid + 1) * grid) = true := by
    have hdiv := Nat.div_add_mod i.low grid
    have hmod := Nat.mod_lt i.low hgrid
    apply Interval.contains_of_inside
    · rw [Nat.succ_mul, Nat.mul_comm]
      omega
    · rw [Nat.succ_mul, Nat.mul_comm]
      omega
  obtain ⟨d, hd, -⟩ | ⟨-, hlow, hhigh⟩ := pointOn_cases i tie grid
  · rw [hd] at hnone
    cases hnone
  by_cases hside : (i.low / grid + 1) * grid ≤ i.value
  · rw [Interval.contains_between hfirst hvalue (Or.inl ⟨?_, Nat.div_mul_le_self _ _⟩)] at hlow
    · cases hlow
    · exact Nat.mul_le_mul_right _ ((Nat.le_div_iff_mul_le hgrid).2 hside)
  · rw [Interval.contains_between hfirst hvalue (Or.inr ⟨?_, ?_⟩)] at hhigh
    · cases hhigh
    · exact (Nat.lt_div_mul_add hgrid).le.trans_eq (Nat.succ_mul _ _).symm
    · apply Nat.mul_le_mul_right
      apply Nat.succ_le_of_lt
      exact (Nat.div_lt_iff_lt_mul hgrid).2 (by omega)

/-- The search finds a point of the interval if one of the grids that it tries has one. -/
theorem contains_search {i : Interval} {tie : TieRule} {size fuel count last : Nat}
    (hfirst : count ≤ last) (hlast : last < count + fuel)
    (h : pointOn i tie (Nat.pow 10 (size - last) * gridScale) ≠ none) :
    i.contains ((search i tie size fuel count).1 *
      (Nat.pow 10 (search i tie size fuel count).2 * gridScale)) = true := by
  induction fuel generalizing count with
  | zero => omega
  | succ fuel ih =>
    unfold search
    obtain ⟨d, hd, hcontains⟩ | ⟨hnone, -⟩ :=
      pointOn_cases i tie (Nat.pow 10 (size - count) * gridScale)
    · simp only [hd]
      exact hcontains
    · simp only [hnone]
      have hne : count ≠ last := by
        rintro rfl
        exact h hnone
      exact ih (by omega) (by omega)

theorem value_interval (x : Binary64) : (interval x).value = 4 * unitsOf x.magnitude * decimalScale := rfl

theorem value_between {x : Binary64} (h : x.magnitude ≠ 0) :
    (interval x).low < (interval x).value ∧ (interval x).value < (interval x).high := by
  obtain ⟨m, hm⟩ := Nat.exists_eq_succ_of_ne_zero h
  have hscale := decimalScale_pos
  have hbelow := Binary64.stepOf_pos m
  have habove := Binary64.stepOf_pos x.magnitude
  rw [value_interval, low_interval hm, high_interval]
  constructor
  · apply Nat.mul_lt_mul_of_pos_right _ hscale
    rw [hm, Binary64.unitsOf_succ, upper]
    omega
  · apply Nat.mul_lt_mul_of_pos_right _ hscale
    rw [upper]
    omega

theorem value_lt_width {x : Binary64} (h : x.magnitude ≠ 0) :
    (interval x).value + 10 ^ 16 * (interval x).low < 10 ^ 16 * (interval x).high := by
  obtain ⟨m, hm⟩ := Nat.exists_eq_succ_of_ne_zero h
  rw [Nat.succ_eq_add_one] at hm
  have hquarters : 4 * unitsOf (m + 1) + 10 ^ 16 * upper m < 10 ^ 16 * upper (m + 1) := by
    have hstep := Binary64.stepOf_pos m
    have hlt := Binary64.unitsOf_lt (m + 1)
    have hsucc := Binary64.unitsOf_succ m
    rw [Binary64.binadeSize_eq] at hlt
    unfold upper
    rcases Binary64.succ_cases m with ⟨hfield, -⟩ | ⟨hfield, hfraction, -⟩
    · have hsame : stepOf (m + 1) = stepOf m := by rw [stepOf, stepOf, hfield]
      omega
    · have hlater : (m + 1) / binadeSize ≠ 0 := by
        rw [hfield]
        exact Nat.succ_ne_zero _
      have hbinade := Binary64.unitsOf_binade hlater hfraction
      rw [Binary64.binadeSize_eq] at hbinade
      omega
  calc (interval x).value + 10 ^ 16 * (interval x).low
      = (4 * unitsOf (m + 1) + 10 ^ 16 * upper m) * decimalScale := by
        rw [value_interval, low_interval hm, hm]
        ring
    _ < 10 ^ 16 * upper (m + 1) * decimalScale := Nat.mul_lt_mul_of_pos_right hquarters decimalScale_pos
    _ = 10 ^ 16 * (interval x).high := by
        rw [high_interval, hm]
        ring

def size (x : Binary64) : Nat := (Nat.toDigits 10 ((interval x).value / gridScale)).length

theorem grid_lt_width {x : Binary64} (h : x.magnitude ≠ 0) :
    (interval x).low + Nat.pow 10 (size x - 17) * gridScale < (interval x).high := by
  have hwidth := value_lt_width h
  have hsize : 10 ^ 16 * (10 ^ (size x - 17) * gridScale) ≤ (interval x).value := by
    by_cases hshort : size x ≤ 17
    · have hunits := Binary64.unitsOf_pos h
      rw [Nat.sub_eq_zero_of_le hshort, Nat.pow_zero, Nat.one_mul, value_interval]
      exact gridScale_le_decimalScale.trans (Nat.le_mul_of_pos_left _ (by omega))
    · have hdigits : ¬(interval x).value / gridScale < 10 ^ (size x - 1) := by
        rw [← Nat.length_toDigits_le_iff (Nat.succ_lt_succ (Nat.succ_pos 8)) (by omega)]
        change ¬size x ≤ size x - 1
        omega
      calc 10 ^ 16 * (10 ^ (size x - 17) * gridScale) = 10 ^ (size x - 1) * gridScale := by
            rw [← Nat.mul_assoc, ← Nat.pow_add]
            congr 2
            omega
        _ ≤ (interval x).value := (Nat.le_div_iff_mul_le gridScale_pos).1 (Nat.not_lt.1 hdigits)
  have hgrid : Nat.pow 10 (size x - 17) * gridScale = 10 ^ (size x - 17) * gridScale := rfl
  rw [hgrid]
  omega

def point (tie : TieRule) (x : Binary64) : Nat :=
  (search (interval x) tie (size x) 17 1).1 * 10 ^ (search (interval x) tie (size x) 17 1).2

theorem contains_point (tie : TieRule) {x : Binary64} (h : x.magnitude ≠ 0) :
    (interval x).contains (point tie x * gridScale) = true := by
  have hgrid : pointOn (interval x) tie (Nat.pow 10 (size x - 17) * gridScale) ≠ none := by
    apply exists_pointOn tie _ (value_between h) (grid_lt_width h)
    exact Nat.mul_pos (Nat.pow_pos (Nat.succ_pos 9)) gridScale_pos
  rw [point, Nat.mul_assoc]
  exact contains_search (Nat.succ_le_succ (Nat.zero_le 16)) (Nat.lt_succ_self 17) hgrid

theorem magnitude_eq_of_point_eq {tie tie' : TieRule} {x y : Binary64} (hx : x.magnitude ≠ 0)
    (hy : y.magnitude ≠ 0) (h : point tie x = point tie' y) : x.magnitude = y.magnitude := by
  have hin := contains_point tie hx
  rw [h] at hin
  exact magnitude_eq_of_contains hin (contains_point tie' hy)

theorem point_pos (tie : TieRule) {x : Binary64} (h : x.magnitude ≠ 0) : 0 < point tie x := by
  have hcontains := contains_point tie h
  obtain ⟨m, hm⟩ := Nat.exists_eq_succ_of_ne_zero h
  rw [Interval.contains_iff, low_interval hm] at hcontains
  have hstep := Binary64.stepOf_pos m
  have hlow : 0 < upper m * decimalScale := by
    apply Nat.mul_pos _ decimalScale_pos
    rw [upper]
    omega
  exact Nat.pos_of_mul_pos_right (hlow.trans_le hcontains.1)

end EntityStore.Shortest
