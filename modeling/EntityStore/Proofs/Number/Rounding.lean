import EntityStore.Proofs.Number.Interval

/-!
# Rounding of whole numbers

A greater whole number does not have a smaller nearest real, though two of them may have the same
one. What a whole number is rounded to is a number.
-/

namespace EntityStore.Binary64

theorem unitsOf_mono : Monotone unitsOf := by
  apply monotone_nat_of_le_succ
  intro m
  rw [unitsOf_succ]
  exact Nat.le_add_right _ _

/-! ### The nearest magnitude -/

theorem div_le_nearestEven (num den : Nat) : num / den ≤ nearestEven num den := by
  unfold nearestEven
  dsimp only
  split
  · exact Nat.le_refl _
  · split
    · exact Nat.le_succ _
    · split
      · exact Nat.le_refl _
      · exact Nat.le_succ _

theorem nearestEven_le_div (num den : Nat) : nearestEven num den ≤ num / den + 1 := by
  unfold nearestEven
  dsimp only
  split
  · exact Nat.le_succ _
  · split
    · exact Nat.le_refl _
    · split
      · exact Nat.le_succ _
      · exact Nat.le_refl _

theorem nearestEven_mono {a b : Nat} (den : Nat) (h : a ≤ b) : nearestEven a den ≤ nearestEven b den := by
  rcases Nat.lt_or_eq_of_le (Nat.div_le_div_right h : a / den ≤ b / den) with hlt | heq
  · calc nearestEven a den ≤ a / den + 1 := nearestEven_le_div a den
      _ ≤ b / den := hlt
      _ ≤ nearestEven b den := div_le_nearestEven b den
  · have hrest : a % den ≤ b % den := by
      have ha := Nat.div_add_mod a den
      have hb := Nat.div_add_mod b den
      rw [heq] at ha
      omega
    unfold nearestEven
    rw [heq]
    dsimp only
    split_ifs <;> omega

def cut (n : Nat) : Nat := n.log2 - 52

theorem nearestMagnitude_one (n : Nat) :
    nearestMagnitude n 1 = min infinityMagnitude (cut n * binadeSize + nearestEven n (2 ^ cut n)) := by
  unfold nearestMagnitude cut
  dsimp only
  rw [Nat.div_one, Nat.one_mul]
  rfl

theorem cut_mono {a b : Nat} (h : a ≤ b) : cut a ≤ cut b := by
  have hlog : a.log2 ≤ b.log2 := by
    rcases Nat.eq_zero_or_pos a with rfl | ha
    · exact Nat.zero_le _
    · exact (Nat.le_log2 (by omega)).2 ((Nat.log2_self_le (by omega)).trans h)
  exact Nat.sub_le_sub_right hlog 52

theorem nearestEven_cut_le (n : Nat) : nearestEven n (2 ^ cut n) ≤ 2 * binadeSize := by
  have hlt : n < 2 * binadeSize * 2 ^ cut n := by
    calc n < 2 ^ (n.log2 + 1) := Nat.lt_log2_self
      _ ≤ 2 ^ (53 + cut n) := Nat.pow_le_pow_right (by decide) (by unfold cut; omega)
      _ = 2 * binadeSize * 2 ^ cut n := by rw [Nat.pow_add]; rfl
  exact (nearestEven_le_div n _).trans ((Nat.div_lt_iff_lt_mul (Nat.two_pow_pos _)).2 hlt)

theorem le_nearestEven_cut {n : Nat} (h : 0 < cut n) : binadeSize ≤ nearestEven n (2 ^ cut n) := by
  have hn : n ≠ 0 := by
    rintro rfl
    exact absurd h (by decide)
  have hle : binadeSize * 2 ^ cut n ≤ n := by
    calc binadeSize * 2 ^ cut n = 2 ^ (52 + cut n) := by rw [Nat.pow_add]; rfl
      _ = 2 ^ n.log2 := by congr 1; unfold cut at h ⊢; omega
      _ ≤ n := Nat.log2_self_le hn
  exact ((Nat.le_div_iff_mul_le (Nat.two_pow_pos _)).2 hle).trans (div_le_nearestEven n _)

theorem nearestMagnitude_mono {a b : Nat} (h : a ≤ b) : nearestMagnitude a 1 ≤ nearestMagnitude b 1 := by
  rw [nearestMagnitude_one, nearestMagnitude_one]
  apply min_le_min_left
  rcases Nat.lt_or_eq_of_le (cut_mono h) with hlt | heq
  · -- the number above has passed a power of two, where the binade of the one below ends
    calc cut a * binadeSize + nearestEven a (2 ^ cut a)
        ≤ cut a * binadeSize + 2 * binadeSize := Nat.add_le_add_left (nearestEven_cut_le a) _
      _ = (cut a + 1) * binadeSize + binadeSize := by ring
      _ ≤ cut b * binadeSize + binadeSize := Nat.add_le_add_right (Nat.mul_le_mul_right _ hlt) _
      _ ≤ cut b * binadeSize + nearestEven b (2 ^ cut b) :=
        Nat.add_le_add_left (le_nearestEven_cut (Nat.zero_lt_of_lt hlt)) _
  · rw [heq]
    exact Nat.add_le_add_left (nearestEven_mono _ h) _

/-! ### The nearest real of a whole number -/

theorem nearestMagnitude_lt (num den : Nat) : nearestMagnitude num den < signWeight :=
  (Nat.min_le_left _ _).trans_lt (by decide)

theorem toNat_ofMagnitude (negative : Bool) {m : Nat} (h : m < signWeight) :
    (ofMagnitude negative m).bits.toNat = if negative then m + signWeight else m := by
  have hweight : signWeight = 9223372036854775808 := rfl
  unfold ofMagnitude
  rw [UInt64.toNat_ofNat']
  apply Nat.mod_eq_of_lt
  split <;> omega

theorem magnitude_ofMagnitude (negative : Bool) {m : Nat} (h : m < signWeight) :
    (ofMagnitude negative m).magnitude = m := by
  rw [magnitude, toNat_ofMagnitude negative h]
  cases negative with
  | false => exact Nat.mod_eq_of_lt h
  | true =>
    rw [if_pos rfl, Nat.add_mod_right]
    exact Nat.mod_eq_of_lt h

theorem isNegative_ofMagnitude (negative : Bool) {m : Nat} (h : m < signWeight) :
    (ofMagnitude negative m).isNegative = negative := by
  rw [isNegative, toNat_ofMagnitude negative h]
  cases negative with
  | false => exact decide_eq_false (Nat.not_le.2 h)
  | true => exact decide_eq_true (Nat.le_add_left _ _)

theorem isNaN_ofInt (i : Int) : (ofInt i).isNaN = false := by
  rw [isNaN, ofInt, nearest, magnitude_ofMagnitude _ (nearestMagnitude_lt _ _)]
  exact decide_eq_false (Nat.not_lt.2 (Nat.min_le_left _ _))

theorem signedUnits_ofInt (i : Int) : (ofInt i).signedUnits =
    if i < 0 then -(unitsOf (nearestMagnitude (i.natAbs * unitsPerOne) 1) : Int)
    else unitsOf (nearestMagnitude (i.natAbs * unitsPerOne) 1) := by
  have hlt := nearestMagnitude_lt (i.natAbs * unitsPerOne) 1
  rw [signedUnits, units_eq, ofInt, nearest, magnitude_ofMagnitude _ hlt, isNegative_ofMagnitude _ hlt]
  simp only [decide_eq_true_eq]

theorem signedUnits_ofInt_mono {i j : Int} (h : i ≤ j) : (ofInt i).signedUnits ≤ (ofInt j).signedUnits := by
  have hrounds : ∀ {a b : Nat}, a ≤ b → unitsOf (nearestMagnitude (a * unitsPerOne) 1) ≤
      unitsOf (nearestMagnitude (b * unitsPerOne) 1) :=
    fun hab => unitsOf_mono (nearestMagnitude_mono (Nat.mul_le_mul_right _ hab))
  rw [signedUnits_ofInt, signedUnits_ofInt]
  by_cases hi : i < 0
  · rw [if_pos hi]
    by_cases hj : j < 0
    · rw [if_pos hj]
      have hle := hrounds (show j.natAbs ≤ i.natAbs by omega)
      omega
    · rw [if_neg hj]
      omega
  · rw [if_neg hi, if_neg (by omega)]
    have hle := hrounds (show i.natAbs ≤ j.natAbs by omega)
    omega

end EntityStore.Binary64
