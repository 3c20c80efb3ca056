import EntityStore.Proofs.Number.Rounding

/-!
# Whole reals

A number of units that is the size of a real is rounded to that real. So a real without fractional part
is what its whole part is rounded to, and bringing it into the range of 64 bits shows exactly beyond
`2 ^ 63`: the greatest 64-bit number is itself rounded to `2 ^ 63`.
-/

namespace EntityStore.Binary64

variable {x : Binary64}

theorem cut_unitsOf (m : Nat) : cut (unitsOf m) = m / binadeSize - 1 := by
  have hfraction : m % binadeSize < binadeSize := Nat.mod_lt _ (by decide)
  have hsize : binadeSize = 2 ^ 52 := rfl
  unfold cut unitsOf
  split
  · next hzero =>
    rcases Nat.eq_zero_or_pos (m % binadeSize) with hnone | hsome
    · rw [hnone, hzero]
      rfl
    · have hlog := (Nat.log2_lt (Nat.ne_of_gt hsome)).2 (hsize ▸ hfraction)
      omega
  · generalize m / binadeSize - 1 = k
    have hpow : 0 < 2 ^ k := Nat.two_pow_pos k
    have hne : (binadeSize + m % binadeSize) * 2 ^ k ≠ 0 :=
      Nat.mul_ne_zero (by rw [hsize]; omega) (Nat.ne_of_gt hpow)
    have hlog : ((binadeSize + m % binadeSize) * 2 ^ k).log2 = 52 + k := by
      rw [Nat.log2_eq_iff hne]
      constructor
      · rw [Nat.pow_add, ← hsize]
        exact Nat.mul_le_mul_right _ (Nat.le_add_right _ _)
      · calc (binadeSize + m % binadeSize) * 2 ^ k < 2 ^ 53 * 2 ^ k :=
              Nat.mul_lt_mul_of_pos_right (by omega) hpow
          _ = 2 ^ (52 + k + 1) := by rw [← Nat.pow_add]; congr 1; omega
    rw [hlog]
    omega

theorem nearestEven_mul (a : Nat) {den : Nat} (h : 0 < den) : nearestEven (a * den) den = a := by
  unfold nearestEven
  rw [Nat.mul_div_cancel a h, Nat.mul_mod_left]
  exact if_pos h

theorem nearestMagnitude_unitsOf {m : Nat} (h : m ≤ infinityMagnitude) :
    nearestMagnitude (unitsOf m) 1 = m := by
  have hsplit := Nat.div_add_mod m binadeSize
  have hnearest : (m / binadeSize - 1) * binadeSize +
      nearestEven (unitsOf m) (2 ^ (m / binadeSize - 1)) = m := by
    unfold unitsOf
    split
    · next hzero =>
      rw [hzero, Nat.mul_zero, Nat.zero_add] at hsplit
      have hone := nearestEven_mul m Nat.one_pos
      rw [Nat.mul_one] at hone
      rw [hzero, hsplit, Nat.zero_sub, Nat.zero_mul, Nat.zero_add, Nat.pow_zero, hone]
    · next hfield =>
      obtain ⟨k, hk⟩ := Nat.exists_eq_succ_of_ne_zero hfield
      rw [hk] at hsplit ⊢
      rw [nearestEven_mul _ (Nat.two_pow_pos _), Nat.succ_sub_one, ← Nat.add_assoc, ← Nat.succ_mul, Nat.mul_comm]
      exact hsplit
  rw [nearestMagnitude_one, cut_unitsOf, hnearest, min_eq_right h]

theorem natAbs_signedUnits (x : Binary64) : x.signedUnits.natAbs = x.units := by
  unfold signedUnits
  split <;> simp

theorem unitsPerOne_pos : (0 : Int) < unitsPerOne := by
  apply Int.natCast_pos.2
  unfold unitsPerOne
  apply Shortest.scale_pos
  decide

theorem isNaN_of_isWhole (h : x.isWhole = true) : x.isNaN = false := by
  have hfinite := (Bool.and_eq_true_iff.1 h).1
  rw [isFinite, decide_eq_true_eq] at hfinite
  exact decide_eq_false (Nat.not_lt.2 (Nat.le_of_lt hfinite))

theorem truncate_mul (h : x.isWhole = true) : x.truncate * unitsPerOne = x.signedUnits := by
  have hunits := beq_iff_eq.1 (Bool.and_eq_true_iff.1 h).2
  apply Int.tdiv_mul_cancel
  rw [← Int.dvd_natAbs, natAbs_signedUnits]
  exact Int.natCast_dvd_natCast.2 (Nat.dvd_of_mod_eq_zero hunits)

theorem signedUnits_ofInt_truncate (h : x.isWhole = true) : (ofInt x.truncate).signedUnits = x.signedUnits := by
  have hmul := truncate_mul h
  have hfinite := (Bool.and_eq_true_iff.1 h).1
  rw [isFinite, decide_eq_true_eq] at hfinite
  have habs : x.truncate.natAbs * unitsPerOne = x.units := by
    rw [← natAbs_signedUnits, ← hmul, Int.natAbs_mul, Int.natAbs_natCast]
  have hround : unitsOf (nearestMagnitude (x.truncate.natAbs * unitsPerOne) 1) = x.units := by
    rw [habs, units_eq, nearestMagnitude_unitsOf (Nat.le_of_lt hfinite)]
  have hsign : 0 ≤ x.truncate ↔ 0 ≤ x.signedUnits := by
    rw [← hmul]
    exact (Int.mul_nonneg_iff_of_pos_right unitsPerOne_pos).symm
  rw [signedUnits_ofInt, hround]
  have habs' := natAbs_signedUnits x
  split <;> omega

/-! ### Whole reals in 64 bits -/

theorem toInt_ofIntClamp_cases (i : Int) :
    (Int64.ofIntClamp i).toInt = i ∧ i.natAbs ≤ 2 ^ 63 ∨
      2 ^ 63 ≤ i ∧ (Int64.ofIntClamp i).toInt = 2 ^ 63 - 1 ∨
      i < -2 ^ 63 ∧ (Int64.ofIntClamp i).toInt = -2 ^ 63 := by
  have hmin : Int64.minValue.toInt = -2 ^ 63 := rfl
  have hmax : Int64.maxValue.toInt = 2 ^ 63 - 1 := rfl
  unfold Int64.ofIntClamp
  split
  · split
    · next hlow hhigh =>
      rw [Int64.toInt_ofIntLE]
      omega
    · omega
  · omega

theorem signedUnits_int64_bounds :
    (ofInt (2 ^ 63 - 1)).signedUnits = 2 ^ 63 * unitsPerOne ∧
      (ofInt (-2 ^ 63)).signedUnits = -2 ^ 63 * unitsPerOne := by
  decide +kernel

/-- Bringing a whole real into 64 bits keeps it, as comparison sees it, up to `2 ^ 63`. -/
theorem signedUnits_toInt64_iff (h : x.isWhole = true) :
    (ofInt x.toInt64.toInt).signedUnits = x.signedUnits ↔ x.truncate.natAbs ≤ 2 ^ 63 := by
  have hinj : ∀ {i j : Int}, i * unitsPerOne = j * unitsPerOne ↔ i = j :=
    Int.mul_eq_mul_right_iff (Int.ne_of_gt unitsPerOne_pos)
  have hwhole := signedUnits_ofInt_truncate h
  rw [toInt64, isNaN_of_isWhole h, if_neg Bool.false_ne_true]
  rcases toInt_ofIntClamp_cases x.truncate with ⟨hclamp, hle⟩ | ⟨hle, hclamp⟩ | ⟨hlt, hclamp⟩
  · rw [hclamp]
    exact iff_of_true hwhole hle
  · rw [hclamp, signedUnits_int64_bounds.1, ← truncate_mul h, hinj]
    omega
  · rw [hclamp, signedUnits_int64_bounds.2, ← truncate_mul h, hinj]
    omega

end EntityStore.Binary64
