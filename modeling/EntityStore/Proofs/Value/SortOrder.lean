import Mathlib.Data.List.Perm.Basic
import EntityStore.Proofs.Number.Rounding
import EntityStore.Proofs.Sorting
import EntityStore.Value.Order

/-!
# The order of sorted values

Values of different ranks are ordered by rank, texts and blobs among themselves lexicographically.
Two whole numbers are compared exactly and all other pairs of numbers as reals, so a real is taken to
be equal to every whole number that is rounded to it, and a NaN to every number. These are the only
values that spoil the order: where there are none, sorting compares as a total preorder does.
-/

namespace EntityStore

theorem Binary64.compare?_swap (x y : Binary64) : y.compare? x = (x.compare? y).map Ordering.swap := by
  unfold compare?
  rw [Bool.or_comm]
  split
  · rfl
  · rw [Option.map_some, ← Std.OrientedOrd.eq_swap]

theorem Binary64.compare?_eq {x y : Binary64} (hx : x.isNaN = false) (hy : y.isNaN = false) :
    x.compare? y = some (compare x.signedUnits y.signedUnits) := by
  rw [compare?, hx, hy]
  rfl

namespace Value

open Binary64 (ofInt signedUnits)

variable {u v w : Value}

/-! ### Comparing two values -/

theorem sortOrder_of_rank_ne (h : v.rank ≠ w.rank) : v.sortOrder w = compare v.rank w.rank := by
  cases v <;> cases w <;> first | exact absurd rfl h | rfl

theorem sortOrder_of_rank_lt (h : v.rank < w.rank) : v.sortOrder w = .lt := by
  rw [sortOrder_of_rank_ne (Nat.ne_of_lt h)]
  exact Std.compare_eq_lt.2 h

theorem number_cases (h : v.rank = 1) : (∃ i, v.toInt64? = some i) ∨ ∃ r, v = .real r := by
  cases v with
  | bool b => exact .inl ⟨_, rfl⟩
  | integer i => exact .inl ⟨_, rfl⟩
  | real r => exact .inr ⟨r, rfl⟩
  | _ => cases h

theorem exists_toReal? (h : v.rank = 1) : ∃ x, v.toReal? = some x := by
  cases v with
  | bool b => exact ⟨_, rfl⟩
  | integer i => exact ⟨_, rfl⟩
  | real r => exact ⟨r, rfl⟩
  | _ => cases h

theorem rank_of_whole {i : Int64} (h : v.toInt64? = some i) : v.rank = 1 := by
  cases v <;> cases h <;> rfl

theorem toReal?_of_whole {i : Int64} (h : v.toInt64? = some i) : v.toReal? = some (ofInt i.toInt) := by
  cases v <;> cases h <;> rfl

theorem sortOrder_whole {i j : Int64} (hv : v.toInt64? = some i) (hw : w.toInt64? = some j) :
    v.sortOrder w = compare i.toInt j.toInt := by
  cases v <;> cases hv <;> cases w <;> cases hw <;> rfl

theorem sortOrder_real_left (r : Binary64) {y : Binary64} (h : w.toReal? = some y) :
    (real r).sortOrder w = (r.compare? y).getD .eq := by
  cases w <;> cases h <;> rfl

theorem sortOrder_real_right (r : Binary64) {x : Binary64} (h : v.toReal? = some x) :
    v.sortOrder (real r) = (x.compare? r).getD .eq := by
  cases v <;> cases h <;> rfl

theorem sortOrder_real_swap (r : Binary64) (h : w.rank = 1) :
    w.sortOrder (.real r) = ((real r).sortOrder w).swap := by
  obtain ⟨y, hy⟩ := exists_toReal? h
  rw [sortOrder_real_left r hy, sortOrder_real_right r hy, Binary64.compare?_swap r]
  cases r.compare? y <;> rfl

theorem sortOrder_swap (v w : Value) : w.sortOrder v = (v.sortOrder w).swap := by
  by_cases hrank : v.rank = w.rank
  · cases v with
    | null =>
      cases w with
      | null => rfl
      | _ => cases hrank
    | text s =>
      cases w with
      | text t => exact @Std.OrientedCmp.eq_swap String compare _ _ _
      | _ => cases hrank
    | blob b =>
      cases w with
      | blob c => exact @Std.OrientedCmp.eq_swap (List UInt8) (List.compareLex compare) _ _ _
      | _ => cases hrank
    | real r => exact sortOrder_real_swap r hrank.symm
    | _ =>
      rcases number_cases hrank.symm with ⟨j, hj⟩ | ⟨r, rfl⟩
      · rw [sortOrder_whole hj rfl, sortOrder_whole rfl hj]
        exact Std.OrientedOrd.eq_swap
      · rw [sortOrder_real_swap r rfl, Ordering.swap_swap]
  · rw [sortOrder_of_rank_ne hrank, sortOrder_of_rank_ne (Ne.symm hrank)]
    exact Std.OrientedOrd.eq_swap

theorem sortOrder_self (v : Value) : v.sortOrder v = .eq := by
  have h := sortOrder_swap v v
  revert h
  cases v.sortOrder v <;> simp

theorem sortOrder_eq_gt_iff : v.sortOrder w = .gt ↔ w.sortOrder v = .lt := by
  rw [sortOrder_swap v w]
  cases v.sortOrder w <;> simp

theorem sortOrder_eq_comm : v.sortOrder w = .eq ↔ w.sortOrder v = .eq := by
  rw [sortOrder_swap v w]
  cases v.sortOrder w <;> simp

/-! ### Numbers -/

structure Ordinary (v : Value) : Prop where
  rank_eq : v.rank = 1
  not_nan : ∀ r, v = .real r → r.isNaN = false

def units (v : Value) : Int := (v.toReal?.map signedUnits).getD 0

theorem units_eq {x : Binary64} (h : v.toReal? = some x) : v.units = x.signedUnits := by
  rw [units, h]
  rfl

theorem units_whole {i : Int64} (h : v.toInt64? = some i) : v.units = (ofInt i.toInt).signedUnits :=
  units_eq (toReal?_of_whole h)

theorem units_mono {i j : Int64} (hv : v.toInt64? = some i) (hw : w.toInt64? = some j)
    (h : i.toInt ≤ j.toInt) : v.units ≤ w.units := by
  rw [units_whole hv, units_whole hw]
  exact Binary64.signedUnits_ofInt_mono h

theorem ordinary_whole {i : Int64} (h : v.toInt64? = some i) : Ordinary v where
  rank_eq := rank_of_whole h
  not_nan := by
    rintro r rfl
    cases h

theorem Ordinary.exists_toReal? (hv : Ordinary v) : ∃ x, v.toReal? = some x ∧ x.isNaN = false := by
  rcases number_cases hv.rank_eq with ⟨i, hi⟩ | ⟨r, rfl⟩
  · exact ⟨_, toReal?_of_whole hi, Binary64.isNaN_ofInt _⟩
  · exact ⟨r, rfl, hv.not_nan r rfl⟩

theorem Ordinary.sortOrder_real {r : Binary64} (hr : Ordinary (.real r)) (hv : Ordinary v) :
    v.sortOrder (.real r) = compare v.units r.signedUnits := by
  obtain ⟨x, hx, hnan⟩ := hv.exists_toReal?
  rw [sortOrder_real_right r hx, Binary64.compare?_eq hnan (hr.not_nan r rfl), units_eq hx]
  rfl

/-- The order of numbers is that of what they are rounded to, refined on whole numbers by the exact
comparison. -/
theorem Ordinary.sortOrder_lt_iff (hv : Ordinary v) (hw : Ordinary w) :
    v.sortOrder w = .lt ↔ v.units < w.units ∨
      v.units = w.units ∧ ∃ i j, v.toInt64? = some i ∧ w.toInt64? = some j ∧ i.toInt < j.toInt := by
  rcases number_cases hw.rank_eq with ⟨j, hj⟩ | ⟨r, rfl⟩
  · rcases number_cases hv.rank_eq with ⟨i, hi⟩ | ⟨r, rfl⟩
    · rw [sortOrder_whole hi hj, Std.compare_eq_lt]
      constructor
      · intro hlt
        rcases Int.lt_or_eq_of_le (units_mono hi hj (Int.le_of_lt hlt)) with h | h
        · exact .inl h
        · exact .inr ⟨h, i, j, hi, hj, hlt⟩
      · rintro (h | ⟨-, i', j', hi', hj', hlt⟩)
        · by_contra hle
          exact absurd (units_mono hj hi (Int.not_lt.1 hle)) (Int.not_le.2 h)
        · rw [hi] at hi'
          rw [hj] at hj'
          cases hi'
          cases hj'
          exact hlt
    · rw [sortOrder_swap w, hv.sortOrder_real hw, ← Std.OrientedOrd.eq_swap, Std.compare_eq_lt]
      constructor
      · exact .inl
      · rintro (h | ⟨-, i, -, hi, -⟩)
        · exact h
        · cases hi
  · rw [hw.sortOrder_real hv, Std.compare_eq_lt]
    constructor
    · exact .inl
    · rintro (h | ⟨-, -, j, -, hj, -⟩)
      · exact h
      · cases hj

/-! ### Where the order is spoilt -/

/-- A real that is taken to be equal to two numbers that are told apart. -/
inductive Blurs (r : Binary64) (u w : Value) : Prop
  | nan (hr : r.isNaN = true) (hu : u.rank = 1) (hw : w.rank = 1) (hne : u.sortOrder w ≠ .eq)
  | rounding {i j : Int64} (hu : u.toInt64? = some i) (hw : w.toInt64? = some j) (hne : i ≠ j)
      (hi : (ofInt i.toInt).numericEq r = true) (hj : (ofInt j.toInt).numericEq r = true)

theorem signedUnits_of_numericEq {x y : Binary64} (h : x.numericEq y = true) :
    y.isNaN = false ∧ x.signedUnits = y.signedUnits := by
  simp only [Binary64.numericEq, Binary64.compare?, beq_iff_eq] at h
  split at h
  · cases h
  · rename_i hnan
    simp only [Bool.or_eq_true, not_or, Bool.not_eq_true] at hnan
    exact ⟨hnan.2, Std.LawfulEqOrd.eq_of_compare (Option.some.inj h)⟩

theorem numericEq_of_signedUnits {x y : Binary64} (hx : x.isNaN = false) (hy : y.isNaN = false)
    (h : x.signedUnits = y.signedUnits) : x.numericEq y = true := by
  rw [Binary64.numericEq, Binary64.compare?_eq hx hy, h, Std.ReflOrd.compare_self]
  rfl

theorem sortOrder_nan {r : Binary64} (hr : r.isNaN = true) (hv : v.rank = 1) : v.sortOrder (.real r) = .eq := by
  obtain ⟨x, hx⟩ := exists_toReal? hv
  rw [sortOrder_real_right r hx, Binary64.compare?, hr, Bool.or_true]
  rfl

theorem sortOrder_real_of_numericEq {r : Binary64} {i : Int64} (hv : v.toInt64? = some i)
    (hi : (ofInt i.toInt).numericEq r = true) : v.sortOrder (.real r) = .eq := by
  obtain ⟨hnan, hunits⟩ := signedUnits_of_numericEq hi
  have hr : Ordinary (.real r) := ⟨rfl, by rintro _ ⟨⟩; exact hnan⟩
  rw [hr.sortOrder_real (ordinary_whole hv), units_whole hv, hunits, Std.ReflOrd.compare_self]

theorem Blurs.symm {r : Binary64} (h : Blurs r u w) : Blurs r w u := by
  cases h with
  | nan hr hu hw hne => exact .nan hr hw hu (fun heq => hne (sortOrder_eq_comm.1 heq))
  | rounding hu hw hne hi hj => exact .rounding hw hu hne.symm hj hi

theorem Blurs.sortOrder_left {r : Binary64} (h : Blurs r u w) : u.sortOrder (.real r) = .eq := by
  cases h with
  | nan hr hu _ _ => exact sortOrder_nan hr hu
  | rounding hu _ _ hi _ => exact sortOrder_real_of_numericEq hu hi

theorem Blurs.sortOrder_right {r : Binary64} (h : Blurs r u w) : (real r).sortOrder w = .eq :=
  sortOrder_eq_comm.1 h.symm.sortOrder_left

theorem Blurs.sortOrder_ne {r : Binary64} (h : Blurs r u w) : u.sortOrder w ≠ .eq := by
  cases h with
  | nan _ _ _ hne => exact hne
  | rounding hu hw hne _ _ =>
    rw [sortOrder_whole hu hw]
    intro heq
    exact hne (Int64.toInt_inj.1 (Std.LawfulEqOrd.eq_of_compare heq))

theorem Ordinary.blurs_of_lt (hu : Ordinary u) (hv : Ordinary v) (hw : Ordinary w)
    (huv : u.sortOrder v ≠ .gt) (hvw : v.sortOrder w ≠ .gt) (hwu : w.sortOrder u = .lt) :
    ∃ r, v = .real r ∧ Blurs r u w := by
  rw [Ne, sortOrder_eq_gt_iff, hv.sortOrder_lt_iff hu, not_or, not_and] at huv
  rw [Ne, sortOrder_eq_gt_iff, hw.sortOrder_lt_iff hv, not_or, not_and] at hvw
  rw [hw.sortOrder_lt_iff hu] at hwu
  obtain hlt | ⟨heq, k, i, hk, hi, hki⟩ := hwu
  · omega
  rcases number_cases hv.rank_eq with ⟨j, hj⟩ | ⟨r, rfl⟩
  · -- a whole number between them would be between them exactly
    have hij : ¬j.toInt < i.toInt := fun h => huv.2 (by omega) ⟨j, i, hj, hi, h⟩
    have hjk : ¬k.toInt < j.toInt := fun h => hvw.2 (by omega) ⟨k, j, hk, hj, h⟩
    omega
  · have hr := units_eq (show (real r).toReal? = some r from rfl)
    have hnan := hv.not_nan r rfl
    refine ⟨r, rfl, .rounding hi hk ?_ ?_ ?_⟩
    · rintro rfl
      omega
    · apply numericEq_of_signedUnits (Binary64.isNaN_ofInt _) hnan
      rw [← units_whole hi, ← hr]
      omega
    · apply numericEq_of_signedUnits (Binary64.isNaN_ofInt _) hnan
      rw [← units_whole hk, ← hr]
      omega

theorem rank_le_of_sortOrder (h : v.sortOrder w ≠ .gt) : v.rank ≤ w.rank := by
  by_contra hlt
  apply h
  rw [sortOrder_of_rank_ne (by omega), Std.compare_eq_gt]
  omega

theorem not_lt_of_between {α : Type} {cmp : α → α → Ordering} [Std.TransCmp cmp] {a b c : α}
    (hab : cmp a b ≠ .gt) (hbc : cmp b c ≠ .gt) : cmp c a ≠ .lt := by
  have hac := Std.TransCmp.isLE_trans (Ordering.ne_gt_iff_isLE.1 hab) (Ordering.ne_gt_iff_isLE.1 hbc)
  intro hca
  rw [Std.OrientedCmp.gt_of_lt hca] at hac
  cases hac

theorem ordinary_of_not_nan (hv : v.rank = 1) (h : ∀ r, v = .real r → ¬r.isNaN = true) : Ordinary v where
  rank_eq := hv
  not_nan r hr := eq_false_of_ne_true (h r hr)

theorem blurs_of_lt_of_rank (hu : u.rank = 1) (hv : v.rank = 1) (hw : w.rank = 1) (huv : u.sortOrder v ≠ .gt)
    (hvw : v.sortOrder w ≠ .gt) (hwu : w.sortOrder u = .lt) : ∃ r, v = .real r ∧ Blurs r u w := by
  have hne : u.sortOrder w ≠ .eq := by
    rw [sortOrder_eq_gt_iff.2 hwu]
    exact Ordering.noConfusion
  by_cases hnan : ∃ r, v = .real r ∧ r.isNaN = true
  · obtain ⟨r, rfl, hr⟩ := hnan
    exact ⟨r, rfl, .nan hr hu hw hne⟩
  · -- none of the other two is a NaN, as they are told apart
    refine Ordinary.blurs_of_lt (ordinary_of_not_nan hu ?_) (ordinary_of_not_nan hv ?_)
      (ordinary_of_not_nan hw ?_) huv hvw hwu
    · rintro r rfl hr
      exact hne (sortOrder_eq_comm.1 (sortOrder_nan hr hw))
    · exact fun r hr hr' => hnan ⟨r, hr, hr'⟩
    · rintro r rfl hr
      exact hne (sortOrder_nan hr hu)

theorem blurs_of_lt (huv : u.sortOrder v ≠ .gt) (hvw : v.sortOrder w ≠ .gt) (hwu : w.sortOrder u = .lt) :
    ∃ r, v = .real r ∧ Blurs r u w := by
  have huv_rank := rank_le_of_sortOrder huv
  have hvw_rank := rank_le_of_sortOrder hvw
  have hwu_rank : w.rank ≤ u.rank := rank_le_of_sortOrder (by rw [hwu]; exact Ordering.noConfusion)
  have hu : u.rank = v.rank := by omega
  have hw : w.rank = v.rank := by omega
  cases v with
  | null =>
    cases u <;> cases hu
    cases w <;> cases hw
    cases hwu
  | text s =>
    cases u <;> cases hu
    cases w <;> cases hw
    exact absurd hwu (@not_lt_of_between String compare _ _ _ _ huv hvw)
  | blob b =>
    cases u <;> cases hu
    cases w <;> cases hw
    exact absurd hwu
      (@not_lt_of_between (List UInt8) (List.compareLex compare) _ _ _ _ huv hvw)
  | _ => exact blurs_of_lt_of_rank hu rfl hw huv hvw hwu

/-! ### Lists of values -/

/-- On the values of a list, the order of sorting is a total preorder. -/
structure OrdersTotally (values : List Value) : Prop where
  refl : ∀ v ∈ values, v.sortOrder v = .eq
  swap : ∀ v ∈ values, ∀ w ∈ values, w.sortOrder v = (v.sortOrder w).swap
  le_trans : ∀ u ∈ values, ∀ v ∈ values, ∀ w ∈ values,
    u.sortOrder v ≠ .gt → v.sortOrder w ≠ .gt → u.sortOrder w ≠ .gt
  eq_trans : ∀ u ∈ values, ∀ v ∈ values, ∀ w ∈ values,
    u.sortOrder v = .eq → v.sortOrder w = .eq → u.sortOrder w = .eq

/-- No real of a list is taken to be equal to two of its numbers that are told apart. -/
def Clear (values : List Value) : Prop :=
  ∀ r, .real r ∈ values → ∀ u ∈ values, ∀ w ∈ values, ¬Blurs r u w

theorem ne_gt_iff : v.sortOrder w ≠ .gt ↔ (w.sortOrder v == .lt) = false := by
  rw [Ne, sortOrder_eq_gt_iff, beq_eq_false_iff_ne]

theorem Clear.ordersTotally {values : List Value} (h : Clear values) : OrdersTotally values where
  refl v _ := sortOrder_self v
  swap v _ w _ := sortOrder_swap v w
  le_trans u hu v hv w hw huv hvw := by
    intro hgt
    obtain ⟨r, rfl, hblurs⟩ := blurs_of_lt huv hvw (sortOrder_eq_gt_iff.1 hgt)
    exact h r hv u hu w hw hblurs
  eq_trans u hu v hv w hw huv hvw := by
    have hne : ∀ {o : Ordering}, o = .eq → o ≠ .gt := fun ho => ho ▸ Ordering.noConfusion
    cases huw : u.sortOrder w with
    | eq => rfl
    | lt =>
      obtain ⟨r, rfl, hblurs⟩ :=
        blurs_of_lt (hne (sortOrder_eq_comm.1 hvw)) (hne (sortOrder_eq_comm.1 huv)) huw
      exact absurd hblurs (h r hv w hw u hu)
    | gt =>
      obtain ⟨r, rfl, hblurs⟩ := blurs_of_lt (hne huv) (hne hvw) (sortOrder_eq_gt_iff.1 huw)
      exact absurd hblurs (h r hv u hu w hw)

theorem OrdersTotally.clear {values : List Value} (h : OrdersTotally values) : Clear values := by
  intro r hr u hu w hw hblurs
  exact hblurs.sortOrder_ne (h.eq_trans u hu _ hr w hw hblurs.sortOrder_left hblurs.sortOrder_right)

theorem OrdersTotally.weakOrderOn {values : List Value} (h : OrdersTotally values) :
    Sorting.WeakOrderOn (fun v w => v.sortOrder w == .lt) values where
  asymm v _ w _ hlt := by
    rw [sortOrder_swap v w, eq_of_beq hlt]
    rfl
  negTrans u hu v hv w hw huv hvw := by
    rw [← ne_gt_iff] at huv hvw ⊢
    exact h.le_trans w hw v hv u hu hvw huv

theorem tie_iff : Sorting.tie (fun v w => v.sortOrder w == .lt) v w = true ↔ v.sortOrder w = .eq := by
  rw [Sorting.tie, sortOrder_swap v w]
  cases v.sortOrder w <;> simp

/-- What sorting has to do: the result holds the same values, in order, and another arrangement of
them gives the same result up to values that are not told apart. -/
structure SortsAlike (values : List Value) : Prop where
  perm : (sort values).Perm values
  ordered : (sort values).Pairwise (fun v w => v.sortOrder w ≠ .gt)
  alike : ∀ arranged : List Value, arranged.Perm values →
    List.Forall₂ (fun v w => v.sortOrder w = .eq) (sort arranged) (sort values)

theorem OrdersTotally.sortsAlike {values : List Value} (h : OrdersTotally values) : SortsAlike values where
  perm := Sorting.perm_sort _ values
  ordered := (Sorting.pairwise_sort_not_less h.weakOrderOn).imp ne_gt_iff.2
  alike _ hperm := (Sorting.forall₂_sort_of_perm h.weakOrderOn hperm).imp (fun _ _ => tie_iff.1)

/-- Every value is equal to itself and two values compare the other way round if they are swapped. On
the values of a list the order is transitive exactly when no real among them is a NaN between numbers
that differ, or what two different whole numbers among them are rounded to, and then sorting is well
defined. -/
theorem ordersTotally_iff_clear (values : List Value) :
    (∀ v : Value, v.sortOrder v = .eq) ∧ (∀ v w : Value, w.sortOrder v = (v.sortOrder w).swap) ∧
      (OrdersTotally values ↔ Clear values) ∧ (Clear values → SortsAlike values) := by
  refine ⟨sortOrder_self, sortOrder_swap, ?_, ?_⟩
  · constructor
    · exact OrdersTotally.clear
    · exact Clear.ordersTotally
  · intro h
    exact h.ordersTotally.sortsAlike

def largeReal : Binary64 := ⟨0x4340000000000000⟩

def measurements : List Value :=
  [.integer 9007199254740992, .text "high", .real largeReal, .null, .bool true, .blob [0], .integer (-4)]

theorem clear_measurements : Clear measurements := by
  have hexact : ∀ v ∈ measurements, v.toInt64?.all (fun i =>
      !(ofInt i.toInt).numericEq largeReal || i == 9007199254740992) = true := by decide +kernel
  intro r hr u hu w hw hblurs
  obtain rfl : r = largeReal := by simpa [measurements] using hr
  cases hblurs with
  | nan hr _ _ _ => exact absurd hr (by decide)
  | @rounding i j hi hj hne hir hjr =>
    have hui := hexact u hu
    have hwj := hexact w hw
    simp only [hi, hj, hir, hjr, Option.all_some, Bool.not_true, Bool.false_or, beq_iff_eq] at hui hwj
    exact hne (hui.trans hwj.symm)

theorem ordersTotally_iff_clear_measurements : Clear measurements ∧ OrdersTotally measurements ∧
    sort measurements = [.null, .integer (-4), .bool true, .integer 9007199254740992, .real largeReal,
      .text "high", .blob [0]] ∧ SortsAlike measurements :=
  ⟨clear_measurements, (ordersTotally_iff_clear measurements).2.2.1.2 clear_measurements, by decide +kernel,
    (ordersTotally_iff_clear measurements).2.2.2 clear_measurements⟩

/-- Two neighbouring whole numbers, the greater first, and the real that both are rounded to. -/
def neighbours : List Value := [.integer 9007199254740993, .real largeReal, .integer 9007199254740992]

theorem not_ordersTotally_neighbours : ¬OrdersTotally neighbours ∧ sort neighbours = neighbours := by
  have hleft : (integer 9007199254740993).sortOrder (.real largeReal) = .eq := by decide +kernel
  have hright : (real largeReal).sortOrder (.integer 9007199254740992) = .eq := by decide +kernel
  have hends : (integer 9007199254740993).sortOrder (.integer 9007199254740992) = .gt := by decide +kernel
  constructor
  · intro h
    have heq := h.eq_trans _ (by decide) _ (by decide) _ (by decide) hleft hright
    rw [hends] at heq
    cases heq
  · decide +kernel

end Value

end EntityStore
