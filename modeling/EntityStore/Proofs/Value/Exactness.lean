import EntityStore.Proofs.Number.Whole
import EntityStore.Proofs.Value.Conversion
import EntityStore.Proofs.Value.SortOrder

/-!
# What conversion keeps

A value that passes into a declared type is equal in comparisons to what it becomes: it stays as it is,
stands for the same whole number, or is rounded just as comparison rounds it. Only whole reals beyond
`2 ^ 63` are not, which become the nearest integer of 64 bits, however far away that is.
-/

namespace EntityStore.Value

open Binary64 (ofInt)

variable {v w : Value} {type : ValueType}

def IsNaN (v : Value) : Prop := ∃ r, v = .real r ∧ r.isNaN = true

theorem isNaN_real_iff {r : Binary64} : (real r).IsNaN ↔ r.isNaN = true := by
  simp [IsNaN]

theorem not_isNaN_of_whole {i : Int64} (h : v.toInt64? = some i) : ¬v.IsNaN := by
  rintro ⟨r, rfl, -⟩
  cases h

/-- A real that is to become an integer, and lies beyond those of 64 bits and the one they are rounded to. -/
def Overflows (v : Value) (type : ValueType) : Prop :=
  type = .integer ∧ ∃ r, v = .real r ∧ 2 ^ 63 < r.truncate.natAbs

/-- The ways in which a value that is not null passes into a declared type. -/
inductive Passes (v : Value) (type : ValueType) : Value → Prop
  | unchanged (htype : v.type? = some type) : Passes v type v
  | renamed {i : Int64} {w : Value} (hv : v.toInt64? = some i) (hw : w.toInt64? = some i) : Passes v type w
  | widened {i : Int64} (hv : v = .integer i) : Passes v type (.real (ofInt i.toInt))
  | narrowed {r : Binary64} (htype : type = .integer) (hv : v = .real r) (hwhole : r.isWhole = true) :
      Passes v type (.integer r.toInt64)

theorem passes_of_convert? (h : v.convert? type = some w) (hnull : v ≠ .null) : Passes v type w := by
  cases v with
  | null => exact absurd rfl hnull
  | bool b =>
    cases type with
    | bool =>
      cases h
      exact .unchanged rfl
    | integer =>
      cases h
      exact .renamed rfl rfl
    | _ => cases h
  | integer i =>
    cases type with
    | bool =>
      rw [convert?] at h
      split at h
      · next hzero =>
        cases h
        exact .renamed (i := i) rfl (by rw [hzero]; rfl)
      · split at h
        · next hone =>
          cases h
          exact .renamed (i := i) rfl (by rw [hone]; rfl)
        · cases h
    | integer =>
      cases h
      exact .unchanged rfl
    | real =>
      cases h
      exact .widened rfl
    | _ => cases h
  | real r =>
    cases type with
    | integer =>
      rw [convert?] at h
      split at h
      · next hwhole =>
        cases h
        exact .narrowed rfl rfl hwhole
      · cases h
    | real =>
      cases h
      exact .unchanged rfl
    | _ => cases h
  | text s =>
    cases type with
    | text =>
      cases h
      exact .unchanged rfl
    | _ => cases h
  | blob bytes =>
    cases type with
    | blob =>
      cases h
      exact .unchanged rfl
    | _ => cases h

/-! ### Comparison with what a value becomes -/

theorem isNaN_of_toReal? {x : Binary64} (hv : ¬v.IsNaN) (hx : v.toReal? = some x) : x.isNaN = false := by
  cases v with
  | real r =>
    cases hx
    exact eq_false_of_ne_true (fun hnan => hv (isNaN_real_iff.2 hnan))
  | bool b =>
    cases hx
    exact Binary64.isNaN_ofInt _
  | integer i =>
    cases hx
    exact Binary64.isNaN_ofInt _
  | _ => cases hx

theorem exists_compareNonNull? (hv : ¬v.IsNaN) (hw : ¬w.IsNaN) : ∃ o, compareNonNull? v w = some o := by
  unfold compareNonNull?
  split
  · next x y hx hy =>
    split
    · exact ⟨_, rfl⟩
    · exact ⟨_, Binary64.compare?_eq (isNaN_of_toReal? hv hx) (isNaN_of_toReal? hw hy)⟩
  · split
    · exact ⟨_, rfl⟩
    · exact ⟨_, rfl⟩
    · exact ⟨_, rfl⟩

theorem compare?_eq_some_iff (hnull : v.isNull = false) (hnull' : w.isNull = false) (hv : ¬v.IsNaN)
    (hw : ¬w.IsNaN) {o : Ordering} : v.compare? w = some o ↔ v.sortOrder w = o := by
  obtain ⟨o', ho'⟩ := exists_compareNonNull? hv hw
  have hcompare : v.compare? w = some o' := by
    rw [compare?, hnull, hnull', ← ho']
    rfl
  rw [sortOrder, hnull, hnull', hcompare, Option.some.injEq]
  rfl

theorem Overflows.isReal (h : Overflows v type) : v.toInt64? = none ∧ v.type? ≠ some type := by
  obtain ⟨rfl, r, rfl, -⟩ := h
  exact ⟨rfl, nofun⟩

theorem sortOrder_narrowed {r : Binary64} (h : r.isWhole = true) :
    (integer r.toInt64).sortOrder (.real r) = .eq ↔ r.truncate.natAbs ≤ 2 ^ 63 := by
  have hnan := Binary64.isNaN_of_isWhole h
  rw [sortOrder_real_right r rfl, Binary64.compare?_eq (Binary64.isNaN_ofInt _) hnan, Option.getD_some,
    ← Binary64.signedUnits_toInt64_iff h]
  exact Std.LawfulEqOrd.compare_eq_iff_eq

theorem Passes.sortOrder_iff (h : Passes v type w) : w.sortOrder v = .eq ↔ ¬Overflows v type := by
  cases h with
  | unchanged htype => exact iff_of_true (sortOrder_self v) (fun hover => hover.isReal.2 htype)
  | renamed hv hw =>
    refine iff_of_true ?_ (fun hover => by cases hover.isReal.1.symm.trans hv)
    rw [sortOrder_whole hw hv]
    exact Std.ReflOrd.compare_self
  | @widened i hv =>
    subst hv
    refine iff_of_true ?_ (fun hover => by cases hover.isReal.1)
    rw [sortOrder_real_left _ rfl, Binary64.compare?_eq (Binary64.isNaN_ofInt _) (Binary64.isNaN_ofInt _)]
    exact Std.ReflOrd.compare_self
  | @narrowed r htype hv hwhole =>
    subst hv
    rw [sortOrder_narrowed hwhole, ← Nat.not_lt]
    refine not_congr ⟨fun hlt => ⟨htype, r, rfl, hlt⟩, ?_⟩
    rintro ⟨-, r', hr', hlt⟩
    cases hr'
    exact hlt

theorem Passes.not_isNaN (h : Passes v type w) (hv : ¬v.IsNaN) : ¬w.IsNaN := by
  cases h with
  | unchanged => exact hv
  | renamed _ hw => exact not_isNaN_of_whole hw
  | widened =>
    rw [isNaN_real_iff, Binary64.isNaN_ofInt]
    exact Bool.false_ne_true
  | narrowed => exact not_isNaN_of_whole rfl

/-- A value in a declared type, as what another value has been converted to. -/
structure Represents (v : Value) (type : ValueType) (w : Value) : Prop where
  null_iff : w = .null ↔ v = .null
  type_eq : v ≠ .null → w.type? = some type
  stable : w.coerce type = .ok w
  equal_iff : v ≠ .null → (w.compare? v = some .eq ↔ ¬Overflows v type)

theorem isNull_of_ne (h : v ≠ .null) : v.isNull = false :=
  eq_false_of_ne_true (fun hnull => h (isNull_iff.1 hnull))

theorem represents_of_convert? (hnan : ¬v.IsNaN) (h : v.convert? type = some w) : Represents v type w where
  null_iff := eq_null_of_convert? h
  type_eq hnull := by
    obtain ⟨hv, -⟩ | ⟨-, hw⟩ := type?_of_convert? h
    · exact absurd hv hnull
    · exact hw
  stable := coerce_eq_ok.2 (convert?_convert? h)
  equal_iff hnull := by
    have hpasses := passes_of_convert? h hnull
    have hnull' : w ≠ .null := fun hw => hnull ((eq_null_of_convert? h).1 hw)
    rw [compare?_eq_some_iff (isNull_of_ne hnull') (isNull_of_ne hnull) (hpasses.not_isNaN hnan) hnan]
    exact hpasses.sortOrder_iff

end EntityStore.Value
