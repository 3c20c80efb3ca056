import Mathlib.Data.String.Basic
import EntityStore.Schema.Registration
import EntityStore.Value.Order

/-!
# Values in declared types

A value that has been converted to a declared type stays as it is from then on. Discriminator values
are equal in a query exactly if their keys are, and conversion to the type of a discriminator keeps the
key.
-/

namespace EntityStore.Value

theorem coerce_eq_ok {v w : Value} {type : ValueType} : v.coerce type = .ok w ↔ v.convert? type = some w := by
  unfold coerce
  cases v.convert? type with
  | none => simp
  | some u => simp

/-- A value in a declared type is not changed by another conversion. -/
theorem convert?_convert? {v w : Value} {type : ValueType} (h : v.convert? type = some w) :
    w.convert? type = some w := by
  cases v with
  | null =>
    cases h
    rfl
  | bool b =>
    cases type with
    | bool | integer =>
      cases h
      rfl
    | _ => cases h
  | integer i =>
    cases type with
    | integer | real =>
      cases h
      rfl
    | bool =>
      rw [convert?] at h
      split at h
      · cases h
        rfl
      · split at h
        · cases h
          rfl
        · cases h
    | _ => cases h
  | real r =>
    cases type with
    | real =>
      cases h
      rfl
    | integer =>
      rw [convert?] at h
      split at h
      · cases h
        rfl
      · cases h
    | _ => cases h
  | text t =>
    cases type with
    | text =>
      cases h
      rfl
    | _ => cases h
  | blob bytes =>
    cases type with
    | blob =>
      cases h
      rfl
    | _ => cases h

theorem type?_of_convert? {v w : Value} {type : ValueType} (h : v.convert? type = some w) :
    v = .null ∧ w = .null ∨ v ≠ .null ∧ w.type? = some type := by
  unfold convert? at h
  split at h
  case h_1 =>
    cases h
    exact Or.inl ⟨rfl, rfl⟩
  all_goals
    right
    grind [type?]

theorem eq_null_of_convert? {v w : Value} {type : ValueType} (h : v.convert? type = some w) :
    w = .null ↔ v = .null := by
  obtain ⟨hv, hw⟩ | ⟨hv, hw⟩ := type?_of_convert? h
  · exact iff_of_true hw hv
  · refine iff_of_false ?_ hv
    rintro rfl
    cases hw

theorem isNull_iff {v : Value} : v.isNull = true ↔ v = .null := by
  cases v <;> simp [isNull]

theorem whole_of_key {v : Value} {i : Int64} (h : v.discriminatorKey? = some (.integer i)) :
    v.isNull = false ∧ v.toInt64? = some i ∧ ∃ x, v.toReal? = some x := by
  cases v with
  | integer j =>
    cases h
    exact ⟨rfl, rfl, _, rfl⟩
  | bool b =>
    cases h
    exact ⟨rfl, rfl, _, rfl⟩
  | _ => cases h

theorem text_of_key {v : Value} {t : String} (h : v.discriminatorKey? = some (.text t)) : v = .text t := by
  cases v with
  | text u =>
    cases h
    rfl
  | _ => cases h

theorem compare?_of_whole {v w : Value} {i j : Int64} (hv : v.discriminatorKey? = some (.integer i))
    (hw : w.discriminatorKey? = some (.integer j)) :
    v.compare? w = some (compare i.toInt j.toInt) := by
  obtain ⟨hnull, hi, x, hx⟩ := whole_of_key hv
  obtain ⟨hnull', hj, y, hy⟩ := whole_of_key hw
  simp [compare?, compareNonNull?, hnull, hnull', hx, hy, hi, hj]

theorem compare?_text_of_whole {v : Value} {i : Int64} (hv : v.discriminatorKey? = some (.integer i))
    (t : String) : v.compare? (.text t) = some .lt ∧ (Value.text t).compare? v = some .gt := by
  cases v with
  | integer j => exact ⟨rfl, rfl⟩
  | bool b => exact ⟨rfl, rfl⟩
  | _ => cases hv

theorem compare?_eq_iff {v w : Value} {k k' : DiscriminatorKey} (hv : v.discriminatorKey? = some k)
    (hw : w.discriminatorKey? = some k') : v.compare? w = some .eq ↔ k = k' := by
  cases k with
  | integer i =>
    cases k' with
    | integer j =>
      rw [compare?_of_whole hv hw, Option.some.injEq, compare_eq_iff_eq, Int64.toInt_inj,
        DiscriminatorKey.integer.injEq]
    | text u =>
      rw [text_of_key hw, (compare?_text_of_whole hv u).1]
      simp
  | text t =>
    cases k' with
    | integer j =>
      rw [text_of_key hv, (compare?_text_of_whole hw t).2]
      simp
    | text u =>
      rw [text_of_key hv, text_of_key hw]
      simp [compare?, compareNonNull?, isNull, toReal?]

/-- Converting a discriminator value to the type of a discriminator keeps its key. -/
theorem discriminatorKey?_convert {v w : Value} {type : ValueType} {k : DiscriminatorKey}
    (htype : Schema.canDiscriminate type = true) (hk : v.discriminatorKey? = some k)
    (h : v.convert? type = some w) : w.discriminatorKey? = some k := by
  cases v with
  | integer i =>
    cases type with
    | bool =>
      rw [convert?] at h
      split at h
      · rename_i hi
        cases h
        rw [← hk, hi]
        rfl
      · split at h
        · rename_i hi
          cases h
          rw [← hk, hi]
          rfl
        · cases h
    | integer =>
      cases h
      exact hk
    | real => cases htype
    | _ => cases h
  | bool b =>
    cases type with
    | bool =>
      cases h
      exact hk
    | integer =>
      cases h
      exact hk
    | _ => cases h
  | text t =>
    cases type with
    | text =>
      cases h
      exact hk
    | _ => cases h
  | _ => cases hk

theorem exists_discriminatorKey? {v : Value} {type : ValueType}
    (htype : Schema.canDiscriminate type = true) (hv : v.convert? type = some v)
    (hnull : v.isNull = false) : ∃ k, v.discriminatorKey? = some k := by
  cases v with
  | null => cases hnull
  | bool b => exact ⟨_, rfl⟩
  | integer i => exact ⟨_, rfl⟩
  | text t => exact ⟨_, rfl⟩
  | real r =>
    cases type with
    | integer =>
      rw [convert?] at hv
      split at hv
      · cases hv
      · cases hv
    | real => cases htype
    | _ => cases hv
  | blob bytes =>
    cases type with
    | blob => cases htype
    | _ => cases hv

theorem convert?_integer_ne {b : Bool} {i : Int64} {type : ValueType}
    (hb : (bool b).convert? type = some (bool b)) : (integer i).convert? type ≠ some (integer i) := by
  cases type with
  | bool =>
    rw [convert?]
    split
    · simp
    · split <;> simp
  | _ => cases hb

theorem eq_of_discriminatorKey? {v w : Value} {type : ValueType} {k : DiscriminatorKey}
    (hv : v.convert? type = some v) (hw : w.convert? type = some w) (hvk : v.discriminatorKey? = some k)
    (hwk : w.discriminatorKey? = some k) : v = w := by
  have hkey := hvk.trans hwk.symm
  cases v with
  | bool b =>
    cases w with
    | bool c => cases b <;> cases c <;> first | rfl | cases hkey
    | integer j => exact absurd hw (convert?_integer_ne hv)
    | _ => cases hkey
  | integer i =>
    cases w with
    | bool c => exact absurd hv (convert?_integer_ne hw)
    | integer j =>
      cases hkey
      rfl
    | _ => cases hkey
  | text a =>
    cases w with
    | text b =>
      cases hkey
      rfl
    | _ => cases hkey
  | _ => cases hvk

theorem isNull_of_compare? {v w : Value} {o : Ordering} (h : v.compare? w = some o) : v.isNull = false := by
  cases v with
  | null => cases h
  | _ => rfl

end EntityStore.Value
