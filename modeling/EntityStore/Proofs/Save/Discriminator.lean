import EntityStore.Proofs.Query.Records
import EntityStore.Proofs.Save.Columns
import EntityStore.Proofs.Schema.Discriminators

/-!
# What is written as the type of a row

A discriminator is a property like any other to those who save, and what an entry gives for it is what
is written. The declared value of the type is written where nothing is given. So a row keeps the type of
its entry if what is given, if anything, is that value.
-/

namespace EntityStore.Command

open Schema Traversal

section

variable {s : Schema} {e : PendingEntry} {c : Command} {t : EntityType} {shape : Shape s t}

/-- The value that an entry gives for a property: of a key property, the one that its row is found by. -/
def given? (e : PendingEntry) (shape : Shape s t) (p : Property) : Option Value :=
  if (shape.key.map (·.name)).contains p.name then e.identifying? p.name else e.current.get? p.name

theorem given?_of_isKey {p : Property} (hp : (shape.context e).isKey p = true) :
    given? e shape p = e.identifying? p.name := if_pos hp

theorem given?_of_not_isKey {p : Property} (hp : (shape.context e).isKey p = false) :
    given? e shape p = e.current.get? p.name := if_neg (Bool.eq_false_iff.1 hp)

theorem given?_of_added (hstate : e.state = .added) (p : Property) :
    given? e shape p = e.current.get? p.name := by
  have hidentifying : e.identifying? p.name = e.current.get? p.name := by
    rw [PendingEntry.identifying?, hstate]
  rw [given?, hidentifying, ite_self]

/-- The value for a property that is given by the entry or, where it gives none, filled in: the declared
value of the type for the discriminator, and null for all else. -/
def Supplied (e : PendingEntry) (shape : Shape s t) (p : Property) (v : Value) : Prop :=
  given? e shape p = some v ∨ given? e shape p = none ∧
    v = if shape.discriminator.map (·.name) = some p.name then t.discriminatorValue.getD .null else .null

theorem Accepted.exists_given (h : Accepted s e c t shape) (hstate : e.state ≠ .deleted) {x : ColumnChange}
    (hx : x ∈ c.columns) :
    ∃ p ∈ shape.properties, ∃ v, Sets p v x ∧ Supplied e shape p v := by
  cases hstate' : e.state with
  | added =>
    obtain ⟨p, hp, hinsert⟩ := exists_of_mem_right (Context.columns_of_added h.columns hstate') hx
    obtain ⟨-, hsets, -⟩ := Context.insertColumn_eq_ok_iff.1 hinsert
    refine ⟨p, hp, _, hsets, ?_⟩
    rw [Supplied, given?_of_added hstate']
    cases hv : e.current.get? p.name with
    | some v => exact Or.inl (congrArg some (Context.insertedValue_of_supplied (c := shape.context e) hv).symm)
    | none => exact Or.inr ⟨rfl, Context.insertedValue_of_omitted (c := shape.context e) hv⟩
  | modified =>
    obtain ⟨updated, hupdated, hcolumns⟩ := Context.columns_of_modified h.columns hstate'
    rw [hcolumns] at hx
    obtain ⟨y, hy, rfl⟩ := List.mem_map.1 hx
    obtain ⟨p, hp, hupdates⟩ := exists_of_mem_right hupdated hy
    refine ⟨p, List.mem_of_mem_filter hp, ?_⟩
    cases hupdates with
    | found hkey _ hsets =>
      obtain ⟨v, hv, -⟩ := h.exists_identifying hkey
      rw [Context.keyValue_of_identifying? (c := shape.context e) hv] at hsets
      exact ⟨v, hsets.with_isWrite _, Or.inl ((given?_of_isKey hkey).trans hv)⟩
    | @supplied v _ hkey hv _ hsets =>
      exact ⟨v, hsets.with_isWrite _, Or.inl ((given?_of_not_isKey hkey).trans hv)⟩
  | deleted => exact absurd hstate' hstate

end

open Reading

end EntityStore.Command
