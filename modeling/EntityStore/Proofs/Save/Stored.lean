import EntityStore.Proofs.Save.Discriminator
import EntityStore.Proofs.Value.Exactness

/-!
# What is stored of a value

Every column of a command, whatever its state, holds what the entry gives for a property, or what is
filled in for it, in the declared type of the property.
-/

namespace EntityStore.Command

open Schema Traversal

section

variable {s : Schema} {e : PendingEntry} {c : Command} {t : EntityType} {shape : Shape s t}

theorem Accepted.exists_given_of_deleted (h : Accepted s e c t shape) (hstate : e.state = .deleted)
    {x : ColumnChange} (hx : x ∈ c.columns) :
    ∃ p ∈ shape.properties, ∃ v, Sets p v x ∧ given? e shape p = some v := by
  obtain ⟨p, hp, hkey, hsets, -⟩ := exists_of_mem_right (Context.columns_of_deleted h.columns hstate) hx
  obtain ⟨v, hv, -⟩ := h.exists_identifying hkey
  rw [Context.keyValue_of_identifying? (c := shape.context e) hv] at hsets
  exact ⟨p, List.mem_of_mem_filter hp, v, hsets, (given?_of_isKey hkey).trans hv⟩

theorem Accepted.exists_supplied (h : Accepted s e c t shape) {x : ColumnChange} (hx : x ∈ c.columns) :
    ∃ p ∈ shape.properties, ∃ v, Sets p v x ∧ Supplied e shape p v := by
  by_cases hstate : e.state = .deleted
  · obtain ⟨p, hp, v, hsets, hgiven⟩ := h.exists_given_of_deleted hstate hx
    exact ⟨p, hp, v, hsets, Or.inl hgiven⟩
  · obtain ⟨p, hp, v, hsets, hsupplied⟩ := h.exists_given hstate hx
    exact ⟨p, hp, v, hsets, hsupplied⟩

/-- A column of a command stores what has been supplied for a property of the type of the entry. -/
structure StoresSupplied (s : Schema) (e : PendingEntry) (t : EntityType) (shape : Shape s t) (p : Property)
    (v : Value) (x : ColumnChange) : Prop where
  type : s.entityType e.entityType = .ok t
  property : p ∈ shape.properties
  supplied : Supplied e shape p v
  sets : Sets p v x
  represents : ¬v.IsNaN → v.Represents p.type x.value

end

/-- A value other than a NaN that is converted to a declared type stays null, or else gets this type, is
not changed by another conversion, and is equal to the result unless it is a real that is to become an
integer and lies beyond `2 ^ 63`. All that an accepted entry stores in a column is a supplied value that
has been converted in this way. -/
theorem represents_stored (v : Value) (type : ValueType) (d : SchemaDef) (e : PendingEntry) :
    (∀ w, ¬v.IsNaN → v.coerce type = .ok w → v.Represents type w) ∧
      ∀ (s : Schema) (c : Command), Schema.ofDef d = .ok s → ofEntry s e = .ok c → ∀ x ∈ c.columns,
        ∃ t, ∃ shape : Shape s t, ∃ p u, StoresSupplied s e t shape p u x := by
  constructor
  · intro w hnan h
    exact Value.represents_of_convert? hnan (Value.coerce_eq_ok.1 h)
  · intro s c hd hc x hx
    obtain ⟨t, shape, haccepted⟩ := exists_accepted (valid_of_ofDef hd) hc
    obtain ⟨p, hp, u, hsets, hsupplied⟩ := haccepted.exists_supplied hx
    exact ⟨t, shape, p, u, haccepted.type, hp, hsupplied, hsets,
      fun hnan => Value.represents_of_convert? hnan hsets.value⟩

open Reading

def kiwiCommand (day : Value) : Command where
  entityType := ⟨2⟩
  table := "Animal"
  state := .added
  key := [.integer 5]
  columns := [⟨"Id", "Id", .integer 5, true, true⟩, ⟨"CountryId", "CountryId", .integer 1, false, true⟩,
    ⟨"Kind", "Kind", .text "Kiwi", false, true⟩, ⟨"FoundOn", "FoundOn", day, false, true⟩]

/-- A whole number between two reals, and a whole real for an integer. -/
theorem represents_stored_kiwi :
    let number := Value.integer 9007199254740993
    let rounded := Value.real ⟨0x4340000000000000⟩
    let day := Value.real ⟨0x404E000000000000⟩
    (¬number.IsNaN ∧ number.coerce .real = .ok rounded ∧ number.Represents .real rounded) ∧
      Schema.ofDef animalDef = .ok animals ∧
        ofEntry animals (kiwiFoundOn day) = .ok (kiwiCommand (.integer 60)) ∧
          ∃ t, ∃ shape : Shape animals t, ∃ p u, StoresSupplied animals (kiwiFoundOn day) t shape p u
            ⟨"FoundOn", "FoundOn", .integer 60, false, true⟩ := by
  intro number rounded day
  have hnan : ¬number.IsNaN := Value.not_isNaN_of_whole rfl
  have hnumber : number.coerce .real = .ok rounded := by decide +kernel
  have hcommand : ofEntry animals (kiwiFoundOn day) = .ok (kiwiCommand (.integer 60)) := by decide +kernel
  have hstored := represents_stored number .real animalDef (kiwiFoundOn day)
  exact ⟨⟨hnan, hnumber, hstored.1 rounded hnan hnumber⟩, ofDef_animalDef, hcommand,
    hstored.2 animals _ ofDef_animalDef hcommand _ (by decide)⟩

/-- `10 ^ 19` is stored as the greatest integer of 64 bits, which is another number. -/
theorem saturates_kiwi :
    let day := Value.real ⟨0x43E158E460913D00⟩
    let stored := Value.integer 9223372036854775807
    ¬day.IsNaN ∧ day.coerce .integer = .ok stored ∧ stored.compare? day = some .lt ∧
      ofEntry animals (kiwiFoundOn day) = .ok (kiwiCommand stored) ∧
        ¬∀ (v w : Value) (type : ValueType), ¬v.IsNaN → v.coerce type = .ok w → v ≠ .null →
          w.compare? v = some .eq := by
  intro day stored
  have hnan : ¬day.IsNaN := by
    rw [Value.isNaN_real_iff]
    decide
  have hcoerce : day.coerce .integer = .ok stored := by decide +kernel
  have hless : stored.compare? day = some .lt := by decide +kernel
  refine ⟨hnan, hcoerce, hless, by decide +kernel, ?_⟩
  intro h
  cases hless.symm.trans (h day stored .integer hnan hcoerce nofun)

end EntityStore.Command
