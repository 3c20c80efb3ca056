import EntityStore.Proofs.Save.Command
import EntityStore.Proofs.Value.Conversion

/-!
# Key columns of commands

A command is filed under the identifying values of its entry as they are given, but it touches the
key columns with these values converted to the declared types. Whatever column it touches, it does so
with a value in a declared type.
-/

namespace EntityStore.Command

open Traversal

theorem coerceFor_eq_ok_iff {p : Property} {v w : Value} :
    coerceFor p v = .ok w ↔ v.convert? p.type = some w := by
  unfold coerceFor Value.coerce
  cases v.convert? p.type with
  | none => simp
  | some u => simp

structure Sets (p : Property) (v : Value) (x : ColumnChange) : Prop where
  property : x.property = p.name
  column : x.column = p.columnName
  value : v.convert? p.type = some x.value

theorem Sets.with_isWrite {p : Property} {v : Value} {x : ColumnChange} (h : Sets p v x) (isWrite : Bool) :
    Sets p v { x with isWrite := isWrite } := ⟨h.property, h.column, h.value⟩

theorem change_eq_ok_iff {p : Property} {v : Value} {isKey isWrite : Bool} {x : ColumnChange} :
    change p v isKey isWrite = .ok x ↔ Sets p v x ∧ x.isKey = isKey ∧ x.isWrite = isWrite := by
  simp only [change, bind_eq_ok_iff, pure_eq_ok, coerceFor_eq_ok_iff]
  constructor
  · rintro ⟨w, hw, rfl⟩
    exact ⟨⟨rfl, rfl, hw⟩, rfl, rfl⟩
  · obtain ⟨property, column, value, key, write⟩ := x
    rintro ⟨⟨rfl, rfl, hvalue⟩, rfl, rfl⟩
    exact ⟨value, hvalue, rfl⟩

namespace Context

def Touches (c : Context) (p : Property) (x : ColumnChange) : Prop :=
  x.column = p.columnName ∧
    ∀ v, c.isKey p = true → c.entry.identifying? p.name = some v → v.convert? p.type = some x.value

theorem touches_of_insertColumn {c : Context} (hstate : c.entry.state = .added) {p : Property}
    {x : ColumnChange} (h : c.insertColumn p = .ok x) :
    c.Touches p x ∧ x.value.convert? p.type = some x.value ∧ x.isWrite = true := by
  simp only [insertColumn, bind_eq_ok_iff] at h
  obtain ⟨_, _, hchange⟩ := h
  obtain ⟨⟨-, hcolumn, hvalue⟩, -, hwrite⟩ := change_eq_ok_iff.1 hchange
  refine ⟨⟨hcolumn, ?_⟩, Value.convert?_convert? hvalue, hwrite⟩
  intro v _ hv
  have hcurrent : c.entry.current.get? p.name = some v := by
    rwa [PendingEntry.identifying?, hstate] at hv
  rwa [insertedValue, hcurrent] at hvalue

theorem touches_of_keyChange {c : Context} {p : Property} {isKey isWrite : Bool} {x : ColumnChange}
    (h : change p (c.keyValue p) isKey isWrite = .ok x) :
    c.Touches p x ∧ x.value.convert? p.type = some x.value := by
  obtain ⟨⟨-, hcolumn, hvalue⟩, -⟩ := change_eq_ok_iff.1 h
  refine ⟨⟨hcolumn, ?_⟩, Value.convert?_convert? hvalue⟩
  intro v _ hv
  rwa [keyValue, hv] at hvalue

theorem touches_of_updateColumn {c : Context} {p : Property} {x : ColumnChange}
    (h : c.updateColumn p = .ok (some x)) : c.Touches p x ∧ x.value.convert? p.type = some x.value := by
  unfold updateColumn at h
  split at h
  · simp only [bind_eq_ok_iff, pure_eq_ok, Option.some.injEq] at h
    obtain ⟨_, _, y, hchange, rfl⟩ := h
    exact touches_of_keyChange hchange
  · rename_i hkey
    split at h
    · cases h
    · simp only [bind_eq_ok_iff, pure_eq_ok, Option.some.injEq] at h
      obtain ⟨_, _, y, hchange, rfl⟩ := h
      obtain ⟨⟨-, hcolumn, hvalue⟩, -⟩ := change_eq_ok_iff.1 hchange
      exact ⟨⟨hcolumn, fun v hkey' => absurd hkey' hkey⟩, Value.convert?_convert? hvalue⟩

theorem mem_writeSomething {columns : List ColumnChange} {x : ColumnChange}
    (h : x ∈ writeSomething columns) : ∃ y ∈ columns, x.column = y.column ∧ x.value = y.value := by
  unfold writeSomething at h
  split at h
  · exact ⟨x, h, rfl, rfl⟩
  · split at h
    · obtain ⟨y, hy, rfl⟩ := List.mem_map.mp h
      exact ⟨y, hy, rfl, rfl⟩
    · obtain ⟨y, hy, rfl⟩ := List.mem_map.mp h
      exact ⟨y, hy, rfl, rfl⟩

theorem touches_of_mem_columns {c : Context} {properties : List Property}
    {columns : List ColumnChange} (h : c.columns properties = .ok columns) {x : ColumnChange}
    (hx : x ∈ columns) :
    ∃ p ∈ properties, c.Touches p x ∧ x.value.convert? p.type = some x.value := by
  unfold Context.columns at h
  split at h
  · rename_i hstate
    obtain ⟨p, hp, hinsert⟩ := exists_of_mem_right (mapM_eq_ok_iff.mp h) hx
    obtain ⟨htouches, htyped, -⟩ := touches_of_insertColumn hstate hinsert
    exact ⟨p, hp, htouches, htyped⟩
  · simp only [bind_eq_ok_iff, pure_eq_ok] at h
    obtain ⟨touched, htouched, rfl⟩ := h
    obtain ⟨y, hy, hcolumn, hvalue⟩ := mem_writeSomething hx
    obtain ⟨_, hopt, rfl⟩ := List.mem_filterMap.mp hy
    obtain ⟨p, hp, hupdate⟩ := exists_of_mem_right (mapM_eq_ok_iff.mp htouched) hopt
    refine ⟨p, hp, ?_⟩
    have htouches := touches_of_updateColumn hupdate
    unfold Touches at htouches ⊢
    rwa [hcolumn, hvalue]
  · obtain ⟨p, hp, hchange⟩ := exists_of_mem_right (mapM_eq_ok_iff.mp h) hx
    exact ⟨p, List.mem_of_mem_filter hp, touches_of_keyChange hchange⟩

theorem exists_mem_columns_of_added {c : Context} {properties : List Property}
    {columns : List ColumnChange} (h : c.columns properties = .ok columns)
    (hstate : c.entry.state = .added) {p : Property} (hp : p ∈ properties) :
    ∃ x ∈ columns, x.column = p.columnName ∧ x.isWrite = true := by
  rw [Context.columns, hstate] at h
  obtain ⟨x, hx, hinsert⟩ := exists_of_mem_left (mapM_eq_ok_iff.mp h) hp
  obtain ⟨htouches, -, hwrite⟩ := touches_of_insertColumn hstate hinsert
  exact ⟨x, hx, htouches.1, hwrite⟩

end Context

theorem key_eq_ok_iff {s : Schema} {t : EntityType} (shape : Shape s t) {e : PendingEntry}
    (ht : t.id = e.entityType) {key : EntityKey} :
    e.key s = .ok key ↔ List.Forall₂ (fun p v => e.identifying? p.name = some v) shape.key key := by
  rw [PendingEntry.key, ← ht, shape.keyProperties_eq, ok_bind, mapM_eq_ok_iff]
  constructor
  · intro h
    refine h.imp ?_
    intro p v hv
    cases hp : e.identifying? p.name with
    | none =>
      rw [hp] at hv
      cases hv
    | some w =>
      rw [hp] at hv
      rw [Except.ok.inj hv]
  · intro h
    refine h.imp ?_
    intro p v hv
    rw [hv]

theorem keyOf_eq_ok_iff {s : Schema} {t : EntityType} (shape : Shape s t) {e : PendingEntry}
    (ht : t.id = e.entityType) {key : EntityKey} :
    keyOf s t e = .ok key ↔
      List.Forall₂ (fun p v => e.identifying? p.name = some v ∧ v ≠ .null) shape.key key := by
  rw [forall₂_and_right, ← key_eq_ok_iff shape ht, keyOf]
  cases hkey : e.key s with
  | error cause => simp
  | ok values =>
    have hnull : values.any Value.isNull = true ↔ ¬ ∀ v ∈ values, v ≠ .null := by
      simp [Value.isNull_iff]
    simp only [Except.ok.injEq]
    split
    · rename_i hany
      constructor
      · nofun
      · rintro ⟨rfl, hkey⟩
        exact absurd hkey (hnull.1 hany)
    · rename_i hany
      rw [Except.ok.injEq]
      refine ⟨?_, And.left⟩
      rintro rfl
      exact ⟨rfl, not_not.1 (fun h => hany (hnull.2 h))⟩

section

variable {s : Schema} {e : PendingEntry} {c : Command} {t : EntityType} {shape : Shape s t}

theorem Accepted.key_eq (h : Accepted s e c t shape) :
    List.Forall₂ (fun p v => e.identifying? p.name = some v ∧ v ≠ .null) shape.key c.key :=
  (keyOf_eq_ok_iff shape h.type_id).1 h.key

theorem Accepted.identifying (h : Accepted s e c t shape) :
    List.Forall₂ (fun p v => e.identifying? p.name = some v) shape.key c.key :=
  h.key_eq.imp (fun _ _ hv => hv.1)

end

end EntityStore.Command
