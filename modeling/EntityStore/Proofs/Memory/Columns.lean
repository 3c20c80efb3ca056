import EntityStore.Proofs.Memory.Keys
import EntityStore.Proofs.Query.Entities

/-!
# Columns of stored rows

In the table of a root the columns of the properties that the root declares, the discriminator among
them, hold values of the declared types. Subtypes may disagree on the columns of their own properties.
-/

namespace EntityStore.Memory

open Command Schema Traversal

theorem isTyped_iff {r : Record} {properties : List Property} :
    Reading.IsTyped [(⟨0⟩, r)] ⟨0⟩ properties ↔
      ∀ p ∈ properties, ∀ v, r.get? p.columnName = some v → v.convert? p.type = some v := by
  have hread : ∀ column, Reading.read [(⟨0⟩, r)] ⟨0⟩ column = (r.get? column).getD .null := by
    intro column
    simp [Reading.read, OrderedMap.lookup]
  refine forall₂_congr ?_
  intro p _
  rw [hread]
  cases r.get? p.columnName with
  | none => simp [Value.convert?]
  | some v => simp

/-- The rows of every root have the types that the root declares. -/
def Typed (s : Schema) (db : MemoryDatabase) : Prop :=
  ∀ root ∈ s.roots, ∀ r ∈ db.rows (tableOf root), Reading.IsTyped [(⟨0⟩, r)] ⟨0⟩ root.properties

theorem typed_empty (s : Schema) : Typed s .empty := fun _ _ _ hr => by cases hr

section

variable {s : Schema} {e : PendingEntry} {c : Command} {t : EntityType} {shape : Shape s t}

theorem typed_of_write (hs : s.Ordered) (hcolumns : ColumnsApart s) (hc : Accepted s e c t shape)
    {p : Property} (hp : p ∈ shape.root.properties) {x : ColumnChange} (hx : x ∈ c.columns)
    (hcolumn : x.column = p.columnName) : x.value.convert? p.type = some x.value := by
  obtain ⟨q, hq, ⟨hqcolumn, -⟩, htyped⟩ := Context.touches_of_mem_columns hc.columns hx
  have hfound := hs.found hc.type
  have hpmem := hs.mem_properties_of_root hfound shape.root_eq shape.properties_eq hp
  have hapart := hcolumns t hfound.mem _ shape.properties_eq
  -- the column is that of one property only
  obtain rfl : q = p := List.inj_on_of_nodup_map hapart hq hpmem (hqcolumn.symm.trans hcolumn)
  exact htyped

theorem typed_updatedRecord (hs : s.Ordered) (hcolumns : ColumnsApart s) (hc : Accepted s e c t shape)
    {r : Record} (hr : Reading.IsTyped [(⟨0⟩, r)] ⟨0⟩ shape.root.properties) :
    Reading.IsTyped [(⟨0⟩, MemoryDatabase.updatedRecord c r)] ⟨0⟩ shape.root.properties := by
  rw [isTyped_iff] at hr ⊢
  intro p hp v hv
  rw [MemoryDatabase.updatedRecord] at hv
  rcases OrderedMap.get?_foldl_insert (fun x : ColumnChange => x.column) (·.value) c.writeColumns
    r p.columnName with ⟨x, hx, hcolumn, hget⟩ | ⟨-, hget⟩
  · rw [hget] at hv
    cases hv
    exact typed_of_write hs hcolumns hc hp (List.mem_of_mem_filter hx) hcolumn
  · exact hr p hp v (hget ▸ hv)

theorem insertedRecord_eq (c : Command) :
    MemoryDatabase.insertedRecord c = MemoryDatabase.updatedRecord c .empty := by
  rw [MemoryDatabase.insertedRecord, OrderedMap.ofList, List.foldl_map]
  rfl

theorem Typed.applyCommand (hs : s.Ordered) (hcolumns : ColumnsApart s) (htables : TablesApart s)
    (hc : Accepted s e c t shape) {db db' : MemoryDatabase} (hdb : Typed s db)
    (h : db.applyCommand c = .ok db') : Typed s db' := by
  simp only [MemoryDatabase.applyCommand, bind_eq_ok_iff, pure_eq_ok] at h
  obtain ⟨table, htable, rfl⟩ := h
  intro root hroot r hr
  rw [rows_putTable] at hr
  split at hr
  · rename_i hname
    -- no other root has this table, so the command is for this hierarchy
    obtain rfl := htables _ shape.isRoot root hroot (hc.table.symm.trans hname)
    have hold : ∀ r ∈ (db.table c.table).values,
        Reading.IsTyped [(⟨0⟩, r)] ⟨0⟩ shape.root.properties := by
      intro r hr
      rw [hc.table] at hr
      exact hdb _ hroot r hr
    rcases applyToTable_cases htable with ⟨-, rfl⟩ | ⟨row, hrow, rfl⟩ | rfl
    · rcases OrderedMap.mem_values_insert hr with rfl | hr
      · rw [insertedRecord_eq]
        exact typed_updatedRecord hs hcolumns hc (isTyped_iff.2 (fun _ _ _ hv => by cases hv))
      · exact hold r hr
    · rcases OrderedMap.mem_values_insert hr with rfl | hr
      · exact typed_updatedRecord hs hcolumns hc
          (hold row (List.mem_map_of_mem (OrderedMap.mem_of_lookup hrow)))
      · exact hold r hr
    · exact hold r (OrderedMap.mem_values_erase hr)
  · exact hdb root hroot r hr

end

theorem typed_afterSaves {s : Schema} (hs : s.Valid) (hcolumns : ColumnsApart s)
    (htables : TablesApart s) (name : String) (calls : List SaveCall) :
    Typed s (afterSaves name s calls .empty) := by
  refine afterSaves_preserves name s (typed_empty s) ?_
  intro call _ e _ c hc db db' hdb happly
  obtain ⟨t, shape, haccepted⟩ := exists_accepted hs hc
  exact hdb.applyCommand hs.toOrdered hcolumns htables haccepted happly

end EntityStore.Memory
