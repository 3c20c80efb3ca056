import EntityStore.Proofs.Save.Columns
import EntityStore.Proofs.Sql.Modification

/-!
# Statements of commands

The text of a command is read back as a statement that gives the column whose value is a parameter the
placeholder of its number. A changed row is found by its key, and so is one that goes.
-/

namespace EntityStore.Command

open Sql Traversal

/-- The columns that have a placeholder, in the order of the text. -/
def placed (c : Command) : List ColumnChange :=
  match c.state with
  | .added => c.writeColumns
  | .modified => c.writeColumns ++ c.keyColumns
  | .deleted => c.keyColumns

def place (a : ColumnChange × Nat) : Assignment := (a.1.column, .parameter (toString a.2))

def statement (c : Command) : Statement :=
  match c.state with
  | .added =>
    .insert c.table (c.writeColumns.map (·.column))
      ((c.writeColumns.zipIdx 1).map (fun a => .parameter (toString a.2)))
  | .modified =>
    .update c.table ((c.writeColumns.zipIdx 1).map place)
      ((c.keyColumns.zipIdx (c.writeColumns.length + 1)).map place)
  | .deleted => .delete c.table ((c.keyColumns.zipIdx 1).map place)

/-- The text and the parameters of a command go together. -/
structure Binds (c : Command) : Prop where
  placeholders : ∃ ls, Lexeme.scan c.sql.1 = some ls ∧
    ls.filterMap Lexeme.placeholderNumber? = List.range' 1 c.sql.2.length
  statement : Statement.ofText? c.sql.1 = some c.statement
  parameters : c.sql.2 = c.placed.map (·.value)

/-- The row of an entry is found by its identifying values in the declared types, none of them null. -/
structure FindsRow {s : Schema} {t : EntityType} (e : PendingEntry) (shape : Shape s t) (c : Command) :
    Prop where
  state : c.state = e.state
  writes : c.state ≠ .deleted → c.writeColumns ≠ []
  key : c.keyColumns ≠ []
  keyColumns : List.Forall₂ (fun p x => x.column = p.columnName ∧ x.value ≠ .null ∧
      ∃ v, e.identifying? p.name = some v ∧ v.convert? p.type = some x.value)
    (shape.properties.filter (fun p => (shape.key.map (·.name)).contains p.name)) c.keyColumns

theorem map_place_eq (columns : List ColumnChange) (start : Nat) :
    (columns.zipIdx start).map place = ((columns.map (·.column)).zipIdx start).map binding := by
  rw [List.zipIdx_map, List.map_map]
  rfl

theorem binds_of_added {c : Command} (hstate : c.state = .added) (hwrites : c.writeColumns ≠ []) : c.Binds := by
  have hne : c.writeColumns.map (·.column) ≠ [] := by simpa using hwrites
  have hsql : c.sql = (Sql.insert c.table (c.writeColumns.map (·.column)), c.writeColumns.map (·.value)) := by
    rw [Command.sql, hstate]
  constructor
  · rw [hsql]
    refine ⟨_, (spells_insert hne).scan_eq, ?_⟩
    rw [numbers_insert, List.length_map, List.length_map]
  · rw [hsql, ofText?_insert hne, Command.statement, hstate]
    rw [List.length_map, ← List.zipIdx_map_snd 1 c.writeColumns, List.map_map]
    rfl
  · rw [hsql, placed, hstate]

theorem binds_of_modified {c : Command} (hstate : c.state = .modified) (hwrites : c.writeColumns ≠ [])
    (hkey : c.keyColumns ≠ []) : c.Binds := by
  have hne : c.writeColumns.map (·.column) ≠ [] := by simpa using hwrites
  have hne' : c.keyColumns.map (·.column) ≠ [] := by simpa using hkey
  have hsql : c.sql = (Sql.update c.table (c.writeColumns.map (·.column)) (c.keyColumns.map (·.column)),
      c.writeColumns.map (·.value) ++ c.keyColumns.map (·.value)) := by
    rw [Command.sql, hstate]
  constructor
  · rw [hsql]
    refine ⟨_, (spells_update hne hne').scan_eq, ?_⟩
    rw [numbers_update]
    simp only [List.length_map, List.length_append]
  · rw [hsql, ofText?_update hne hne', Command.statement, hstate, ← map_place_eq, List.length_map,
      ← map_place_eq]
  · rw [hsql, placed, hstate, List.map_append]

theorem binds_of_deleted {c : Command} (hstate : c.state = .deleted) (hkey : c.keyColumns ≠ []) : c.Binds := by
  have hne : c.keyColumns.map (·.column) ≠ [] := by simpa using hkey
  have hsql : c.sql = (Sql.delete c.table (c.keyColumns.map (·.column)), c.keyColumns.map (·.value)) := by
    rw [Command.sql, hstate]
  constructor
  · rw [hsql]
    refine ⟨_, (spells_delete hne).scan_eq, ?_⟩
    rw [numbers_delete, List.length_map, List.length_map]
  · rw [hsql, ofText?_delete hne, Command.statement, hstate, ← map_place_eq]
  · rw [hsql, placed, hstate]

theorem binds {c : Command} (hwrites : c.state ≠ .deleted → c.writeColumns ≠ []) (hkey : c.keyColumns ≠ []) :
    c.Binds := by
  cases hstate : c.state with
  | added => exact binds_of_added hstate (hwrites (by simp [hstate]))
  | modified => exact binds_of_modified hstate (hwrites (by simp [hstate])) hkey
  | deleted => exact binds_of_deleted hstate hkey

theorem Accepted.findsRow {s : Schema} {e : PendingEntry} {c : Command} {t : EntityType} {shape : Shape s t}
    (h : Accepted s e c t shape) {p : Property} (hp : p ∈ shape.key) : FindsRow e shape c where
  state := h.state
  writes := by
    rw [h.state]
    exact h.writeColumns_ne_nil hp
  key := h.keyColumns_ne_nil hp
  keyColumns := by
    apply h.keyColumns.imp
    rintro p x ⟨v, hv, hnull, hsets⟩
    exact ⟨hsets.column, fun hx => hnull ((Value.eq_null_of_convert? hsets.value).1 hx), v, hv, hsets.value⟩

/-- Text and parameters of every accepted entry go together, and find its row. -/
theorem binds_sql {d : SchemaDef} {s : Schema} (hd : Schema.ofDef d = .ok s) {e : PendingEntry} {c : Command}
    (hc : ofEntry s e = .ok c) :
    c.Binds ∧ ∃ t, ∃ shape : Shape s t, s.entityType e.entityType = .ok t ∧ FindsRow e shape c := by
  obtain ⟨t, shape, h⟩ := exists_accepted (Schema.valid_of_ofDef hd) hc
  obtain ⟨p, hp⟩ := shape.exists_mem_key hd
  have hfinds := h.findsRow hp
  exact ⟨binds hfinds.writes hfinds.key, t, shape, h.type, hfinds⟩

/-- Notes, in a table and columns with quotes and placeholders in their names. -/
def noteDef : SchemaDef where
  entityTypes := [
    { name := "Note", base := none, isAbstract := false
      properties := [⟨"Id", some "?2", .integer, false⟩, ⟨"Text", some "\"", .text, true⟩]
      key := ["Id"], table := some "a \"?1\"", discriminatorProperty := none, discriminatorValue := none }]
  foreignKeys := []

def notes : Schema where
  types := [
    { id := ⟨0⟩, name := "Note", base := none, isAbstract := false
      properties := [⟨"Id", some "?2", .integer, false⟩, ⟨"Text", some "\"", .text, true⟩]
      key := ["Id"], table := some "a \"?1\"", discriminatorProperty := none, discriminatorValue := none }]
  foreignKeys := []

def changedNote : PendingEntry where
  entityType := ⟨0⟩
  state := .modified
  current := .ofList [("Text", .text "new")]
  loaded := .ofList [("Id", .bool true), ("Text", .text "old")]

def changedNoteCommand : Command where
  entityType := ⟨0⟩
  table := "a \"?1\""
  state := .modified
  key := [.bool true]
  columns := [⟨"Id", "?2", .integer 1, true, false⟩, ⟨"Text", "\"", .text "new", false, true⟩]

theorem binds_sql_notes :
    Schema.ofDef noteDef = .ok notes ∧ ofEntry notes changedNote = .ok changedNoteCommand ∧
      changedNoteCommand.sql =
        ("UPDATE \"a \"\"?1\"\"\" SET \"\"\"\" = ?1 WHERE \"?2\" = ?2", [.text "new", .integer 1]) ∧
      changedNoteCommand.Binds ∧ ∃ t, ∃ shape : Shape notes t,
        notes.entityType changedNote.entityType = .ok t ∧ FindsRow changedNote shape changedNoteCommand := by
  have hd : Schema.ofDef noteDef = .ok notes := rfl
  have hc : ofEntry notes changedNote = .ok changedNoteCommand := rfl
  exact ⟨hd, hc, by decide, binds_sql hd hc⟩

end EntityStore.Command
