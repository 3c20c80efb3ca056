import EntityStore.Proofs.Save.KeyColumns

/-!
# Columns of commands

Which columns a command has, for each state of its entry. Whatever the state, the key columns are
those of the key properties, and they hold the identifying values of the entry, none of them null.
-/

namespace EntityStore.Command

open Traversal

theorem checkNullable_eq_ok_iff {typeName : String} {p : Property} {v : Value} :
    checkNullable typeName p v = .ok () ↔ (v = .null → p.nullable = true) := by
  unfold checkNullable
  rw [← Value.isNull_iff]
  cases v.isNull <;> cases p.nullable <;> simp

theorem exists_change_iff {p : Property} {v : Value} {isKey isWrite : Bool} :
    (∃ x, change p v isKey isWrite = .ok x) ↔ ∃ w, v.convert? p.type = some w := by
  rw [change, exists_bind_pure_iff]
  simp only [coerceFor_eq_ok_iff]

namespace Context

variable {c : Context} {p : Property} {x : ColumnChange}

theorem insertColumn_eq_ok_iff :
    c.insertColumn p = .ok x ↔
      (c.insertedValue p = .null → p.nullable = true) ∧ Sets p (c.insertedValue p) x ∧
        x.isKey = c.isKey p ∧ x.isWrite = true := by
  simp only [insertColumn, bind_eq_ok_iff, change_eq_ok_iff]
  constructor
  · rintro ⟨⟨⟩, hnullable, hchange⟩
    exact ⟨checkNullable_eq_ok_iff.1 hnullable, hchange⟩
  · rintro ⟨hnullable, hchange⟩
    exact ⟨(), checkNullable_eq_ok_iff.2 hnullable, hchange⟩

theorem exists_insertColumn_iff :
    (∃ x, c.insertColumn p = .ok x) ↔
      (c.insertedValue p = .null → p.nullable = true) ∧ ∃ w, (c.insertedValue p).convert? p.type = some w := by
  simp only [insertColumn_eq_ok_iff]
  constructor
  · rintro ⟨x, hnullable, hsets, -⟩
    exact ⟨hnullable, x.value, hsets.value⟩
  · rintro ⟨hnullable, w, hw⟩
    exact ⟨⟨p.name, p.columnName, w, c.isKey p, true⟩, hnullable, ⟨rfl, rfl, hw⟩, rfl, rfl⟩

theorem insertedValue_of_supplied {v : Value} (hv : c.entry.current.get? p.name = some v) :
    c.insertedValue p = v := by
  rw [insertedValue, hv]

theorem insertedValue_of_omitted (hv : c.entry.current.get? p.name = none) :
    c.insertedValue p =
      if c.discriminator = some p.name then c.type.discriminatorValue.getD .null else .null := by
  rw [insertedValue, hv]

theorem checkKeyUnchanged_eq_ok_iff :
    c.checkKeyUnchanged p = .ok () ↔ ∀ v w, c.entry.current.get? p.name = some v →
      c.entry.loaded.get? p.name = some w → v.same w = true := by
  unfold checkKeyUnchanged
  cases c.entry.current.get? p.name with
  | none => simp
  | some v =>
    cases c.entry.loaded.get? p.name with
    | none => simp
    | some w => cases h : v.same w <;> simp [h]

theorem isChanged_eq_true_iff {v : Value} :
    c.isChanged p v = true ↔ ∀ w, c.entry.loaded.get? p.name = some w → w.same v = false := by
  unfold isChanged
  cases c.entry.loaded.get? p.name with
  | none => simp
  | some w => simp

/-- What an update makes of a property: the key is found by, what the entry supplies is set. -/
inductive Updates (c : Context) (p : Property) : Option ColumnChange → Prop
  | found {x : ColumnChange} (isKey : c.isKey p = true) (unchanged : c.checkKeyUnchanged p = .ok ())
      (sets : Sets p (c.keyValue p) x) (key : x.isKey = true) (write : x.isWrite = false) :
      Updates c p (some x)
  | omitted (isKey : c.isKey p = false) (omitted : c.entry.current.get? p.name = none) :
      Updates c p none
  | supplied {v : Value} {x : ColumnChange} (isKey : c.isKey p = false)
      (supplied : c.entry.current.get? p.name = some v) (nullable : v = .null → p.nullable = true)
      (sets : Sets p v x) (key : x.isKey = false) (write : x.isWrite = c.isChanged p v) :
      Updates c p (some x)

theorem updateColumn_eq_ok_iff {o : Option ColumnChange} : c.updateColumn p = .ok o ↔ c.Updates p o := by
  unfold updateColumn
  cases hkey : c.isKey p with
  | true =>
    simp only [↓reduceIte, bind_eq_ok_iff, pure_eq_ok, change_eq_ok_iff]
    constructor
    · rintro ⟨⟨⟩, hunchanged, x, ⟨hsets, hx, hwrite⟩, rfl⟩
      exact .found hkey hunchanged hsets hx hwrite
    · intro h
      cases h with
      | found _ hunchanged hsets hx hwrite => exact ⟨(), hunchanged, _, ⟨hsets, hx, hwrite⟩, rfl⟩
      | omitted hnot => cases hkey.symm.trans hnot
      | supplied hnot => cases hkey.symm.trans hnot
  | false =>
    simp only [Bool.false_eq_true, ↓reduceIte]
    cases hv : c.entry.current.get? p.name with
    | none =>
      simp only [pure_eq_ok]
      constructor
      · rintro rfl
        exact .omitted hkey hv
      · intro h
        cases h with
        | found hnot => cases hkey.symm.trans hnot
        | omitted => rfl
        | supplied _ hsome => cases hv.symm.trans hsome
    | some v =>
      simp only [bind_eq_ok_iff, pure_eq_ok, change_eq_ok_iff]
      constructor
      · rintro ⟨⟨⟩, hnullable, x, ⟨hsets, hx, hwrite⟩, rfl⟩
        exact .supplied hkey hv (checkNullable_eq_ok_iff.1 hnullable) hsets hx hwrite
      · intro h
        cases h with
        | found hnot => cases hkey.symm.trans hnot
        | omitted _ hnone => cases hv.symm.trans hnone
        | supplied _ hsome hnullable hsets hx hwrite =>
          cases hv.symm.trans hsome
          exact ⟨(), checkNullable_eq_ok_iff.2 hnullable, _, ⟨hsets, hx, hwrite⟩, rfl⟩

theorem exists_updateColumn_of_isKey (hp : c.isKey p = true) :
    (∃ o, c.updateColumn p = .ok o) ↔
      c.checkKeyUnchanged p = .ok () ∧ ∃ w, (c.keyValue p).convert? p.type = some w := by
  simp only [updateColumn_eq_ok_iff]
  constructor
  · rintro ⟨o, h⟩
    cases h with
    | found _ hunchanged hsets => exact ⟨hunchanged, _, hsets.value⟩
    | omitted hnot => cases hp.symm.trans hnot
    | supplied hnot => cases hp.symm.trans hnot
  · rintro ⟨hunchanged, w, hw⟩
    exact ⟨some ⟨p.name, p.columnName, w, true, false⟩, .found hp hunchanged ⟨rfl, rfl, hw⟩ rfl rfl⟩

theorem exists_updateColumn_of_not_isKey (hp : c.isKey p = false) :
    (∃ o, c.updateColumn p = .ok o) ↔ ∀ v, c.entry.current.get? p.name = some v →
      (v = .null → p.nullable = true) ∧ ∃ w, v.convert? p.type = some w := by
  simp only [updateColumn_eq_ok_iff]
  constructor
  · rintro ⟨o, h⟩ v hv
    cases h with
    | found hkey => cases hp.symm.trans hkey
    | omitted _ hnone => cases hv.symm.trans hnone
    | supplied _ hsome hnullable hsets =>
      cases hv.symm.trans hsome
      exact ⟨hnullable, _, hsets.value⟩
  · intro h
    cases hv : c.entry.current.get? p.name with
    | none => exact ⟨none, .omitted hp hv⟩
    | some v =>
      obtain ⟨hnullable, w, hw⟩ := h v hv
      exact ⟨some ⟨p.name, p.columnName, w, false, c.isChanged p v⟩,
        .supplied hp hv hnullable ⟨rfl, rfl, hw⟩ rfl rfl⟩

def touches (c : Context) (p : Property) : Bool := c.isKey p || c.entry.current.contains p.name

theorem Updates.isSome_eq {o : Option ColumnChange} (h : c.Updates p o) : o.isSome = c.touches p := by
  unfold touches OrderedMap.contains
  cases h with
  | found hkey => simp [hkey]
  | omitted hkey hnone => simp [hkey, hnone]
  | supplied hkey hsome => simp [hkey, hsome]

def written (columns : List ColumnChange) (x : ColumnChange) : Bool :=
  if columns.any (·.isWrite) then x.isWrite else if columns.any (fun x => !x.isKey) then !x.isKey else true

theorem writeSomething_eq_map (columns : List ColumnChange) :
    writeSomething columns = columns.map (fun x => { x with isWrite := written columns x }) := by
  unfold writeSomething written
  split
  · exact (List.map_id' columns).symm
  · split <;> rfl

theorem written_iff {columns : List ColumnChange} {x : ColumnChange} (hx : x ∈ columns) :
    written columns x = true ↔ x.isWrite = true ∨ (∀ y ∈ columns, y.isWrite = false) ∧
      (x.isKey = false ∨ ∀ y ∈ columns, y.isKey = true) := by
  have hwrites : columns.any (·.isWrite) = false ↔ ∀ y ∈ columns, y.isWrite = false := by simp
  have hdata : columns.any (fun y => !y.isKey) = false ↔ ∀ y ∈ columns, y.isKey = true := by simp
  unfold written
  rw [← hwrites, ← hdata]
  split
  · rename_i hany
    simp [hany]
  · rename_i hnone
    have hwrite := hwrites.1 (Bool.eq_false_iff.2 hnone) x hx
    split
    · rename_i hany
      simp [hnone, hany, hwrite]
    · rename_i hkeys
      simp [hnone, hkeys]

theorem exists_written {columns : List ColumnChange} (h : columns ≠ []) :
    ∃ x ∈ columns, written columns x = true := by
  unfold written
  split
  · rename_i hwrite
    exact List.any_eq_true.1 hwrite
  · split
    · rename_i hdata
      exact List.any_eq_true.1 hdata
    · obtain ⟨x, hx⟩ := List.exists_mem_of_ne_nil columns h
      exact ⟨x, hx, rfl⟩

variable {properties : List Property} {columns : List ColumnChange}

theorem columns_of_added (h : c.columns properties = .ok columns) (hstate : c.entry.state = .added) :
    List.Forall₂ (fun p x => c.insertColumn p = .ok x) properties columns := by
  rw [Context.columns, hstate] at h
  exact mapM_eq_ok_iff.1 h

theorem columns_of_modified (h : c.columns properties = .ok columns) (hstate : c.entry.state = .modified) :
    ∃ updated, List.Forall₂ (fun p x => c.Updates p (some x)) (properties.filter c.touches) updated ∧
      columns = updated.map (fun x => { x with isWrite := written updated x }) := by
  simp only [Context.columns, hstate, bind_eq_ok_iff, pure_eq_ok] at h
  obtain ⟨touched, htouched, rfl⟩ := h
  have hupdates : List.Forall₂ c.Updates properties touched :=
    (mapM_eq_ok_iff.1 htouched).imp (fun _ _ => updateColumn_eq_ok_iff.1)
  exact ⟨_, forall₂_filterMap hupdates (fun _ _ => Updates.isSome_eq), writeSomething_eq_map _⟩

theorem columns_of_deleted (h : c.columns properties = .ok columns) (hstate : c.entry.state = .deleted) :
    List.Forall₂ (fun p x => c.isKey p = true ∧ Sets p (c.keyValue p) x ∧ x.isKey = true ∧ x.isWrite = false)
      (properties.filter c.isKey) columns := by
  rw [Context.columns, hstate] at h
  rw [List.forall₂_and_left]
  constructor
  · intro p hp
    exact (List.mem_filter.1 hp).2
  · exact (mapM_eq_ok_iff.1 h).imp (fun _ _ => change_eq_ok_iff.1)

theorem exists_columns_of_added (hstate : c.entry.state = .added) :
    (∃ columns, c.columns properties = .ok columns) ↔ ∀ p ∈ properties, ∃ x, c.insertColumn p = .ok x := by
  rw [Context.columns, hstate]
  exact exists_mapM_iff

theorem exists_columns_of_modified (hstate : c.entry.state = .modified) :
    (∃ columns, c.columns properties = .ok columns) ↔ ∀ p ∈ properties, ∃ o, c.updateColumn p = .ok o := by
  rw [Context.columns, hstate]
  exact exists_bind_pure_iff.trans exists_mapM_iff

theorem exists_columns_of_deleted (hstate : c.entry.state = .deleted) :
    (∃ columns, c.columns properties = .ok columns) ↔
      ∀ p ∈ properties, c.isKey p = true → ∃ w, (c.keyValue p).convert? p.type = some w := by
  rw [Context.columns, hstate]
  refine exists_mapM_iff.trans ?_
  simp only [List.mem_filter, exists_change_iff, and_imp]

theorem insertedValue_of_identifying? (hstate : c.entry.state = .added) {v : Value}
    (hv : c.entry.identifying? p.name = some v) : c.insertedValue p = v := by
  rw [PendingEntry.identifying?, hstate] at hv
  exact insertedValue_of_supplied hv

theorem keyValue_of_identifying? {v : Value} (hv : c.entry.identifying? p.name = some v) :
    c.keyValue p = v := by
  rw [keyValue, hv, Option.getD_some]

def Keeps (c : Context) (p : Property) (x : ColumnChange) : Prop :=
  x.isKey = c.isKey p ∧ (c.isKey p = true → Sets p (c.keyValue p) x)

theorem exists_keeps (h : c.columns properties = .ok columns)
    (hkey : ∀ p, c.isKey p = true → ∃ v, c.entry.identifying? p.name = some v) :
    ∃ keep, (∀ p, c.isKey p = true → keep p = true) ∧
      List.Forall₂ c.Keeps (properties.filter keep) columns := by
  cases hstate : c.entry.state with
  | added =>
    refine ⟨fun _ => true, fun _ _ => rfl, ?_⟩
    rw [List.filter_true]
    apply (columns_of_added h hstate).imp
    intro p x hx
    obtain ⟨-, hsets, hx, -⟩ := insertColumn_eq_ok_iff.1 hx
    refine ⟨hx, ?_⟩
    intro hp
    obtain ⟨v, hv⟩ := hkey p hp
    rw [keyValue_of_identifying? hv]
    rwa [insertedValue_of_identifying? hstate hv] at hsets
  | modified =>
    obtain ⟨updated, hupdated, rfl⟩ := columns_of_modified h hstate
    refine ⟨c.touches, fun p hp => by rw [touches, hp, Bool.true_or], ?_⟩
    rw [List.forall₂_map_right_iff]
    apply hupdated.imp
    intro p x hx
    cases hx with
    | found hp _ hsets hx => exact ⟨hx.trans hp.symm, fun _ => hsets.with_isWrite _⟩
    | supplied hp _ _ _ hx => exact ⟨hx.trans hp.symm, fun hp' => by cases hp.symm.trans hp'⟩
  | deleted =>
    refine ⟨c.isKey, fun _ hp => hp, ?_⟩
    apply (columns_of_deleted h hstate).imp
    rintro p x ⟨hp, hsets, hx, -⟩
    exact ⟨hx.trans hp.symm, fun _ => hsets⟩

end Context

section

variable {s : Schema} {e : PendingEntry} {c : Command} {t : EntityType} {shape : Shape s t}

theorem Shape.isKey_context {p : Property} :
    (shape.context e).isKey p = true ↔ ∃ q ∈ shape.key, q.name = p.name := by
  rw [Context.isKey, Shape.context, List.contains_iff_mem, List.mem_map]

theorem Accepted.exists_identifying (h : Accepted s e c t shape) {p : Property}
    (hp : (shape.context e).isKey p = true) : ∃ v, e.identifying? p.name = some v ∧ v ≠ .null := by
  obtain ⟨q, hq, hname⟩ := Shape.isKey_context.1 hp
  obtain ⟨v, -, hv⟩ := exists_of_mem_left h.key_eq hq
  rw [← hname]
  exact ⟨v, hv⟩

/-- The key columns hold the identifying values, whatever the state of the entry. -/
theorem Accepted.keyColumns (h : Accepted s e c t shape) :
    List.Forall₂ (fun p x => ∃ v, e.identifying? p.name = some v ∧ v ≠ .null ∧ Sets p v x)
      (shape.properties.filter (shape.context e).isKey) c.keyColumns := by
  have hidentified : ∀ p, (shape.context e).isKey p = true → ∃ v, e.identifying? p.name = some v := by
    intro p hp
    obtain ⟨v, hv, -⟩ := h.exists_identifying hp
    exact ⟨v, hv⟩
  obtain ⟨keep, hkeep, hcolumns⟩ := Context.exists_keeps h.columns hidentified
  have hfilter : (shape.properties.filter keep).filter (shape.context e).isKey =
      shape.properties.filter (shape.context e).isKey := by
    rw [List.filter_filter]
    apply List.filter_congr
    intro p _
    cases hp : (shape.context e).isKey p with
    | false => rfl
    | true => exact hkeep p hp
  have hkeys := forall₂_filter hcolumns (fun p x (hx : (shape.context e).Keeps p x) => hx.1)
  rw [hfilter] at hkeys
  have hmarked : ∀ p ∈ shape.properties.filter (shape.context e).isKey, (shape.context e).isKey p = true :=
    fun p hp => (List.mem_filter.1 hp).2
  apply ((List.forall₂_and_left _ _).2 ⟨hmarked, hkeys⟩).imp
  rintro p x ⟨hp, -, hsets⟩
  obtain ⟨v, hv, hnull⟩ := h.exists_identifying hp
  refine ⟨v, hv, hnull, ?_⟩
  rw [← Context.keyValue_of_identifying? (c := shape.context e) hv]
  exact hsets hp

theorem Accepted.ne_null_of_mem_keyColumns (h : Accepted s e c t shape) {x : ColumnChange}
    (hx : x ∈ c.keyColumns) : x.value ≠ .null := by
  obtain ⟨p, -, v, -, hnull, hsets⟩ := exists_of_mem_right h.keyColumns hx
  exact fun hvalue => hnull ((Value.eq_null_of_convert? hsets.value).1 hvalue)

theorem Shape.exists_mem_key {d : SchemaDef} (hd : Schema.ofDef d = .ok s) (shape : Shape s t) :
    ∃ p, p ∈ shape.key := by
  have hkey := shape.keyProperties_eq
  rw [Schema.keyProperties, shape.root_eq, ok_bind] at hkey
  have hlength := (mapM_eq_ok_iff.1 hkey).length_eq
  have hpos := List.length_pos_iff.2 (Schema.key_ne_nil_of_ofDef hd shape.isRoot)
  exact List.exists_mem_of_length_pos (by omega)

theorem Accepted.keyColumns_ne_nil (h : Accepted s e c t shape) {p : Property} (hp : p ∈ shape.key) :
    c.keyColumns ≠ [] := by
  have hkey : p ∈ shape.properties.filter (shape.context e).isKey :=
    List.mem_filter.2 ⟨shape.key_subset p hp, Shape.isKey_context.2 ⟨p, hp, rfl⟩⟩
  obtain ⟨x, hx, -⟩ := exists_of_mem_left h.keyColumns hkey
  exact List.ne_nil_of_mem hx

theorem Accepted.writeColumns_ne_nil (h : Accepted s e c t shape) {p : Property} (hp : p ∈ shape.key)
    (hstate : e.state ≠ .deleted) : c.writeColumns ≠ [] := by
  have hmem := shape.key_subset p hp
  have hwrite : ∃ x ∈ c.columns, x.isWrite = true := by
    cases hstate' : e.state with
    | added =>
      obtain ⟨x, hx, hinsert⟩ := exists_of_mem_left (Context.columns_of_added h.columns hstate') hmem
      exact ⟨x, hx, (Context.insertColumn_eq_ok_iff.1 hinsert).2.2.2⟩
    | modified =>
      obtain ⟨updated, hupdated, hcolumns⟩ := Context.columns_of_modified h.columns hstate'
      have htouched : p ∈ shape.properties.filter (shape.context e).touches := by
        have hkey : (shape.context e).isKey p = true := Shape.isKey_context.2 ⟨p, hp, rfl⟩
        exact List.mem_filter.2 ⟨hmem, by rw [Context.touches, hkey, Bool.true_or]⟩
      obtain ⟨y, hy, -⟩ := exists_of_mem_left hupdated htouched
      obtain ⟨x, hx, hwritten⟩ := Context.exists_written (List.ne_nil_of_mem hy)
      rw [hcolumns]
      exact ⟨_, List.mem_map_of_mem hx, hwritten⟩
    | deleted => exact absurd hstate' hstate
  obtain ⟨x, hx, hwrite⟩ := hwrite
  exact List.ne_nil_of_mem (List.mem_filter.2 ⟨hx, hwrite⟩)

end

end EntityStore.Command
