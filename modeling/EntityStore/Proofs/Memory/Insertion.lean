import EntityStore.Proofs.Memory.Keys
import EntityStore.Proofs.Query.Records
import EntityStore.Proofs.Value.Conversion

/-!
# Inserted rows

A save of a new entity under a free key adds one record at the end of a table and leaves the other
tables. The record stores the entity: every property has a value in the declared type.
-/

namespace EntityStore.Memory

open Command Schema Traversal

/-! ### The save -/

def outcomeOf (name : String) (s : Schema) (db : MemoryDatabase) (call : SaveCall) :
    Except StoreError Nat :=
  let session := Session.ofState (State.mk db call.isCancelled)
  (((backend name s).saveChanges call.mode call.entries).run session).1

theorem save_of_apply {name : String} {s : Schema} {db db' : MemoryDatabase} {call : SaveCall}
    (hpresent : call.isCancelled = false) (hentries : call.entries ≠ []) {commands : List Command}
    (hcommands : call.entries.mapM (Command.ofEntry s) = .ok commands) {affected : Nat}
    (happly : db.apply commands = .ok (affected, db')) :
    outcomeOf name s db call = .ok affected ∧ afterSave name s db call = db' := by
  let session := Session.ofState (State.mk db call.isCancelled)
  have hsave : save s call.entries session =
      (.ok affected, Session.ofState (State.mk db' call.isCancelled)) := by
    have hget : (get : Run State (Session State)) session = (.ok session, session) := rfl
    have hdatabase : session.state.database.apply commands = .ok (affected, db') := happly
    rw [save, Run.run_bind, Run.run_ofExcept, hcommands]
    simp only [apply, Run.run_bind, hget, hdatabase]
    rfl
  have hnot : ¬ (call.mode = .cancellable ∧ (backend name s).isCancelled session.state = true) := by
    rintro ⟨-, hcancelled⟩
    exact Bool.false_ne_true (hpresent.symm.trans hcancelled)
  have hsome : ¬ call.entries.isEmpty = true := by
    rw [List.isEmpty_iff]
    exact hentries
  have hboth := Backend.run_saveChanges (backend name s) call.mode call.entries session
  rw [if_neg hnot, if_neg hsome] at hboth
  simp only [backend, hsave] at hboth
  exact ⟨congrArg (·.1) hboth, congrArg (·.2.state.database) hboth⟩

theorem rows_applyCommand {db : MemoryDatabase} {c : Command} (hstate : c.state = .added)
    (hfree : (db.table c.table).get? c.key = none) :
    ∃ db', db.applyCommand c = .ok db' ∧ ∀ table, db'.rows table =
      if c.table = table then db.rows table ++ [MemoryDatabase.insertedRecord c] else db.rows table := by
  have htable : MemoryDatabase.applyToTable c (db.table c.table) =
      .ok ((db.table c.table).insert c.key (MemoryDatabase.insertedRecord c)) := by
    rw [MemoryDatabase.applyToTable, hstate, hfree]
  refine ⟨_, by rw [MemoryDatabase.applyCommand, htable, ok_bind]; rfl, ?_⟩
  intro table
  rw [rows_putTable, OrderedMap.values_insert_of_get?_eq_none hfree]
  split
  · rename_i heq
    rw [← heq]
    rfl
  · rfl

/-! ### The record -/

/-- The current values omit the discriminator or give the declared value of the type. -/
def KeepsDiscriminator (s : Schema) (t : EntityType) (e : PendingEntry) : Prop :=
  ∀ p, s.discriminator? t.id = .ok (some p) →
    e.current.get? p.name = none ∨ e.current.get? p.name = t.discriminatorValue

structure IsInserted (s : Schema) (t : EntityType) (e : PendingEntry) (p : Property) (w : Value) :
    Prop where
  declared : s.discriminator? t.id = .ok (some p) →
    ∃ v, t.discriminatorValue = some v ∧ v.convert? p.type = some w
  supplied : s.discriminator? t.id ≠ .ok (some p) →
    ∀ v, e.current.get? p.name = some v → v.convert? p.type = some w
  missing : s.discriminator? t.id ≠ .ok (some p) → e.current.get? p.name = none → w = .null

/-- The entry of a new entity that was accepted, on a schema that keeps names and columns apart. -/
structure Insertion (s : Schema) (e : PendingEntry) (c : Command) (t : EntityType) (shape : Shape s t)
    (types : List EntityType) : Prop where
  within : s.Within shape.root types t
  accepted : Accepted s e c t shape
  concrete : t.isAbstract = false
  added : e.state = .added
  names : (shape.properties.map (·.name)).Nodup
  columns : (shape.properties.map (·.columnName)).Nodup
  keeps : KeepsDiscriminator s t e

theorem exists_insertion {d : SchemaDef} {s : Schema} (hd : Schema.ofDef d = .ok s)
    (hnames : NamesApart s) (hcolumns : ColumnsApart s) {e : PendingEntry} {c : Command} {t : EntityType}
    (hc : Command.ofEntry s e = .ok c) (ht : s.entityType e.entityType = .ok t)
    (hstate : e.state = .added) (hkeeps : KeepsDiscriminator s t e) :
    ∃ shape types, Insertion s e c t shape types := by
  have hs := valid_of_ofDef hd
  obtain ⟨t', shape, haccepted⟩ := exists_accepted hs hc
  have htype' := haccepted.type
  rw [ht] at htype'
  cases htype'
  obtain ⟨t', htypeOf, -⟩ := bind_eq_ok_iff.1 hc
  obtain ⟨htype', hconcrete⟩ := typeOf_eq_ok_iff.1 htypeOf
  rw [ht] at htype'
  cases htype'
  have hfound := hs.found ht
  obtain ⟨root, types, hw⟩ := exists_within hd hfound
  have hroot := shape.root_eq
  rw [hw.root_eq] at hroot
  cases hroot
  exact ⟨shape, types, hw, haccepted, hconcrete, hstate, hnames t hfound.mem _ shape.properties_eq,
    hcolumns t hfound.mem _ shape.properties_eq, hkeeps⟩

section

variable {s : Schema} {e : PendingEntry} {c : Command} {t : EntityType} {shape : Shape s t}
  {types : List EntityType}

theorem Insertion.mem_concrete (h : Insertion s e c t shape types) : t ∈ Schema.concrete types :=
  Schema.mem_concrete.2 ⟨h.within.mem, h.concrete⟩

theorem Insertion.columns_eq (h : Insertion s e c t shape types) :
    List.Forall₂ (fun p x => x.column = p.columnName ∧
      ((shape.context e).insertedValue p).convert? p.type = some x.value ∧ x.isWrite = true)
      shape.properties c.columns := by
  have hcolumns := h.accepted.columns
  have hentry : (shape.context e).entry.state = .added := h.added
  rw [Context.columns, hentry] at hcolumns
  apply (mapM_eq_ok_iff.1 hcolumns).imp
  intro p x hx
  simp only [Context.insertColumn, bind_eq_ok_iff] at hx
  obtain ⟨_, -, hchange⟩ := hx
  obtain ⟨hsets, -, hwrite⟩ := change_eq_ok_iff.1 hchange
  exact ⟨hsets.column, hsets.value, hwrite⟩

theorem Insertion.exists_get? (h : Insertion s e c t shape types) {p : Property}
    (hp : p ∈ shape.properties) :
    ∃ w, ((shape.context e).insertedValue p).convert? p.type = some w ∧
      (MemoryDatabase.insertedRecord c).get? p.columnName = some w := by
  have hadded := h.columns_eq
  have hwrites : c.writeColumns = c.columns := by
    apply List.filter_eq_self.2
    intro x hx
    obtain ⟨_, -, -, -, hwrite⟩ := exists_of_mem_right hadded hx
    exact hwrite
  have hsame : c.columns.map (·.column) = shape.properties.map (·.columnName) := by
    rw [← List.forall₂_eq_eq_eq, List.forall₂_map_left_iff, List.forall₂_map_right_iff]
    exact hadded.flip.imp (fun _ _ hx => hx.1)
  obtain ⟨x, hx, hcolumn, hvalue, -⟩ := exists_of_mem_left hadded hp
  refine ⟨x.value, hvalue, ?_⟩
  rw [MemoryDatabase.insertedRecord, hwrites]
  apply OrderedMap.get?_ofList_of_mem
  · rw [List.map_map]
    change (c.columns.map (·.column)).Nodup
    rw [hsame]
    exact h.columns
  · rw [← hcolumn]
    exact List.mem_map_of_mem hx

theorem insertedValue_of_discriminator (hkeeps : KeepsDiscriminator s t e) {p : Property}
    (hp : s.discriminator? t.id = .ok (some p)) {v : Value} (hv : t.discriminatorValue = some v) :
    (shape.context e).insertedValue p = v := by
  have hdiscriminator : shape.discriminator = some p :=
    Except.ok.inj (shape.discriminator_eq.symm.trans hp)
  rcases hkeeps p hp with hnone | hsome
  · simp [Context.insertedValue, Shape.context, hnone, hdiscriminator, hv]
  · simp [Context.insertedValue, Shape.context, hsome, hv]

theorem Insertion.insertedValue_of_missing (h : Insertion s e c t shape types) {p : Property}
    (hmem : p ∈ shape.properties) (hp : s.discriminator? t.id ≠ .ok (some p))
    (hmissing : e.current.get? p.name = none) : (shape.context e).insertedValue p = .null := by
  have hname : shape.discriminator.map (·.name) ≠ some p.name := by
    intro heq
    obtain ⟨q, hq, hqname⟩ := Option.map_eq_some_iff.1 heq
    have hdiscriminator := shape.discriminator_eq
    rw [hq] at hdiscriminator
    have hqmem := h.within.valid.mem_properties_of_discriminator? h.within.found hdiscriminator
      shape.properties_eq
    rw [List.inj_on_of_nodup_map h.names hqmem hmem hqname] at hdiscriminator
    exact hp hdiscriminator
  simp [Context.insertedValue, Shape.context, hmissing, hname]

theorem Insertion.exists_isInserted (h : Insertion s e c t shape types) {p : Property}
    (hp : p ∈ shape.properties) :
    ∃ w, IsInserted s t e p w ∧ w.convert? p.type = some w ∧
      (MemoryDatabase.insertedRecord c).get? p.columnName = some w := by
  obtain ⟨w, hvalue, hget⟩ := h.exists_get? hp
  refine ⟨w, ⟨?_, ?_, ?_⟩, Value.convert?_convert? hvalue, hget⟩
  · intro hd
    obtain ⟨v, _, _, hv, -, -⟩ := h.within.valued hd h.mem_concrete
    rw [insertedValue_of_discriminator h.keeps hd hv] at hvalue
    exact ⟨v, hv, hvalue⟩
  · intro _ v hv
    rwa [Context.insertedValue, Shape.context, hv] at hvalue
  · intro hd hmissing
    rw [h.insertedValue_of_missing hp hd hmissing] at hvalue
    cases hvalue
    rfl

theorem read_eq {r : Record} {column : String} {w : Value} (h : r.get? column = some w) :
    Reading.read [(⟨0⟩, r)] ⟨0⟩ column = w := by
  simp [Reading.read, OrderedMap.lookup, h]

theorem Insertion.stores (h : Insertion s e c t shape types) :
    Reading.Stores s t shape.properties (MemoryDatabase.insertedRecord c) := by
  refine ⟨shape.properties_eq, ?_, ?_⟩
  · intro p hp
    obtain ⟨w, -, htyped, hget⟩ := h.exists_isInserted hp
    rw [read_eq hget]
    exact htyped
  · -- the declared value is stored in the type of the discriminator, which keeps its key
    intro p hd
    have hp := h.within.valid.mem_properties_of_discriminator? h.within.found hd shape.properties_eq
    obtain ⟨w, hinserted, -, hget⟩ := h.exists_isInserted hp
    obtain ⟨v, hv, hconvert⟩ := hinserted.declared hd
    obtain ⟨v', k, _, hv', hk, -⟩ := h.within.valued hd h.mem_concrete
    rw [hv] at hv'
    cases hv'
    have hkind := h.within.checked.kind p (h.within.discriminator?_eq ▸ hd)
    refine ⟨k, ?_, ?_⟩
    · rw [read_eq hget]
      exact Value.discriminatorKey?_convert hkind hk hconvert
    · rw [Schema.keyOf?, hv, Option.bind_some, hk]

end

end EntityStore.Memory
