import EntityStore.Memory.Store
import EntityStore.Proofs.Connection.Session
import EntityStore.Proofs.Memory.Columns
import EntityStore.Proofs.Memory.Staging

/-!
# Atomicity of in-memory saves

A list of commands is applied to the tables one command after the other, or fails with the first
command that its table refuses and changes nothing.
-/

namespace EntityStore.Memory

open MemoryDatabase Traversal

/-- A record is written over: each written column has the value written last, every other column the
value it had, and the columns that were there stay in their places. -/
structure Overrides (writes : List ColumnChange) (r r' : Record) : Prop where
  get? : ∀ column, r'.get? column =
    ((writes.reverse.find? (fun w => w.column = column)).map (·.value)).or (r.get? column)
  keys : r.keys <+: r'.keys

inductive Changes (c : Command) (t : Table) : Table → Prop
  | added {t' : Table} {row : Record} (state : c.state = .added) (absent : t.get? c.key = none)
      (writes : Overrides c.writeColumns .empty row) (entries : t'.entries = t.entries ++ [(c.key, row)]) :
      Changes c t t'
  | modified {t' : Table} {before after : List (EntityKey × Record)} {stored row : Record}
      (state : c.state = .modified) (present : t.entries = before ++ (c.key, stored) :: after)
      (first : c.key ∉ before.map Prod.fst) (writes : Overrides c.writeColumns stored row)
      (entries : t'.entries = before ++ (c.key, row) :: after) : Changes c t t'
  | deleted {t' : Table} (state : c.state = .deleted) (present : (t.get? c.key).isSome)
      (entries : t'.entries = t.entries.filter (fun entry => entry.1 ≠ c.key)) : Changes c t t'

inductive Refuses (c : Command) (t : Table) : StoreError → Prop
  | duplicate (state : c.state = .added) (present : (t.get? c.key).isSome) :
      Refuses c t (.duplicateKey c.table (Value.inspectList c.key))
  | missing (state : c.state ≠ .added) (absent : t.get? c.key = none) :
      Refuses c t (.concurrencyConflict c.state.name c.table 0)

/-- A command changes its table and no other. If the table does not exist, it counts as empty. -/
structure Applied (c : Command) (db db' : MemoryDatabase) : Prop where
  changed : ∃ t, db'.tables.get? c.table = some t ∧ Changes c (db.table c.table) t
  unchanged : ∀ name, name ≠ c.table → db'.tables.get? name = db.tables.get? name

inductive AppliedAll : List Command → MemoryDatabase → MemoryDatabase → Prop
  | nil {db : MemoryDatabase} : AppliedAll [] db db
  | cons {c : Command} {commands : List Command} {db next db' : MemoryDatabase}
      (head : Applied c db next) (tail : AppliedAll commands next db') :
      AppliedAll (c :: commands) db db'

theorem AppliedAll.get?_eq {commands : List Command} {db db' : MemoryDatabase}
    (h : AppliedAll commands db db') {name : String} (hname : ∀ c ∈ commands, c.table ≠ name) :
    db'.tables.get? name = db.tables.get? name := by
  induction h with
  | nil => rfl
  | cons head _ ih =>
    obtain ⟨hne, hname⟩ := List.forall_mem_cons.1 hname
    rw [ih hname, head.unchanged name (Ne.symm hne)]

theorem overrides_foldl (writes : List ColumnChange) (r : Record) :
    Overrides writes r (writes.foldl (fun r w => r.insert w.column w.value) r) := by
  induction writes generalizing r with
  | nil => exact ⟨fun _ => rfl, List.prefix_rfl⟩
  | cons w writes ih =>
    obtain ⟨hget, hkeys⟩ := ih (r.insert w.column w.value)
    constructor
    · intro column
      rw [List.foldl_cons, hget, List.reverse_cons, List.find?_append, Option.map_or, Option.or_assoc,
        OrderedMap.get?_insert]
      by_cases hcolumn : w.column = column
      · simp [hcolumn]
      · simp [hcolumn]
    · refine List.IsPrefix.trans ?_ hkeys
      rw [OrderedMap.keys_insert]
      split
      · exact List.prefix_rfl
      · exact List.prefix_append _ _

theorem overrides_updatedRecord (c : Command) (r : Record) :
    Overrides c.writeColumns r (updatedRecord c r) := overrides_foldl c.writeColumns r

theorem applyToTable_spec (c : Command) (t : Table) :
    match applyToTable c t with
    | .ok t' => Changes c t t'
    | .error e => Refuses c t e := by
  cases hstate : c.state <;> cases hget : t.get? c.key <;> simp only [applyToTable, hstate, hget]
  case added.none =>
    have hrow : Overrides c.writeColumns .empty (insertedRecord c) := by
      rw [insertedRecord_eq]
      exact overrides_updatedRecord c .empty
    exact .added hstate hget hrow (OrderedMap.put_of_lookup_eq_none hget _)
  case added.some => exact .duplicate hstate (by rw [hget, Option.isSome_some])
  case modified.none => exact .missing (by rw [hstate]; decide) hget
  case modified.some stored =>
    obtain ⟨before, after, hentries, hfirst, hput⟩ := OrderedMap.exists_split_of_lookup hget
    exact .modified hstate hentries hfirst (overrides_updatedRecord c stored) (hput _)
  case deleted.none => exact .missing (by rw [hstate]; decide) hget
  case deleted.some =>
    have hentries : (t.erase c.key).entries = t.entries.filter (fun entry => entry.1 ≠ c.key) := by
      simp only [OrderedMap.erase, decide_not]
    exact .deleted hstate (by rw [hget, Option.isSome_some]) hentries

theorem applyCommand_spec (c : Command) (db : MemoryDatabase) :
    match db.applyCommand c with
    | .ok db' => Applied c db db'
    | .error e => Refuses c (db.table c.table) e := by
  have hspec := applyToTable_spec c (db.table c.table)
  rw [applyCommand]
  cases happly : applyToTable c (db.table c.table) with
  | error e =>
    rw [happly] at hspec
    exact hspec
  | ok t =>
    rw [happly] at hspec
    constructor
    · refine ⟨t, ?_, hspec⟩
      rw [putTable, OrderedMap.get?_insert, if_pos rfl]
    · intro name hname
      exact OrderedMap.get?_insert_of_ne _ t (Ne.symm hname)

theorem foldlM_applyCommand_spec (commands : List Command) (db : MemoryDatabase) :
    match commands.foldlM applyCommand db with
    | .ok db' => AppliedAll commands db db'
    | .error e => ∃ before c after db', commands = before ++ c :: after ∧ AppliedAll before db db' ∧
        Refuses c (db'.table c.table) e := by
  induction commands generalizing db with
  | nil => exact .nil
  | cons c commands ih =>
    have hspec := applyCommand_spec c db
    rw [List.foldlM_cons]
    cases happly : db.applyCommand c with
    | error e =>
      rw [happly] at hspec
      exact ⟨[], c, commands, db, rfl, .nil, hspec⟩
    | ok next =>
      rw [happly] at hspec
      have ih := ih next
      rw [ok_bind]
      cases hfold : commands.foldlM applyCommand next with
      | error e =>
        rw [hfold] at ih
        obtain ⟨before, c', after, db', rfl, hbefore, hrefuses⟩ := ih
        exact ⟨c :: before, c', after, db', rfl, .cons hspec hbefore, hrefuses⟩
      | ok db' =>
        rw [hfold] at ih
        exact .cons hspec ih

/-- In-memory saves are atomic and sequential: all commands are applied one after the other, or the
first one that its table refuses makes the whole list fail and the database stays as it was. -/
theorem sequential_apply (commands : List Command) (session : Session State) :
    let db := session.state.database
    (∃ db', AppliedAll commands db db' ∧
      (∀ name, (∀ c ∈ commands, c.table ≠ name) → db'.tables.get? name = db.tables.get? name) ∧
      Memory.apply commands session = (.ok commands.length,
        { session with state := { session.state with database := db' } })) ∨
    ∃ before c after db' e, commands = before ++ c :: after ∧ AppliedAll before db db' ∧
      Refuses c (db'.table c.table) e ∧ Memory.apply commands session = (.error e, session) := by
  intro db
  have hspec := foldlM_applyCommand_spec commands db
  have hget : (get : Run State (Session State)) session = (.ok session, session) := rfl
  simp only [Memory.apply, Run.run_bind, hget, apply_eq]
  cases hfold : commands.foldlM applyCommand db with
  | ok db' =>
    rw [hfold] at hspec
    exact Or.inl ⟨db', hspec, fun name hname => hspec.get?_eq hname, rfl⟩
  | error e =>
    rw [hfold] at hspec
    obtain ⟨before, c, after, db', heq, hbefore, hrefuses⟩ := hspec
    exact Or.inr ⟨before, c, after, db', e, heq, hbefore, hrefuses, rfl⟩

end EntityStore.Memory
