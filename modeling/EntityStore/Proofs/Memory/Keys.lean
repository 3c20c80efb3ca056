import EntityStore.Proofs.Memory.Saves
import EntityStore.Proofs.OrderedMap
import EntityStore.Proofs.Save.KeyColumns

/-!
# Keys of stored rows

An in-memory table files a row under the identifying values as they were given, and the row stores
them in the declared types. So a row is filed under its own key exactly if the values already had
these types.
-/

namespace EntityStore.Memory

open Command Schema Traversal

/-- The key columns of a table with their declared types, as a root of the table has them. -/
def IsLayout (s : Schema) (table : String) (columns : List (String × ValueType)) : Prop :=
  ∃ r ∈ s.roots, tableOf r = table ∧ ∃ key, s.keyProperties r.id = .ok key ∧
    columns = key.map (fun p => (p.columnName, p.type))

/-- No type has another property in a key column, and roots that share a table have the same key
columns. -/
structure KeyColumnsApart (s : Schema) : Prop where
  unshared : ∀ t ∈ s.types, ∀ all key, s.properties t.id = .ok all → s.keyProperties t.id = .ok key →
    ∀ p ∈ key, ∀ q ∈ all, q.columnName = p.columnName → q = p
  agreed : ∀ table columns columns', IsLayout s table columns → IsLayout s table columns' →
    columns = columns'

def storedKey (columns : List (String × ValueType)) (r : Record) : List (Option Value) :=
  columns.map (fun c => r.get? c.1)

def convertedKey (columns : List (String × ValueType)) (key : EntityKey) : List (Option Value) :=
  List.zipWith (fun c v => v.convert? c.2) columns key

def Keeps (columns : List (String × ValueType)) (key : EntityKey) (r : Record) : Prop :=
  List.Forall₂ (fun c v => ∃ w, v.convert? c.2 = some w ∧ r.get? c.1 = some w) columns key

def IsTyped (columns : List (String × ValueType)) (key : EntityKey) : Prop :=
  List.Forall₂ (fun c v => v.convert? c.2 = some v) columns key

theorem Keeps.storedKey_eq {columns : List (String × ValueType)} {key : EntityKey} {r : Record}
    (h : Keeps columns key r) : storedKey columns r = convertedKey columns key := by
  unfold storedKey convertedKey
  induction h with
  | nil => rfl
  | cons hc _ ih =>
    obtain ⟨w, hconvert, hget⟩ := hc
    simp [hconvert, hget, ih]

theorem Keeps.storedKey_eq_iff {columns : List (String × ValueType)} {key : EntityKey} {r : Record}
    (h : Keeps columns key r) : storedKey columns r = key.map some ↔ IsTyped columns key := by
  unfold storedKey IsTyped
  induction h with
  | nil => simp
  | cons hc _ ih =>
    obtain ⟨w, hconvert, hget⟩ := hc
    simp [hconvert, hget, ih]

theorem convert?_of_write {s : Schema} (hapart : KeyColumnsApart s) {e : PendingEntry} {c : Command}
    {t : EntityType} {shape : Shape s t} (hc : Accepted s e c t shape) {p : Property}
    (hp : p ∈ shape.key) {v : Value} (hv : e.identifying? p.name = some v) {x : ColumnChange}
    (hx : x ∈ c.columns) (hcolumn : x.column = p.columnName) : v.convert? p.type = some x.value := by
  obtain ⟨q, hq, ⟨hqcolumn, hvalue⟩, -⟩ := Context.touches_of_mem_columns hc.columns hx
  have ht : t ∈ s.types := List.mem_of_getElem? (entityType_eq_ok_iff.mp hc.type)
  obtain rfl : q = p := hapart.unshared t ht _ _ shape.properties_eq shape.keyProperties_eq p hp q hq
    (hqcolumn.symm.trans hcolumn)
  refine hvalue v ?_ hv
  simp only [Context.isKey, Shape.context, List.contains_iff_mem]
  exact List.mem_map_of_mem hp

theorem layout_of_accepted {s : Schema} {e : PendingEntry} {c : Command} {t : EntityType}
    {shape : Shape s t} (hc : Accepted s e c t shape) :
    IsLayout s c.table (shape.key.map (fun p => (p.columnName, p.type))) :=
  ⟨shape.root, shape.isRoot, hc.table.symm, shape.key, shape.rootKey_eq, rfl⟩

theorem keeps_iff {s : Schema} {e : PendingEntry} {c : Command} {t : EntityType} {shape : Shape s t}
    (hc : Accepted s e c t shape) {r : Record} :
    Keeps (shape.key.map (fun p => (p.columnName, p.type))) c.key r ↔
      ∀ p ∈ shape.key, ∀ v, e.identifying? p.name = some v →
        ∃ w, v.convert? p.type = some w ∧ r.get? p.columnName = some w := by
  have hidentifying := hc.identifying
  rw [Keeps, List.forall₂_map_left_iff]
  generalize shape.key = key at hidentifying
  generalize c.key = values at hidentifying
  induction hidentifying with
  | nil => simp
  | cons hv _ ih =>
    simp only [List.forall₂_cons, ih, List.mem_cons, forall_eq_or_imp, hv, Option.some.injEq,
      forall_eq']

theorem keeps_insertedRecord {s : Schema} (hapart : KeyColumnsApart s) {e : PendingEntry}
    {c : Command} {t : EntityType} {shape : Shape s t} (hc : Accepted s e c t shape)
    (hstate : c.state = .added) :
    Keeps (shape.key.map (fun p => (p.columnName, p.type))) c.key
      (MemoryDatabase.insertedRecord c) := by
  rw [keeps_iff hc]
  intro p hp v hv
  rw [hc.state] at hstate
  obtain ⟨x, hx, hcolumn, hwrite⟩ := Context.exists_mem_columns_of_added hc.columns
    (c := shape.context e) hstate (shape.key_subset p hp)
  have hxwrite : x ∈ c.writeColumns := List.mem_filter.mpr ⟨hx, hwrite⟩
  rw [MemoryDatabase.insertedRecord, OrderedMap.ofList, List.foldl_map]
  rcases OrderedMap.get?_foldl_insert (fun x : ColumnChange => x.column) (·.value) c.writeColumns
    OrderedMap.empty p.columnName with ⟨y, hy, hycolumn, hget⟩ | ⟨hnone, _⟩
  · exact ⟨y.value, convert?_of_write hapart hc hp hv (List.mem_of_mem_filter hy) hycolumn, hget⟩
  · exact absurd hcolumn (hnone x hxwrite)

theorem keeps_updatedRecord {s : Schema} (hapart : KeyColumnsApart s) {e : PendingEntry}
    {c : Command} {t : EntityType} {shape : Shape s t} (hc : Accepted s e c t shape) {r : Record}
    (hr : Keeps (shape.key.map (fun p => (p.columnName, p.type))) c.key r) :
    Keeps (shape.key.map (fun p => (p.columnName, p.type))) c.key
      (MemoryDatabase.updatedRecord c r) := by
  rw [keeps_iff hc] at hr ⊢
  intro p hp v hv
  rw [MemoryDatabase.updatedRecord]
  rcases OrderedMap.get?_foldl_insert (fun x : ColumnChange => x.column) (·.value) c.writeColumns
    r p.columnName with ⟨y, hy, hycolumn, hget⟩ | ⟨_, hget⟩
  · exact ⟨y.value, convert?_of_write hapart hc hp hv (List.mem_of_mem_filter hy) hycolumn, hget⟩
  · rw [hget]
    exact hr p hp v hv

theorem table_putTable (db : MemoryDatabase) (name name' : String) (t : Table) :
    (db.putTable name t).table name' = if name = name' then t else db.table name' := by
  rw [MemoryDatabase.putTable, MemoryDatabase.table, OrderedMap.get?_insert]
  split <;> rfl

theorem rows_putTable (db : MemoryDatabase) (name name' : String) (t : Table) :
    (db.putTable name t).rows name' = if name = name' then t.values else db.rows name' := by
  rw [MemoryDatabase.rows, table_putTable]
  split <;> rfl

theorem applyToTable_cases {c : Command} {t t' : Table}
    (h : MemoryDatabase.applyToTable c t = .ok t') :
    (c.state = .added ∧ t' = t.insert c.key (MemoryDatabase.insertedRecord c)) ∨
    (∃ r, t.get? c.key = some r ∧ t' = t.insert c.key (MemoryDatabase.updatedRecord c r)) ∨
    t' = t.erase c.key := by
  unfold MemoryDatabase.applyToTable at h
  split at h
  · cases h
  · rename_i hstate _
    cases h
    exact Or.inl ⟨hstate, rfl⟩
  · rename_i r _ hget
    cases h
    exact Or.inr (Or.inl ⟨r, hget, rfl⟩)
  · cases h
    exact Or.inr (Or.inr rfl)
  · cases h
  · cases h

/-- The rows of a table are filed under keys that they keep and that were inserted. -/
structure Filed (s : Schema) (table : String) (inserted : EntityKey → Prop) (t : Table) : Prop where
  keeps : ∀ key r, t.get? key = some r → ∃ columns, IsLayout s table columns ∧ Keeps columns key r
  inserted : ∀ key r, t.get? key = some r → inserted key

section

variable {s : Schema} {table : String} {inserted : EntityKey → Prop} {t : Table}

theorem Filed.insert (h : Filed s table inserted t) {columns : List (String × ValueType)}
    (hlayout : IsLayout s table columns) {key : EntityKey} {r : Record} (hr : Keeps columns key r)
    (hkey : inserted key) : Filed s table inserted (t.insert key r) where
  keeps key' r' hr' := by
    rw [OrderedMap.get?_insert] at hr'
    split at hr'
    · rename_i heq
      cases hr'
      exact ⟨columns, hlayout, heq ▸ hr⟩
    · exact h.keeps key' r' hr'
  inserted key' r' hr' := by
    rw [OrderedMap.get?_insert] at hr'
    split at hr'
    · rename_i heq
      exact heq ▸ hkey
    · exact h.inserted key' r' hr'

theorem Filed.erase (h : Filed s table inserted t) (key : EntityKey) :
    Filed s table inserted (t.erase key) := by
  have hsub : ∀ key' r, (t.erase key).get? key' = some r → t.get? key' = some r := by
    intro key' r hr
    rw [OrderedMap.get?_erase] at hr
    split at hr
    · cases hr
    · exact hr
  exact ⟨fun key' r hr => h.keeps key' r (hsub key' r hr),
    fun key' r hr => h.inserted key' r (hsub key' r hr)⟩

end

def Keyed (s : Schema) (inserted : String → EntityKey → Prop) (db : MemoryDatabase) : Prop :=
  ∀ table, Filed s table (inserted table) (db.table table)

theorem keyed_empty (s : Schema) (inserted : String → EntityKey → Prop) : Keyed s inserted .empty :=
  fun _ => ⟨fun _ _ h => (by cases h), fun _ _ h => (by cases h)⟩

theorem Keyed.applyCommand {s : Schema} (hapart : KeyColumnsApart s)
    {inserted : String → EntityKey → Prop} {db db' : MemoryDatabase} (hdb : Keyed s inserted db)
    {e : PendingEntry} {c : Command} {t : EntityType} {shape : Shape s t}
    (hc : Accepted s e c t shape) (hinserted : c.state = .added → inserted c.table c.key)
    (h : db.applyCommand c = .ok db') : Keyed s inserted db' := by
  simp only [MemoryDatabase.applyCommand, bind_eq_ok_iff, pure_eq_ok] at h
  obtain ⟨table, htable, rfl⟩ := h
  have hlayout := layout_of_accepted hc
  have hfiled : Filed s c.table (inserted c.table) table := by
    rcases applyToTable_cases htable with ⟨hstate, rfl⟩ | ⟨row, hrow, rfl⟩ | rfl
    · exact (hdb c.table).insert hlayout (keeps_insertedRecord hapart hc hstate) (hinserted hstate)
    · -- the row is in the table, so it keeps the key in some layout, which is that of the command
      obtain ⟨columns, hcolumns, hkeeps⟩ := (hdb c.table).keeps _ _ hrow
      obtain rfl := hapart.agreed _ _ _ hcolumns hlayout
      exact (hdb c.table).insert hlayout (keeps_updatedRecord hapart hc hkeeps)
        ((hdb c.table).inserted _ _ hrow)
    · exact (hdb c.table).erase _
  intro name
  rw [table_putTable]
  split
  · rename_i hname
    exact hname ▸ hfiled
  · exact hdb name

/-- A key that an accepted entry of some save inserts into a table. -/
def Inserted (s : Schema) (calls : List SaveCall) (table : String) (key : EntityKey) : Prop :=
  ∃ call ∈ calls, ∃ e ∈ call.entries, ∃ c, Command.ofEntry s e = .ok c ∧ c.state = .added ∧
    c.table = table ∧ c.key = key

theorem keyed_afterSaves {s : Schema} (hs : s.Valid) (hapart : KeyColumnsApart s) (name : String)
    (calls : List SaveCall) :
    Keyed s (Inserted s calls) (afterSaves name s calls .empty) := by
  refine afterSaves_preserves name s (keyed_empty s _) ?_
  intro call hcall e he c hc db db' hdb happly
  obtain ⟨t, shape, haccepted⟩ := exists_accepted hs hc
  exact hdb.applyCommand hapart haccepted
    (fun hstate => ⟨call, hcall, e, he, c, hc, hstate, rfl, rfl⟩) happly

/-- How the rows of a table are filed. A row stores the key under which it is filed in the declared
types, so it is filed under its own key exactly if that key is typed, and two rows store the same
key exactly if the keys under which they are filed come to the same in the declared types. -/
structure KeysOf (columns : List (String × ValueType)) (t : Table) : Prop where
  distinct : t.keys.Nodup
  defined : ∀ key r, (key, r) ∈ t.entries → none ∉ storedKey columns r
  converted : ∀ key r, (key, r) ∈ t.entries → storedKey columns r = convertedKey columns key
  filed_iff : ∀ key r, (key, r) ∈ t.entries →
    (storedKey columns r = key.map some ↔ IsTyped columns key)
  unique_iff : (t.values.map (storedKey columns)).Nodup ↔ (t.keys.map (convertedKey columns)).Nodup

theorem keysOf_of_keeps {columns : List (String × ValueType)} {t : Table}
    (hkeeps : ∀ key r, (key, r) ∈ t.entries → Keeps columns key r) : KeysOf columns t where
  distinct := t.distinct
  defined key r hr := by
    rw [storedKey, List.mem_map]
    rintro ⟨column, hcolumn, hnone⟩
    obtain ⟨v, _, w, _, hw⟩ := exists_of_mem_left (hkeeps key r hr) hcolumn
    rw [hnone] at hw
    cases hw
  converted key r hr := (hkeeps key r hr).storedKey_eq
  filed_iff key r hr := (hkeeps key r hr).storedKey_eq_iff
  unique_iff := by
    have hsame : t.values.map (storedKey columns) = t.keys.map (convertedKey columns) := by
      rw [OrderedMap.values, OrderedMap.keys, List.map_map, List.map_map]
      apply List.map_congr_left
      intro x hx
      exact (hkeeps x.1 x.2 hx).storedKey_eq
    rw [hsame]

/-- In a table of typed keys every row is filed under its own key, so no two rows have the same. -/
theorem KeysOf.unique {columns : List (String × ValueType)} {t : Table} (h : KeysOf columns t)
    (htyped : ∀ key ∈ t.keys, IsTyped columns key) :
    (∀ key r, (key, r) ∈ t.entries → storedKey columns r = key.map some) ∧
      (t.values.map (storedKey columns)).Nodup := by
  have hfiled : ∀ key r, (key, r) ∈ t.entries → storedKey columns r = key.map some :=
    fun key r hr => (h.filed_iff key r hr).mpr (htyped key (List.mem_map_of_mem hr))
  refine ⟨hfiled, ?_⟩
  have hsame : t.values.map (storedKey columns) = t.keys.map (List.map some) := by
    rw [OrderedMap.values, OrderedMap.keys, List.map_map, List.map_map]
    apply List.map_congr_left
    intro x hx
    exact hfiled x.1 x.2 hx
  rw [hsame]
  exact h.distinct.map (List.map_injective_iff.mpr (fun _ _ => Option.some.inj))

/-- The keys of all tables after any sequence of saves. -/
theorem keysOf_afterSaves {d : SchemaDef} {s : Schema} (h : Schema.ofDef d = .ok s)
    (hapart : KeyColumnsApart s) (name : String) (calls : List SaveCall) (table : String) :
    let t := (afterSaves name s calls .empty).table table
    (∀ key r, (key, r) ∈ t.entries → Inserted s calls table key ∧ ∃ columns, IsLayout s table columns) ∧
    ∀ columns, IsLayout s table columns →
      KeysOf columns t ∧
      ((∀ key, Inserted s calls table key → IsTyped columns key) →
        (∀ key r, (key, r) ∈ t.entries → storedKey columns r = key.map some) ∧
          (t.values.map (storedKey columns)).Nodup) := by
  have hkeyed := keyed_afterSaves (valid_of_ofDef h) hapart name calls
  generalize afterSaves name s calls .empty = db at hkeyed
  intro t
  have hfiled := hkeyed table
  have hentry : ∀ key r, (key, r) ∈ t.entries →
      (∃ columns, IsLayout s table columns ∧ Keeps columns key r) ∧ Inserted s calls table key := by
    intro key r hr
    have hget := OrderedMap.mem_entries_iff.mp hr
    exact ⟨hfiled.keeps key r hget, hfiled.inserted key r hget⟩
  constructor
  · intro key r hr
    obtain ⟨⟨columns, hlayout, _⟩, hinserted⟩ := hentry key r hr
    exact ⟨hinserted, columns, hlayout⟩
  · intro columns hlayout
    have hkeys : KeysOf columns t := by
      refine keysOf_of_keeps ?_
      intro key r hr
      obtain ⟨⟨columns', hlayout', hkeeps⟩, _⟩ := hentry key r hr
      rwa [hapart.agreed table columns columns' hlayout hlayout']
    refine ⟨hkeys, ?_⟩
    intro htyped
    apply hkeys.unique
    intro key hkey
    obtain ⟨⟨key, r⟩, hr, rfl⟩ := List.mem_map.mp hkey
    exact htyped key (hentry key r hr).2

theorem keyColumnsApart_blogs : KeyColumnsApart blogs := by
  constructor
  · intro t ht all key hall hkey
    simp only [blogs, List.mem_cons, List.not_mem_nil, or_false] at ht
    rcases ht with rfl | rfl
    · cases hall
      cases hkey
      decide
    · cases hall
      cases hkey
      decide
  · have hlayout : ∀ table columns, IsLayout blogs table columns → columns = [("Id", .integer)] := by
      rintro table columns ⟨r, hr, _, key, hkey, rfl⟩
      have hr : r ∈ blogs.types := List.mem_of_mem_filter hr
      simp only [blogs, List.mem_cons, List.not_mem_nil, or_false] at hr
      rcases hr with rfl | rfl
      · cases hkey
        rfl
      · cases hkey
        rfl
    intro table columns columns' h h'
    rw [hlayout table columns h, hlayout table columns' h']

def addedBlog (id : Value) : PendingEntry := ⟨⟨0⟩, .added, .ofList [("Id", id)], .empty⟩

/-- The second blog is refused, as the key is in use. -/
theorem keysOf_afterSaves_blogs :
    let calls : List SaveCall := [⟨.plain, false, [addedBlog (.integer 1)]⟩,
      ⟨.plain, false, [addedBlog (.integer 1)]⟩]
    let t := (afterSaves "memory" blogs calls .empty).table "Blog"
    (Schema.ofDef blogDef = .ok blogs ∧ KeyColumnsApart blogs) ∧
    (∀ key r, (key, r) ∈ t.entries →
      Inserted blogs calls "Blog" key ∧ ∃ columns, IsLayout blogs "Blog" columns) ∧
    ∀ columns, IsLayout blogs "Blog" columns →
      KeysOf columns t ∧
      ((∀ key, Inserted blogs calls "Blog" key → IsTyped columns key) →
        (∀ key r, (key, r) ∈ t.entries → storedKey columns r = key.map some) ∧
          (t.values.map (storedKey columns)).Nodup) :=
  ⟨⟨ofDef_blogDef, keyColumnsApart_blogs⟩,
    keysOf_afterSaves ofDef_blogDef keyColumnsApart_blogs "memory" _ "Blog"⟩

/-- A blog with the truth value that stands for 1 is filed apart from blog 1 and stores the same
key. -/
theorem duplicate_key_blogs :
    let calls : List SaveCall := [⟨.plain, false, [addedBlog (.integer 1)]⟩,
      ⟨.plain, false, [addedBlog (.bool true)]⟩]
    let t := (afterSaves "memory" blogs calls .empty).table "Blog"
    Schema.ofDef blogDef = .ok blogs ∧ IsLayout blogs "Blog" [("Id", .integer)] ∧
      t.keys = [[.integer 1], [.bool true]] ∧
      t.values.map (storedKey [("Id", .integer)]) = [[some (.integer 1)], [some (.integer 1)]] := by
  refine ⟨rfl, ⟨_, List.mem_cons_self, rfl, _, rfl, rfl⟩, ?_, ?_⟩
  · decide +kernel
  · decide +kernel

/-- A root with number properties in one table; each property has a column. -/
def numbersDef (name keyName : String) (properties : List (String × String)) : EntityTypeDef where
  name := name
  base := none
  isAbstract := false
  properties := properties.map (fun (name, column) =>
    { name := name, column := some column, type := .integer, nullable := true })
  key := [keyName]
  table := some "Numbers"
  discriminatorProperty := none
  discriminatorValue := none

-- Key columns have to be apart. Here another property writes the key column,
example : ∃ s, Schema.ofDef ⟨[numbersDef "A" "Id" [("Id", "Id"), ("Other", "Id")]], []⟩ = .ok s ∧
    ((afterSaves "memory" s [⟨.plain, false, [⟨⟨0⟩, .added,
      .ofList [("Id", .integer 1), ("Other", .integer 2)], .empty⟩]⟩] .empty).table "Numbers").entries =
      [([.integer 1], .ofList [("Id", .integer 2)])] :=
  ⟨_, rfl, by decide +kernel⟩

-- and here another root of the table does.
example : ∃ s, Schema.ofDef ⟨[numbersDef "A" "Id" [("Id", "Id")],
      numbersDef "B" "Code" [("Code", "Code"), ("Id", "Id")]], []⟩ = .ok s ∧
    ((afterSaves "memory" s [⟨.plain, false, [⟨⟨0⟩, .added, .ofList [("Id", .integer 1)], .empty⟩,
      ⟨⟨1⟩, .modified, .ofList [("Id", .integer 2)], .ofList [("Code", .integer 1)]⟩]⟩]
      .empty).table "Numbers").entries = [([.integer 1], .ofList [("Id", .integer 2)])] :=
  ⟨_, rfl, by decide +kernel⟩

end EntityStore.Memory
