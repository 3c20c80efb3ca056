import EntityStore.Proofs.Schema.Definition
import EntityStore.Proofs.Schema.Properties
import EntityStore.Proofs.Sql.Definition

/-!
# Tables of accepted schemas

The table of a hierarchy has a column for every property of its types, as the first property with the
column is declared, a key among these columns and references from them to the keys of other tables.
Nothing compares the names in a key, or the two sides of a foreign key: a key may name a column twice, and
a reference may have more columns on one side.
-/

namespace EntityStore.Schema

open Traversal

variable {s : Schema} {root r : EntityType} {types : List EntityType} {fk : ForeignKey} {id : TypeId}
  {names columns : List String} {properties key : List Property}

/-! ### Columns -/

def columnOf (root : EntityType) (p : Property) : Sql.ColumnDefinition where
  name := p.columnName
  type := p.type.columnType
  notNull := !p.nullable && (root.properties.map (·.columnName)).contains p.columnName

theorem notNull_columnOf_iff {p : Property} :
    (columnOf root p).notNull = true ↔
      p.nullable = false ∧ ∃ q ∈ root.properties, q.columnName = p.columnName := by
  simp [columnOf]

theorem distinctColumns_concat (properties : List Property) (p : Property) :
    distinctColumns (properties ++ [p]) =
      if (distinctColumns properties).any (·.columnName == p.columnName) then distinctColumns properties
      else distinctColumns properties ++ [p] := by
  rw [distinctColumns, List.foldl_append, List.foldl_cons, List.foldl_nil, distinctColumns, List.any_reverse]
  split
  · rfl
  · rw [List.reverse_cons]

theorem find?_of_mem_distinctColumns {c : Property} (hc : c ∈ distinctColumns properties) :
    properties.find? (·.columnName == c.columnName) = some c := by
  induction properties using List.reverseRecOn with
  | nil => cases hc
  | append_singleton properties p ih =>
    rw [distinctColumns_concat] at hc
    rw [List.find?_append]
    split at hc
    · rw [ih hc, Option.some_or]
    · rename_i hnew
      rcases List.mem_append.1 hc with hc | hc
      · rw [ih hc, Option.some_or]
      · obtain rfl := List.mem_singleton.1 hc
        have hnone : properties.find? (·.columnName == c.columnName) = none := by
          refine List.find?_eq_none.2 (fun q hq heq => hnew ?_)
          obtain ⟨q', hq', hsame⟩ := exists_mem_distinctColumns hq
          exact List.any_eq_true.2 ⟨q', hq', by rw [hsame]; exact heq⟩
        rw [hnone, Option.none_or, List.find?_singleton, if_pos (beq_self_eq_true _)]

theorem columnsOf_eq_ok_iff :
    s.columnsOf id names = .ok columns ↔
      List.Forall₂ (fun name column => ∃ p, s.property id name = .ok p ∧ p.columnName = column) names
        columns := by
  simp only [columnsOf, mapM_eq_ok_iff, bind_eq_ok_iff, pure_eq_ok]

/-! ### Keys -/

theorem keyProperties_eq_ok_iff (hroot : s.root id = .ok root) :
    s.keyProperties id = .ok key ↔
      List.Forall₂ (fun name p => s.property root.id name = .ok p) root.key key := by
  rw [keyProperties, hroot, ok_bind, mapM_eq_ok_iff]

theorem name_of_property {name : String} {p : Property} (h : s.property id name = .ok p) : p.name = name := by
  obtain ⟨all, -, hfind⟩ := property_eq_ok_iff.1 h
  simpa using List.find?_some hfind

theorem names_of_forall₂ (h : List.Forall₂ (fun name p => s.property id name = .ok p) names key) :
    key.map (·.name) = names := by
  induction h with
  | nil => rfl
  | cons hp _ ih => rw [List.map_cons, name_of_property hp, ih]

theorem nodup_columns_iff (h : List.Forall₂ (fun name p => s.property id name = .ok p) names key) :
    (key.map (·.columnName)).Nodup ↔
      names.Nodup ∧ ∀ p ∈ key, ∀ q ∈ key, p.columnName = q.columnName → p.name = q.name := by
  -- a name stands for one property, even if a type declares it twice
  have hsame : ∀ p ∈ key, ∀ q ∈ key, p.name = q.name → p = q := by
    intro p hp q hq hname
    obtain ⟨a, -, ha⟩ := exists_of_mem_right h hp
    obtain ⟨b, -, hb⟩ := exists_of_mem_right h hq
    rw [← name_of_property ha, hname, name_of_property hb, hb] at ha
    exact (Except.ok.inj ha).symm
  rw [← names_of_forall₂ h]
  constructor
  · intro hnodup
    have hinj := List.inj_on_of_nodup_map hnodup
    refine ⟨(List.Nodup.of_map _ hnodup).map_on hsame, fun p hp q hq heq => ?_⟩
    rw [hinj hp hq heq]
  · rintro ⟨hnodup, hcolumns⟩
    exact (List.Nodup.of_map _ hnodup).map_on (fun p hp q hq heq => hsame p hp q hq (hcolumns p hp q hq heq))

/-! ### References -/

/-- The reference that a foreign key gives the table of a root. -/
structure Constrains (s : Schema) (root : EntityType) (fk : ForeignKey) (ref : Sql.Reference) : Prop where
  dependent : ∃ r, s.root fk.dependent = .ok r ∧ r.id = root.id
  principal : ∃ key, s.keyProperties fk.principal = .ok key ∧ key.map (·.name) = fk.principalProperties
  columns : s.columnsOf fk.dependent fk.dependentProperties = .ok ref.columns
  target : s.columnsOf fk.principal fk.principalProperties = .ok ref.target
  table : s.tableName fk.principal = .ok ref.table

theorem Constrains.unique {ref ref' : Sql.Reference} (h : s.Constrains root fk ref)
    (h' : s.Constrains root fk ref') : ref = ref' := by
  obtain ⟨columns, table, target⟩ := ref
  obtain ⟨columns', table', target'⟩ := ref'
  have hcolumns := h.columns.symm.trans h'.columns
  have htarget := h.target.symm.trans h'.target
  have htable := h.table.symm.trans h'.table
  cases hcolumns
  cases htarget
  cases htable
  rfl

theorem foreignKeyConstraint?_eq_ok {c : Option String} (h : s.foreignKeyConstraint? root fk = .ok c) :
    ∃ ref : Option Sql.Reference, c = ref.map (fun ref => (Sql.Reader.TablePart.reference ref).text) ∧
      ∀ ref', ref = some ref' ↔ s.Constrains root fk ref' := by
  rw [foreignKeyConstraint?] at h
  obtain ⟨dependentRoot, hroot, h⟩ := bind_eq_ok_iff.1 h
  split at h
  · -- the foreign key belongs to another table
    rename_i hother
    refine ⟨none, (Except.ok.inj h).symm, fun ref' => iff_of_false (Option.some_ne_none ref').symm ?_⟩
    intro hc
    obtain ⟨r, hr, hid⟩ := hc.dependent
    rw [hroot] at hr
    cases hr
    exact hother hid
  · rename_i hsame
    obtain ⟨principalKey, hkey, h⟩ := bind_eq_ok_iff.1 h
    split at h
    · -- it refers to other properties than the key
      rename_i hother
      refine ⟨none, (Except.ok.inj h).symm, fun ref' => iff_of_false (Option.some_ne_none ref').symm ?_⟩
      intro hc
      obtain ⟨key, hkey', hnames⟩ := hc.principal
      rw [hkey] at hkey'
      cases hkey'
      exact hother hnames
    · rename_i hnames
      simp only [bind_eq_ok_iff, pure_eq_ok] at h
      obtain ⟨columns, hcolumns, target, htarget, table, htable, rfl⟩ := h
      have hconstrains : s.Constrains root fk ⟨columns, table, target⟩ :=
        ⟨⟨dependentRoot, hroot, not_not.1 hsame⟩, ⟨principalKey, hkey, not_not.1 hnames⟩, hcolumns, htarget,
          htable⟩
      refine ⟨some ⟨columns, table, target⟩, rfl, fun ref' => ?_⟩
      constructor
      · rintro ⟨⟩
        exact hconstrains
      · intro hc
        rw [hconstrains.unique hc]

theorem exists_references {fks : List ForeignKey} {constraints : List (Option String)}
    (h : List.Forall₂ (fun fk c => s.foreignKeyConstraint? root fk = .ok c) fks constraints) :
    ∃ references : List Sql.Reference,
      constraints.filterMap (fun c => c) = references.map (fun ref => (Sql.Reader.TablePart.reference ref).text) ∧
      ∀ ref, ref ∈ references ↔ ∃ fk ∈ fks, s.Constrains root fk ref := by
  induction h with
  | nil => exact ⟨[], rfl, by simp⟩
  | @cons fk c fks constraints hc _ ih =>
    obtain ⟨references, htexts, hmem⟩ := ih
    obtain ⟨ref, rfl, href⟩ := foreignKeyConstraint?_eq_ok hc
    have hfirst : ∀ ref', (∃ fk' ∈ fk :: fks, s.Constrains root fk' ref') ↔
        ref = some ref' ∨ ref' ∈ references := by
      intro ref'
      simp only [List.mem_cons, or_and_right, exists_or, exists_eq_left, hmem, href]
    cases ref with
    | none =>
      refine ⟨references, htexts, fun ref' => ?_⟩
      rw [hfirst, or_iff_right (Option.some_ne_none ref').symm]
    | some ref =>
      refine ⟨ref :: references, ?_, fun ref' => ?_⟩
      · simp only [Option.map_some, List.filterMap_cons, htexts, List.map_cons]
      · rw [hfirst, List.mem_cons, Option.some.injEq, eq_comm]

def tableDefinition (root : EntityType) (columns key : List Property) (references : List Sql.Reference) :
    Sql.TableDefinition where
  name := tableOf root
  columns := columns.map (columnOf root)
  key := key.map (·.columnName)
  references := references

theorem texts_tableDefinition (root : EntityType) (columns key : List Property) (references : List Sql.Reference) :
    (tableDefinition root columns key references).parts.map (·.text) =
      columns.map (columnDefinition (root.properties.map (·.columnName))) ++
        ["PRIMARY KEY (" ++ identifierList (key.map (·.columnName)) ++ ")"] ++
        references.map (fun ref => (Sql.Reader.TablePart.reference ref).text) := by
  simp only [Sql.TableDefinition.parts, tableDefinition, List.map_append, List.map_cons, List.map_map,
    List.append_assoc, List.cons_append, List.nil_append]
  rfl

theorem createTable_eq_ok {sql : String} (h : s.createTable id = .ok sql) :
    ∃ root columns key references, s.root id = .ok root ∧ s.tableColumns id = .ok columns ∧
      s.keyProperties id = .ok key ∧
      (∀ ref, ref ∈ references ↔ ∃ fk ∈ s.foreignKeys, s.Constrains root fk ref) ∧
      sql = (tableDefinition root columns key references).text := by
  simp only [createTable, bind_eq_ok_iff, pure_eq_ok] at h
  obtain ⟨root, hroot, columns, hcolumns, key, hkey, constraints, hconstraints, table, htable, rfl⟩ := h
  obtain ⟨references, htexts, hmem⟩ := exists_references (mapM_eq_ok_iff.1 hconstraints)
  rw [tableName_of_root hroot] at htable
  cases htable
  have hparts := texts_tableDefinition root columns key references
  rw [← htexts] at hparts
  refine ⟨root, columns, key, references, hroot, hcolumns, hkey, hmem, ?_⟩
  exact congrArg (fun parts => "CREATE TABLE IF NOT EXISTS " ++ Sql.identifier (tableOf root) ++ " (" ++
    Sql.commaSeparated parts ++ ")") hparts.symm

/-! ### Accepted schemas -/

theorem Within.mem_columns_of_property {t : EntityType} {name : String} {p : Property}
    (h : s.Within root types t) (hanew : s.DeclaresAnew) (hp : s.property t.id name = .ok p) :
    p.columnName ∈ (distinctColumns (types.flatMap (·.properties))).map (·.columnName) := by
  obtain ⟨all, hproperties, hall⟩ := exists_propertiesOf h.valid.toOrdered hanew h.found
  obtain ⟨all', hall', hfind⟩ := property_eq_ok_iff.1 hp
  rw [hproperties.properties] at hall'
  cases hall'
  obtain ⟨c, hc, hname⟩ := (h.tableOf hall).covers p (List.mem_of_find?_eq_some hfind)
  exact List.mem_map.2 ⟨c, hc, hname⟩

theorem Ordered.found_of_root (hs : s.Ordered) (h : s.root id = .ok r) :
    r ∈ s.roots ∧ s.Found r ∧ ∃ t, s.entityType id = .ok t := by
  have hroot := h
  rw [Schema.root] at hroot
  obtain ⟨t, ht, -⟩ := bind_eq_ok_iff.1 hroot
  obtain ⟨r', hr', hmem, hfound, -⟩ := hs.exists_derives_root (hs.found ht)
  rw [hs.id_eq_of_entityType ht, h] at hr'
  cases hr'
  exact ⟨hmem, hfound, t, ht⟩

theorem Constrains.within {ref : Sql.Reference} (hc : s.Constrains root fk ref) (h : s.Within root types root) :
    ∃ t, t.id = fk.dependent ∧ s.Within root types t := by
  obtain ⟨r, hr, hid⟩ := hc.dependent
  obtain ⟨-, hfound, t, ht⟩ := h.valid.found_of_root hr
  have hdependent := h.valid.id_eq_of_entityType ht
  -- the number finds one type, even where several types have it
  have hsame : r = root := by
    have hroot := h.found
    rw [Found, ← hid, hfound] at hroot
    exact Except.ok.inj hroot
  rw [hsame] at hr
  exact ⟨t, hdependent, h.valid, h.checked, h.valid.found ht, hdependent ▸ hr⟩

theorem columnsOf_names (h : ∀ p ∈ key, s.property id p.name = .ok p) :
    s.columnsOf id (key.map (·.name)) = .ok (key.map (·.columnName)) := by
  rw [columnsOf_eq_ok_iff, List.forall₂_map_left_iff, List.forall₂_map_right_iff, List.forall₂_same]
  exact fun p hp => ⟨p, h p hp, rfl⟩

/-- The reference of a foreign key goes from columns of a table to the key of the principal's, with as many
columns on both sides as the foreign key has names. -/
structure RefersToKey (s : Schema) (fk : ForeignKey) (columns : List String) (ref : Sql.Reference) : Prop where
  columns : ∀ c ∈ ref.columns, c ∈ columns
  target : ∃ principal key, s.root fk.principal = .ok principal ∧ s.keyProperties principal.id = .ok key ∧
    ref.table = tableOf principal ∧ ref.target = key.map (·.columnName) ∧ ref.target ≠ []
  length_columns : ref.columns.length = fk.dependentProperties.length
  length_target : ref.target.length = fk.principalProperties.length

theorem Constrains.refersToKey {d : SchemaDef} (hd : ofDef d = .ok s) (h : s.Within root types root)
    {ref : Sql.Reference} (hc : s.Constrains root fk ref) :
    s.RefersToKey fk ((distinctColumns (types.flatMap (·.properties))).map (·.columnName)) ref := by
  have hs := h.valid.toOrdered
  have hcolumns := columnsOf_eq_ok_iff.1 hc.columns
  have htarget := columnsOf_eq_ok_iff.1 hc.target
  constructor
  case columns =>
    obtain ⟨t, ht, hwithin⟩ := hc.within h
    intro c hmem
    obtain ⟨name, -, p, hp, rfl⟩ := exists_of_mem_right hcolumns hmem
    exact hwithin.mem_columns_of_property (declaresAnew_of_ofDef hd) (ht ▸ hp)
  case target =>
    obtain ⟨key, hkey, hnames⟩ := hc.principal
    have hprincipal := hkey
    rw [keyProperties] at hprincipal
    obtain ⟨principal, hroot, -⟩ := bind_eq_ok_iff.1 hprincipal
    obtain ⟨hmem, hfound, t, ht⟩ := hs.found_of_root hroot
    have hproperties := (keyProperties_eq_ok_iff hroot).1 hkey
    have htable := hc.table
    rw [tableName_of_root hroot] at htable
    -- a name in the key means the same on the principal as on its root
    have hnamed : ∀ p ∈ key, s.property fk.principal p.name = .ok p := by
      intro p hp
      obtain ⟨name, -, hname⟩ := exists_of_mem_right hproperties hp
      rw [name_of_property hname]
      exact hs.property_of_root ht hroot hname
    have htargets := columnsOf_names hnamed
    rw [hnames, hc.target] at htargets
    refine ⟨principal, key, hroot, (keyProperties_eq_ok_iff (root_of_root hmem hfound)).2 hproperties,
      (Except.ok.inj htable).symm, Except.ok.inj htargets, ?_⟩
    intro hnil
    have hlength := hproperties.length_eq
    rw [Except.ok.inj htargets, List.map_eq_nil_iff] at hnil
    rw [hnil, List.length_nil, List.length_eq_zero_iff] at hlength
    exact key_ne_nil_of_ofDef hd hmem hlength
  case length_columns => exact hcolumns.length_eq.symm
  case length_target => exact htarget.length_eq.symm

/-- The definition of the table of a hierarchy. -/
structure WellDefined (s : Schema) (root : EntityType) (types : List EntityType) (d : Sql.TableDefinition) :
    Prop where
  name : d.name = tableOf root
  nodup_columns : (d.columns.map (·.name)).Nodup
  covers : ∀ t ∈ types, ∀ p ∈ t.properties, p.columnName ∈ d.columns.map (·.name)
  declared : ∀ c ∈ d.columns, ∃ p, (types.flatMap (·.properties)).find? (·.columnName == c.name) = some p ∧
    c.type = p.type.columnType ∧
    (c.notNull = true ↔ p.nullable = false ∧ ∃ q ∈ root.properties, q.columnName = c.name)
  key_ne_nil : d.key ≠ []
  key_subset : ∀ c ∈ d.key, c ∈ d.columns.map (·.name)
  key : ∃ key, s.keyProperties root.id = .ok key ∧ key.map (·.name) = root.key ∧
    d.key = key.map (·.columnName) ∧
    (d.key.Nodup ↔ root.key.Nodup ∧ ∀ p ∈ key, ∀ q ∈ key, p.columnName = q.columnName → p.name = q.name)
  references : ∀ ref, ref ∈ d.references ↔ ∃ fk ∈ s.foreignKeys, s.Constrains root fk ref
  refersToKey : ∀ fk ref, s.Constrains root fk ref → s.RefersToKey fk (d.columns.map (·.name)) ref

theorem Within.wellDefined {d : SchemaDef} (hd : ofDef d = .ok s) (h : s.Within root types root)
    (hkey : s.keyProperties root.id = .ok key) {references : List Sql.Reference}
    (hreferences : ∀ ref, ref ∈ references ↔ ∃ fk ∈ s.foreignKeys, s.Constrains root fk ref) :
    s.WellDefined root types
      (tableDefinition root (distinctColumns (types.flatMap (·.properties))) key references) := by
  have hkeys := (keyProperties_eq_ok_iff h.root_eq).1 hkey
  have hcolumns : ∀ columns : List Property,
      (columns.map (columnOf root)).map (·.name) = columns.map (·.columnName) := by
    intro columns
    rw [List.map_map]
    rfl
  constructor
  case name => rfl
  case nodup_columns =>
    rw [tableDefinition, hcolumns]
    exact nodup_distinctColumns _
  case covers =>
    intro t ht p hp
    obtain ⟨c, hc, hname⟩ := exists_mem_distinctColumns (List.mem_flatMap.2 ⟨t, ht, hp⟩)
    rw [tableDefinition, hcolumns]
    exact List.mem_map.2 ⟨c, hc, hname⟩
  case declared =>
    intro c hc
    obtain ⟨p, hp, rfl⟩ := List.mem_map.1 hc
    exact ⟨p, find?_of_mem_distinctColumns hp, rfl, notNull_columnOf_iff⟩
  case key_ne_nil =>
    intro hnil
    have hlength := hkeys.length_eq
    rw [List.map_eq_nil_iff.1 hnil, List.length_nil, List.length_eq_zero_iff] at hlength
    exact key_ne_nil_of_ofDef hd h.derives_root.1 hlength
  case key_subset =>
    intro c hc
    obtain ⟨p, hp, rfl⟩ := List.mem_map.1 hc
    obtain ⟨name, -, hname⟩ := exists_of_mem_right hkeys hp
    rw [tableDefinition, hcolumns]
    exact h.mem_columns_of_property (declaresAnew_of_ofDef hd) hname
  case key => exact ⟨key, hkey, names_of_forall₂ hkeys, rfl, nodup_columns_iff hkeys⟩
  case references => exact hreferences
  case refersToKey =>
    intro fk ref hc
    rw [tableDefinition, hcolumns]
    exact hc.refersToKey hd h

theorem WellDefined.complete {d : Sql.TableDefinition} (h : s.WellDefined root types d)
    (hcolumns : ∀ ref ∈ d.references, ref.columns ≠ []) : d.Complete := by
  intro p hp
  rcases List.mem_append.1 hp with hp | hp
  · obtain ⟨c, hc, rfl⟩ := List.mem_map.1 hp
    obtain ⟨p, -, htype, -⟩ := h.declared c hc
    exact ⟨p.type, htype⟩
  · rcases List.mem_cons.1 hp with rfl | hp
    · exact h.key_ne_nil
    · obtain ⟨ref, href, rfl⟩ := List.mem_map.1 hp
      obtain ⟨fk, -, hc⟩ := (h.references ref).1 href
      obtain ⟨_, _, -, -, -, -, htarget⟩ := (h.refersToKey fk ref hc).target
      exact ⟨hcolumns ref href, htarget⟩

/-- Every root of an accepted definition has the definition of a table, and its text is read as that
definition, unless a foreign key of the table has no columns. A root is the root of its own hierarchy as long
as there are not more types than numbers. -/
theorem wellDefined_createTable {d : SchemaDef} (hd : ofDef d = .ok s) (hr : r ∈ s.roots) :
    ∃ sql root types definition, s.createTable r.id = .ok sql ∧ s.root r.id = .ok root ∧
      (s.types.length ≤ UInt32.size → root = r) ∧ s.hierarchy root.id = .ok types ∧
      sql = definition.text ∧ s.WellDefined root types definition ∧
      ((∀ ref ∈ definition.references, ref.columns ≠ []) →
        Sql.Statement.ofText? sql = some (.createTable definition)) := by
  have hs := valid_of_ofDef hd
  obtain ⟨sql, hsql⟩ := exists_createTable hd hr
  obtain ⟨root, columns, key, references, hroot, hcolumns, hkey, hreferences, rfl⟩ := createTable_eq_ok hsql
  obtain ⟨-, -, t, htype⟩ := hs.found_of_root hroot
  have ht := hs.id_eq_of_entityType htype
  obtain ⟨root', types, hwithin⟩ := exists_within hd (hs.found htype)
  obtain rfl : root' = root := by
    have hroot' := hwithin.root_eq
    rw [ht, hroot] at hroot'
    exact (Except.ok.inj hroot').symm
  rw [← ht, hwithin.tableColumns_eq] at hcolumns
  cases hcolumns
  have hkey' := (keyProperties_eq_ok_iff hwithin.to_root.root_eq).2 ((keyProperties_eq_ok_iff hroot).1 hkey)
  have hdefined := hwithin.to_root.wellDefined hd hkey' hreferences
  refine ⟨_, root', types, _, hsql, hroot, ?_, hwithin.checked.hierarchy, rfl, hdefined, ?_⟩
  · intro hsize
    have hself := root_of_root hr (hs.found_of_length_le hsize (List.mem_of_mem_filter hr))
    rw [hroot] at hself
    exact Except.ok.inj hself
  · intro hnames
    exact (hdefined.complete hnames).read_text

/-- The table of posts, with the reference to their blogs. -/
theorem wellDefined_createTable_blogs : ofDef blogDef = .ok blogs ∧ blogs.types[1] ∈ blogs.roots ∧
    ∃ sql definition, blogs.createTable ⟨1⟩ = .ok sql ∧ sql = definition.text ∧
      blogs.WellDefined blogs.types[1] [blogs.types[1]] definition ∧ definition.key = ["Id"] ∧
      Sql.Statement.ofText? sql = some (.createTable definition) := by
  have hpost : blogs.types[1] ∈ blogs.roots := by decide
  obtain ⟨sql, root, types, definition, hsql, -, hroot, htypes, htext, hdefined, hread⟩ :=
    wellDefined_createTable ofDef_blogDef hpost
  obtain rfl := hroot (by decide)
  have hhierarchy : blogs.hierarchy blogs.types[1].id = .ok [blogs.types[1]] := rfl
  rw [hhierarchy] at htypes
  cases htypes
  obtain ⟨key, hkey, -, hcolumns, -⟩ := hdefined.key
  have hkeys : blogs.keyProperties blogs.types[1].id = .ok [⟨"Id", none, .integer, false⟩] := rfl
  rw [hkeys] at hkey
  cases hkey
  refine ⟨ofDef_blogDef, hpost, sql, definition, hsql, htext, hdefined, hcolumns, hread ?_⟩
  intro ref href
  obtain ⟨fk, hfk, hc⟩ := (hdefined.references ref).1 href
  obtain rfl := List.mem_singleton.1 hfk
  exact List.ne_nil_of_length_pos ((hdefined.refersToKey _ ref hc).length_columns ▸ Nat.one_pos)

/-- Tags with their name twice in the key, and posts with two columns that refer to the one of blogs. -/
def feedDef : SchemaDef where
  entityTypes := [⟨"Tag", none, false, [⟨"Name", none, .text, false⟩], ["Name", "Name"], none, none, none⟩,
    ⟨"Blog", none, false, [⟨"Id", none, .integer, false⟩], ["Id"], none, none, none⟩,
    ⟨"Post", none, false, [⟨"Id", none, .integer, false⟩, ⟨"BlogId", none, .integer, false⟩,
      ⟨"AuthorId", none, .integer, false⟩], ["Id"], none, none, none⟩]
  foreignKeys := [⟨"Post", "Blog", ["BlogId", "AuthorId"], ["Id"]⟩]

def feeds : Schema where
  types := [⟨⟨0⟩, "Tag", none, false, [⟨"Name", none, .text, false⟩], ["Name", "Name"], none, none, none⟩,
    ⟨⟨1⟩, "Blog", none, false, [⟨"Id", none, .integer, false⟩], ["Id"], none, none, none⟩,
    ⟨⟨2⟩, "Post", none, false, [⟨"Id", none, .integer, false⟩, ⟨"BlogId", none, .integer, false⟩,
      ⟨"AuthorId", none, .integer, false⟩], ["Id"], none, none, none⟩]
  foreignKeys := [⟨⟨2⟩, ⟨1⟩, ["BlogId", "AuthorId"], ["Id"]⟩]

def tagTable : Sql.TableDefinition := ⟨"Tag", [⟨"Name", "TEXT", true⟩], ["Name", "Name"], []⟩

def postTable : Sql.TableDefinition :=
  ⟨"Post", [⟨"Id", "INTEGER", true⟩, ⟨"BlogId", "INTEGER", true⟩, ⟨"AuthorId", "INTEGER", true⟩], ["Id"],
    [⟨["BlogId", "AuthorId"], "Blog", ["Id"]⟩]⟩

/-- The definition is accepted, with a column twice in one key and two columns that refer to one. -/
theorem lopsided_feeds : ofDef feedDef = .ok feeds ∧
    feeds.createTable ⟨0⟩ = .ok tagTable.text ∧ ¬tagTable.key.Nodup ∧
    feeds.createTable ⟨2⟩ = .ok postTable.text ∧
    ∃ ref ∈ postTable.references, ref.columns.length ≠ ref.target.length :=
  ⟨rfl, rfl, by decide, rfl, _, List.mem_cons_self, by decide⟩

end EntityStore.Schema
