import EntityStore.Proofs.Memory.Insertion
import EntityStore.Proofs.Memory.Results

/-!
# What a new entity changes

A save of a new entity adds it, and nothing else, at the end of the entities of its type and of every
type that it derives from. The entities of all other types stay as they were.
-/

namespace EntityStore.Memory

open Command Schema Traversal Reading Results

/-- The entity that a new entry stands for: the properties of the type in order, each with the value
that was inserted. -/
structure IsNew (s : Schema) (t : EntityType) (e : PendingEntry) (entity : Entity) : Prop where
  entityType : entity.entityType = t.id
  typeName : entity.typeName = t.name
  values : ∃ properties, s.properties t.id = .ok properties ∧
    List.Forall₂ (fun p x => x.1 = p.name ∧ IsInserted s t e p x.2) properties entity.values.entries

/-- A database to which one entity has been added, as far as queries for the entities of a type can
tell. -/
structure Adds (name : String) (s : Schema) (mode : Mode) (db db' : MemoryDatabase) (t : EntityType)
    (entity : Entity) : Prop where
  seen : ∀ id, s.isAssignable t.id id = .ok true →
    ∃ previous, results name s mode db (Query.entities id) = .ok previous ∧
      ((∀ x ∈ previous, ∃ y, x = .ok y) →
        results name s mode db' (Query.entities id) = .ok (previous ++ [.ok entity]))
  unseen : ∀ id, s.isAssignable t.id id ≠ .ok true →
    results name s mode db' (Query.entities id) = results name s mode db (Query.entities id)

section

variable {s : Schema} {t u root : EntityType} {types : List EntityType} {db db' : MemoryDatabase}
  {r : Record} {properties : List Property}

theorem recordsOf_eq {id : TypeId} (hroot : s.root id = .ok root) (db : MemoryDatabase) :
    recordsOf s db id = (db.rows (tableOf root)).filter (isRecordOf s id) := by
  rw [recordsOf, records, entitySource, tableName_of_root hroot]

theorem recordsOf_of_unknown {id : TypeId} {e : SchemaError} (he : s.entityType id = .error e)
    (db : MemoryDatabase) : recordsOf s db id = [] := by
  have htable : s.tableName id = .error e := by
    rw [tableName, root, he]
    rfl
  rw [recordsOf, records, entitySource, htable]
  rfl

theorem results_of_seen (hw : s.Within root types t) (hconcrete : t.isAbstract = false)
    (hr : Stores s t properties r) (hrows : db'.rows (tableOf root) = db.rows (tableOf root) ++ [r])
    (hu : s.Derives t u) (name : String) (mode : Mode) :
    ∃ previous, results name s mode db (Query.entities u.id) = .ok previous ∧
      ((∀ x ∈ previous, ∃ y, x = .ok y) → results name s mode db' (Query.entities u.id) =
        .ok (previous ++ [.ok (storedEntity t properties r)])) := by
  obtain ⟨plan, hplan⟩ := exists_plan_of_derives hw hconcrete hu
  obtain ⟨m, hm, hresults⟩ := results_entities hplan
  refine ⟨_, hresults name mode db, ?_⟩
  intro hprevious
  have hroot := (hw.of_derives hu).root_eq
  have hone := (hr.isRecordOf_iff hw hconcrete (hw.of_derives hu)).2 hu
  have hrecords : recordsOf s db' u.id = recordsOf s db u.id ++ [r] := by
    rw [recordsOf_eq hroot, recordsOf_eq hroot, hrows, List.filter_append, List.filter_cons, if_pos hone]
    rfl
  -- no failure is seen, so there is none, and nothing is cut off before the new record
  have hall := upToFailure_eq_self hprevious
  rw [hall] at hprevious ⊢
  rw [hresults, hrecords, List.map_append, upToFailure_append hprevious, List.map_singleton,
    hr.materialize_eq hw hconcrete hu hm]
  rfl

theorem recordsOf_of_unseen (hw : s.Within root types t) (hconcrete : t.isAbstract = false)
    (hr : Stores s t properties r) (htables : TablesApart s)
    (hrows : ∀ table, db'.rows table =
      if tableOf root = table then db.rows table ++ [r] else db.rows table)
    (hu : s.Found u) (hnot : ¬ s.Derives t u) : recordsOf s db' u.id = recordsOf s db u.id := by
  obtain ⟨root', hroot', hmem', -, -⟩ := hw.valid.exists_derives_root hu
  rw [recordsOf_eq hroot', recordsOf_eq hroot', hrows]
  split
  · rename_i htable
    obtain rfl := htables root hw.derives_root.1 root' hmem' htable
    have hnone : isRecordOf s u.id r = false := by
      rw [← Bool.not_eq_true, hr.isRecordOf_iff hw hconcrete ⟨hw.valid, hw.checked, hu, hroot'⟩]
      exact hnot
    rw [List.filter_append, List.filter_cons, hnone]
    simp
  · rfl

end

theorem Insertion.isNew {s : Schema} {e : PendingEntry} {c : Command} {t : EntityType}
    {shape : Shape s t} {types : List EntityType} (h : Insertion s e c t shape types) :
    IsNew s t e (storedEntity t shape.properties (MemoryDatabase.insertedRecord c)) := by
  have hnames : ((storedValues [(⟨0⟩, MemoryDatabase.insertedRecord c)] ⟨0⟩ shape.properties).map
      Prod.fst).Nodup := by
    rw [storedValues, List.map_map]
    exact h.names
  refine ⟨rfl, rfl, shape.properties, shape.properties_eq, ?_⟩
  rw [storedEntity, OrderedMap.entries_ofList hnames, storedValues, List.forall₂_map_right_iff,
    List.forall₂_same]
  intro p hp
  obtain ⟨w, hinserted, -, hget⟩ := h.exists_isInserted hp
  rw [read_eq hget]
  exact ⟨rfl, hinserted⟩

/-- Insert and query. A save of a new entity under a free key succeeds and adds the entity. -/
theorem adds_afterSave {d : SchemaDef} {s : Schema} (hd : Schema.ofDef d = .ok s)
    (hnames : NamesApart s) (hcolumns : ColumnsApart s) (htables : TablesApart s)
    {e : PendingEntry} {c : Command} {t : EntityType} (hc : Command.ofEntry s e = .ok c)
    (ht : s.entityType e.entityType = .ok t) (hstate : e.state = .added)
    (hkeeps : KeepsDiscriminator s t e) {db : MemoryDatabase}
    (hfree : (db.table c.table).get? c.key = none) (name : String) (mode mode' : Mode) :
    let call : SaveCall := ⟨mode, false, [e]⟩
    outcomeOf name s db call = .ok 1 ∧ ∃ entity, IsNew s t e entity ∧
      Adds name s mode' db (afterSave name s db call) t entity := by
  intro call
  obtain ⟨shape, types, h⟩ := exists_insertion hd hnames hcolumns hc ht hstate hkeeps
  obtain ⟨db', happly, hrows⟩ := rows_applyCommand (h.accepted.state.trans hstate) hfree
  have hcommands : call.entries.mapM (Command.ofEntry s) = .ok [c] := by
    change [e].mapM (Command.ofEntry s) = _
    rw [List.mapM_cons, hc]
    rfl
  have hone : db.apply [c] = .ok (1, db') := by
    rw [MemoryDatabase.apply_eq, List.foldlM_cons, happly]
    rfl
  obtain ⟨houtcome, hafter⟩ := save_of_apply rfl (List.cons_ne_nil e []) hcommands hone
  refine ⟨houtcome, _, h.isNew, ?_⟩
  rw [hafter]
  rw [h.accepted.table] at hrows
  have hs := h.within.valid
  have hfound := h.within.found
  constructor
  · intro id hid
    obtain ⟨u, hu, rfl⟩ := (hs.isAssignable_iff hfound id).1 hid
    exact results_of_seen h.within h.concrete h.stores (by rw [hrows, if_pos rfl]) hu name mode'
  · intro id hid
    apply results_congr
    cases hu : s.entityType id with
    | error cause => rw [recordsOf_of_unknown hu, recordsOf_of_unknown hu]
    | ok u =>
      obtain rfl := hs.id_eq_of_entityType hu
      apply recordsOf_of_unseen h.within h.concrete h.stores htables hrows hu
      intro hder
      exact hid ((hs.isAssignable_iff hfound u.id).2 ⟨u, hder, rfl⟩)

/-- A kiwi is added to the animals and to the kiwis of the zoo, and no country. -/
theorem adds_afterSave_kiwi :
    let call : SaveCall := ⟨.plain, false, [newKiwi]⟩
    ∃ c kiwi, Schema.ofDef animalDef = .ok animals ∧ NamesApart animals ∧ ColumnsApart animals ∧
      TablesApart animals ∧ Command.ofEntry animals newKiwi = .ok c ∧
      animals.entityType newKiwi.entityType = .ok kiwi ∧ newKiwi.state = .added ∧
      KeepsDiscriminator animals kiwi newKiwi ∧ (zoo.table c.table).get? c.key = none ∧
      outcomeOf "zoo" animals zoo call = .ok 1 ∧ ∃ entity, IsNew animals kiwi newKiwi entity ∧
        Adds "zoo" animals .plain zoo (afterSave "zoo" animals zoo call) kiwi entity := by
  have hkeeps : ∀ kiwi, animals.entityType newKiwi.entityType = .ok kiwi →
      KeepsDiscriminator animals kiwi newKiwi := by
    rintro kiwi hkiwi p hp
    cases hkiwi
    cases hp
    exact Or.inl rfl
  refine ⟨_, _, ofDef_animalDef, namesApart_animals, columnsApart_animals, tablesApart_animals, rfl,
    rfl, rfl, hkeeps _ rfl, by decide, ?_⟩
  exact adds_afterSave ofDef_animalDef namesApart_animals columnsApart_animals tablesApart_animals
    rfl rfl rfl (hkeeps _ rfl) (by decide) "zoo" .plain .plain

end EntityStore.Memory
