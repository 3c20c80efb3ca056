import EntityStore.Proofs.Query.Translation
import EntityStore.Proofs.Schema.Discriminators

/-!
# All entities of a type

The query for all entities of a type can be planned if its hierarchy has a concrete type and, where
types must be told apart, a discriminator among the columns. Its rows are those of the records of the
type, in the order of the table.
-/

namespace EntityStore.Reading

open Traversal

theorem nodup_foldl_mention {α : Type} [DecidableEq α] {known : List α} (h : known.Nodup) (xs : List α) :
    (xs.foldl mention known).Nodup := by
  induction xs generalizing known with
  | nil => exact h
  | cons x xs ih =>
    rw [List.foldl_cons]
    apply ih
    unfold mention
    split
    · exact h
    · rename_i hx
      rw [List.nodup_append]
      refine ⟨h, List.nodup_singleton x, ?_⟩
      rintro y hy z hz rfl
      rw [List.mem_singleton.1 hz] at hy
      exact hx hy

section

variable {select : Select} {known : List (SourceId × String)} {source : SourceId}

theorem readsColumn_entryOf (x y : SourceId × String) :
    Select.readsColumn y.2 y.1 (entryOf x) = decide (x = y) := by
  obtain ⟨source, column⟩ := x
  obtain ⟨source', column'⟩ := y
  rw [Bool.eq_iff_iff]
  simp [Select.readsColumn, entryOf]

theorem findColumn?_eq (hknown : select.columns = known.map entryOf) (hnodup : known.Nodup)
    {column : String} (hmem : (source, column) ∈ known) :
    select.findColumn? source column = some (entryOf (source, column)) := by
  have hfilter : select.columns.filter (Select.readsColumn column source) = [entryOf (source, column)] := by
    have hone : known.filter (fun x => decide (x = (source, column))) = [(source, column)] := by
      rw [List.filter_eq, hnodup.count, if_pos hmem]
      rfl
    have hsame : (Select.readsColumn column source) ∘ entryOf = fun x => decide (x = (source, column)) := by
      funext x
      exact readsColumn_entryOf x (source, column)
    rw [hknown, List.filter_map, hsame, hone]
    rfl
  rw [Select.findColumn?, hfilter]

theorem exists_discriminatorIndex (hknown : select.columns = known.map entryOf) {p : Property}
    (hmem : (source, p.columnName) ∈ known) :
    ∃ index, Materializer.discriminatorIndex select (Plan.columnExpr source p) = .ok index := by
  rw [Materializer.discriminatorIndex, Select.projection, hknown, filter_projected, Plan.columnExpr,
    findIdx?_column known (source, p.columnName)]
  cases hfind : known.findIdx? (fun y => decide (y = (source, p.columnName))) with
  | none =>
    have hnone := List.findIdx?_eq_none_iff.1 hfind _ hmem
    simp at hnone
  | some i => exact ⟨i, rfl⟩

end

section

variable {s : Schema} {id : TypeId} {root : EntityType} {select : Select} {source : SourceId}
  {known : List (SourceId × String)} {ts : List (EntityType × List Property)}
  {shapes : List (EntityType × EntityShape)}

theorem discriminatorValue_eq {p : Property} {t : EntityType} (h : Schema.Valued p t) :
    ∃ v k, Materializer.discriminatorValue t = .ok v ∧ v.discriminatorKey? = some k := by
  obtain ⟨v, k, w, hv, hk, -⟩ := h
  exact ⟨v, k, by rw [Materializer.discriminatorValue, hv], hk⟩

theorem exists_typeTest {p : Property} {t : EntityType} (h : Schema.Valued p t) (column : SqlExpr) :
    ∃ test, Materializer.typeTest column t = .ok test := by
  obtain ⟨v, k, hv, -⟩ := discriminatorValue_eq h
  rw [Materializer.typeTest, hv]
  exact ⟨_, rfl⟩

theorem exists_dispatchEntry {p : Property} {t : EntityType} (h : Schema.Valued p t)
    (shape : EntityShape) : ∃ entry, Materializer.dispatchEntry t shape = .ok entry := by
  obtain ⟨v, k, hv, hk⟩ := discriminatorValue_eq h
  rw [Materializer.dispatchEntry, hv, ok_bind, hk]
  exact ⟨_, rfl⟩

/-- Types that must be told apart have a discriminator among the columns, with values. -/
def Tellable (s : Schema) (id : TypeId) (root : EntityType) (source : SourceId)
    (known : List (SourceId × String)) (types : List EntityType) : Prop :=
  types.map (·.id) ≠ [root.id] → ∃ p, s.discriminator? id = .ok (some p) ∧
    (source, p.columnName) ∈ known ∧ ∀ t ∈ types, Schema.Valued p t

theorem exists_assemble (hknown : select.columns = known.map entryOf) (hnodup : known.Nodup)
    (hroot : s.root id = .ok root) (hne : shapes ≠ [])
    (htell : Tellable s id root source known (shapes.map Prod.fst)) :
    ∃ m r, Materializer.assemble s id root select source shapes = .ok (m, r) := by
  have hcolumn : ∀ p, s.discriminator? id = .ok (some p) → (source, p.columnName) ∈ known →
      Materializer.discriminatorColumn s id select source = .ok (Plan.columnExpr source p, p) := by
    intro p hp hmem
    simp only [Materializer.discriminatorColumn, bind_eq_ok_iff, liftM_eq_ok_iff]
    refine ⟨root, hroot, some p, hp, ?_⟩
    dsimp only
    rw [findColumn?_eq hknown hnodup hmem]
    rfl
  unfold Materializer.assemble
  split
  · exact absurd rfl hne
  · rename_i t shape
    split
    · exact ⟨_, _, rfl⟩
    · rename_i ht
      obtain ⟨p, hp, hmem, hvalued⟩ := htell (by simpa using ht)
      obtain ⟨test, htest⟩ := exists_typeTest (hvalued t (by simp)) (Plan.columnExpr source p)
      rw [hcolumn p hp hmem, ok_bind]
      simp only [htest]
      exact ⟨_, _, rfl⟩
  · rename_i hsingle
    have hmany : (shapes.map Prod.fst).map (·.id) ≠ [root.id] := by
      intro hone
      rw [List.map_map] at hone
      obtain ⟨shape, rfl, -⟩ := List.map_eq_singleton_iff.1 hone
      exact hsingle shape.1 shape.2 rfl
    obtain ⟨p, hp, hmem, hvalued⟩ := htell hmany
    have hvalued : ∀ shape ∈ shapes, Schema.Valued p shape.1 :=
      fun shape hshape => hvalued _ (List.mem_map_of_mem hshape)
    obtain ⟨index, hindex⟩ := exists_discriminatorIndex hknown hmem
    obtain ⟨entries, hentries⟩ := exists_mapM (l := shapes)
      (f := fun shape => Materializer.dispatchEntry shape.1 shape.2)
      (fun shape hshape => exists_dispatchEntry (hvalued shape hshape) shape.2)
    obtain ⟨tests, htests⟩ := exists_mapM (l := shapes)
      (f := fun shape => Materializer.typeTest (Plan.columnExpr source p) shape.1)
      (fun shape hshape => exists_typeTest (hvalued shape hshape) _)
    rw [hcolumn p hp hmem, ok_bind]
    simp only [hindex, hentries, htests, ok_bind]
    exact ⟨_, _, rfl⟩

theorem exists_build (hknown : select.columns = known.map entryOf) (hnodup : known.Nodup)
    (hts : Materializer.concreteProperties s id = .ok ts) (hroot : s.root id = .ok root) (hne : ts ≠ [])
    (htell : Tellable s id root source ((typeColumns source ts).foldl mention known) (ts.map Prod.fst)) :
    ∃ m select', Materializer.build s id (Plan.projectProperty source) source select = (.ok m, select') := by
  obtain ⟨shapes, hadd, hshapes⟩ := addShapes_eq source ts hknown
  have hfst := map_fst_of_reads hshapes
  have hshapesne : shapes ≠ [] := by
    rintro rfl
    exact hne (List.map_eq_nil_iff.1 hfst.symm)
  obtain ⟨m, r, hassemble⟩ : ∃ m r, Materializer.assemble s id root
      { select with columns := ((typeColumns source ts).foldl mention known).map entryOf } source shapes =
        .ok (m, r) :=
    exists_assemble rfl (nodup_foldl_mention hnodup _) hroot hshapesne (hfst ▸ htell)
  have htypes : (do
      let types ← Materializer.concreteProperties s id
      let root ← s.root id
      return (types, root) : Except SchemaError _) = .ok (ts, root) := by
    rw [hts, ok_bind, hroot]
    rfl
  unfold Materializer.build
  rw [htypes]
  dsimp only
  rw [hadd]
  dsimp only
  rw [hassemble]
  cases r with
  | none => exact ⟨_, _, rfl⟩
  | some p => exact ⟨_, _, rfl⟩

end

section

variable {s : Schema} {id : TypeId}

def entitySource (id : TypeId) : QuerySource := ⟨⟨0⟩, id⟩

def entityRow (s : Schema) (id : TypeId) (r : Record) : Row :=
  (selected s (Query.entities id)).map (fun y => read [(⟨0⟩, r)] y.1 y.2)

def isRecordOf (s : Schema) (id : TypeId) (r : Record) : Bool :=
  isOfType s [(⟨0⟩, r)] (entitySource id)

theorem rows_entities (s : Schema) (id : TypeId) (tables : TableContents) :
    rows s (Query.entities id) tables =
      ((records s tables (entitySource id)).filter (isRecordOf s id)).map (entityRow s id) := by
  have hcombinations : combinations s tables (Query.entities id).sources =
      (records s tables (entitySource id)).map (fun r => [((⟨0⟩ : SourceId), r)]) := by
    rw [List.map_eq_flatMap]
    rfl
  have hsort : ∀ c d, before s (Query.entities id) c d = false := fun _ _ => rfl
  have hsatisfies : ∀ r, satisfies s (Query.entities id) [((⟨0⟩ : SourceId), r)] = isRecordOf s id r := by
    intro r
    simp [satisfies, Query.entities, Query.sources, isRecordOf, entitySource]
  rw [rows, kept, Sorting.sort_of_forall_not_less hsort, hcombinations, List.filter_map]
  simp only [Function.comp_def, hsatisfies]
  change List.map _ (List.map _ _) = _
  rw [List.map_map]
  rfl

theorem scoped_entities (id : TypeId) : Scoped (Query.entities id) := by
  intro i j hj
  cases hj

theorem supplied_entities (id : TypeId) : Supplied (Query.entities id) := by
  intro e he
  cases he

theorem exists_plan_entities {t root : EntityType} (ht : s.entityType id = .ok t)
    (hroot : s.root id = .ok root) {ts : List (EntityType × List Property)}
    (hts : Materializer.concreteProperties s id = .ok ts) (hne : ts ≠ [])
    (htell : Tellable s id root ⟨0⟩ ((typeColumns ⟨0⟩ ts).foldl mention []) (ts.map Prod.fst)) :
    ∃ plan, Plan.ofQuery s (Query.entities id) = .ok plan := by
  have hscope : Plan.scopeOf s [] (Query.entities id).sources = .ok [(⟨0⟩, id)] := by
    change Plan.scopeOf s [] [entitySource id] = _
    rw [Plan.scopeOf, entitySource, ht]
    rfl
  let ref : TableRef := { table := Schema.tableOf root, label := SourceId.tableLabel ⟨0⟩, source := ⟨0⟩ }
  have href : Plan.tableRef s [(⟨0⟩, id)] ⟨0⟩ = .ok ref := by
    simp only [Plan.tableRef, bind_eq_ok_iff, pure_eq_ok, liftM_eq_ok_iff]
    exact ⟨id, rfl, Schema.tableOf root, Schema.tableName_of_root hroot, rfl⟩
  have hskeleton : Plan.skeleton s [(⟨0⟩, id)] (Query.entities id).shape = .ok (Select.ofTable ref) := by
    simp only [Plan.skeleton, bind_eq_ok_iff]
    exact ⟨ref, href, [], rfl, none, rfl, [], rfl, rfl⟩
  obtain ⟨m, select, hbuild⟩ : ∃ m select, Materializer.build s id (Plan.projectProperty ⟨0⟩) ⟨0⟩
      (Select.ofTable ref) = (.ok m, select) :=
    exists_build rfl List.nodup_nil hts hroot hne htell
  have hproject : Plan.project s [(⟨0⟩, id)] (Select.ofTable ref) (.entity ⟨0⟩) =
      .ok (.entity m, select) := by
    have htype : Plan.typeOf [((⟨0⟩ : SourceId), id)] ⟨0⟩ = .ok id := rfl
    rw [Plan.project, htype, ok_bind, hbuild]
    rfl
  refine ⟨⟨select, .entity m⟩, ?_⟩
  simp only [Plan.ofQuery, bind_eq_ok_iff]
  exact ⟨_, hscope, _, hskeleton, _, hproject, select, rfl, rfl⟩

/-! ### Entities of rows -/

def storedValues (c : Combination) (source : SourceId) (properties : List Property) : List (String × Value) :=
  properties.map (fun p => (p.name, read c source p.columnName))

def IsTyped (c : Combination) (source : SourceId) (properties : List Property) : Prop :=
  ∀ p ∈ properties, (read c source p.columnName).convert? p.type = some (read c source p.columnName)

def namedValue (value : Property → Value) (p : Property) : Except StoreError (String × Value) := do
  let v ← (value p).coerce p.type
  return (p.name, v)

theorem namedValue_eq_ok {value : Property → Value} {p : Property} {x : String × Value} :
    namedValue value p = .ok x ↔ x.1 = p.name ∧ (value p).coerce p.type = .ok x.2 := by
  simp only [namedValue, bind_eq_ok_iff, liftM_eq_ok_iff, pure_eq_ok]
  constructor
  · rintro ⟨v, hv, rfl⟩
    exact ⟨rfl, hv⟩
  · rintro ⟨hname, hv⟩
    exact ⟨x.2, hv, by rw [← hname]⟩

theorem namedValue_eq_error {value : Property → Value} {p : Property} {e : StoreError}
    (h : namedValue value p = .error e) :
    ∃ cause, e = .schema cause ∧ (value p).coerce p.type = .error cause := by
  rw [namedValue] at h
  cases hv : (value p).coerce p.type with
  | ok v =>
    rw [hv] at h
    cases h
  | error cause =>
    rw [hv] at h
    cases h
    exact ⟨cause, rfl, rfl⟩

/-- The entity of a type whose properties have some values, if these fit the declared types. -/
def entityOf (t : EntityType × List Property) (value : Property → Value) : Except StoreError Entity := do
  let pairs ← t.2.mapM (namedValue value)
  return { entityType := t.1.id, typeName := t.1.name, values := .ofList pairs }

theorem entityOf_eq_ok {t : EntityType × List Property} {value : Property → Value} {e : Entity}
    (h : entityOf t value = .ok e) : e.entityType = t.1.id ∧ e.typeName = t.1.name := by
  obtain ⟨pairs, -, h⟩ := bind_eq_ok_iff.1 h
  cases h
  exact ⟨rfl, rfl⟩

theorem entityOf_of_typed {c : Combination} {source : SourceId} {t : EntityType × List Property}
    (h : IsTyped c source t.2) :
    entityOf t (fun p => read c source p.columnName) =
      .ok ⟨t.1.id, t.1.name, .ofList (storedValues c source t.2)⟩ := by
  have hpairs : t.2.mapM (namedValue (fun p => read c source p.columnName)) =
      .ok (storedValues c source t.2) := by
    rw [mapM_eq_ok_iff, storedValues, List.forall₂_map_right_iff, List.forall₂_same]
    intro p hp
    exact namedValue_eq_ok.2 ⟨rfl, Value.coerce_eq_ok.2 (h p hp)⟩
  rw [entityOf, hpairs]
  rfl

section

variable {columns : List (SourceId × String)} {source : SourceId}

theorem readAs_map {x : SourceId × String} {index : Nat} (h : columns[index]? = some x)
    (f : SourceId × String → Value) (type : ValueType) :
    Row.readAs (columns.map f) index type = (do (f x).coerce type : Except StoreError Value) := by
  have hread : Row.read (columns.map f) index = .ok (f x) := by
    rw [Row.read, List.getElem?_map, h]
    rfl
  rw [Row.readAs, hread, ok_bind]

theorem ReadsEntity.shape_eq {t : EntityType × List Property} {shape : EntityShape}
    (h : ReadsEntity columns source t shape) (f : SourceId × String → Value) :
    shape.shape (columns.map f) = entityOf t (fun p => f (source, p.columnName)) := by
  rw [EntityShape.shape, entityOf, h.entityType, h.typeName]
  congr 1
  refine (mapM_eq_mapM (h.places.imp ?_)).symm
  intro p c hc
  rw [namedValue, readAs_map hc.column f, hc.name, hc.type]

theorem exists_lookup_of_reads {ts : List (EntityType × List Property)}
    {entries : List (DiscriminatorKey × EntityShape)}
    (h : List.Forall₂ (fun t entry => Schema.keyOf? t.1 = some entry.1 ∧
      ReadsEntity columns source t entry.2) ts entries)
    {t : EntityType × List Property} (ht : t ∈ ts) {k : DiscriminatorKey} (hk : Schema.keyOf? t.1 = some k) :
    ∃ u ∈ ts, Schema.keyOf? u.1 = some k ∧ ∃ shape, OrderedMap.lookup k entries = some shape ∧
      ReadsEntity columns source u shape := by
  obtain ⟨entry, hentry, hentrykey, -⟩ := exists_of_mem_left h ht
  rw [hk] at hentrykey
  cases hentrykey
  obtain ⟨shape, hlookup⟩ := OrderedMap.exists_lookup_iff.2 (List.mem_map_of_mem hentry)
  obtain ⟨u, hu, hukey, hureads⟩ := exists_of_mem_right h (OrderedMap.mem_of_lookup hlookup)
  exact ⟨u, hu, hukey, shape, hlookup, hureads⟩

theorem ReadsSource.exists_type {m : Materializer} (hm : ReadsSource s columns source id m)
    {types : List EntityType} (htypes : s.concreteTypes id = .ok types) (f : SourceId × String → Value)
    {e : Entity} (h : m.materialize (columns.map f) = .ok e) :
    ∃ t ∈ types, e.entityType = t.id ∧ e.typeName = t.name := by
  cases hm with
  | @plain t shape hts hreads =>
    obtain rfl := types_eq_of_concreteProperties htypes hts
    rw [Materializer.materialize, hreads.shape_eq f] at h
    exact ⟨t.1, List.mem_cons_self, entityOf_eq_ok h⟩
  | @dispatching ts root p index entries hts _ _ _ hreads =>
    obtain rfl := types_eq_of_concreteProperties htypes hts
    obtain ⟨v, -, h⟩ := bind_eq_ok_iff.1 h
    split at h
    · rename_i shape hshape
      obtain ⟨k, -, hlookup⟩ := Option.bind_eq_some_iff.1 hshape
      obtain ⟨t, ht, -, hreads⟩ := exists_of_mem_right hreads (OrderedMap.mem_of_lookup hlookup)
      rw [hreads.shape_eq f] at h
      exact ⟨t.1, List.mem_map_of_mem ht, entityOf_eq_ok h⟩
    · cases h

theorem ReadsSource.materialize_eq {m : Materializer} (hm : ReadsSource s columns source id m)
    {types : List EntityType} (htypes : s.concreteTypes id = .ok types) {t : EntityType} (ht : t ∈ types)
    {properties : List Property} (hproperties : s.properties t.id = .ok properties)
    (f : SourceId × String → Value)
    (htell : ∀ p, s.discriminator? id = .ok (some p) → ∃ v k,
      (f (source, p.columnName)).coerce p.type = .ok v ∧ v.discriminatorKey? = some k ∧
        ∀ u ∈ types, Schema.keyOf? u = some k ↔ u = t) :
    m.materialize (columns.map f) = entityOf (t, properties) (fun p => f (source, p.columnName)) := by
  cases hm with
  | @plain t' shape hts hreads =>
    obtain rfl := types_eq_of_concreteProperties htypes hts
    obtain rfl := List.mem_singleton.1 ht
    have hsame := (concreteProperties_eq_ok hts).2 t' List.mem_cons_self
    rw [hproperties] at hsame
    cases hsame
    exact hreads.shape_eq f
  | @dispatching ts root p index entries hts _ hp hplace hreads =>
    obtain rfl := types_eq_of_concreteProperties htypes hts
    obtain ⟨v, k, hv, hk, hkeys⟩ := htell p hp
    obtain ⟨t', ht', rfl⟩ := List.mem_map.1 ht
    obtain ⟨u, hu, hukey, shape, hlookup, hureads⟩ :=
      exists_lookup_of_reads hreads ht' ((hkeys t'.1 ht).2 rfl)
    have hut := (hkeys u.1 (List.mem_map_of_mem hu)).1 hukey
    have hsame := (concreteProperties_eq_ok hts).2 u hu
    rw [hut, hproperties] at hsame
    cases hsame
    have hread : Row.readAs (columns.map f) index p.type = .ok v := by
      rw [readAs_map hplace f, hv]
      rfl
    rw [Materializer.materialize, hread, ok_bind, Materializer.shapeFor?, hk, Option.bind_some, hlookup]
    dsimp only
    rw [hureads.shape_eq f, ← hut]

end

end

end EntityStore.Reading
