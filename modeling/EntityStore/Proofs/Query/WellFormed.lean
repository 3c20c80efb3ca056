import EntityStore.Proofs.Query.Records

/-!
# Queries that have a plan

A query is well-formed if its names mean something and there is a type to make entities of wherever
one is needed. Planning succeeds for these queries and for no others: what can go wrong inside of it,
a discriminator that is not found in the row or a type without discriminator value, does not happen
with the schema of an accepted definition.
-/

namespace EntityStore.Reading

open Traversal Schema

def referencesOf : Expr → List (SourceId × String)
  | .property source name => [(source, name)]
  | .constant _ | .parameter _ => []
  | .compare _ l r | .and l r | .or l r => referencesOf l ++ referencesOf r
  | .not e | .isNull e => referencesOf e

section

variable (s : Schema) (q : Query)

/-- A reference names a declared source and a property of its type. -/
def Resolves (r : SourceId × String) : Prop :=
  ∃ x ∈ q.sources, x.id = r.1 ∧ ∃ p, s.property x.entityType r.2 = .ok p

def HasConcrete (id : TypeId) : Prop :=
  ∃ t u, s.entityType id = .ok u ∧ s.Found t ∧ t.isAbstract = false ∧ s.Derives t u

structure WellFormed : Prop where
  declared : Declared s q
  innerKeys : ∀ j ∈ q.shape.joins, ∃ p, s.property j.source.entityType j.innerKey = .ok p
  references : ∀ e ∈ expressions q, ∀ r ∈ referencesOf e, Resolves s q r
  selected : ∀ source ∈ Plan.materializedSources q.shape.selector, source ∈ q.sources.map (·.id)
  values : ∀ exprs, q.shape.selector = .properties exprs →
    ∀ e ∈ exprs, ∃ r, e = .property r.1 r.2 ∧ Resolves s q r
  entities : ∀ x ∈ q.sources, x.id ∈ Plan.materializedSources q.shape.selector →
    HasConcrete s x.entityType
  others : ∀ x ∈ q.sources, x.id ∉ Plan.materializedSources q.shape.selector →
    HasConcrete s x.entityType ∨ s.discriminator? x.entityType = .ok none

end

/-! ### The scope and the skeleton -/

theorem scopeOf_eq {s : Schema} {known : Plan.Scope} {xs : List QuerySource}
    (hknown : ∀ x ∈ xs, ∃ t, s.entityType x.entityType = .ok t)
    (hfresh : ∀ x ∈ xs, x.id ∉ known.map Prod.fst) (hnodup : (xs.map (·.id)).Nodup) :
    Plan.scopeOf s known xs = .ok (known ++ xs.map (fun x => (x.id, x.entityType))) := by
  induction xs generalizing known with
  | nil => rw [Plan.scopeOf, List.map_nil, List.append_nil]
  | cons x xs ih =>
    obtain ⟨⟨t, ht⟩, hknown⟩ := List.forall_mem_cons.1 hknown
    obtain ⟨hx, hfresh⟩ := List.forall_mem_cons.1 hfresh
    rw [List.map_cons, List.nodup_cons] at hnodup
    have hlookup : OrderedMap.lookup x.id known = none := OrderedMap.lookup_eq_none_iff.2 hx
    have hrest : ∀ y ∈ xs, y.id ∉ (known ++ [(x.id, x.entityType)]).map Prod.fst := by
      intro y hy hmem
      rw [List.map_append, List.mem_append] at hmem
      rcases hmem with hmem | hmem
      · exact hfresh y hy hmem
      · have hsame : y.id = x.id := List.mem_singleton.1 hmem
        exact hnodup.1 (hsame ▸ List.mem_map_of_mem hy)
    have htail := ih hknown hrest hnodup.2
    rw [List.append_assoc] at htail
    rw [Plan.scopeOf, ht, hlookup, List.map_cons]
    exact htail

theorem Declared.scopeOf_eq {s : Schema} {q : Query} (hq : Declared s q) :
    Plan.scopeOf s [] q.sources = .ok (scope q) :=
  Reading.scopeOf_eq hq.known (fun _ _ => List.not_mem_nil) hq.nodup

section

variable {s : Schema} {q : Query} (hq : Declared s q)

include hq

theorem resolves_iff {r : SourceId × String} :
    Resolves s q r ↔ ∃ id, Plan.typeOf (scope q) r.1 = .ok id ∧ ∃ p, s.property id r.2 = .ok p := by
  constructor
  · rintro ⟨x, hx, hid, hp⟩
    exact ⟨x.entityType, typeOf_scope.2 (hid ▸ hq.sourceType?_eq hx), hp⟩
  · rintro ⟨id, hid, hp⟩
    exact ⟨⟨r.1, id⟩, mem_sources_of_sourceType? (typeOf_scope.1 hid), rfl, hp⟩

theorem exists_expr_iff {e : Expr} :
    (∃ e', Plan.expr s (scope q) e = .ok e') ↔ ∀ r ∈ referencesOf e, Resolves s q r := by
  induction e with
  | property source name =>
    rw [referencesOf, List.forall_mem_singleton, resolves_iff hq]
    simp only [Plan.expr, bind_eq_ok_iff, pure_eq_ok, liftM_eq_ok_iff]
    constructor
    · rintro ⟨_, id, hid, p, hp, -⟩
      exact ⟨id, hid, p, hp⟩
    · rintro ⟨id, hid, p, hp⟩
      exact ⟨_, id, hid, p, hp, rfl⟩
  | constant v => exact iff_of_true ⟨_, rfl⟩ (List.forall_mem_nil _)
  | parameter name => exact iff_of_true ⟨_, rfl⟩ (List.forall_mem_nil _)
  | compare op l r ihl ihr =>
    rw [referencesOf, List.forall_mem_append, ← ihl, ← ihr]
    exact exists_bind_bind_iff
  | and l r ihl ihr =>
    rw [referencesOf, List.forall_mem_append, ← ihl, ← ihr]
    exact exists_bind_bind_iff
  | or l r ihl ihr =>
    rw [referencesOf, List.forall_mem_append, ← ihl, ← ihr]
    exact exists_bind_bind_iff
  | not e ih =>
    rw [referencesOf, ← ih]
    exact exists_bind_pure_iff
  | isNull e ih =>
    rw [referencesOf, ← ih]
    exact exists_bind_pure_iff

theorem exists_tableRef (hs : s.Ordered) {x : QuerySource} (hx : x ∈ q.sources) :
    ∃ ref, Plan.tableRef s (scope q) x.id = .ok ref := by
  obtain ⟨t, ht⟩ := hq.known x hx
  obtain ⟨root, -, hroot, -⟩ := hs.exists_properties ht
  simp only [Plan.tableRef, bind_eq_ok_iff, pure_eq_ok, liftM_eq_ok_iff]
  exact ⟨_, x.entityType, typeOf_scope.2 (hq.sourceType?_eq hx), _, tableName_of_root hroot, rfl⟩

theorem exists_join_iff (hs : s.Ordered) {j : Join} (hj : j ∈ q.shape.joins) :
    (∃ tj, Plan.join s (scope q) j = .ok tj) ↔
      (∃ p, s.property j.source.entityType j.innerKey = .ok p) ∧
        ∀ r ∈ referencesOf j.outerKey, Resolves s q r := by
  have hsource : j.source ∈ q.sources := List.mem_cons_of_mem _ (List.mem_map_of_mem hj)
  have htype := typeOf_scope.2 (hq.sourceType?_eq hsource)
  obtain ⟨ref, href⟩ := exists_tableRef hq hs hsource
  rw [← exists_expr_iff hq]
  simp only [Plan.join, bind_eq_ok_iff, pure_eq_ok, liftM_eq_ok_iff]
  constructor
  · rintro ⟨_, id, hid, p, hp, _, _, outer, houter, -⟩
    rw [htype] at hid
    cases hid
    exact ⟨⟨p, hp⟩, outer, houter⟩
  · rintro ⟨⟨p, hp⟩, outer, houter⟩
    exact ⟨_, _, htype, p, hp, ref, href, outer, houter, rfl⟩

theorem exists_skeleton_iff (hs : s.Ordered) :
    (∃ base, Plan.skeleton s (scope q) q.shape = .ok base) ↔
      (∀ j ∈ q.shape.joins, ∃ p, s.property j.source.entityType j.innerKey = .ok p) ∧
        ∀ e ∈ expressions q, ∀ r ∈ referencesOf e, Resolves s q r := by
  have hsource : q.shape.source ∈ q.sources := List.mem_cons_self
  obtain ⟨ref, href⟩ := exists_tableRef hq hs hsource
  have hjoins : (∃ joins, q.shape.joins.mapM (Plan.join s (scope q)) = .ok joins) ↔
      (∀ j ∈ q.shape.joins, ∃ p, s.property j.source.entityType j.innerKey = .ok p) ∧
        ∀ e ∈ q.shape.joins.map (·.outerKey), ∀ r ∈ referencesOf e, Resolves s q r := by
    rw [exists_mapM_iff, List.forall_mem_map, ← forall₂_and]
    exact forall₂_congr (fun _ hj => exists_join_iff hq hs hj)
  have hfilter : (∃ predicate, q.shape.filter.mapM (Plan.expr s (scope q)) = .ok predicate) ↔
      ∀ e ∈ q.shape.filter.toList, ∀ r ∈ referencesOf e, Resolves s q r := by
    cases q.shape.filter with
    | none => exact iff_of_true ⟨none, rfl⟩ (List.forall_mem_nil _)
    | some e =>
      rw [Option.toList_some, List.forall_mem_singleton, ← exists_expr_iff hq]
      simp only [Option.mapM_some, map_eq_ok_iff]
      constructor
      · rintro ⟨_, e', he', -⟩
        exact ⟨e', he'⟩
      · rintro ⟨e', he'⟩
        exact ⟨_, e', he', rfl⟩
  have horder : (∃ orderBy, q.shape.orderBy.mapM (Plan.orderTerm s (scope q)) = .ok orderBy) ↔
      ∀ e ∈ q.shape.orderBy.map (·.expr), ∀ r ∈ referencesOf e, Resolves s q r := by
    rw [exists_mapM_iff, List.forall_mem_map]
    refine forall₂_congr (fun o _ => ?_)
    rw [← exists_expr_iff hq]
    exact exists_bind_pure_iff
  rw [expressions, List.forall_mem_append, List.forall_mem_append, ← hfilter, ← horder, ← and_assoc,
    ← and_assoc, ← hjoins]
  simp only [Plan.skeleton, bind_eq_ok_iff, pure_eq_ok]
  constructor
  · rintro ⟨_, _, _, joins, hj, predicate, hp, orderBy, ho, -⟩
    exact ⟨⟨⟨joins, hj⟩, predicate, hp⟩, orderBy, ho⟩
  · rintro ⟨⟨⟨joins, hj⟩, predicate, hp⟩, orderBy, ho⟩
    exact ⟨_, ref, href, joins, hj, predicate, hp, orderBy, ho, rfl⟩

theorem exists_valueColumns_iff {exprs : List Expr} (select : Select) :
    (∃ r, Plan.valueColumns s (scope q) select exprs = .ok r) ↔
      ∀ e ∈ exprs, ∃ r, e = .property r.1 r.2 ∧ Resolves s q r := by
  induction exprs generalizing select with
  | nil => exact iff_of_true ⟨_, rfl⟩ (List.forall_mem_nil _)
  | cons e exprs ih =>
    rw [List.forall_mem_cons]
    cases e with
    | property source name =>
      have hhead : (∃ r : SourceId × String, Expr.property source name = .property r.1 r.2 ∧
          Resolves s q r) ↔ Resolves s q (source, name) := by
        constructor
        · rintro ⟨⟨_, _⟩, heq, hr⟩
          cases heq
          exact hr
        · intro hr
          exact ⟨_, rfl, hr⟩
      rw [hhead, resolves_iff hq]
      simp only [Plan.valueColumns, bind_eq_ok_iff, pure_eq_ok, liftM_eq_ok_iff]
      constructor
      · rintro ⟨_, id, hid, p, hp, rest, hrest, -⟩
        exact ⟨⟨id, hid, p, hp⟩, (ih _).1 ⟨rest, hrest⟩⟩
      · rintro ⟨⟨id, hid, p, hp⟩, hrest⟩
        obtain ⟨rest, hrest⟩ := (ih (Plan.projectProperty source select p).2).2 hrest
        exact ⟨_, id, hid, p, hp, rest, hrest, rfl⟩
    | _ =>
      refine iff_of_false ?_ ?_
      · rintro ⟨_, h⟩
        cases h
      · rintro ⟨⟨_, heq, -⟩, -⟩
        cases heq

end

/-! ### Types that entities can be made of -/

section

variable {s : Schema} {root u : EntityType} {types below : List EntityType}

theorem assemble_nil_ne_ok {id : TypeId} {select : Select} {source : SourceId}
    {r : Materializer × Option SqlExpr} : Materializer.assemble s id root select source [] ≠ .ok r := by
  intro h
  simp only [Materializer.assemble, bind_eq_ok_iff] at h
  obtain ⟨_, -, h⟩ := h
  cases h

theorem concreteTypes_ne_nil_of_build {id : TypeId} {add : Materializer.ColumnAdder} {source : SourceId}
    {select select' : Select} {m : Materializer}
    (h : Materializer.build s id add source select = (.ok m, select')) :
    ∃ types, s.concreteTypes id = .ok types ∧ types ≠ [] := by
  unfold Materializer.build at h
  split at h
  · cases h
  · rename_i ts root heq
    simp only [bind_eq_ok_iff, pure_eq_ok] at heq
    obtain ⟨ts, hts, root, -, hpair⟩ := heq
    cases hpair
    refine ⟨_, (concreteProperties_eq_ok hts).1, ?_⟩
    intro hnil
    obtain rfl := List.map_eq_nil_iff.1 hnil
    dsimp only [Materializer.addShapes] at h
    split at h
    · cases h
    · rename_i hassemble
      exact assemble_nil_ne_ok hassemble
    · rename_i hassemble
      exact assemble_nil_ne_ok hassemble

theorem restrict_eq_ok_iff (hu : s.Within root types u)
    (hbelow : s.subtree? s.types.length u = some below) (column : Property → SqlExpr)
    (source : SourceId) (select : Select) :
    (Materializer.restrict s u.id column source select).1 = .ok () ↔
      concrete below ≠ [] ∨ s.discriminator? u.id = .ok none := by
  obtain ⟨d, hd⟩ := hu.valid.exists_discriminator hu.found
  have hrestricting : Materializer.restrictingProperty s u.id =
      if (concrete below).map (·.id) = [root.id] then .ok none else .ok (d.map (·, concrete below)) := by
    rw [Materializer.restrictingProperty, hu.found.concreteTypes_eq hbelow, ok_bind, hu.root_eq, ok_bind, hd]
    rfl
  rw [Materializer.restrict, hrestricting, hd]
  split_ifs with hone
  · refine iff_of_true rfl (Or.inl ?_)
    intro hnil
    rw [hnil] at hone
    cases hone
  · cases d with
    | none => exact iff_of_true rfl (Or.inr rfl)
    | some p =>
      have hvalued : ∀ t ∈ concrete below, Valued p t :=
        fun t ht => hu.valued hd ((concrete_sublist (hu.sublist hbelow)).subset ht)
      obtain ⟨tests, htests⟩ := exists_mapM (f := Materializer.typeTest (column p))
        (fun t ht => exists_typeTest (hvalued t ht) (column p))
      have hlength := (mapM_eq_ok_iff.1 htests).length_eq
      dsimp only [Option.map_some]
      rw [Materializer.restriction, htests, ok_bind]
      cases tests with
      | nil =>
        have hnil : concrete below = [] := List.eq_nil_of_length_eq_zero hlength
        refine iff_of_false ?_ ?_
        · intro h
          cases h
        · rintro (hne | hnone)
          · exact hne hnil
          · cases hnone
      | cons test tests =>
        refine iff_of_true ?_ (Or.inl ?_)
        · rfl
        · intro hnil
          rw [hnil] at hlength
          cases hlength

end

/-! ### Selectors and restrictions -/

section

variable {d : SchemaDef} {s : Schema} {q : Query}

theorem exists_within_of_entityType (hd : ofDef d = .ok s) {id : TypeId} {u : EntityType}
    (hu : s.entityType id = .ok u) : u.id = id ∧ ∃ root types, s.Within root types u :=
  have hs := (valid_of_ofDef hd).toOrdered
  ⟨hs.id_eq_of_entityType hu, exists_within hd (hs.found hu)⟩

theorem HasConcrete.exists_types (hd : ofDef d = .ok s) {id : TypeId} (h : HasConcrete s id) :
    ∃ types, s.concreteTypes id = .ok types ∧ types ≠ [] := by
  obtain ⟨t, u, hu, ht, hconcrete, hder⟩ := h
  obtain ⟨rfl, root, types, hw⟩ := exists_within_of_entityType hd hu
  obtain ⟨below, hbelow, -, hconcretes⟩ := hw.exists_subtree?
  have hmem := hw.valid.mem_subtree?_of_derives ht hder hbelow
  exact ⟨_, hconcretes, List.ne_nil_of_mem (mem_concrete.2 ⟨hmem, hconcrete⟩)⟩

theorem hasConcrete_of_concreteTypes (hd : ofDef d = .ok s) (hfound : ∀ v ∈ s.types, s.Found v)
    {id : TypeId} {u : EntityType} (hu : s.entityType id = .ok u) {types : List EntityType}
    (htypes : s.concreteTypes id = .ok types) (hne : types ≠ []) : HasConcrete s id := by
  obtain ⟨rfl, root, tree, hw⟩ := exists_within_of_entityType hd hu
  obtain ⟨below, hbelow, -, hconcretes⟩ := hw.exists_subtree?
  rw [htypes] at hconcretes
  cases hconcretes
  obtain ⟨t, ht⟩ := List.exists_mem_of_ne_nil _ hne
  obtain ⟨hmem, hconcrete⟩ := mem_concrete.1 ht
  obtain ⟨htw, hder⟩ := hw.of_mem_subtree? hfound hbelow hmem
  exact ⟨t, u, hu, htw.found, hconcrete, hder⟩

theorem HasConcrete.exists_build (hd : ofDef d = .ok s) {id : TypeId} (h : HasConcrete s id)
    {select : Select} {known : List (SourceId × String)} (hknown : select.columns = known.map entryOf)
    (hnodup : known.Nodup) (source : SourceId) :
    ∃ m select', Materializer.build s id (Plan.projectProperty source) source select = (.ok m, select') := by
  obtain ⟨t, u, hu, ht, hconcrete, hder⟩ := h
  obtain ⟨rfl, root, types, hw⟩ := exists_within_of_entityType hd hu
  obtain ⟨ts, hts, hne, htell⟩ := exists_tellable (hw.of_derived ht hder) hconcrete hder source
  exact Reading.exists_build hknown hnodup hts hw.root_eq hne (htell known)

theorem exists_materializers (hd : ofDef d = .ok s) {base : Select}
    (hbase : ∀ p, base.predicate = some p → Unmarked p) {sources : List SourceId}
    (hsources : ∀ source ∈ sources, ∃ id, sourceType? q source = some id ∧ HasConcrete s id)
    {known : List (SourceId × String)} (hnodup : known.Nodup) {marks : List (SourceId × SqlExpr)}
    {handled : List SourceId} (hmarked : Marked s q marks handled) :
    ∃ r, Plan.materializers s (scope q) (staged base (known.map entryOf) marks) sources = .ok r := by
  induction sources generalizing known marks handled with
  | nil => exact ⟨_, rfl⟩
  | cons source sources ih =>
    obtain ⟨⟨id, hid, hconcrete⟩, hsources⟩ := List.forall_mem_cons.1 hsources
    have hcolumns : (staged base (known.map entryOf) marks).columns = known.map entryOf := rfl
    obtain ⟨m, select, hbuild⟩ := hconcrete.exists_build hd hcolumns hnodup source
    obtain ⟨marks', rfl, hmarked', -⟩ := build_eq_ok hbase hmarked hid hbuild
    obtain ⟨⟨ms, select⟩, hrest⟩ := ih hsources (nodup_foldl_mention hnodup _) hmarked'
    rw [Plan.materializers, typeOf_scope.2 hid, ok_bind, hbuild]
    dsimp only
    rw [hrest]
    exact ⟨_, rfl⟩

theorem exists_build_of_materializers {known : Plan.Scope} {select : Select} {sources : List SourceId}
    {r : List Materializer × Select} (h : Plan.materializers s known select sources = .ok r) :
    ∀ source ∈ sources, ∃ id, Plan.typeOf known source = .ok id ∧
      ∃ types, s.concreteTypes id = .ok types ∧ types ≠ [] := by
  induction sources generalizing select r with
  | nil => exact List.forall_mem_nil _
  | cons source sources ih =>
    rw [Plan.materializers, bind_eq_ok_iff] at h
    obtain ⟨id, hid, h⟩ := h
    split at h
    · cases h
    · rename_i hbuild
      simp only [bind_eq_ok_iff] at h
      obtain ⟨rest, hrest, -⟩ := h
      exact List.forall_mem_cons.2 ⟨⟨id, hid, concreteTypes_ne_nil_of_build hbuild⟩, ih hrest⟩

theorem exists_project (hd : ofDef d = .ok s) (hq : Declared s q) {base : Select}
    (hbase : ∀ p, base.predicate = some p → Unmarked p) (hcolumns : base.columns = [])
    {selector : Selector}
    (hsources : ∀ source ∈ Plan.materializedSources selector,
      ∃ id, sourceType? q source = some id ∧ HasConcrete s id)
    (hvalues : ∀ exprs, selector = .properties exprs →
      ∀ e ∈ exprs, ∃ r, e = .property r.1 r.2 ∧ Resolves s q r) :
    ∃ r, Plan.project s (scope q) base selector = .ok r := by
  cases selector with
  | entity source =>
    obtain ⟨id, hid, hconcrete⟩ := hsources source List.mem_cons_self
    have hknown : base.columns = ([] : List (SourceId × String)).map entryOf := hcolumns
    obtain ⟨m, select, hbuild⟩ := hconcrete.exists_build hd hknown List.nodup_nil source
    rw [Plan.project, typeOf_scope.2 hid, ok_bind, hbuild]
    exact ⟨_, rfl⟩
  | entities sources =>
    have hstart : base = staged base (([] : List (SourceId × String)).map entryOf) [] := by
      rw [staged, restricted, List.map_nil, ← hcolumns]
    have hnone : Marked s q [] [] := ⟨by simp, by simp, by simp⟩
    obtain ⟨r, hr⟩ : ∃ r, Plan.materializers s (scope q) (staged base _ []) sources = .ok r :=
      exists_materializers hd hbase hsources List.nodup_nil hnone
    rw [← hstart] at hr
    rw [Plan.project, hr]
    exact ⟨_, rfl⟩
  | properties exprs =>
    obtain ⟨r, hr⟩ := (exists_valueColumns_iff hq base).2 (hvalues exprs rfl)
    rw [Plan.project, hr]
    exact ⟨_, rfl⟩

theorem values_of_project (hq : Declared s q) {base : Select} {exprs : List Expr}
    {r : ResultShape × Select} (h : Plan.project s (scope q) base (.properties exprs) = .ok r) :
    ∀ e ∈ exprs, ∃ r, e = .property r.1 r.2 ∧ Resolves s q r := by
  rw [Plan.project, bind_eq_ok_iff] at h
  obtain ⟨columns, hcolumns, -⟩ := h
  exact (exists_valueColumns_iff hq base).1 ⟨columns, hcolumns⟩

theorem concreteTypes_of_project {base : Select} {selector : Selector} {r : ResultShape × Select}
    (h : Plan.project s (scope q) base selector = .ok r) :
    ∀ source ∈ Plan.materializedSources selector, ∃ id, Plan.typeOf (scope q) source = .ok id ∧
      ∃ types, s.concreteTypes id = .ok types ∧ types ≠ [] := by
  cases selector with
  | entity source =>
    rw [Plan.materializedSources, List.forall_mem_singleton]
    rw [Plan.project, bind_eq_ok_iff] at h
    obtain ⟨id, hid, h⟩ := h
    split at h
    · cases h
    · rename_i hbuild
      exact ⟨id, hid, concreteTypes_ne_nil_of_build hbuild⟩
  | entities sources =>
    rw [Plan.project, bind_eq_ok_iff] at h
    obtain ⟨ms, hms, -⟩ := h
    exact exists_build_of_materializers hms
  | properties exprs => exact List.forall_mem_nil _

theorem exists_restrictSources_iff {materialized : List SourceId} {P : QuerySource → Prop}
    {xs : List QuerySource}
    (hP : ∀ x ∈ xs, ∀ select, (Materializer.restrict s x.entityType (Plan.columnExpr x.id) x.id select).1 =
      .ok () ↔ P x) (select : Select) :
    (∃ select', Plan.restrictSources s materialized select xs = .ok select') ↔
      ∀ x ∈ xs, x.id ∉ materialized → P x := by
  induction xs generalizing select with
  | nil => exact iff_of_true ⟨_, rfl⟩ (List.forall_mem_nil _)
  | cons x xs ih =>
    obtain ⟨hx, hxs⟩ := List.forall_mem_cons.1 hP
    rw [List.forall_mem_cons, Plan.restrictSources]
    split_ifs with hdone
    · rw [ih hxs select]
      have hmem : x.id ∈ materialized := List.contains_iff_mem.1 hdone
      exact (and_iff_right (fun hnot => absurd hmem hnot)).symm
    · have hnot : x.id ∉ materialized := fun hmem => hdone (List.contains_iff_mem.2 hmem)
      rw [← hx select]
      split
      · rename_i e select' hrestrict
        refine iff_of_false ?_ ?_
        · rintro ⟨_, h⟩
          cases h
        · rintro ⟨hok, -⟩
          have hok := hok hnot
          rw [hrestrict] at hok
          cases hok
      · rename_i select' hrestrict
        rw [ih hxs select', hrestrict]
        exact (and_iff_right (fun _ => rfl)).symm

end

/-! ### Acceptance -/

section

variable {d : SchemaDef} {s : Schema} {q : Query}

theorem WellFormed.exists_source (h : WellFormed s q) :
    ∀ source ∈ Plan.materializedSources q.shape.selector,
      ∃ id, sourceType? q source = some id ∧ HasConcrete s id := by
  intro source hsource
  obtain ⟨x, hx, rfl⟩ := List.mem_map.1 (h.selected source hsource)
  exact ⟨x.entityType, h.declared.sourceType?_eq hx, h.entities x hx hsource⟩

theorem restrict_source_iff (hd : ofDef d = .ok s) (hq : Declared s q) {x : QuerySource}
    (hx : x ∈ q.sources) (select : Select) :
    (Materializer.restrict s x.entityType (Plan.columnExpr x.id) x.id select).1 = .ok () ↔
      (∃ types, s.concreteTypes x.entityType = .ok types ∧ types ≠ []) ∨
        s.discriminator? x.entityType = .ok none := by
  obtain ⟨u, hu⟩ := hq.known x hx
  obtain ⟨hid, root, types, hw⟩ := exists_within_of_entityType hd hu
  obtain ⟨below, hbelow, -, hconcretes⟩ := hw.exists_subtree?
  rw [← hid, restrict_eq_ok_iff hw hbelow, hconcretes]
  simp only [Except.ok.injEq, exists_eq_left']

theorem WellFormed.exists_plan (hd : ofDef d = .ok s) (h : WellFormed s q) :
    ∃ plan, Plan.ofQuery s q = .ok plan := by
  have hs := valid_of_ofDef hd
  have hq := h.declared
  obtain ⟨base, hskeleton⟩ := (exists_skeleton_iff hq hs.toOrdered).2 ⟨h.innerKeys, h.references⟩
  have hbase := skeleton_eq_ok hq hskeleton
  obtain ⟨⟨shape, projected⟩, hproject⟩ :=
    exists_project hd hq hbase.unmarked hbase.columns h.exists_source h.values
  have hothers : ∀ x ∈ q.sources, x.id ∉ Plan.materializedSources q.shape.selector →
      (∃ types, s.concreteTypes x.entityType = .ok types ∧ types ≠ []) ∨
        s.discriminator? x.entityType = .ok none :=
    fun x hx hnot => (h.others x hx hnot).imp_left (fun hconcrete => hconcrete.exists_types hd)
  obtain ⟨select, hselect⟩ :=
    (exists_restrictSources_iff (fun x hx => restrict_source_iff hd hq hx) projected).2 hothers
  refine ⟨⟨select, shape⟩, ?_⟩
  simp only [Plan.ofQuery, bind_eq_ok_iff, pure_eq_ok]
  exact ⟨_, hq.scopeOf_eq, base, hskeleton, _, hproject, select, hselect, rfl⟩

theorem wellFormed_of_ofQuery (hd : ofDef d = .ok s) (hfound : ∀ v ∈ s.types, s.Found v) {plan : Plan}
    (h : Plan.ofQuery s q = .ok plan) : WellFormed s q := by
  have hs := valid_of_ofDef hd
  simp only [Plan.ofQuery, bind_eq_ok_iff, pure_eq_ok] at h
  obtain ⟨known, hknown, base, hskeleton, ⟨shape, projected⟩, hproject, select, hselect, -⟩ := h
  obtain ⟨rfl, hq⟩ := declared_of_scopeOf hknown
  obtain ⟨hinner, hreferences⟩ := (exists_skeleton_iff hq hs.toOrdered).1 ⟨base, hskeleton⟩
  have hsources := concreteTypes_of_project hproject
  have hconcrete : ∀ x ∈ q.sources, (∃ types, s.concreteTypes x.entityType = .ok types ∧ types ≠ []) →
      HasConcrete s x.entityType := by
    rintro x hx ⟨types, htypes, hne⟩
    obtain ⟨u, hu⟩ := hq.known x hx
    exact hasConcrete_of_concreteTypes hd hfound hu htypes hne
  refine ⟨hq, hinner, hreferences, ?_, ?_, ?_, ?_⟩
  · intro source hsource
    obtain ⟨id, hid, -⟩ := hsources source hsource
    exact List.mem_map_of_mem (mem_sources_of_sourceType? (typeOf_scope.1 hid))
  · intro exprs hexprs
    rw [hexprs] at hproject
    exact values_of_project hq hproject
  · intro x hx hmem
    obtain ⟨id, hid, htypes⟩ := hsources x.id hmem
    rw [typeOf_scope, hq.sourceType?_eq hx] at hid
    cases hid
    exact hconcrete x hx htypes
  · intro x hx hnot
    have hothers :=
      (exists_restrictSources_iff (fun y hy => restrict_source_iff hd hq hy) projected).1 ⟨select, hselect⟩
    exact (hothers x hx hnot).imp_left (hconcrete x hx)

/-- Over the schema of an accepted definition, all well-formed queries have plans. No others have,
as long as there are not more types than numbers, so that the number of a type in a tree finds this
type. -/
theorem exists_plan_iff (hd : ofDef d = .ok s) (q : Query) :
    (WellFormed s q → ∃ plan, Plan.ofQuery s q = .ok plan) ∧
      (s.types.length ≤ UInt32.size → ((∃ plan, Plan.ofQuery s q = .ok plan) ↔ WellFormed s q)) := by
  refine ⟨fun h => h.exists_plan hd, ?_⟩
  intro hsize
  have hfound : ∀ t ∈ s.types, s.Found t :=
    fun t ht => (valid_of_ofDef hd).found_of_length_le hsize ht
  constructor
  · rintro ⟨plan, hplan⟩
    exact wellFormed_of_ofQuery hd hfound hplan
  · exact fun h => h.exists_plan hd

theorem exists_plan_iff_kiwis :
    ofDef animalDef = .ok animals ∧ animals.types.length ≤ UInt32.size ∧ WellFormed animals kiwis ∧
      ¬ WellFormed animals (kiwis.orderBy (.property ⟨0⟩ "FoundOn") .ascending) := by
  have hsize : animals.types.length ≤ UInt32.size := by decide
  refine ⟨ofDef_animalDef, hsize, ?_, ?_⟩
  · exact ((exists_plan_iff ofDef_animalDef kiwis).2 hsize).1 ⟨_, rfl⟩
  · intro h
    obtain ⟨plan, hplan⟩ := (exists_plan_iff ofDef_animalDef _).1 h
    cases hplan

end

end EntityStore.Reading
