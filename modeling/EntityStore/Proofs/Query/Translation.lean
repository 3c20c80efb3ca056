import EntityStore.Memory.Database
import EntityStore.Proofs.Query.Candidates
import EntityStore.Proofs.Query.Planning
import EntityStore.Proofs.Sorting

/-!
# Meaning of plans

The statement of a plan gives the rows that the query asks for, and the shape of the plan finds in
them what the selector names.
-/

namespace EntityStore.Reading

open Traversal

structure Skeleton (s : Schema) (q : Query) (base : Select) : Prop where
  label : base.source.label = q.shape.source.id.tableLabel
  records : ∀ tables : TableContents, tables base.source.table = records s tables q.shape.source
  joins : List.Forall₂ (fun j tj => Plan.join s (scope q) j = .ok tj) q.shape.joins base.joins
  predicate : Option.Rel (fun e e' => Plan.expr s (scope q) e = .ok e') q.shape.filter base.predicate
  orderBy : List.Forall₂ (fun o o' => Plan.expr s (scope q) o.expr = .ok o'.expr ∧
    o'.direction = o.direction) q.shape.orderBy base.orderBy
  columns : base.columns = []
  offset : base.offset = q.shape.skip
  limit : base.limit = q.shape.take

theorem skeleton_eq_ok {s : Schema} {q : Query} (hq : Declared s q) {base : Select}
    (h : Plan.skeleton s (scope q) q.shape = .ok base) : Skeleton s q base := by
  simp only [Plan.skeleton, bind_eq_ok_iff, pure_eq_ok] at h
  obtain ⟨source, hsource, joins, hjoins, predicate, hpredicate, orderBy, horderBy, rfl⟩ := h
  obtain ⟨hlabel, _, hrecords⟩ := tableRef_eq_ok hq (List.mem_cons_self : q.shape.source ∈ q.sources) hsource
  refine ⟨hlabel, hrecords, mapM_eq_ok_iff.mp hjoins, ?_, ?_, rfl, rfl, rfl⟩
  · cases hfilter : q.shape.filter with
    | none =>
      rw [hfilter] at hpredicate
      cases hpredicate
      exact .none
    | some e =>
      rw [hfilter] at hpredicate
      simp only [Option.mapM_some, map_eq_ok_iff] at hpredicate
      obtain ⟨e', he, rfl⟩ := hpredicate
      exact .some he
  · refine (mapM_eq_ok_iff.mp horderBy).imp ?_
    intro o o' ho
    simp only [Plan.orderTerm, bind_eq_ok_iff, pure_eq_ok] at ho
    obtain ⟨e, he, rfl⟩ := ho
    exact ⟨he, rfl⟩

section

variable {s : Schema} {q : Query} {base : Select}

theorem Skeleton.candidates_eq (hbase : Skeleton s q base) (hq : Declared s q)
    (tables : TableContents) :
    base.candidates q.parameters tables =
      guarded (joinFailure? s q tables (combinations s tables [q.shape.source]) q.shape.joins)
        ((joined s q tables q.shape.joins).map bindingOf) := by
  have hsingle : combinations s tables [q.shape.source] =
      (Reading.records s tables q.shape.source).map (fun r => [(q.shape.source.id, r)]) := by
    rw [List.map_eq_flatMap]
    rfl
  have hstart : (tables base.source.table).map (fun r => [(base.source.label, r)]) =
      (combinations s tables [q.shape.source]).map bindingOf := by
    rw [hbase.records tables, hbase.label, hsingle]
    simp [bindingOf]
  have hnone : combinations s tables [q.shape.source] = joined s q tables [] := by simp [joined]
  have hdecided : Decided s q tables [] := fun _ _ _ => rfl
  rw [Select.candidates, hstart, foldlM_joinTable hq tables
    (fun j hj => List.mem_cons_of_mem _ (List.mem_map_of_mem hj)) hbase.joins]
  apply guarded_congr
  intro h
  rw [hnone] at h ⊢
  rw [foldl_matching hdecided h, List.nil_append]

theorem Marked.all_eq {marks : List (SourceId × SqlExpr)} {handled : List SourceId}
    (hq : Declared s q) (hmarked : Marked s q marks handled)
    (hall : ∀ x ∈ q.sources, x.id ∈ handled) (c : Combination) :
    marks.all (fun m => (sourceType? q m.1).all (fun id => isOfType s c ⟨m.1, id⟩)) =
      q.sources.all (isOfType s c) := by
  rw [Bool.eq_iff_iff, List.all_eq_true, List.all_eq_true]
  constructor
  · intro hmarks x hx
    have htype := hq.sourceType?_eq hx
    cases hr : restriction? s x.entityType x.id with
    | none =>
      exact isOfType_of_restriction?_eq_none (hmarked.settled x.id (hall x hx) _ htype) hr c
    | some e =>
      have hmem := hmarked.complete x.id (hall x hx) e (by rw [restrictionOf?, htype, Option.bind_some, hr])
      simpa [htype] using hmarks _ hmem
  · intro hsources m hm
    cases htype : sourceType? q m.1 with
    | none => rfl
    | some id => exact hsources _ (mem_sources_of_sourceType? htype)

/-- The predicate of a plan holds where the filter does and all records belong to the types, and
fails as the filter. -/
theorem Skeleton.outcome (hbase : Skeleton s q base) (hq : Declared s q)
    {marks : List (SourceId × SqlExpr)} {handled : List SourceId} (hmarked : Marked s q marks handled)
    (hall : ∀ x ∈ q.sources, x.id ∈ handled) {c : Combination}
    (hc : c.map Prod.fst = q.sources.map (·.id)) :
    Outcome q.parameters (bindingOf c) (q.shape.filter.bind (failure? s q c))
      (q.shape.filter.all (fun e => (value s q c e).truth == some true) && q.sources.all (isOfType s c))
      (restricted base.predicate marks) := by
  rw [← hmarked.all_eq hq hall c]
  apply outcome_restricted
  · have hpredicate := hbase.predicate
    cases hfilter : q.shape.filter with
    | none =>
      rw [hfilter] at hpredicate
      generalize base.predicate = predicate at hpredicate ⊢
      cases hpredicate
      exact ⟨rfl, rfl⟩
    | some e =>
      rw [hfilter] at hpredicate
      generalize base.predicate = predicate at hpredicate ⊢
      obtain ⟨he⟩ := hpredicate
      rw [Outcome, SqlExpr.holds, eval_expr he c, Option.bind_some]
      cases failure? s q c e <;> rfl
  · intro m hm
    have hr := hmarked.sound m hm
    obtain ⟨id, htype, hr⟩ := Option.bind_eq_some_iff.mp hr
    have hx := mem_sources_of_sourceType? htype
    rw [htype]
    exact holds_restriction? (x := ⟨m.1, id⟩) hr q.parameters (hc ▸ List.mem_map_of_mem hx)

theorem Skeleton.sortBindingsBy_eq (hbase : Skeleton s q base) (sorter : Sorter) (l : List Combination) :
    Select.sortBindingsBy sorter base.orderBy q.parameters (l.map bindingOf) =
      guarded (orderFailure? s q l) ((sorter.sort (before s q) l).map (·.map bindingOf)) := by
  have hkeys : ∀ c, base.orderBy.mapM (fun o => o.expr.eval q.parameters (bindingOf c)) =
      guarded (q.shape.orderBy.findSome? (fun o => failure? s q c o.expr)) (sortKeys s q c) :=
    fun c => mapM_guarded (hbase.orderBy.imp (fun _ _ ho => eval_expr ho.1 c))
  have hdirections : base.orderBy.map (·.direction) = q.shape.orderBy.map (·.direction) := by
    rw [← List.forall₂_eq_eq_eq, List.forall₂_map_left_iff, List.forall₂_map_right_iff]
    exact (hbase.orderBy.imp (fun _ _ h => h.2)).flip
  rw [Select.sortBindingsBy]
  split
  · rename_i hempty
    rw [List.isEmpty_iff] at hempty
    have hnot : ∀ c d, before s q c d = false := by
      intro c d
      rw [before, ← hdirections, hempty]
      rfl
    have hweak : Sorting.WeakOrderOn (before s q) l :=
      ⟨fun c _ d _ _ => hnot d c, fun c _ _ _ e _ _ _ => hnot c e⟩
    have hterms : q.shape.orderBy = [] := by
      rw [hempty] at hdirections
      exact List.map_eq_nil_iff.1 hdirections.symm
    rw [sorter.sort_eq hweak, Sorting.sort_of_forall_not_less hnot, orderFailure?, hterms]
    simp only [List.findSome?_nil, findSome?_none, guarded_none, Option.map_some]
  · have hkeyed : ∀ c ∈ l, (do
        let keys ← base.orderBy.mapM (fun o => o.expr.eval q.parameters (bindingOf c))
        return (keys, bindingOf c)) =
          guarded (q.shape.orderBy.findSome? (fun o => failure? s q c o.expr))
            (sortKeys s q c, bindingOf c) := by
      intro c _
      rw [hkeys c]
      cases q.shape.orderBy.findSome? (fun o => failure? s q c o.expr) <;> rfl
    rw [mapM_map_guarded hkeyed]
    apply guarded_bind_ok
    intro _
    dsimp only
    rw [hdirections, sorter.sort_map, Option.map_map]
    simp only [Function.comp_def, List.map_map]
    rfl

theorem page_map {α β : Type} (f : α → β) (offset limit : Option UInt64) (l : List α) :
    Select.page offset limit (l.map f) = (Select.page offset limit l).map f := by
  cases limit with
  | none => exact List.map_drop.symm
  | some n =>
    change ((l.map f).drop _).take _ = ((l.drop _).take _).map f
    rw [List.map_take, List.map_drop]

theorem mem_of_mem_page {α : Type} {offset limit : Option UInt64} {l : List α} {x : α}
    (h : x ∈ Select.page offset limit l) : x ∈ l := by
  cases limit with
  | none => exact List.mem_of_mem_drop h
  | some n => exact List.mem_of_mem_drop (List.mem_of_mem_take h)

theorem mem_foldl_mention {α : Type} [DecidableEq α] {known xs : List α} {x : α} :
    x ∈ xs.foldl mention known ↔ x ∈ known ∨ x ∈ xs := by
  induction xs generalizing known with
  | nil => simp
  | cons y xs ih => rw [List.foldl_cons, ih, mem_mention, List.mem_cons, or_assoc]

theorem source_of_mem_entityColumns {source : SourceId} {y : SourceId × String}
    (h : y ∈ entityColumns s q source) : y.1 ∈ q.sources.map (·.id) := by
  cases htype : sourceType? q source with
  | none =>
    rw [entityColumns, htype] at h
    cases h
  | some id =>
    have hsource : y.1 = source := by
      rw [entityColumns] at h
      split at h
      · obtain ⟨t, _, hy⟩ := List.mem_flatMap.mp h
        split at hy
        · obtain ⟨p, _, rfl⟩ := List.mem_map.mp hy
          rfl
        · cases hy
      · cases h
    exact List.mem_map.mpr ⟨_, mem_sources_of_sourceType? htype, hsource.symm⟩

theorem source_of_mem_mentioned {selector : Selector} {y : SourceId × String}
    (h : y ∈ mentioned s q selector) : y.1 ∈ q.sources.map (·.id) := by
  cases selector with
  | entity source => exact source_of_mem_entityColumns h
  | entities sources =>
    obtain ⟨source, _, hy⟩ := List.mem_flatMap.mp h
    exact source_of_mem_entityColumns hy
  | properties exprs =>
    obtain ⟨e, _, hy⟩ := List.mem_filterMap.mp h
    unfold valueColumn? at hy
    split at hy
    · obtain ⟨p, hp, rfl⟩ := Option.map_eq_some_iff.mp hy
      obtain ⟨id, htype, _⟩ := Option.bind_eq_some_iff.mp hp
      exact List.mem_map.mpr ⟨_, mem_sources_of_sourceType? htype, rfl⟩
    · cases hy

theorem projectRow_eq {select : Select} (h : select.projection = (selected s q).map entryOf)
    {c : Combination} (hc : c.map Prod.fst = q.sources.map (·.id)) :
    select.projectRow q.parameters (bindingOf c) =
      .ok ((selected s q).map (fun x => read c x.1 x.2)) := by
  rw [Select.projectRow, h]
  apply mapM_map_ok
  intro y hy
  have hmentioned := (mem_foldl_mention.mp hy).resolve_left List.not_mem_nil
  exact eval_column (hc ▸ source_of_mem_mentioned hmentioned) y.2

theorem projectRow_shown {select : Select} (hprojection : select.projection = (selected s q).map entryOf)
    (hoffset : select.offset = q.shape.skip) (hlimit : select.limit = q.shape.take) {sorted : List Combination}
    (hsorted : ∀ c ∈ sorted, c.map Prod.fst = q.sources.map (·.id)) :
    (Select.page select.offset select.limit (sorted.map bindingOf)).mapM (select.projectRow q.parameters) =
      .ok (shown s q sorted) := by
  rw [hoffset, hlimit, page_map]
  apply mapM_map_ok
  intro c hc
  exact projectRow_eq hprojection (hsorted c (mem_of_mem_page hc))

/-- A statement that restricts all sources and projects what is selected gives the rows, or fails as
the run of the query does. -/
theorem Skeleton.evaluateBy_staged (hbase : Skeleton s q base) (hq : Declared s q)
    {columns : List ColumnEntry} (hcolumns : columns.filter (·.projected) = (selected s q).map entryOf)
    {marks : List (SourceId × SqlExpr)} {handled : List SourceId} (hmarked : Marked s q marks handled)
    (hall : ∀ x ∈ q.sources, x.id ∈ handled) (sorter : Sorter) (tables : TableContents) :
    (staged base columns marks).evaluateBy sorter q.parameters tables =
      guarded (runFailure? s q tables) (rowsBy sorter s q tables) := by
  have hkeys : ∀ c ∈ combinations s tables q.sources, c.map Prod.fst = q.sources.map (·.id) :=
    fun c hc => keys_of_mem_combinations hc
  have hkept : Select.keep (restricted base.predicate marks) q.parameters
      ((joined s q tables q.shape.joins).map bindingOf) =
        guarded (filterFailure? s q (joined s q tables q.shape.joins)) ((kept s q tables).map bindingOf) := by
    have houtcome : ∀ c ∈ joined s q tables q.shape.joins, _ := fun c hc =>
      hbase.outcome hq hmarked hall (hkeys c (List.mem_of_mem_filter hc))
    rw [keep_map houtcome, filterFailure?]
    apply guarded_congr
    intro _
    rw [joined, kept, List.filter_filter]
    congr 2
    funext c
    rw [satisfies, Bool.and_comm, Bool.and_assoc]
  have hsorted := hbase.sortBindingsBy_eq sorter (kept s q tables)
  rw [Select.evaluateBy]
  change (base.candidates q.parameters tables >>= _) = _
  rw [hbase.candidates_eq hq]
  apply guarded_bind
  intro _
  change (Select.keep (restricted base.predicate marks) _ _ >>= _) = _
  rw [hkept]
  apply guarded_bind
  intro _
  change (Select.sortBindingsBy sorter base.orderBy _ _ >>= _) = _
  rw [hsorted]
  apply guarded_bind_ok
  intro _
  rw [rowsBy]
  cases hcombinations : sorter.sort (before s q) (kept s q tables) with
  | none => rfl
  | some sorted =>
    have hprojection : (staged base columns marks).projection = (selected s q).map entryOf := hcolumns
    have hsources : ∀ c ∈ sorted, c.map Prod.fst = q.sources.map (·.id) := fun c hc =>
      hkeys c (List.mem_of_mem_filter ((sorter.perm_of_sort hcombinations).mem_iff.1 hc))
    rw [Option.map_some, Option.map_some, Option.mapM_some,
      projectRow_shown hprojection hbase.offset hbase.limit hsources]
    rfl

theorem Skeleton.unmarked (hbase : Skeleton s q base) : ∀ p, base.predicate = some p → Unmarked p := by
  intro p hp
  have hpredicate := hbase.predicate
  rw [hp] at hpredicate
  generalize q.shape.filter = filter at hpredicate
  obtain ⟨he⟩ := hpredicate
  exact unmarked_expr he

theorem Skeleton.mem_sources (hbase : Skeleton s q base) {e : Expr} (he : e ∈ expressions q) :
    ∀ source ∈ sourcesOf e, source ∈ q.sources.map (·.id) := by
  have hplanned : ∃ e', Plan.expr s (scope q) e = .ok e' := by
    rcases List.mem_append.1 he with he | he
    · rcases List.mem_append.1 he with he | he
      · obtain ⟨j, hj, rfl⟩ := List.mem_map.1 he
        obtain ⟨tj, -, htj⟩ := exists_of_mem_left hbase.joins hj
        simp only [Plan.join, bind_eq_ok_iff] at htj
        obtain ⟨_, _, _, _, _, _, outer, houter, _⟩ := htj
        exact ⟨outer, houter⟩
      · have hpredicate := hbase.predicate
        rw [Option.mem_toList.1 he] at hpredicate
        generalize base.predicate = predicate at hpredicate
        obtain ⟨h⟩ := hpredicate
        exact ⟨_, h⟩
    · obtain ⟨o, ho, rfl⟩ := List.mem_map.1 he
      obtain ⟨o', -, ho'⟩ := exists_of_mem_left hbase.orderBy ho
      exact ⟨_, ho'.1⟩
  obtain ⟨e', h⟩ := hplanned
  exact mem_sources_of_expr h

/-- What the statement of a plan is made of: its skeleton, the columns of what is selected, and a
restriction for each source that needs one. -/
structure Stages (s : Schema) (q : Query) (plan : Plan) (base : Select) (columns : List ColumnEntry)
    (marks : List (SourceId × SqlExpr)) : Prop where
  declared : Declared s q
  skeleton : Skeleton s q base
  select : plan.select = staged base columns marks
  projected : columns.filter (·.projected) = (selected s q).map entryOf
  marked : Marked s q marks (q.sources.map (·.id))
  shape : ReadsShape s q (selected s q) q.shape.selector plan.shape

theorem exists_stages {plan : Plan} (h : Plan.ofQuery s q = .ok plan) :
    ∃ base columns marks, Stages s q plan base columns marks := by
  simp only [Plan.ofQuery, bind_eq_ok_iff, pure_eq_ok] at h
  obtain ⟨known, hknown, base, hskeleton, ⟨shape, projected⟩, hproject, select, hselect, rfl⟩ := h
  obtain ⟨rfl, hq⟩ := declared_of_scopeOf hknown
  have hbase := skeleton_eq_ok hq hskeleton
  have hstart : base = staged base (([] : List (SourceId × String)).map entryOf) [] := by
    rw [staged, restricted, List.map_nil, ← hbase.columns]
  have hnone : Marked s q [] [] := ⟨by simp, by simp, by simp⟩
  rw [hstart] at hproject
  obtain ⟨marks, rfl, hmarked, hshape⟩ := project_eq_ok hbase.unmarked hnone hproject
  obtain ⟨columns, marks', rfl, hcolumns, hmarked'⟩ := restrictSources_eq_ok hbase.unmarked hmarked
    (List.subset_append_left _ _) (fun x hx => hq.sourceType?_eq hx) hselect
  exact ⟨base, columns, marks', hq, hbase, rfl, hcolumns.trans (filter_projected _),
    hmarked'.mono (List.subset_append_left _ _), hshape⟩

/-- What planning makes of a query: the statement of the plan has the selected columns and gives the
rows of the direct reading or fails as it does, and the shape finds in the rows what is selected. -/
structure Planned (s : Schema) (q : Query) (plan : Plan) : Prop where
  declared : Declared s q
  sources : ∀ e ∈ expressions q, ∀ source ∈ sourcesOf e, source ∈ q.sources.map (·.id)
  projection : plan.select.projection = (selected s q).map entryOf
  shape : ReadsShape s q (selected s q) q.shape.selector plan.shape
  evaluateBy : ∀ (sorter : Sorter) (tables : TableContents), plan.select.evaluateBy sorter q.parameters tables =
    guarded (runFailure? s q tables) (rowsBy sorter s q tables)

theorem rowsBy_insertion (tables : TableContents) : rowsBy .insertion s q tables = some (rows s q tables) := by
  rw [rowsBy, Sorter.sort_insertion]
  rfl

/-- Where the sort keys of the matching combinations are in a weak order, it does not matter how they are
sorted. -/
theorem rowsBy_eq (sorter : Sorter) {tables : TableContents}
    (h : Sorting.WeakOrderOn (before s q) (kept s q tables)) : rowsBy sorter s q tables = some (rows s q tables) := by
  rw [rowsBy, sorter.sort_eq h]
  rfl

theorem Planned.evaluate {plan : Plan} (h : Planned s q plan) (db : MemoryDatabase) :
    db.evaluate plan.select q.parameters = guarded (runFailure? s q db.rows) (rows s q db.rows) := by
  have heval := h.evaluateBy .insertion db.rows
  rw [Select.evaluateBy_insertion, rowsBy_insertion] at heval
  change plan.select.evaluate q.parameters db.rows = _
  generalize plan.select.evaluate q.parameters db.rows = outcome at heval ⊢
  cases hfailure : runFailure? s q db.rows with
  | none =>
    rw [hfailure] at heval
    obtain ⟨found, rfl, hfound⟩ := map_eq_ok_iff.1 heval
    rw [Option.some.inj hfound]
    rfl
  | some e =>
    rw [hfailure] at heval
    cases outcome with
    | error e' => cases heval; rfl
    | ok found => cases heval

theorem Planned.evaluate_of_scoped {plan : Plan} (h : Planned s q plan) (hscoped : Scoped q)
    (hsupplied : Supplied q) (db : MemoryDatabase) :
    db.evaluate plan.select q.parameters = .ok (rows s q db.rows) := by
  rw [h.evaluate, runFailure?_eq_none h.sources hscoped hsupplied, guarded_none]

theorem planned_ofQuery {plan : Plan} (h : Plan.ofQuery s q = .ok plan) : Planned s q plan := by
  obtain ⟨base, columns, marks, hstages⟩ := exists_stages h
  have hselect := hstages.select
  have hprojected := hstages.projected
  refine ⟨hstages.declared, fun _ he => hstages.skeleton.mem_sources he, ?_, hstages.shape, ?_⟩
  · rw [hselect]
    exact hprojected
  · intro sorter tables
    rw [hselect]
    exact hstages.skeleton.evaluateBy_staged hstages.declared hprojected hstages.marked
      (fun x hx => List.mem_map_of_mem hx) sorter tables

/-- Planning keeps the meaning of a query: in every database the statement of the plan gives the
rows of the direct reading, however both are sorted, and the shape finds in them what is selected. The sort
can only give up, or be of consequence, if the sort keys are in no weak order. -/
theorem evaluate_ofQuery {plan : Plan} (h : Plan.ofQuery s q = .ok plan) (hscoped : Scoped q)
    (hsupplied : Supplied q) (sorter : Sorter) (db : MemoryDatabase) :
    plan.select.evaluateBy sorter q.parameters db.rows = .ok (rowsBy sorter s q db.rows) ∧
      (Sorting.WeakOrderOn (before s q) (kept s q db.rows) →
        rowsBy sorter s q db.rows = some (rows s q db.rows)) ∧
      ReadsShape s q (selected s q) q.shape.selector plan.shape := by
  have hplanned := planned_ofQuery h
  refine ⟨?_, rowsBy_eq sorter, hplanned.shape⟩
  rw [hplanned.evaluateBy, runFailure?_eq_none hplanned.sources hscoped hsupplied, guarded_none]

end

section

def animals : Schema :=
  let property (name : String) (type : ValueType) : Property :=
    { name := name, column := none, type := type, nullable := false }
  let country : EntityType :=
    { id := ⟨0⟩, name := "Country", base := none, isAbstract := false
      properties := [property "Id" .integer, property "Name" .text], key := ["Id"], table := none
      discriminatorProperty := none, discriminatorValue := none }
  let animal : EntityType :=
    { id := ⟨1⟩, name := "Animal", base := none, isAbstract := false
      properties := [property "Id" .integer, property "CountryId" .integer, property "Kind" .text]
      key := ["Id"], table := none, discriminatorProperty := some "Kind"
      discriminatorValue := some (.text "Animal") }
  let kiwi : EntityType :=
    { id := ⟨2⟩, name := "Kiwi", base := some ⟨1⟩, isAbstract := false
      properties := [property "FoundOn" .integer], key := [], table := none
      discriminatorProperty := none, discriminatorValue := some (.text "Kiwi") }
  { types := [country, animal, kiwi], foreignKeys := [] }

/-- The kiwis of one country, those from the highest places first. -/
def kiwis : Query :=
  { shape :=
      { source := ⟨⟨0⟩, ⟨0⟩⟩
        joins := [⟨⟨⟨1⟩, ⟨2⟩⟩, .property ⟨0⟩ "Id", "CountryId"⟩]
        filter := some (.equals (.property ⟨0⟩ "Name") (.parameter "name"))
        orderBy := [⟨.property ⟨1⟩ "FoundOn", .descending⟩]
        skip := none, take := some 2
        selector := .properties [.property ⟨0⟩ "Name", .property ⟨1⟩ "FoundOn"] }
    parameters := .ofList [("name", .text "New Zealand")] }

def zoo : MemoryDatabase :=
  let animal (id : Int64) (kind : String) (found : Int64) : EntityKey × Record :=
    ([.integer id], .ofList [("Id", .integer id), ("CountryId", .integer 1), ("Kind", .text kind),
      ("FoundOn", .integer found)])
  ⟨.ofList
    [("Country", .ofList [([.integer 1], .ofList [("Id", .integer 1), ("Name", .text "New Zealand")])]),
      ("Animal", .ofList [animal 1 "Kiwi" 10, animal 2 "Animal" 40, animal 3 "Kiwi" 30,
        animal 4 "Kiwi" 20])]⟩

theorem evaluate_ofQuery_kiwis :
    ∃ plan, Plan.ofQuery animals kiwis = .ok plan ∧ Scoped kiwis ∧ Supplied kiwis ∧
      Sorting.WeakOrderOn (before animals kiwis) (kept animals kiwis zoo.rows) ∧
      ∀ sorter : Sorter, plan.select.evaluateBy sorter kiwis.parameters zoo.rows =
        .ok (some [[.text "New Zealand", .integer 30], [.text "New Zealand", .integer 20]]) := by
  have hweak : Sorting.WeakOrderOn (before animals kiwis) (kept animals kiwis zoo.rows) :=
    ⟨by decide, by decide⟩
  refine ⟨_, rfl, by decide, by decide, hweak, fun sorter => ?_⟩
  obtain ⟨heval, hrows, -⟩ :=
    evaluate_ofQuery (s := animals) (q := kiwis) rfl (by decide) (by decide) sorter zoo
  exact heval.trans (congrArg _ (hrows hweak))

end

end EntityStore.Reading
