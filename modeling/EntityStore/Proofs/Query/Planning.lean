import EntityStore.Proofs.Query.Materializers

/-!
# Stages of planning

Between its skeleton and the finished plan, a statement only gains columns and restrictions. Each
step that succeeds notes the restriction of one source, so in the end every source is restricted.
-/

namespace EntityStore.Reading

open Traversal

section

variable (s : Schema) (q : Query)

def restrictionOf? (source : SourceId) : Option SqlExpr :=
  (sourceType? q source).bind (fun id => restriction? s id source)

/-- The restrictions noted when some sources have been handled. -/
structure Marked (marks : List (SourceId × SqlExpr)) (handled : List SourceId) : Prop where
  sound : ∀ m ∈ marks, restrictionOf? s q m.1 = some m.2
  complete : ∀ source ∈ handled, ∀ e, restrictionOf? s q source = some e → (source, e) ∈ marks
  settled : ∀ source ∈ handled, ∀ id, sourceType? q source = some id → Settled s id

end

def staged (base : Select) (columns : List ColumnEntry) (marks : List (SourceId × SqlExpr)) : Select :=
  { base with columns := columns, predicate := restricted base.predicate marks }

section

variable {s : Schema} {q : Query} {marks : List (SourceId × SqlExpr)} {handled : List SourceId}

theorem Marked.mono (h : Marked s q marks handled) {handled' : List SourceId}
    (hsub : handled' ⊆ handled) : Marked s q marks handled' where
  sound := h.sound
  complete source hsource := h.complete source (hsub hsource)
  settled source hsource := h.settled source (hsub hsource)

theorem Marked.eq_of_mem (h : Marked s q marks handled) {source : SourceId} {e : SqlExpr}
    (he : restrictionOf? s q source = some e) : ∀ m ∈ marks, m.1 = source → m.2 = e := by
  rintro m hm rfl
  have hm := h.sound m hm
  rw [he] at hm
  cases hm
  rfl

theorem Marked.step (h : Marked s q marks handled) {source : SourceId} {id : TypeId}
    (hid : sourceType? q source = some id) (hsettled : Settled s id) :
    Marked s q (mark marks source (restriction? s id source)) (source :: handled) := by
  have hrestriction : restrictionOf? s q source = restriction? s id source := by
    rw [restrictionOf?, hid, Option.bind_some]
  refine ⟨?_, ?_, ?_⟩
  · intro m hm
    rcases mem_of_mem_mark hm with hm | ⟨rfl, hr⟩
    · exact h.sound m hm
    · exact hrestriction.trans hr
  · rw [List.forall_mem_cons]
    refine ⟨?_, fun source' hsource' e he => subset_mark _ _ _ (h.complete source' hsource' e he)⟩
    intro e he
    rw [← hrestriction, he]
    exact mem_mark_self (h.eq_of_mem he)
  · rw [List.forall_mem_cons]
    refine ⟨?_, h.settled⟩
    intro id' hid'
    rw [hid] at hid'
    cases hid'
    exact hsettled

end

def ReadsAny (s : Schema) (q : Query) (columns : List (SourceId × String)) (source : SourceId)
    (m : Materializer) : Prop :=
  ∃ id, sourceType? q source = some id ∧ ReadsSource s columns source id m

/-- A result shape that finds what the selector asks for. -/
inductive ReadsShape (s : Schema) (q : Query) (columns : List (SourceId × String)) :
    Selector → ResultShape → Prop
  | entity {source : SourceId} {m : Materializer} (reads : ReadsAny s q columns source m) :
      ReadsShape s q columns (.entity source) (.entity m)
  | entities {sources : List SourceId} {ms : List Materializer}
      (reads : List.Forall₂ (ReadsAny s q columns) sources ms) :
      ReadsShape s q columns (.entities sources) (.entities ms)
  | values {exprs : List Expr} {cs : List ValueColumn}
      (reads : List.Forall₂ (ReadsValue s q columns) exprs cs) :
      ReadsShape s q columns (.properties exprs) (.values cs)

theorem addFilterColumn_staged (base : Select) (columns : List ColumnEntry)
    (marks : List (SourceId × SqlExpr)) (e : SqlExpr) (source : Option SourceId) :
    ∃ columns', (staged base columns marks).addFilterColumn e source = staged base columns' marks ∧
      columns'.filter (·.projected) = columns.filter (·.projected) := by
  rw [Select.addFilterColumn]
  split
  · exact ⟨columns, rfl, rfl⟩
  · exact ⟨_, rfl, by simp [staged, List.filter_append]⟩

section

variable {s : Schema} {q : Query} {base : Select} (hbase : ∀ p, base.predicate = some p → Unmarked p)
  {columns : List ColumnEntry} {marks : List (SourceId × SqlExpr)} {handled : List SourceId}
  (hmarked : Marked s q marks handled) {source : SourceId} {id : TypeId}

include hbase hmarked

theorem setDiscriminator_staged (hid : sourceType? q source = some id) {e : SqlExpr}
    (he : restriction? s id source = some e) :
    (staged base columns marks).setDiscriminator source e =
      staged base columns (mark marks source (restriction? s id source)) := by
  have hsource : restrictionOf? s q source = some e := by rw [restrictionOf?, hid, Option.bind_some, he]
  rw [setDiscriminator_eq hbase rfl (hmarked.eq_of_mem hsource), he]
  rfl

theorem build_eq_ok {known : List (SourceId × String)} (hid : sourceType? q source = some id)
    {m : Materializer} {select : Select}
    (h : Materializer.build s id (Plan.projectProperty source) source
      (staged base (known.map entryOf) marks) = (.ok m, select)) :
    let columns := (entityColumns s q source).foldl mention known
    ∃ marks', select = staged base (columns.map entryOf) marks' ∧
      Marked s q marks' (source :: handled) ∧ ReadsSource s columns source id m := by
  unfold Materializer.build at h
  split at h
  · cases h
  · rename_i ts root heq
    simp only [bind_eq_ok_iff, pure_eq_ok] at heq
    obtain ⟨ts, hts, root, hroot, hpair⟩ := heq
    cases hpair
    have hcolumns : (staged base (known.map entryOf) marks).columns = known.map entryOf := rfl
    obtain ⟨shapes, hadd, hshapes⟩ := addShapes_eq source ts hcolumns
    rw [hadd] at h
    rw [entityColumns_eq hid hts]
    dsimp only at h
    split at h
    · cases h
    · rename_i m' hassemble
      cases h
      obtain ⟨hr, hsettled, hreads⟩ := assemble_eq_ok rfl hts hroot hshapes hassemble
      have hstep := hmarked.step hid hsettled
      rw [← hr] at hstep
      exact ⟨marks, rfl, hstep, hreads⟩
    · rename_i m' e hassemble
      cases h
      obtain ⟨hr, hsettled, hreads⟩ := assemble_eq_ok rfl hts hroot hshapes hassemble
      exact ⟨_, setDiscriminator_staged hbase hmarked hid hr.symm, hmarked.step hid hsettled, hreads⟩

theorem restrict_eq_ok (hid : sourceType? q source = some id) {select : Select}
    (h : Materializer.restrict s id (Plan.columnExpr source) source (staged base columns marks) =
      (.ok (), select)) :
    ∃ columns' marks', select = staged base columns' marks' ∧
      columns'.filter (·.projected) = columns.filter (·.projected) ∧
      Marked s q marks' (source :: handled) := by
  unfold Materializer.restrict at h
  split at h
  · cases h
  · rename_i hproperty
    cases h
    have hnone := restrictingProperty_eq_none hproperty
    have hstep := hmarked.step hid (settled_of_eq_none hnone)
    rw [restriction?, hnone] at hstep
    exact ⟨columns, marks, rfl, rfl, hstep⟩
  · rename_i p types hproperty
    dsimp only at h
    split at h
    · cases h
    · rename_i e hrestriction
      cases h
      obtain ⟨he, hsettled⟩ := restriction_eq_ok hproperty hrestriction
      obtain ⟨columns', hcolumns, hfilter⟩ := addFilterColumn_staged base columns marks
        (Plan.columnExpr source p) (some source)
      rw [hcolumns]
      exact ⟨columns', _, setDiscriminator_staged hbase hmarked hid he, hfilter, hmarked.step hid hsettled⟩

theorem materializers_eq_ok {known : List (SourceId × String)} {sources : List SourceId}
    {ms : List Materializer} {select : Select}
    (h : Plan.materializers s (scope q) (staged base (known.map entryOf) marks) sources =
      .ok (ms, select)) :
    let columns := (sources.flatMap (entityColumns s q)).foldl mention known
    ∃ marks', select = staged base (columns.map entryOf) marks' ∧
      Marked s q marks' (sources ++ handled) ∧ List.Forall₂ (ReadsAny s q columns) sources ms := by
  induction sources generalizing known marks handled ms with
  | nil =>
    cases h
    exact ⟨marks, rfl, hmarked, .nil⟩
  | cons source sources ih =>
    rw [Plan.materializers, bind_eq_ok_iff] at h
    obtain ⟨id, hid, h⟩ := h
    rw [typeOf_scope] at hid
    split at h
    · cases h
    · rename_i m select₁ hbuild
      simp only [bind_eq_ok_iff, pure_eq_ok] at h
      obtain ⟨⟨ms', select₂⟩, hrest, heq⟩ := h
      cases heq
      obtain ⟨marks₁, rfl, hmarked₁, hreads⟩ := build_eq_ok hbase hmarked hid hbuild
      obtain ⟨marks₂, rfl, hmarked₂, hall⟩ := ih hmarked₁ hrest
      rw [List.flatMap_cons, List.foldl_append]
      refine ⟨marks₂, rfl, hmarked₂.mono ?_, .cons ⟨id, hid, ?_⟩ hall⟩
      · intro x hx
        simpa [or_left_comm] using hx
      · exact hreads.mono (prefix_foldl_mention _ _)

theorem project_eq_ok {known : List (SourceId × String)} {selector : Selector} {shape : ResultShape}
    {select : Select}
    (h : Plan.project s (scope q) (staged base (known.map entryOf) marks) selector =
      .ok (shape, select)) :
    let columns := (mentioned s q selector).foldl mention known
    ∃ marks', select = staged base (columns.map entryOf) marks' ∧
      Marked s q marks' (Plan.materializedSources selector ++ handled) ∧
      ReadsShape s q columns selector shape := by
  cases selector with
  | entity source =>
    rw [Plan.project, bind_eq_ok_iff] at h
    obtain ⟨id, hid, h⟩ := h
    rw [typeOf_scope] at hid
    split at h
    · cases h
    · rename_i m select₁ hbuild
      cases h
      obtain ⟨marks₁, rfl, hmarked₁, hreads⟩ := build_eq_ok hbase hmarked hid hbuild
      exact ⟨marks₁, rfl, hmarked₁, .entity ⟨id, hid, hreads⟩⟩
  | entities sources =>
    simp only [Plan.project, bind_eq_ok_iff, pure_eq_ok] at h
    obtain ⟨⟨ms, select₁⟩, hms, heq⟩ := h
    cases heq
    obtain ⟨marks₁, rfl, hmarked₁, hreads⟩ := materializers_eq_ok hbase hmarked hms
    exact ⟨marks₁, rfl, hmarked₁, .entities hreads⟩
  | properties exprs =>
    simp only [Plan.project, bind_eq_ok_iff, pure_eq_ok] at h
    obtain ⟨⟨cs, select₁⟩, hcs, heq⟩ := h
    cases heq
    have hcolumns : (staged base (known.map entryOf) marks).columns = known.map entryOf := rfl
    obtain ⟨rfl, hreads⟩ := valueColumns_eq_ok hcolumns hcs
    exact ⟨marks, rfl, hmarked, .values hreads⟩

theorem restrictSources_eq_ok {materialized : List SourceId} (hhandled : materialized ⊆ handled)
    {xs : List QuerySource} (hxs : ∀ x ∈ xs, sourceType? q x.id = some x.entityType) {select : Select}
    (h : Plan.restrictSources s materialized (staged base columns marks) xs = .ok select) :
    ∃ columns' marks', select = staged base columns' marks' ∧
      columns'.filter (·.projected) = columns.filter (·.projected) ∧
      Marked s q marks' (xs.map (·.id) ++ handled) := by
  induction xs generalizing columns marks handled with
  | nil =>
    cases h
    exact ⟨columns, marks, rfl, rfl, hmarked⟩
  | cons x xs ih =>
    obtain ⟨hx, hxs⟩ := List.forall_mem_cons.mp hxs
    rw [Plan.restrictSources] at h
    split at h
    · rename_i hdone
      obtain ⟨columns', marks', rfl, hfilter, hmarked'⟩ := ih hmarked hhandled hxs h
      refine ⟨columns', marks', rfl, hfilter, hmarked'.mono ?_⟩
      have hmem : x.id ∈ handled := hhandled (by simpa using hdone)
      intro source hsource
      rcases List.mem_cons.mp hsource with rfl | hsource
      · exact List.mem_append_right _ hmem
      · exact hsource
    · split at h
      · cases h
      · rename_i select₁ hrestrict
        obtain ⟨columns₁, marks₁, rfl, hfilter₁, hmarked₁⟩ := restrict_eq_ok hbase hmarked hx hrestrict
        obtain ⟨columns', marks', rfl, hfilter, hmarked'⟩ :=
          ih hmarked₁ (List.subset_cons_of_subset _ hhandled) hxs h
        refine ⟨columns', marks', rfl, hfilter.trans hfilter₁, hmarked'.mono ?_⟩
        intro source hsource
        simpa [or_left_comm] using hsource

end

end EntityStore.Reading
