import EntityStore.Proofs.Query.Expression

/-!
# Columns of rows

While a query is planned, every property that is selected adds its column or finds it in place. The
columns are those that are mentioned, each once, and a place that was given out stays valid.
-/

namespace EntityStore.Reading

open Traversal

theorem prefix_mention {α : Type} [DecidableEq α] (known : List α) (x : α) :
    known <+: mention known x := by
  unfold mention
  split
  · exact List.prefix_refl known
  · exact List.prefix_append known [x]

theorem prefix_foldl_mention {α : Type} [DecidableEq α] (known xs : List α) :
    known <+: xs.foldl mention known := by
  induction xs generalizing known with
  | nil => exact List.prefix_refl known
  | cons x xs ih => exact (prefix_mention known x).trans (ih _)

theorem getElem?_prefix_mono {α : Type} {l r : List α} (h : l <+: r) {i : Nat} {x : α}
    (hx : l[i]? = some x) : r[i]? = some x := by
  obtain ⟨t, rfl⟩ := h
  obtain ⟨hi, _⟩ := List.getElem?_eq_some_iff.mp hx
  rwa [List.getElem?_append_left hi]

def entryOf (x : SourceId × String) : ColumnEntry where
  expr := .column x.1.tableLabel x.2
  label := none
  projected := true
  source := some x.1

theorem same_column {a b : SourceId × String} :
    (entryOf a).expr.same (.column b.1.tableLabel b.2) = decide (a = b) := by
  obtain ⟨source, column⟩ := a
  obtain ⟨source', column'⟩ := b
  rw [Bool.eq_iff_iff]
  simp only [entryOf, SqlExpr.same, Bool.and_eq_true, beq_iff_eq, decide_eq_true_eq, Prod.mk.injEq]
  exact ⟨fun ⟨h, h'⟩ => ⟨tableLabel_injective h, h'⟩, fun ⟨h, h'⟩ => ⟨congrArg _ h, h'⟩⟩

theorem filter_projected (known : List (SourceId × String)) :
    (known.map entryOf).filter (·.projected) = known.map entryOf := by
  rw [List.filter_eq_self]
  intro c hc
  obtain ⟨x, _, rfl⟩ := List.mem_map.mp hc
  rfl

theorem findIdx?_column (known : List (SourceId × String)) (x : SourceId × String) :
    (known.map entryOf).findIdx? (·.expr.same (.column x.1.tableLabel x.2)) =
      known.findIdx? (fun y => decide (y = x)) := by
  rw [List.findIdx?_map]
  congr 1
  funext y
  exact same_column

theorem project_eq {select : Select} {known : List (SourceId × String)}
    (h : select.columns = known.map entryOf) (x : SourceId × String) :
    ∃ index, select.project (.column x.1.tableLabel x.2) (some x.1) =
        (index, { select with columns := (mention known x).map entryOf }) ∧
      (mention known x)[index]? = some x := by
  have hsame : select = { select with columns := known.map entryOf } := by rw [← h]
  unfold Select.project
  simp only [h, findIdx?_column]
  cases hfind : known.findIdx? (fun y => decide (y = x)) with
  | none =>
    have hnew : x ∉ known := by
      intro hx
      have hnone := List.findIdx?_eq_none_iff.mp hfind x hx
      simp at hnone
    refine ⟨known.length, ?_, by simp [mention, hnew]⟩
    rw [Select.width, Select.projection, h, filter_projected, List.length_map, mention, if_neg hnew,
      List.map_append]
    rfl
  | some i =>
    obtain ⟨hi, hx, _⟩ := List.findIdx?_eq_some_iff_getElem.mp hfind
    have hx : known[i] = x := by simpa using hx
    have hmem : x ∈ known := hx ▸ List.getElem_mem hi
    have hprojected : ((known.map entryOf)[i]?.map (·.projected)).getD false = true := by
      simp [hi, entryOf]
    refine ⟨i, ?_, by simp [mention, hmem, hi, hx]⟩
    dsimp only
    rw [if_pos hprojected, ← List.map_take, filter_projected, List.length_map, List.length_take,
      Nat.min_eq_left (Nat.le_of_lt hi), mention, if_pos hmem, ← hsame]

/-- A place in the row that holds the column of a property as read through a source. -/
structure Places (columns : List (SourceId × String)) (source : SourceId) (p : Property)
    (c : PropertyColumn) : Prop where
  name : c.name = p.name
  type : c.type = p.type
  column : columns[c.index]? = some (source, p.columnName)

structure ReadsEntity (columns : List (SourceId × String)) (source : SourceId)
    (t : EntityType × List Property) (shape : EntityShape) : Prop where
  entityType : shape.entityType = t.1.id
  typeName : shape.typeName = t.1.name
  places : List.Forall₂ (Places columns source) t.2 shape.columns

theorem Places.mono {columns columns' : List (SourceId × String)} (h : columns <+: columns')
    {source : SourceId} {p : Property} {c : PropertyColumn} (hc : Places columns source p c) :
    Places columns' source p c :=
  ⟨hc.name, hc.type, getElem?_prefix_mono h hc.column⟩

theorem ReadsEntity.mono {columns columns' : List (SourceId × String)} (h : columns <+: columns')
    {source : SourceId} {t : EntityType × List Property} {shape : EntityShape}
    (hshape : ReadsEntity columns source t shape) : ReadsEntity columns' source t shape :=
  ⟨hshape.entityType, hshape.typeName, hshape.places.imp (fun _ _ hc => hc.mono h)⟩

def columnsOf (source : SourceId) (properties : List Property) : List (SourceId × String) :=
  properties.map (fun p => (source, p.columnName))

theorem addColumns_eq (source : SourceId) (properties : List Property) {select : Select}
    {known : List (SourceId × String)} (h : select.columns = known.map entryOf) :
    ∃ cs, Materializer.addColumns (Plan.projectProperty source) select properties =
        (cs, { select with columns := ((columnsOf source properties).foldl mention known).map entryOf }) ∧
      List.Forall₂ (Places ((columnsOf source properties).foldl mention known) source) properties cs := by
  induction properties generalizing select known with
  | nil => exact ⟨[], by rw [columnsOf, List.map_nil, List.foldl_nil, ← h]; rfl, .nil⟩
  | cons p properties ih =>
    obtain ⟨index, hproject, hindex⟩ := project_eq h (source, p.columnName)
    obtain ⟨cs, hadd, hplaces⟩ := @ih { select with
      columns := (mention known (source, p.columnName)).map entryOf } _ rfl
    refine ⟨⟨p.name, index, p.type⟩ :: cs, ?_, .cons ⟨rfl, rfl, ?_⟩ hplaces⟩
    · rw [Materializer.addColumns, Plan.projectProperty, Plan.columnExpr, hproject]
      simp only [hadd]
      rfl
    · exact getElem?_prefix_mono
        (prefix_foldl_mention (mention known (source, p.columnName)) (columnsOf source properties)) hindex

def typeColumns (source : SourceId) (types : List (EntityType × List Property)) :
    List (SourceId × String) := types.flatMap (fun t => columnsOf source t.2)

theorem addShapes_eq (source : SourceId) (types : List (EntityType × List Property))
    {select : Select} {known : List (SourceId × String)} (h : select.columns = known.map entryOf) :
    ∃ shapes, Materializer.addShapes (Plan.projectProperty source) select types =
        (shapes, { select with columns := ((typeColumns source types).foldl mention known).map entryOf }) ∧
      List.Forall₂ (fun t shape => shape.1 = t.1 ∧
        ReadsEntity ((typeColumns source types).foldl mention known) source t shape.2) types shapes := by
  induction types generalizing select known with
  | nil => exact ⟨[], by rw [typeColumns, List.flatMap_nil, List.foldl_nil, ← h]; rfl, .nil⟩
  | cons t types ih =>
    obtain ⟨entityType, properties⟩ := t
    obtain ⟨cs, hadd, hplaces⟩ := addColumns_eq source properties h
    obtain ⟨shapes, hshapes, hreads⟩ := @ih { select with
      columns := ((columnsOf source properties).foldl mention known).map entryOf } _ rfl
    have hfold : (typeColumns source ((entityType, properties) :: types)).foldl mention known =
        (typeColumns source types).foldl mention ((columnsOf source properties).foldl mention known) := by
      rw [typeColumns, List.flatMap_cons, List.foldl_append]
      rfl
    rw [hfold]
    refine ⟨(entityType, ⟨entityType.id, entityType.name, cs⟩) :: shapes, ?_, .cons ⟨rfl, rfl, rfl, ?_⟩ hreads⟩
    · rw [Materializer.addShapes, hadd]
      simp only [hshapes]
    · exact hplaces.imp (fun _ _ hc => hc.mono (prefix_foldl_mention _ _))

def ReadsValue (s : Schema) (q : Query) (columns : List (SourceId × String)) (e : Expr)
    (c : ValueColumn) : Prop :=
  ∃ source name p, e = .property source name ∧ property? s q source name = some p ∧
    c.type = p.type ∧ columns[c.index]? = some (source, p.columnName)

theorem valueColumns_eq_ok {s : Schema} {q : Query} {exprs : List Expr} {select select' : Select}
    {known : List (SourceId × String)} (hknown : select.columns = known.map entryOf)
    {cs : List ValueColumn} (h : Plan.valueColumns s (scope q) select exprs = .ok (cs, select')) :
    select' = { select with
        columns := ((exprs.filterMap (valueColumn? s q)).foldl mention known).map entryOf } ∧
      List.Forall₂ (ReadsValue s q ((exprs.filterMap (valueColumn? s q)).foldl mention known)) exprs cs := by
  induction exprs generalizing select known cs with
  | nil =>
    cases h
    exact ⟨by rw [List.filterMap_nil, List.foldl_nil, ← hknown], .nil⟩
  | cons e exprs ih =>
    cases e with
    | property source name =>
      simp only [Plan.valueColumns, bind_eq_ok_iff, liftM_eq_ok_iff] at h
      obtain ⟨id, hid, p, hp, h⟩ := h
      obtain ⟨index, hproject, hindex⟩ := project_eq hknown (source, p.columnName)
      rw [Plan.projectProperty, Plan.columnExpr, hproject] at h
      simp only [pure_eq_ok] at h
      obtain ⟨⟨columns, select₁⟩, hrest, heq⟩ := h
      cases heq
      have hproperty := property?_of_typeOf hid hp
      have hcolumn : valueColumn? s q (.property source name) = some (source, p.columnName) := by
        rw [valueColumn?, hproperty]
        rfl
      obtain ⟨rfl, hreads⟩ := ih rfl hrest
      rw [List.filterMap_cons_some hcolumn, List.foldl_cons]
      refine ⟨rfl, .cons ⟨source, name, p, rfl, hproperty, rfl, ?_⟩ hreads⟩
      exact getElem?_prefix_mono (prefix_foldl_mention _ _) hindex
    | _ => cases h

end EntityStore.Reading
