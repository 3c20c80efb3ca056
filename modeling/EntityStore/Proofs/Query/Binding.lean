import EntityStore.Proofs.Query.Failures
import EntityStore.Proofs.Sql.Placeholders
import EntityStore.Relational.Store

/-!
# Bound parameters

A query is bound by a value for each name of its statement, in the order of the numbers. Put in the
place of the placeholders, these values make the statement mean what it means in memory, where a
parameter is looked up under its name.
-/

namespace EntityStore

open Sql Traversal

variable {names : List String} {values : List Value} {parameters : Parameters} {binding : Binding}

def Supplies (names : List String) (values : List Value) (parameters : Parameters) : Prop :=
  List.Forall₂ (fun p v => parameters.get? p = some v) names values

theorem Supplies.getElem? (h : Supplies names values parameters) {i : Nat} {p : String} (hp : names[i]? = some p) :
    ∃ v, values[i]? = some v ∧ parameters.get? p = some v := by
  induction h generalizing i with
  | nil => cases hp
  | cons hv _ ih =>
    cases i with
    | zero =>
      cases hp
      exact ⟨_, rfl, hv⟩
    | succ i => exact ih hp

theorem value_eq_ok_iff {p : String} {v : Value} : parameters.value p = .ok v ↔ parameters.get? p = some v := by
  unfold Parameters.value
  cases parameters.get? p <;> simp

theorem value_eq_error_iff {p : String} {e : StoreError} :
    parameters.value p = .error e ↔ parameters.get? p = none ∧ e = Reading.missingValue p := by
  rw [Reading.value_eq, guarded_eq_error_iff, Reading.missing?_eq_some_iff]

namespace SqlExpr

def bound (names : List String) (values : List Value) : SqlExpr → SqlExpr
  | .parameter p => .literal (values.getD (names.idxOf p) .null)
  | .column t c => .column t c
  | .literal v => .literal v
  | .compare op l r => .compare op (l.bound names values) (r.bound names values)
  | .and l r => .and (l.bound names values) (r.bound names values)
  | .or l r => .or (l.bound names values) (r.bound names values)
  | .not e => .not (e.bound names values)
  | .isNull e => .isNull (e.bound names values)
  | .discriminator source e => .discriminator source (e.bound names values)

theorem eval_bound (h : Supplies names values parameters) {e : SqlExpr} (hnames : ∀ p ∈ e.parameters, p ∈ names) :
    (e.bound names values).eval .empty binding = e.eval parameters binding := by
  induction e with
  | parameter p =>
    obtain ⟨v, hv, hget⟩ := h.getElem? (List.getElem?_idxOf (hnames p (List.mem_singleton_self p)))
    rw [bound, List.getD_eq_getElem?_getD, hv, eval, eval]
    exact (value_eq_ok_iff.2 hget).symm
  | column t c => rfl
  | literal v => rfl
  | compare op l r ihl ihr | and l r ihl ihr | or l r ihl ihr =>
    obtain ⟨hl, hr⟩ := List.forall_mem_append.1 hnames
    rw [bound, eval, eval, ihl hl, ihr hr]
  | not e ih | isNull e ih => rw [bound, eval, eval, ih hnames]
  | discriminator source e ih => exact ih hnames

end SqlExpr

namespace Select

def bound (s : Select) (values : List Value) : Select :=
  let names := s.parameterNames
  { s with
    columns := s.columns.map (fun c => { c with expr := c.expr.bound names values })
    joins := s.joins.map (fun j => { j with condition := j.condition.bound names values })
    predicate := s.predicate.map (·.bound names values)
    orderBy := s.orderBy.map (fun o => { o with expr := o.expr.bound names values }) }

variable {s : Select} {tables : TableContents}

theorem mem_expressions_iff {e : SqlExpr} : e ∈ s.expressions ↔ (∃ c ∈ s.projection, c.expr = e) ∨
    (∃ j ∈ s.joins, j.condition = e) ∨ s.predicate = some e ∨ ∃ o ∈ s.orderBy, o.expr = e := by
  simp [expressions]

section

variable (h : Supplies s.parameterNames values parameters)

include h

theorem eval_bound {e : SqlExpr} (he : e ∈ s.expressions) (binding : Binding) :
    (e.bound s.parameterNames values).eval .empty binding = e.eval parameters binding :=
  SqlExpr.eval_bound h (fun _ hp => mem_distinct_iff.2 (List.mem_flatMap.2 ⟨e, he, hp⟩))

theorem holds_bound {e : SqlExpr} (he : e ∈ s.expressions) :
    (e.bound s.parameterNames values).holds .empty = e.holds parameters := by
  funext binding
  rw [SqlExpr.holds, SqlExpr.holds, eval_bound h he]

theorem candidates_bound : (s.bound values).candidates .empty tables = s.candidates parameters tables := by
  have hjoin : ∀ j ∈ s.joins, ∀ bindings,
      joinTable .empty tables bindings { j with condition := j.condition.bound s.parameterNames values } =
        joinTable parameters tables bindings j := by
    intro j hj bindings
    have hcondition := holds_bound h (mem_expressions_iff.2 (Or.inr (Or.inl ⟨j, hj, rfl⟩)))
    unfold joinTable extendBinding
    simp only [hcondition]
  change (s.joins.map _).foldlM _ ((tables s.source.table).map (fun record => [(s.source.label, record)])) = _
  rw [List.foldlM_map, candidates]
  generalize (tables s.source.table).map (fun record => [(s.source.label, record)]) = bindings
  generalize s.joins = joins at hjoin
  induction joins generalizing bindings with
  | nil => rfl
  | cons j joins ih =>
    obtain ⟨hj, hjoins⟩ := List.forall_mem_cons.1 hjoin
    rw [List.foldlM_cons, List.foldlM_cons, hj]
    congr 1
    funext extended
    exact ih extended hjoins

theorem keep_bound (bindings : List Binding) :
    keep (s.bound values).predicate .empty bindings = keep s.predicate parameters bindings := by
  change keep (s.predicate.map _) .empty bindings = _
  cases hp : s.predicate with
  | none => rfl
  | some p =>
    have hpredicate := holds_bound h (mem_expressions_iff.2 (Or.inr (Or.inr (Or.inl hp))))
    rw [Option.map_some, keep, keep]
    simp only [hpredicate]

theorem sortBindings_bound (bindings : List Binding) :
    sortBindings (s.bound values).orderBy .empty bindings = sortBindings s.orderBy parameters bindings := by
  have hkeys : ∀ binding, (s.bound values).orderBy.mapM (fun o => o.expr.eval .empty binding) =
      s.orderBy.mapM (fun o => o.expr.eval parameters binding) := by
    intro binding
    apply mapM_eq_mapM
    refine List.forall₂_map_left_iff.2 (List.forall₂_same.2 ?_)
    intro o ho
    exact eval_bound h (mem_expressions_iff.2 (Or.inr (Or.inr (Or.inr ⟨o, ho, rfl⟩)))) binding
  have hempty : (s.bound values).orderBy.isEmpty = s.orderBy.isEmpty := List.isEmpty_map
  have hdirections : (s.bound values).orderBy.map (·.direction) = s.orderBy.map (·.direction) := List.map_map
  unfold sortBindings
  simp only [hkeys, hempty, hdirections]

theorem projectRow_bound : (s.bound values).projectRow .empty = s.projectRow parameters := by
  funext binding
  apply mapM_eq_mapM
  change List.Forall₂ _ ((s.columns.map _).filter _) s.projection
  rw [List.filter_map]
  refine List.forall₂_map_left_iff.2 (List.forall₂_same.2 ?_)
  intro c hc
  exact eval_bound h (mem_expressions_iff.2 (Or.inl ⟨c, hc, rfl⟩)) binding

/-- In the statement with its values nothing is looked up any more, and it means the same. -/
theorem evaluate_bound (tables : TableContents) :
    (s.bound values).evaluate .empty tables = s.evaluate parameters tables := by
  unfold evaluate
  rw [candidates_bound h, projectRow_bound h]
  simp only [keep_bound h, sortBindings_bound h]
  rfl

end

/-- How a text numbers the parameters of a statement. -/
structure Numbers (s : Select) (t : SqlText) : Prop where
  /-- The text has one placeholder for each occurrence of a parameter, in the same order, and no
  other; its number is the place of the parameter among the names. -/
  placed : ∃ numbers, (Lexeme.scan t.text).map (List.filterMap Lexeme.placeholderNumber?) = some numbers ∧
    List.Forall₂ (fun p n => ∃ i, n = i + 1 ∧ t.parameterNames[i]? = some p) s.occurrences numbers
  nodup : t.parameterNames.Nodup
  occurs : ∀ p, p ∈ t.parameterNames ↔ p ∈ s.occurrences
  ordered : t.parameterNames.Pairwise (fun p q => s.occurrences.idxOf p < s.occurrences.idxOf q)
  /-- The number of a parameter is settled by its first occurrence, whatever follows. -/
  settled : ∀ before after, s.occurrences = before ++ after → distinct before <+: t.parameterNames

theorem numbers_render (s : Select) : s.Numbers s.render where
  placed := by
    have hscanned := s.places_text [] [] Text.stopsAt_nil Lexeme.scanned_nil
    rw [List.append_nil, List.append_nil] at hscanned
    refine ⟨_, hscanned.scan_eq, ?_⟩
    rw [numbers, List.forall₂_map_right_iff, List.forall₂_same]
    intro p hp
    exact ⟨_, rfl, List.getElem?_idxOf (mem_distinct_iff.2 hp)⟩
  nodup := nodup_distinct _
  occurs := fun _ => mem_distinct_iff
  ordered := pairwise_distinct _
  settled := by
    intro before after hsplit
    change _ <+: distinct s.occurrences
    rw [hsplit]
    exact distinct_prefix before after

/-- The values with which a statement runs. -/
structure Binds (s : Select) (t : SqlText) (parameters : Parameters) (values : List Value) : Prop where
  length : values.length = t.parameterNames.length
  /-- The value for `?N` is the one of every reference to the `N`-th name. -/
  value : ∀ (i : Nat) (p : String), t.parameterNames[i]? = some p →
    ∃ v, values[i]? = some v ∧ ∀ binding, (SqlExpr.parameter p).eval parameters binding = .ok v
  evaluate : ∀ tables, (s.bound values).evaluate .empty tables = s.evaluate parameters tables

theorem binds_of_supplies (h : Supplies s.parameterNames values parameters) : s.Binds s.render parameters values where
  length := h.length_eq.symm
  value := by
    intro i p hp
    obtain ⟨v, hv, hget⟩ := h.getElem? hp
    exact ⟨v, hv, fun _ => value_eq_ok_iff.2 hget⟩
  evaluate := evaluate_bound h

/-- A select statement is rendered with its parameters numbered from one in the order of the text. A
query is bound with a value for each number, and the statement means with these values what it means
in memory. It is not bound if one of its parameters has no value, and only then; it fails with the
first one. -/
theorem binds_render (s : Select) (shape : ResultShape) :
    s.Numbers s.render ∧ ∀ parameters : Parameters,
      let bind := Relational.CompiledQuery.bind ⟨s.render, shape⟩ parameters
      (∃ values, bind = .ok values ∧ s.Binds s.render parameters values) ∨
        ∃ before p after, s.render.parameterNames = before ++ p :: after ∧
          (∀ q ∈ before, ∃ v, parameters.get? q = some v) ∧ parameters.get? p = none ∧
            bind = .error (Reading.missingValue p) := by
  refine ⟨s.numbers_render, ?_⟩
  intro parameters bind
  cases hbind : bind with
  | ok values =>
    have hsupplies : Supplies s.parameterNames values parameters :=
      (mapM_eq_ok_iff.1 hbind).imp (fun _ _ => value_eq_ok_iff.1)
    exact Or.inl ⟨values, rfl, binds_of_supplies hsupplies⟩
  | error e =>
    obtain ⟨before, p, after, hnames, hbefore, hp⟩ := first_error_of_mapM hbind
    obtain ⟨habsent, rfl⟩ := value_eq_error_iff.1 hp
    refine Or.inr ⟨before, p, after, hnames, ?_, habsent, rfl⟩
    intro q hq
    obtain ⟨v, hv⟩ := hbefore q hq
    exact ⟨v, value_eq_ok_iff.1 hv⟩

end Select

end EntityStore
