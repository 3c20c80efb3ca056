import EntityStore.Memory.Store
import EntityStore.Proofs.Connection.Session
import EntityStore.Proofs.Query.Safety
import EntityStore.Relational.Store

/-!
# Parameters without values

A relational store binds every parameter before it runs a query, so a missing value always fails it.
An in-memory store looks a parameter up when it evaluates a reference to it, so a missing value fails
the query only if the records lead there.
-/

namespace EntityStore.Reading

open Traversal

theorem findSome?_distinct {β : Type} (f : String → Option β) (names : List String) :
    (Sql.distinct names).findSome? f = names.findSome? f := by
  have hfold : ∀ (names seen : List String),
      (names.foldl (fun seen n => if seen.contains n then seen else n :: seen) seen).reverse.findSome? f =
        (seen.reverse ++ names).findSome? f := by
    intro names
    induction names with
    | nil =>
      intro seen
      rw [List.foldl_nil, List.append_nil]
    | cons n names ih =>
      intro seen
      rw [List.foldl_cons, ih]
      split
      · rename_i hseen
        rw [List.findSome?_append, List.findSome?_append, findSome?_cons, ← Option.or_assoc]
        congr 1
        cases hn : f n with
        | none => rw [Option.or_none]
        | some b =>
          -- the name has been looked at before, so something was found by then
          have hmem : n ∈ seen.reverse := by simpa using hseen
          have hsome : (seen.reverse.findSome? f).isSome :=
            List.findSome?_isSome_iff.2 ⟨n, hmem, by rw [hn, Option.isSome_some]⟩
          obtain ⟨b', hb'⟩ := Option.isSome_iff_exists.1 hsome
          rw [hb', Option.some_or]
      · rw [List.reverse_cons, List.append_assoc, List.singleton_append]
  exact hfold names []

theorem parameters_expr {s : Schema} {known : Plan.Scope} {e : Expr} {e' : SqlExpr}
    (h : Plan.expr s known e = .ok e') : e'.parameters = parametersOf e := by
  induction e generalizing e' with
  | property source name =>
    simp only [Plan.expr, bind_eq_ok_iff, pure_eq_ok] at h
    obtain ⟨_, _, _, _, rfl⟩ := h
    rfl
  | constant v =>
    cases h
    rfl
  | parameter name =>
    cases h
    rfl
  | compare op l r ihl ihr =>
    simp only [Plan.expr, bind_eq_ok_iff, pure_eq_ok] at h
    obtain ⟨l', hl, r', hr, rfl⟩ := h
    rw [SqlExpr.parameters, parametersOf, ihl hl, ihr hr]
  | and l r ihl ihr =>
    simp only [Plan.expr, bind_eq_ok_iff, pure_eq_ok] at h
    obtain ⟨l', hl, r', hr, rfl⟩ := h
    rw [SqlExpr.parameters, parametersOf, ihl hl, ihr hr]
  | or l r ihl ihr =>
    simp only [Plan.expr, bind_eq_ok_iff, pure_eq_ok] at h
    obtain ⟨l', hl, r', hr, rfl⟩ := h
    rw [SqlExpr.parameters, parametersOf, ihl hl, ihr hr]
  | not e ih =>
    simp only [Plan.expr, bind_eq_ok_iff, pure_eq_ok] at h
    obtain ⟨e', he, rfl⟩ := h
    rw [SqlExpr.parameters, parametersOf, ih he]
  | isNull e ih =>
    simp only [Plan.expr, bind_eq_ok_iff, pure_eq_ok] at h
    obtain ⟨e', he, rfl⟩ := h
    rw [SqlExpr.parameters, parametersOf, ih he]

theorem parameters_any? {tests : List SqlExpr} (h : ∀ e ∈ tests, e.parameters = []) {e : SqlExpr}
    (he : SqlExpr.any? tests = some e) : e.parameters = [] := by
  have hfold : ∀ (rest : List SqlExpr) (first : SqlExpr), first.parameters = [] →
      (∀ e ∈ rest, e.parameters = []) → (rest.foldl SqlExpr.or first).parameters = [] := by
    intro rest
    induction rest with
    | nil => exact fun _ hfirst _ => hfirst
    | cons e rest ih =>
      intro first hfirst hrest
      obtain ⟨he, hrest⟩ := List.forall_mem_cons.1 hrest
      rw [List.foldl_cons]
      refine ih _ ?_ hrest
      rw [SqlExpr.parameters, hfirst, he, List.append_nil]
  cases tests with
  | nil => cases he
  | cons first rest =>
    cases he
    obtain ⟨hfirst, hrest⟩ := List.forall_mem_cons.1 h
    exact hfold rest first hfirst hrest

theorem parameters_restriction? {s : Schema} {id : TypeId} {source : SourceId} {e : SqlExpr}
    (h : restriction? s id source = some e) : e.parameters = [] := by
  obtain ⟨⟨p, values⟩, -, hany⟩ := Option.bind_eq_some_iff.1 h
  refine parameters_any? ?_ hany
  intro test htest
  obtain ⟨v, -, rfl⟩ := List.mem_map.1 htest
  rfl

theorem parameters_restricted {filter : Option SqlExpr} {marks : List (SourceId × SqlExpr)}
    (h : ∀ m ∈ marks, m.2.parameters = []) :
    (restricted filter marks).toList.flatMap SqlExpr.parameters =
      filter.toList.flatMap SqlExpr.parameters := by
  induction marks with
  | nil => rfl
  | cons m marks ih =>
    obtain ⟨hm, hmarks⟩ := List.forall_mem_cons.1 h
    have ih := ih hmarks
    rw [restricted]
    cases hp : restricted filter marks with
    | none =>
      rw [hp] at ih
      rw [← ih]
      simp [SqlExpr.parameters, hm]
    | some p =>
      rw [hp] at ih
      rw [← ih]
      simp [SqlExpr.parameters, hm]

section

variable {s : Schema} {q : Query}

def references (q : Query) : List String := (expressions q).flatMap parametersOf

theorem Stages.parameters_eq {plan : Plan} {base : Select} {columns : List ColumnEntry}
    {marks : List (SourceId × SqlExpr)} (h : Stages s q plan base columns marks) :
    plan.select.expressions.flatMap SqlExpr.parameters = references q := by
  have hprojection : (plan.select.projection.map (·.expr)).flatMap SqlExpr.parameters = [] := by
    have hcolumns : plan.select.projection = (selected s q).map entryOf := by
      rw [h.select]
      exact h.projected
    rw [hcolumns, List.map_map, List.flatMap_map, List.flatMap_eq_nil_iff]
    exact fun _ _ => rfl
  have hjoins : (plan.select.joins.map (·.condition)).flatMap SqlExpr.parameters =
      (q.shape.joins.map (·.outerKey)).flatMap parametersOf := by
    rw [h.select, List.flatMap_map, List.flatMap_map]
    apply flatMap_eq_of_forall₂
    refine h.skeleton.joins.imp ?_
    intro j tj htj
    simp only [Plan.join, bind_eq_ok_iff, pure_eq_ok] at htj
    obtain ⟨_, _, _, _, _, _, outer, houter, rfl⟩ := htj
    exact (List.append_nil _).trans (parameters_expr houter)
  have hpredicate : plan.select.predicate.toList.flatMap SqlExpr.parameters =
      q.shape.filter.toList.flatMap parametersOf := by
    have hmarks : ∀ m ∈ marks, m.2.parameters = [] := by
      intro m hm
      obtain ⟨id, -, hr⟩ := Option.bind_eq_some_iff.1 (h.marked.sound m hm)
      exact parameters_restriction? hr
    rw [h.select]
    change (restricted base.predicate marks).toList.flatMap _ = _
    rw [parameters_restricted hmarks]
    have hfilter := h.skeleton.predicate
    generalize q.shape.filter = filter at hfilter
    generalize base.predicate = predicate at hfilter
    cases hfilter with
    | none => rfl
    | some he => simp [parameters_expr he]
  have horderBy : (plan.select.orderBy.map (·.expr)).flatMap SqlExpr.parameters =
      (q.shape.orderBy.map (·.expr)).flatMap parametersOf := by
    rw [h.select, List.flatMap_map, List.flatMap_map]
    exact flatMap_eq_of_forall₂ (h.skeleton.orderBy.imp (fun _ _ ho => parameters_expr ho.1))
  rw [Select.expressions, references, expressions, List.flatMap_append, List.flatMap_append,
    List.flatMap_append, List.flatMap_append, List.flatMap_append, hprojection, hjoins, hpredicate,
    horderBy, List.nil_append]

/-- Binding looks every parameter up and fails with the first one that has no value. -/
theorem bind_ofQuery {plan : Plan} (h : Plan.ofQuery s q = .ok plan) :
    ∃ values, Relational.CompiledQuery.bind ⟨plan.select.render, plan.shape⟩ q.parameters =
      guarded ((references q).findSome? (missing? q.parameters)) values := by
  obtain ⟨base, columns, marks, hstages⟩ := exists_stages h
  have hnames : plan.select.render.parameterNames = Sql.distinct (references q) := by
    rw [← hstages.parameters_eq]
    rfl
  have hvalue : List.Forall₂ (fun name name' => q.parameters.value name' =
      guarded (missing? q.parameters name) ((q.parameters.get? name).getD .null))
      (Sql.distinct (references q)) (Sql.distinct (references q)) :=
    List.forall₂_same.2 (fun name _ => value_eq q.parameters name)
  rw [Relational.CompiledQuery.bind, hnames, mapM_guarded hvalue, findSome?_distinct]
  exact ⟨_, rfl⟩

/-- A query with a reference to a missing value. Binding its parameters fails with the first one in
the order of the text, whatever is stored. In memory the query fails only with what its evaluation
meets first, and gives its rows if it meets nothing. -/
theorem missing_value {plan : Plan} (h : Plan.ofQuery s q = .ok plan) (hmissing : ¬ Supplied q)
    (session : Session Memory.State) :
    let tables := session.state.database.rows
    (∃ before name after, references q = before ++ name :: after ∧
      (∀ earlier ∈ before, ∃ v, q.parameters.get? earlier = some v) ∧
      q.parameters.get? name = none ∧
      Relational.CompiledQuery.bind ⟨plan.select.render, plan.shape⟩ q.parameters =
        .error (missingValue name)) ∧
    Memory.run plan q.parameters session =
      (guarded (runFailure? s q tables) (rows s q tables), session) ∧
    ∀ error, runFailure? s q tables = some error → Fault q error := by
  intro tables
  have hplanned := planned_ofQuery h
  refine ⟨?_, ?_, fun _ => fault_of_runFailure? hplanned.sources⟩
  · obtain ⟨values, hbind⟩ := bind_ofQuery h
    rw [hbind]
    cases hfirst : (references q).findSome? (missing? q.parameters) with
    | none =>
      refine absurd ?_ hmissing
      intro e he name hname
      have hmem : name ∈ references q := List.mem_flatMap.2 ⟨e, he, hname⟩
      exact missing?_eq_none_iff.1 (List.findSome?_eq_none_iff.1 hfirst name hmem)
    | some error =>
      obtain ⟨before, name, after, hsplit, hname, hbefore⟩ := List.findSome?_eq_some_iff.1 hfirst
      obtain ⟨habsent, rfl⟩ := missing?_eq_some_iff.1 hname
      refine ⟨before, name, after, hsplit, ?_, habsent, rfl⟩
      intro earlier hearlier
      exact missing?_eq_none_iff.1 (hbefore earlier hearlier)
  · rw [Memory.run, Run.run_bind, Run.run_state]
    change Run.ofExcept (session.state.database.evaluate plan.select q.parameters) session = _
    rw [Run.run_ofExcept, hplanned.evaluate]

end

def blogById : Query :=
  { shape :=
      { source := ⟨⟨0⟩, ⟨0⟩⟩, joins := []
        filter := some (.equals (.property ⟨0⟩ "Id") (.parameter "id")), orderBy := []
        skip := none, take := none, selector := .properties [.property ⟨0⟩ "Id"] }
    parameters := .empty }

theorem missing_value_blogById :
    ∃ plan, Plan.ofQuery Schema.blogs blogById = .ok plan ∧ ¬ Supplied blogById ∧
      (∃ name, blogById.parameters.get? name = none ∧
        Relational.CompiledQuery.bind ⟨plan.select.render, plan.shape⟩ blogById.parameters =
          .error (missingValue name)) ∧
      Memory.run plan blogById.parameters (.ofState ⟨oneBlog, false⟩) =
        (.error (missingValue "id"), .ofState ⟨oneBlog, false⟩) := by
  have hmissing : ¬ Supplied blogById := by decide
  obtain ⟨⟨_, name, _, -, -, habsent, hbind⟩, hrun, -⟩ :=
    missing_value (s := Schema.blogs) (q := blogById) rfl hmissing (.ofState ⟨oneBlog, false⟩)
  exact ⟨_, rfl, hmissing, ⟨name, habsent, hbind⟩, hrun⟩

/-- Where there is none, the query succeeds in memory although binding its parameters fails. -/
theorem unmet_value_blogById :
    Schema.ofDef Schema.blogDef = .ok Schema.blogs ∧
      ∃ plan, Plan.ofQuery Schema.blogs blogById = .ok plan ∧ ¬ Supplied blogById ∧
        Relational.CompiledQuery.bind ⟨plan.select.render, plan.shape⟩ blogById.parameters =
          .error (.invalidArgument "id" "no value supplied for query parameter") ∧
        Memory.run plan blogById.parameters (.ofState ⟨.empty, false⟩) =
          (.ok [], .ofState ⟨.empty, false⟩) :=
  ⟨rfl, _, rfl, by decide, rfl, rfl⟩

end EntityStore.Reading
