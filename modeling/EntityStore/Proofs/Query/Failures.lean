import EntityStore.Proofs.OrderedMap
import EntityStore.Proofs.Query.Reading
import EntityStore.Proofs.Traversal

/-!
# Failures of queries

An expression reads a source that has no record yet, or a parameter that has no value: nothing else
makes a query fail. Expressions are evaluated from left to right, and the right side of a connective
only if the left one does not decide, so the records decide whether a failure is met.
-/

namespace EntityStore.Reading

open Traversal

theorem andTruth_false_left (b : Option Bool) : andTruth (some false) b = some false := by
  rcases b with _ | _ | _ <;> rfl

theorem orTruth_true_left (b : Option Bool) : orTruth (some true) b = some true := by
  rcases b with _ | _ | _ <;> rfl

def missingValue (name : String) : StoreError :=
  .invalidArgument name "no value supplied for query parameter"

def missing? (parameters : Parameters) (name : String) : Option StoreError :=
  if (parameters.get? name).isSome then none else some (missingValue name)

section

variable (s : Schema) (q : Query)

/-- What the evaluation of an expression over some records fails with. -/
def failure? (c : Combination) : Expr → Option StoreError
  | .property source _ =>
    if source ∈ c.map Prod.fst then none else some (SqlExpr.unknownTable source.tableLabel)
  | .constant _ => none
  | .parameter name => missing? q.parameters name
  | .compare _ l r => (failure? c l).or (failure? c r)
  | .and l r =>
    (failure? c l).or (if (value s q c l).truth = some false then none else failure? c r)
  | .or l r => (failure? c l).or (if (value s q c l).truth = some true then none else failure? c r)
  | .not e | .isNull e => failure? c e

def extended (tables : TableContents) (cs : List Combination) (j : Join) : List Combination :=
  cs.flatMap (fun c => (records s tables j.source).map (fun r => c ++ [(j.source.id, r)]))

def matching (tables : TableContents) (cs : List Combination) (j : Join) : List Combination :=
  (extended s tables cs j).filter (fun d => joins s q d j)

/-- What joining further sources to some combinations fails with. The key of a join is looked at
while the record of its own source is there and those of later sources are not. -/
def joinFailure? (tables : TableContents) : List Combination → List Join → Option StoreError
  | _, [] => none
  | cs, j :: rest =>
    ((extended s tables cs j).findSome? (fun d => failure? s q d j.outerKey)).or
      (joinFailure? tables (matching s q tables cs j) rest)

def filterFailure? (cs : List Combination) : Option StoreError :=
  cs.findSome? (fun c => q.shape.filter.bind (failure? s q c))

def orderFailure? (cs : List Combination) : Option StoreError :=
  cs.findSome? (fun c => q.shape.orderBy.findSome? (fun o => failure? s q c o.expr))

/-- What a run of a query fails with: first the joins are made, then the filter is applied to what
they leave, then the rest is sorted. -/
def runFailure? (tables : TableContents) : Option StoreError :=
  let joined := (combinations s tables q.sources).filter (fun c => q.shape.joins.all (joins s q c))
  let kept := (combinations s tables q.sources).filter (satisfies s q)
  (joinFailure? s q tables (combinations s tables [q.shape.source]) q.shape.joins).or
    ((filterFailure? s q joined).or (orderFailure? s q kept))

/-- What an expression reads and does not find in some records and in the values of parameters. -/
inductive Lacks (c : Combination) (e : Expr) : StoreError → Prop
  | record {source : SourceId} (reads : source ∈ sourcesOf e) (absent : source ∉ c.map Prod.fst) :
      Lacks c e (SqlExpr.unknownTable source.tableLabel)
  | value {name : String} (reads : name ∈ parametersOf e) (absent : q.parameters.get? name = none) :
      Lacks c e (missingValue name)

inductive Fault : StoreError → Prop
  | unbound {i : Nat} {j : Join} {source : SourceId} (join : q.shape.joins[i]? = some j)
      (reads : source ∈ sourcesOf j.outerKey) (later : source ∉ (q.sources.take (i + 2)).map (·.id)) :
      Fault (SqlExpr.unknownTable source.tableLabel)
  | missing {e : Expr} {name : String} (evaluated : e ∈ expressions q) (reads : name ∈ parametersOf e)
      (absent : q.parameters.get? name = none) : Fault (missingValue name)

end

section

variable {s : Schema} {q : Query} {c : Combination} {e : Expr}

theorem value_eq (parameters : Parameters) (name : String) :
    parameters.value name =
      guarded (missing? parameters name) ((parameters.get? name).getD .null) := by
  rw [Parameters.value, missing?]
  cases parameters.get? name <;> rfl

theorem missing?_eq_none_iff {parameters : Parameters} {name : String} :
    missing? parameters name = none ↔ ∃ v, parameters.get? name = some v := by
  rw [missing?]
  cases parameters.get? name <;> simp

theorem missing?_eq_some_iff {parameters : Parameters} {name : String} {error : StoreError} :
    missing? parameters name = some error ↔
      parameters.get? name = none ∧ error = missingValue name := by
  rw [missing?]
  cases parameters.get? name <;> simp [eq_comm]

theorem Lacks.mono {e' : Expr} {error : StoreError} (h : Lacks q c e error)
    (hsources : sourcesOf e ⊆ sourcesOf e') (hparameters : parametersOf e ⊆ parametersOf e') :
    Lacks q c e' error := by
  cases h with
  | record hreads habsent => exact .record (hsources hreads) habsent
  | value hreads habsent => exact .value (hparameters hreads) habsent

theorem lacks_of_failure? {error : StoreError} (h : failure? s q c e = some error) :
    Lacks q c e error := by
  induction e with
  | property source name =>
    rw [failure?] at h
    split at h
    · cases h
    · rename_i hsource
      cases h
      exact .record (List.mem_singleton_self source) hsource
  | constant v => cases h
  | parameter name =>
    obtain ⟨habsent, rfl⟩ := missing?_eq_some_iff.1 h
    exact .value (List.mem_singleton_self name) habsent
  | compare op l r ihl ihr =>
    rcases Option.or_eq_some_iff.1 h with h | ⟨-, h⟩
    · exact (ihl h).mono (List.subset_append_left _ _) (List.subset_append_left _ _)
    · exact (ihr h).mono (List.subset_append_right _ _) (List.subset_append_right _ _)
  | and l r ihl ihr =>
    rcases Option.or_eq_some_iff.1 h with h | ⟨-, h⟩
    · exact (ihl h).mono (List.subset_append_left _ _) (List.subset_append_left _ _)
    · split at h
      · cases h
      · exact (ihr h).mono (List.subset_append_right _ _) (List.subset_append_right _ _)
  | or l r ihl ihr =>
    rcases Option.or_eq_some_iff.1 h with h | ⟨-, h⟩
    · exact (ihl h).mono (List.subset_append_left _ _) (List.subset_append_left _ _)
    · split at h
      · cases h
      · exact (ihr h).mono (List.subset_append_right _ _) (List.subset_append_right _ _)
  | not e ih => exact (ih h).mono (List.Subset.refl _) (List.Subset.refl _)
  | isNull e ih => exact (ih h).mono (List.Subset.refl _) (List.Subset.refl _)

theorem value_append (h : failure? s q c e = none) (d : Combination) :
    value s q (c ++ d) e = value s q c e := by
  induction e with
  | property source name =>
    rw [failure?] at h
    split at h
    · rename_i hsource
      simp only [value, read, OrderedMap.lookup_append hsource]
    · cases h
  | constant v => rfl
  | parameter name => rfl
  | compare op l r ihl ihr =>
    obtain ⟨hl, hr⟩ := Option.or_eq_none_iff.1 h
    rw [value, value, ihl hl, ihr hr]
  | and l r ihl ihr =>
    obtain ⟨hl, hr⟩ := Option.or_eq_none_iff.1 h
    rw [value, value, ihl hl]
    split at hr
    · rename_i hfalse
      rw [hfalse, andTruth_false_left, andTruth_false_left]
    · rw [ihr hr]
  | or l r ihl ihr =>
    obtain ⟨hl, hr⟩ := Option.or_eq_none_iff.1 h
    rw [value, value, ihl hl]
    split at hr
    · rename_i htrue
      rw [htrue, orTruth_true_left, orTruth_true_left]
    · rw [ihr hr]
  | not e ih => rw [value, value, ih h]
  | isNull e ih => rw [value, value, ih h]

end

section

variable {s : Schema} {q : Query} {tables : TableContents}

theorem mem_extended {cs : List Combination} {j : Join} {d : Combination} :
    d ∈ extended s tables cs j ↔
      ∃ c ∈ cs, ∃ r ∈ records s tables j.source, c ++ [(j.source.id, r)] = d := by
  simp only [extended, List.mem_flatMap, List.mem_map]

theorem take_sources {done rest : List Join} {j : Join} (hjoins : q.shape.joins = done ++ j :: rest) :
    (q.sources.take (done.length + 2)).map (·.id) =
      (q.shape.source :: done.map (·.source)).map (·.id) ++ [j.source.id] := by
  have hlength : done.length + 2 = (q.shape.source :: done.map (·.source)).length + 1 := by simp
  have hsources : q.sources = (q.shape.source :: done.map (·.source)) ++ j.source :: rest.map (·.source) := by
    rw [Query.sources, hjoins, List.map_append, List.map_cons, List.cons_append]
  rw [hsources, hlength, List.take_length_add_append, List.take_succ_cons, List.take_zero,
    List.map_append]
  rfl

theorem lacks_of_joinFailure? {done rest : List Join} (hjoins : q.shape.joins = done ++ rest)
    {cs : List Combination}
    (hcs : ∀ c ∈ cs, c.map Prod.fst = (q.shape.source :: done.map (·.source)).map (·.id))
    {error : StoreError} (h : joinFailure? s q tables cs rest = some error) :
    ∃ i j d, q.shape.joins[i]? = some j ∧ d.map Prod.fst = (q.sources.take (i + 2)).map (·.id) ∧
      Lacks q d j.outerKey error := by
  induction rest generalizing done cs with
  | nil => cases h
  | cons j rest ih =>
    have hkeys : ∀ d ∈ extended s tables cs j,
        d.map Prod.fst = (q.sources.take (done.length + 2)).map (·.id) := by
      intro d hd
      obtain ⟨c, hc, r, -, rfl⟩ := mem_extended.1 hd
      rw [take_sources hjoins, ← hcs c hc, List.map_append]
      rfl
    rcases Option.or_eq_some_iff.1 h with h | ⟨-, h⟩
    · obtain ⟨d, hd, hfailure⟩ := List.exists_of_findSome?_eq_some h
      refine ⟨done.length, j, d, ?_, hkeys d hd, lacks_of_failure? hfailure⟩
      rw [hjoins, List.getElem?_append_right (Nat.le_refl _), Nat.sub_self, List.getElem?_cons_zero]
    · have hjoins' : q.shape.joins = (done ++ [j]) ++ rest := by
        rw [hjoins, List.append_assoc, List.singleton_append]
      refine ih hjoins' ?_ h
      intro d hd
      rw [hkeys d (List.mem_of_mem_filter hd), take_sources hjoins]
      simp

theorem fault_of_runFailure?
    (hsources : ∀ e ∈ expressions q, ∀ source ∈ sourcesOf e, source ∈ q.sources.map (·.id))
    {error : StoreError} (h : runFailure? s q tables = some error) : Fault q error := by
  have hfull : ∀ c ∈ combinations s tables q.sources, ∀ e ∈ expressions q,
      failure? s q c e = some error → Fault q error := by
    intro c hc e he hfailure
    cases lacks_of_failure? hfailure with
    | record hreads habsent =>
      exact absurd (keys_of_mem_combinations hc ▸ hsources e he _ hreads) habsent
    | value hreads habsent => exact .missing he hreads habsent
  rcases Option.or_eq_some_iff.1 h with h | ⟨-, h⟩
  · have hjoins : q.shape.joins = [] ++ q.shape.joins := rfl
    obtain ⟨i, j, d, hj, hkeys, hlacks⟩ :=
      lacks_of_joinFailure? hjoins (fun c hc => keys_of_mem_combinations hc) h
    cases hlacks with
    | record hreads habsent => exact .unbound hj hreads (hkeys ▸ habsent)
    | value hreads habsent =>
      have hmem : j.outerKey ∈ expressions q :=
        List.mem_append_left _ (List.mem_append_left _ (List.mem_map_of_mem (List.mem_of_getElem? hj)))
      exact .missing hmem hreads habsent
  rcases Option.or_eq_some_iff.1 h with h | ⟨-, h⟩
  · obtain ⟨c, hc, hfailure⟩ := List.exists_of_findSome?_eq_some h
    obtain ⟨e, he, hfailure⟩ := Option.bind_eq_some_iff.1 hfailure
    have hmem : e ∈ expressions q :=
      List.mem_append_left _ (List.mem_append_right _ (Option.mem_toList.2 he))
    exact hfull c (List.mem_of_mem_filter hc) e hmem hfailure
  · obtain ⟨c, hc, hfailure⟩ := List.exists_of_findSome?_eq_some h
    obtain ⟨o, ho, hfailure⟩ := List.exists_of_findSome?_eq_some hfailure
    have hmem : o.expr ∈ expressions q := List.mem_append_right _ (List.mem_map_of_mem ho)
    exact hfull c (List.mem_of_mem_filter hc) _ hmem hfailure

theorem Fault.early {error : StoreError} (h : Fault q error) (hsupplied : Supplied q) :
    ∃ i j source, q.shape.joins[i]? = some j ∧ source ∈ sourcesOf j.outerKey ∧
      source ∉ (q.sources.take (i + 2)).map (·.id) ∧
      error = SqlExpr.unknownTable source.tableLabel := by
  cases h with
  | unbound hj hreads hlater => exact ⟨_, _, _, hj, hreads, hlater, rfl⟩
  | missing he hreads habsent =>
    obtain ⟨v, hv⟩ := hsupplied _ he _ hreads
    rw [hv] at habsent
    cases habsent

/-- A query that reads nothing too early and has all its values does not fail. -/
theorem runFailure?_eq_none
    (hsources : ∀ e ∈ expressions q, ∀ source ∈ sourcesOf e, source ∈ q.sources.map (·.id))
    (hscoped : Scoped q) (hsupplied : Supplied q) : runFailure? s q tables = none := by
  rw [Option.eq_none_iff_forall_ne_some]
  intro error h
  obtain ⟨i, j, source, hj, hreads, hlater, -⟩ := (fault_of_runFailure? hsources h).early hsupplied
  exact hlater (hscoped i j hj source hreads)

end

end EntityStore.Reading
