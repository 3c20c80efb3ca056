import EntityStore.Proofs.Query.Expression
import EntityStore.Proofs.Sql.Holds

/-!
# Joins

Joining the tables one after the other, each time with the rows that match what is bound already,
gives the combinations of all records for which all joins hold, in the same order.
-/

namespace EntityStore.Reading

open Traversal

/-- The sources of a query are declared once, under known types. -/
structure Declared (s : Schema) (q : Query) : Prop where
  nodup : (q.sources.map (·.id)).Nodup
  known : ∀ x ∈ q.sources, ∃ t, s.entityType x.entityType = .ok t

theorem Declared.sourceType?_eq {s : Schema} {q : Query} (h : Declared s q) {x : QuerySource}
    (hx : x ∈ q.sources) : sourceType? q x.id = some x.entityType := by
  have hnodup := h.nodup
  unfold sourceType?
  revert hnodup hx
  induction q.sources with
  | nil => simp
  | cons y ys ih =>
    intro hx hnodup
    obtain ⟨hnew, hnodup⟩ := List.nodup_cons.mp hnodup
    rcases List.mem_cons.mp hx with rfl | hx
    · simp
    · have hne : y.id ≠ x.id := by
        intro heq
        exact hnew (List.mem_map.mpr ⟨x, hx, heq.symm⟩)
      simp [hne, ih hx hnodup]

theorem scopeOf_eq_ok {s : Schema} {known scope' : Plan.Scope} {xs : List QuerySource}
    (h : Plan.scopeOf s known xs = .ok scope') :
    scope' = known ++ xs.map (fun x => (x.id, x.entityType)) ∧
      (∀ x ∈ xs, ∃ t, s.entityType x.entityType = .ok t) ∧
      (∀ x ∈ xs, x.id ∉ known.map Prod.fst) ∧ (xs.map (·.id)).Nodup := by
  induction xs generalizing known with
  | nil =>
    cases h
    simp
  | cons x xs ih =>
    rw [Plan.scopeOf, bind_eq_ok_iff] at h
    obtain ⟨_, hknown, h⟩ := h
    obtain ⟨t, ht⟩ := discard_eq_ok_iff.mp hknown
    by_cases hdeclared : x.id ∈ known.map Prod.fst
    · obtain ⟨id, hid⟩ := OrderedMap.exists_lookup_iff.mpr hdeclared
      simp only [hid, Option.isSome_some, if_true] at h
      cases h
    · have hnone : OrderedMap.lookup x.id known = none := by
        rw [Option.eq_none_iff_forall_ne_some]
        exact fun id hid => hdeclared (OrderedMap.exists_lookup_iff.mp ⟨id, hid⟩)
      simp only [hnone, Option.isSome_none, Bool.false_eq_true, if_false] at h
      obtain ⟨rfl, hall, hfresh, hnodup⟩ := ih h
      refine ⟨by simp, ?_, ?_, ?_⟩
      · rw [List.forall_mem_cons]
        exact ⟨⟨t, liftM_eq_ok_iff.mp ht⟩, hall⟩
      · rw [List.forall_mem_cons]
        refine ⟨hdeclared, ?_⟩
        intro y hy hmem
        exact hfresh y hy (by simp [List.mem_map.mp hmem])
      · refine List.nodup_cons.mpr ⟨?_, hnodup⟩
        intro hmem
        obtain ⟨y, hy, hyx⟩ := List.mem_map.mp hmem
        exact hfresh y hy (by simp [hyx])

theorem declared_of_scopeOf {s : Schema} {q : Query} {scope' : Plan.Scope}
    (h : Plan.scopeOf s [] q.sources = .ok scope') : scope' = scope q ∧ Declared s q := by
  obtain ⟨rfl, hknown, _, hnodup⟩ := scopeOf_eq_ok h
  exact ⟨rfl, hnodup, hknown⟩

theorem tableRef_eq_ok {s : Schema} {q : Query} (hq : Declared s q) {x : QuerySource}
    (hx : x ∈ q.sources) {t : TableRef} (h : Plan.tableRef s (scope q) x.id = .ok t) :
    t.label = x.id.tableLabel ∧ t.source = x.id ∧
      ∀ tables : TableContents, tables t.table = records s tables x := by
  simp only [Plan.tableRef, bind_eq_ok_iff, pure_eq_ok, liftM_eq_ok_iff] at h
  obtain ⟨id, hid, name, hname, rfl⟩ := h
  rw [typeOf_scope, hq.sourceType?_eq hx] at hid
  cases hid
  exact ⟨rfl, rfl, fun tables => by rw [records, hname]⟩

theorem join_eq_ok {s : Schema} {q : Query} (hq : Declared s q) {j : Join}
    (hj : j.source ∈ q.sources) {tj : TableJoin} (h : Plan.join s (scope q) j = .ok tj) :
    tj.table.label = j.source.id.tableLabel ∧
      (∀ tables : TableContents, tables tj.table.table = records s tables j.source) ∧
      ∃ outer inner, tj.condition = .equals outer inner ∧
        Plan.expr s (scope q) j.outerKey = .ok outer ∧
        Plan.expr s (scope q) (.property j.source.id j.innerKey) = .ok inner := by
  simp only [Plan.join, bind_eq_ok_iff, pure_eq_ok, liftM_eq_ok_iff] at h
  obtain ⟨id, hid, inner, hinner, table, htable, outer, houter, rfl⟩ := h
  obtain ⟨hlabel, _, hrecords⟩ := tableRef_eq_ok hq hj htable
  refine ⟨hlabel, hrecords, outer, _, rfl, houter, ?_⟩
  rw [Plan.expr, hid, ok_bind, hinner]
  rfl

theorem holds_equals {parameters : Parameters} {binding : Binding} {l r : SqlExpr} {v w : Value}
    (hl : l.eval parameters binding = .ok v) (hr : r.eval parameters binding = .ok w) :
    (SqlExpr.equals l r).holds parameters binding = .ok (v.compare? w == some .eq) := by
  simp only [SqlExpr.holds, SqlExpr.equals, SqlExpr.eval, hl, hr, ok_bind]
  change Except.ok ((Value.ofTruth ((v.compare? w).map CompareOp.eq.holds)).truth == some true) = _
  rw [Value.truth_ofTruth]
  rcases v.compare? w with _ | _ | _ | _ <;> rfl

section

variable {s : Schema} {q : Query}

def joined (s : Schema) (q : Query) (tables : TableContents) (done : List Join) :
    List Combination :=
  (combinations s tables (q.shape.source :: done.map (·.source))).filter
    (fun c => done.all (joins s q c))

theorem joins_append {c : Combination} {j : Join} (h : failure? s q c j.outerKey = none)
    (hself : j.source.id ∈ c.map Prod.fst) (d : Combination) :
    joins s q (c ++ d) j = joins s q c j := by
  have hinner : failure? s q c (.property j.source.id j.innerKey) = none := if_pos hself
  rw [joins, joins, value_append h, value_append hinner]

theorem filter_flatMap_of_and {α β : Type} {l : List α} {g : α → List β} {p : α → Bool}
    {f f' : β → Bool} (h : ∀ a ∈ l, ∀ b ∈ g a, f b = (p a && f' b)) :
    (l.flatMap g).filter f = ((l.filter p).flatMap g).filter f' := by
  induction l with
  | nil => rfl
  | cons a l ih =>
    have htail := ih (fun x hx => h x (List.mem_cons_of_mem a hx))
    have hhead : (g a).filter f = (g a).filter (fun b => p a && f' b) :=
      List.filter_congr (h a List.mem_cons_self)
    rw [List.flatMap_cons, List.filter_append, htail, hhead]
    cases hp : p a with
    | false => simp [hp]
    | true => simp [hp]

theorem combinations_joined_snoc (tables : TableContents) (done : List Join) (j : Join) :
    combinations s tables (q.shape.source :: (done ++ [j]).map (·.source)) =
      extended s tables (combinations s tables (q.shape.source :: done.map (·.source))) j := by
  rw [List.map_append, ← List.cons_append, List.map_singleton, combinations_snoc]
  rfl

/-- The records of further sources do not change whether the first joins hold. -/
def Decided (s : Schema) (q : Query) (tables : TableContents) (done : List Join) : Prop :=
  ∀ c ∈ combinations s tables (q.shape.source :: done.map (·.source)), ∀ d,
    done.all (joins s q (c ++ d)) = done.all (joins s q c)

theorem joined_snoc {tables : TableContents} {done : List Join} (hdone : Decided s q tables done)
    (j : Join) :
    joined s q tables (done ++ [j]) = matching s q tables (joined s q tables done) j := by
  rw [matching, extended, joined, combinations_joined_snoc, extended, joined]
  apply filter_flatMap_of_and
  intro c hc d hd
  obtain ⟨r, _, rfl⟩ := List.mem_map.mp hd
  rw [List.all_append, hdone c hc, List.all_cons, List.all_nil, Bool.and_true]

theorem Decided.snoc {tables : TableContents} {done : List Join} (hdone : Decided s q tables done)
    {j : Join}
    (hj : ∀ d ∈ extended s tables (joined s q tables done) j, failure? s q d j.outerKey = none) :
    Decided s q tables (done ++ [j]) := by
  intro d hd e
  rw [combinations_joined_snoc, mem_extended] at hd
  obtain ⟨c, hc, r, hr, rfl⟩ := hd
  rw [List.all_append, List.all_append, List.append_assoc, hdone c hc, hdone c hc]
  cases hall : done.all (joins s q c) with
  | false => rfl
  | true =>
    -- the earlier joins hold, so the key of this one has been looked at
    have hmem : c ++ [(j.source.id, r)] ∈ extended s tables (joined s q tables done) j :=
      mem_extended.2 ⟨c, List.mem_filter.2 ⟨hc, hall⟩, r, hr, rfl⟩
    have hself : j.source.id ∈ (c ++ [(j.source.id, r)]).map Prod.fst := by simp
    rw [← List.append_assoc, List.all_cons, List.all_cons, joins_append (hj _ hmem) hself]
    rfl

theorem foldl_matching {tables : TableContents} {done rest : List Join}
    (hdone : Decided s q tables done)
    (h : joinFailure? s q tables (joined s q tables done) rest = none) :
    rest.foldl (matching s q tables) (joined s q tables done) = joined s q tables (done ++ rest) := by
  induction rest generalizing done with
  | nil => rw [List.foldl_nil, List.append_nil]
  | cons j rest ih =>
    obtain ⟨hj, hrest⟩ := Option.or_eq_none_iff.1 h
    rw [List.findSome?_eq_none_iff] at hj
    have hsnoc := joined_snoc hdone j
    rw [List.foldl_cons, ← hsnoc, ih (hdone.snoc hj) (hsnoc ▸ hrest), List.append_assoc,
      List.singleton_append]

theorem holds_join {j : Join} {outer inner : SqlExpr}
    (houter : Plan.expr s (scope q) j.outerKey = .ok outer)
    (hinner : Plan.expr s (scope q) (.property j.source.id j.innerKey) = .ok inner)
    {d : Combination} (hself : j.source.id ∈ d.map Prod.fst) :
    (SqlExpr.equals outer inner).holds q.parameters (bindingOf d) =
      guarded (failure? s q d j.outerKey) (joins s q d j) := by
  have hnone : failure? s q d (.property j.source.id j.innerKey) = none := if_pos hself
  have hinner := eval_expr hinner d
  have houter := eval_expr houter d
  rw [hnone] at hinner
  cases hfailure : failure? s q d j.outerKey with
  | none =>
    rw [hfailure] at houter
    exact holds_equals houter hinner
  | some e =>
    rw [hfailure] at houter
    rw [SqlExpr.holds, SqlExpr.equals, SqlExpr.eval, houter]
    rfl

/-- Joining a table keeps the combinations for which the join holds, if its key can be read. -/
theorem joinTable_eq (hq : Declared s q) (tables : TableContents) {j : Join}
    (hj : j.source ∈ q.sources) {tj : TableJoin} (htj : Plan.join s (scope q) j = .ok tj)
    (cs : List Combination) :
    Select.joinTable q.parameters tables (cs.map bindingOf) tj =
      guarded ((extended s tables cs j).findSome? (fun d => failure? s q d j.outerKey))
        ((matching s q tables cs j).map bindingOf) := by
  obtain ⟨hlabel, hrecords, outer, inner, hcondition, houter, hinner⟩ := join_eq_ok hq hj htj
  let candidates (c : Combination) := (records s tables j.source).map (fun r => c ++ [(j.source.id, r)])
  have hextend : ∀ c ∈ cs, Select.extendBinding q.parameters tables tj (bindingOf c) =
      guarded ((candidates c).findSome? (fun d => failure? s q d j.outerKey))
        (((candidates c).filter (fun d => joins s q d j)).map bindingOf) := by
    intro c _
    have hcandidates : (tables tj.table.table).map (fun r => bindingOf c ++ [(tj.table.label, r)]) =
        (candidates c).map bindingOf := by
      rw [hrecords tables, hlabel, List.map_map]
      exact List.map_congr_left (fun r _ => by simp [bindingOf])
    rw [Select.extendBinding, hcandidates]
    apply filterM_map_guarded
    intro d hd
    obtain ⟨r, _, rfl⟩ := List.mem_map.mp hd
    rw [hcondition]
    exact holds_join houter hinner (by simp)
  rw [Select.joinTable, mapM_map_guarded hextend, extended, findSome?_flatMap, matching, extended,
    List.filter_flatMap, List.map_flatMap]
  cases cs.findSome? (fun c => (candidates c).findSome? (fun d => failure? s q d j.outerKey)) with
  | none => exact congrArg Except.ok List.flatMap_def.symm
  | some e => rfl

theorem foldlM_joinTable (hq : Declared s q) (tables : TableContents) {rest : List Join}
    (hsub : ∀ j ∈ rest, j.source ∈ q.sources) {tjs : List TableJoin}
    (htjs : List.Forall₂ (fun j tj => Plan.join s (scope q) j = .ok tj) rest tjs)
    (cs : List Combination) :
    tjs.foldlM (Select.joinTable q.parameters tables) (cs.map bindingOf) =
      guarded (joinFailure? s q tables cs rest)
        ((rest.foldl (matching s q tables) cs).map bindingOf) := by
  induction htjs generalizing cs with
  | nil => rfl
  | @cons j tj rest tjs htj _ ih =>
    obtain ⟨hj, hsub⟩ := List.forall_mem_cons.1 hsub
    rw [List.foldlM_cons, joinTable_eq hq tables hj htj]
    apply guarded_bind
    intro _
    exact ih hsub _

end

end EntityStore.Reading
