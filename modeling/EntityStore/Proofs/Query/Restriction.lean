import EntityStore.Proofs.Query.Candidates
import EntityStore.Proofs.Sql.Holds

/-!
# Restrictions of sources

The predicate of a planned statement is the filter of the query followed by one marked restriction
for each source that needs one; restricting a source again leaves it as it is. A restriction holds
where the record of the source belongs to its type.
-/

namespace EntityStore.Reading

open Traversal

variable {parameters : Parameters} {binding : Binding}

/-- No restriction stands in an expression. -/
def Unmarked (e : SqlExpr) : Prop := ∀ source p, SqlExpr.replaceDiscriminator? source p e = none

theorem unmarked_expr {s : Schema} {known : Plan.Scope} {e : Expr} {e' : SqlExpr}
    (h : Plan.expr s known e = .ok e') : Unmarked e' := by
  intro source p
  induction e generalizing e' with
  | property _ _ =>
    simp only [Plan.expr, bind_eq_ok_iff, pure_eq_ok] at h
    obtain ⟨_, _, _, _, rfl⟩ := h
    rfl
  | constant _ =>
    cases h
    rfl
  | parameter _ =>
    cases h
    rfl
  | compare _ _ _ _ _ =>
    simp only [Plan.expr, bind_eq_ok_iff, pure_eq_ok] at h
    obtain ⟨_, _, _, _, rfl⟩ := h
    rfl
  | and _ _ ihl ihr =>
    simp only [Plan.expr, bind_eq_ok_iff, pure_eq_ok] at h
    obtain ⟨l, hl, r, hr, rfl⟩ := h
    simp [SqlExpr.replaceDiscriminator?, ihl hl, ihr hr]
  | or _ _ ihl ihr =>
    simp only [Plan.expr, bind_eq_ok_iff, pure_eq_ok] at h
    obtain ⟨l, hl, r, hr, rfl⟩ := h
    simp [SqlExpr.replaceDiscriminator?, ihl hl, ihr hr]
  | not _ ih =>
    simp only [Plan.expr, bind_eq_ok_iff, pure_eq_ok] at h
    obtain ⟨e, he, rfl⟩ := h
    simp [SqlExpr.replaceDiscriminator?, ih he]
  | isNull _ ih =>
    simp only [Plan.expr, bind_eq_ok_iff, pure_eq_ok] at h
    obtain ⟨e, he, rfl⟩ := h
    simp [SqlExpr.replaceDiscriminator?, ih he]

/-- A filter followed by restrictions, of which the latest is listed first. -/
def restricted (filter : Option SqlExpr) : List (SourceId × SqlExpr) → Option SqlExpr
  | [] => filter
  | (source, e) :: earlier =>
    match restricted filter earlier with
    | some p => some (.and p (.discriminator source e))
    | none => some (.discriminator source e)

theorem restricted_eq_none {filter : Option SqlExpr} {marks : List (SourceId × SqlExpr)} :
    restricted filter marks = none ↔ filter = none ∧ marks = [] := by
  cases marks with
  | nil => simp [restricted]
  | cons m marks =>
    rw [restricted]
    split <;> simp

def mark (marks : List (SourceId × SqlExpr)) (source : SourceId) :
    Option SqlExpr → List (SourceId × SqlExpr)
  | none => marks
  | some e => if source ∈ marks.map Prod.fst then marks else (source, e) :: marks

theorem subset_mark (marks : List (SourceId × SqlExpr)) (source : SourceId) (r : Option SqlExpr) :
    marks ⊆ mark marks source r := by
  intro m hm
  cases r with
  | none => exact hm
  | some e =>
    rw [mark]
    split
    · exact hm
    · exact List.mem_cons_of_mem _ hm

theorem mem_of_mem_mark {marks : List (SourceId × SqlExpr)} {source : SourceId} {r : Option SqlExpr}
    {m : SourceId × SqlExpr} (h : m ∈ mark marks source r) :
    m ∈ marks ∨ m.1 = source ∧ r = some m.2 := by
  cases r with
  | none => exact Or.inl h
  | some e =>
    rw [mark] at h
    split at h
    · exact Or.inl h
    · rcases List.mem_cons.mp h with rfl | h
      · exact Or.inr ⟨rfl, rfl⟩
      · exact Or.inl h

theorem mem_mark_self {marks : List (SourceId × SqlExpr)} {source : SourceId} {e : SqlExpr}
    (hmarks : ∀ m ∈ marks, m.1 = source → m.2 = e) : (source, e) ∈ mark marks source (some e) := by
  rw [mark]
  split
  · rename_i hmem
    obtain ⟨m, hm, rfl⟩ := List.mem_map.mp hmem
    exact hmarks m hm rfl ▸ hm
  · exact List.mem_cons_self

theorem replaceDiscriminator?_restricted {filter : Option SqlExpr}
    (hfilter : ∀ p, filter = some p → Unmarked p) {marks : List (SourceId × SqlExpr)}
    {source : SourceId} {e : SqlExpr} (hmarks : ∀ m ∈ marks, m.1 = source → m.2 = e) :
    (restricted filter marks).bind (SqlExpr.replaceDiscriminator? source e) =
      if source ∈ marks.map Prod.fst then restricted filter marks else none := by
  induction marks with
  | nil =>
    cases hp : filter with
    | none => simp [restricted]
    | some p => simp [restricted, hfilter p hp source e]
  | cons m marks ih =>
    obtain ⟨source', e'⟩ := m
    have ih := ih (fun m hm => hmarks m (List.mem_cons_of_mem _ hm))
    have hhead := hmarks (source', e') List.mem_cons_self
    rw [restricted]
    cases hp : restricted filter marks with
    | none =>
      rw [hp] at ih
      have hnot : source ∉ marks.map Prod.fst := by simp [(restricted_eq_none.mp hp).2]
      by_cases h : source' = source
      · obtain rfl : e' = e := hhead h
        simp [SqlExpr.replaceDiscriminator?, h]
      · simp [SqlExpr.replaceDiscriminator?, h, Ne.symm h, hnot]
    | some p =>
      rw [hp, Option.bind_some] at ih
      by_cases hmem : source ∈ marks.map Prod.fst
      · simp [SqlExpr.replaceDiscriminator?, ih, hmem]
      · by_cases h : source' = source
        · rw [if_neg hmem] at ih
          obtain rfl : e' = e := hhead h
          simp [SqlExpr.replaceDiscriminator?, ih, h]
        · simp [SqlExpr.replaceDiscriminator?, ih, hmem, h, Ne.symm h]

theorem setDiscriminator_eq {select : Select} {filter : Option SqlExpr}
    (hfilter : ∀ p, filter = some p → Unmarked p) {marks : List (SourceId × SqlExpr)}
    (hpredicate : select.predicate = restricted filter marks) {source : SourceId} {e : SqlExpr}
    (hmarks : ∀ m ∈ marks, m.1 = source → m.2 = e) :
    select.setDiscriminator source e =
      { select with predicate := restricted filter (mark marks source (some e)) } := by
  have hreplace := replaceDiscriminator?_restricted hfilter hmarks
  rw [Select.setDiscriminator, hpredicate, hreplace, mark]
  by_cases hmem : source ∈ marks.map Prod.fst
  · rw [if_pos hmem, if_pos hmem]
    cases hp : restricted filter marks with
    | none =>
      rw [(restricted_eq_none.mp hp).2] at hmem
      cases hmem
    | some p => rfl
  · rw [if_neg hmem, if_neg hmem]
    simp only [Select.addPredicate, hpredicate, restricted]
    cases restricted filter marks <;> rfl

/-- The outcome of a predicate; without one there is nothing that could fail, or fail to hold. -/
def Outcome (parameters : Parameters) (binding : Binding) (failure : Option StoreError) (b : Bool) :
    Option SqlExpr → Prop
  | none => failure = none ∧ b = true
  | some p => p.holds parameters binding = guarded failure b

/-- A restricted filter holds where the filter and all restrictions do, and fails as the filter. -/
theorem outcome_restricted {filter : Option SqlExpr} {failure : Option StoreError} {b : Bool}
    (hfilter : Outcome parameters binding failure b filter) {test : SourceId × SqlExpr → Bool}
    {marks : List (SourceId × SqlExpr)}
    (hmarks : ∀ m ∈ marks, m.2.holds parameters binding = .ok (test m)) :
    Outcome parameters binding failure (b && marks.all test) (restricted filter marks) := by
  induction marks with
  | nil => simpa [restricted] using hfilter
  | cons m marks ih =>
    have hhead : (SqlExpr.discriminator m.1 m.2).holds parameters binding = .ok (test m) :=
      hmarks m List.mem_cons_self
    have ih := ih (fun m hm => hmarks m (List.mem_cons_of_mem _ hm))
    rw [restricted]
    cases hp : restricted filter marks with
    | none =>
      rw [hp] at ih
      obtain ⟨rfl, htrue⟩ := ih
      obtain ⟨hb, hall⟩ := (Bool.and_eq_true _ _).mp htrue
      simpa [Outcome, hb, hall] using hhead
    | some p =>
      rw [hp] at ih
      change (SqlExpr.and p _).holds parameters binding = _
      cases failure with
      | none => rw [SqlExpr.holds_and ih hhead, List.all_cons, Bool.and_assoc, Bool.and_comm (test m), guarded_none]
      | some e =>
        have heval : p.eval parameters binding = .error e := SqlExpr.eval_of_holds_error ih
        rw [SqlExpr.holds, SqlExpr.eval, heval]
        rfl

theorem keep_map {predicate : Option SqlExpr} {failure : Combination → Option StoreError}
    {test : Combination → Bool} {l : List Combination}
    (h : ∀ c ∈ l, Outcome parameters (bindingOf c) (failure c) (test c) predicate) :
    Select.keep predicate parameters (l.map bindingOf) =
      guarded (l.findSome? failure) ((l.filter test).map bindingOf) := by
  cases predicate with
  | none =>
    rw [List.findSome?_eq_none_iff.2 (fun c hc => (h c hc).1),
      List.filter_eq_self.mpr (fun c hc => (h c hc).2)]
    rfl
  | some p => exact filterM_map_guarded h

end EntityStore.Reading
