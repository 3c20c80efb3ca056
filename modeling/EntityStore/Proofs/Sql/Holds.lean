import EntityStore.Proofs.Traversal
import EntityStore.Sql.Evaluation

/-!
# Where predicates hold

A connective of predicates that do not fail does not fail either, and it holds where the truth of both
sides says so: unknown counts as false.
-/

namespace EntityStore

theorem Value.truth_ofTruth (b : Option Bool) : (ofTruth b).truth = b := by
  cases b <;> rfl

namespace SqlExpr

open Traversal

variable {parameters : Parameters} {binding : Binding}

theorem eval_of_holds {e : SqlExpr} {b : Bool} (h : e.holds parameters binding = .ok b) :
    ∃ v, e.eval parameters binding = .ok v ∧ b = (v.truth == some true) := by
  simp only [SqlExpr.holds, bind_eq_ok_iff, pure_eq_ok] at h
  obtain ⟨v, hv, rfl⟩ := h
  exact ⟨v, hv, rfl⟩

theorem eval_of_holds_error {e : SqlExpr} {error : StoreError}
    (h : e.holds parameters binding = .error error) : e.eval parameters binding = .error error := by
  rw [SqlExpr.holds] at h
  cases heval : e.eval parameters binding with
  | error error' =>
    rw [heval, error_bind] at h
    cases h
    rfl
  | ok v =>
    rw [heval] at h
    cases h

theorem holds_and {l r : SqlExpr} {a b : Bool} (hl : l.holds parameters binding = .ok a)
    (hr : r.holds parameters binding = .ok b) :
    (SqlExpr.and l r).holds parameters binding = .ok (a && b) := by
  obtain ⟨v, hv, rfl⟩ := eval_of_holds hl
  obtain ⟨w, hw, rfl⟩ := eval_of_holds hr
  rw [SqlExpr.holds, SqlExpr.eval, hv, ok_bind]
  by_cases hfalse : v.truth = some false
  · rw [if_pos hfalse, hfalse]
    rfl
  · rw [if_neg hfalse, hw]
    change Except.ok ((Value.ofTruth (andTruth v.truth w.truth)).truth == some true) = _
    rw [Value.truth_ofTruth]
    rcases v.truth with _ | _ | _ <;> rcases w.truth with _ | _ | _ <;> rfl

theorem holds_or {l r : SqlExpr} {a b : Bool} (hl : l.holds parameters binding = .ok a)
    (hr : r.holds parameters binding = .ok b) :
    (SqlExpr.or l r).holds parameters binding = .ok (a || b) := by
  obtain ⟨v, hv, rfl⟩ := eval_of_holds hl
  obtain ⟨w, hw, rfl⟩ := eval_of_holds hr
  rw [SqlExpr.holds, SqlExpr.eval, hv, ok_bind]
  by_cases htrue : v.truth = some true
  · rw [if_pos htrue, htrue]
    rfl
  · rw [if_neg htrue, hw]
    change Except.ok ((Value.ofTruth (orTruth v.truth w.truth)).truth == some true) = _
    rw [Value.truth_ofTruth]
    rcases v.truth with _ | _ | _ <;> rcases w.truth with _ | _ | _ <;> rfl

theorem holds_any? {α : Type} {part : α → SqlExpr} {test : α → Bool} {xs : List α} {e : SqlExpr}
    (hany : SqlExpr.any? (xs.map part) = some e)
    (h : ∀ x ∈ xs, (part x).holds parameters binding = .ok (test x)) :
    e.holds parameters binding = .ok (xs.any test) := by
  have hfold : ∀ (rest : List α) (first : SqlExpr) (b : Bool),
      first.holds parameters binding = .ok b →
      (∀ x ∈ rest, (part x).holds parameters binding = .ok (test x)) →
      ((rest.map part).foldl SqlExpr.or first).holds parameters binding = .ok (b || rest.any test) := by
    intro rest
    induction rest with
    | nil =>
      intro first b hfirst _
      rw [List.map_nil, List.foldl_nil, hfirst, List.any_nil, Bool.or_false]
    | cons x rest ih =>
      intro first b hfirst hrest
      rw [List.map_cons, List.foldl_cons, ih _ _ (holds_or hfirst (hrest x List.mem_cons_self))
        (fun y hy => hrest y (List.mem_cons_of_mem x hy)), List.any_cons, Bool.or_assoc]
  cases xs with
  | nil => cases hany
  | cons first rest =>
    cases hany
    exact hfold rest (part first) (test first) (h first List.mem_cons_self)
      (fun x hx => h x (List.mem_cons_of_mem first hx))

end SqlExpr

end EntityStore
