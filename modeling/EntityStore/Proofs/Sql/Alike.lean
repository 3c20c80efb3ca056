import EntityStore.Proofs.Sql.Literal
import EntityStore.Proofs.Traversal

/-!
# Expressions with the same meaning

Two expressions are alike if they have the same value under every binding, up to what SQL does not
tell apart. Every node of an expression respects this.
-/

namespace EntityStore.SqlExpr

/-- Both have the same value wherever they are evaluated, up to what SQL does not tell apart. -/
def Alike (a b : SqlExpr) : Prop :=
  ∀ parameters binding,
    (a.eval parameters binding).map Value.plain = (b.eval parameters binding).map Value.plain

theorem Alike.cases {a b : SqlExpr} (h : a.Alike b) (parameters : Parameters) (binding : Binding) :
    (∃ v w, a.eval parameters binding = .ok v ∧ b.eval parameters binding = .ok w ∧ v.plain = w.plain) ∨
      ∃ e, a.eval parameters binding = .error e ∧ b.eval parameters binding = .error e := by
  have heq := h parameters binding
  cases ha : a.eval parameters binding with
  | error e =>
    rw [ha] at heq
    cases hb : b.eval parameters binding with
    | error e' =>
      rw [hb] at heq
      cases heq
      exact Or.inr ⟨e, rfl, rfl⟩
    | ok w =>
      rw [hb] at heq
      cases heq
  | ok v =>
    rw [ha] at heq
    cases hb : b.eval parameters binding with
    | error e =>
      rw [hb] at heq
      cases heq
    | ok w =>
      rw [hb] at heq
      exact Or.inl ⟨v, w, rfl, rfl, Except.ok.inj heq⟩

theorem Alike.refl (a : SqlExpr) : a.Alike a := fun _ _ => rfl

theorem Alike.literal {v w : Value} (h : v.plain = w.plain) : (SqlExpr.literal v).Alike (.literal w) :=
  fun _ _ => congrArg Except.ok h

theorem Alike.compare (op : CompareOp) {l l' r r' : SqlExpr} (hl : l.Alike l') (hr : r.Alike r') :
    (compare op l r).Alike (compare op l' r') := by
  intro parameters binding
  simp only [eval]
  obtain ⟨v, w, hv, hw, hvw⟩ | ⟨e, hv, hw⟩ := hl.cases parameters binding
  · obtain ⟨v', w', hv', hw', hvw'⟩ | ⟨e, hv', hw'⟩ := hr.cases parameters binding
    · have hcompare : v.compare? v' = w.compare? w' := by
        rw [← Value.compare?_plain, hvw, hvw', Value.compare?_plain]
      rw [hv, hw, hv', hw']
      simp only [Traversal.ok_bind, hcompare]
    · rw [hv, hw, hv', hw']
      rfl
  · rw [hv, hw]
    rfl

theorem Alike.and {l l' r r' : SqlExpr} (hl : l.Alike l') (hr : r.Alike r') : (and l r).Alike (and l' r') := by
  intro parameters binding
  simp only [eval]
  obtain ⟨v, w, hv, hw, hvw⟩ | ⟨e, hv, hw⟩ := hl.cases parameters binding
  · have htruth : v.truth = w.truth := by
      rw [← Value.truth_plain, hvw, Value.truth_plain]
    rw [hv, hw]
    simp only [Traversal.ok_bind, htruth]
    split
    · rfl
    · obtain ⟨v', w', hv', hw', hvw'⟩ | ⟨e, hv', hw'⟩ := hr.cases parameters binding
      · have htruth' : v'.truth = w'.truth := by
          rw [← Value.truth_plain, hvw', Value.truth_plain]
        rw [hv', hw']
        simp only [Traversal.ok_bind, htruth']
      · rw [hv', hw']
  · rw [hv, hw]
    rfl

theorem Alike.or {l l' r r' : SqlExpr} (hl : l.Alike l') (hr : r.Alike r') : (or l r).Alike (or l' r') := by
  intro parameters binding
  simp only [eval]
  obtain ⟨v, w, hv, hw, hvw⟩ | ⟨e, hv, hw⟩ := hl.cases parameters binding
  · have htruth : v.truth = w.truth := by
      rw [← Value.truth_plain, hvw, Value.truth_plain]
    rw [hv, hw]
    simp only [Traversal.ok_bind, htruth]
    split
    · rfl
    · obtain ⟨v', w', hv', hw', hvw'⟩ | ⟨e, hv', hw'⟩ := hr.cases parameters binding
      · have htruth' : v'.truth = w'.truth := by
          rw [← Value.truth_plain, hvw', Value.truth_plain]
        rw [hv', hw']
        simp only [Traversal.ok_bind, htruth']
      · rw [hv', hw']
  · rw [hv, hw]
    rfl

theorem Alike.not {a b : SqlExpr} (h : a.Alike b) : (not a).Alike (not b) := by
  intro parameters binding
  simp only [eval]
  obtain ⟨v, w, hv, hw, hvw⟩ | ⟨e, hv, hw⟩ := h.cases parameters binding
  · have htruth : v.truth = w.truth := by
      rw [← Value.truth_plain, hvw, Value.truth_plain]
    rw [hv, hw]
    simp only [Traversal.ok_bind, htruth]
  · rw [hv, hw]

theorem Alike.isNull {a b : SqlExpr} (h : a.Alike b) : (isNull a).Alike (isNull b) := by
  intro parameters binding
  simp only [eval]
  obtain ⟨v, w, hv, hw, hvw⟩ | ⟨e, hv, hw⟩ := h.cases parameters binding
  · have hnull : v.isNull = w.isNull := by
      rw [← Value.isNull_plain, hvw, Value.isNull_plain]
    rw [hv, hw]
    simp only [Traversal.ok_bind, hnull]
  · rw [hv, hw]

theorem Alike.holds {a b : SqlExpr} (h : a.Alike b) (parameters : Parameters) (binding : Binding) :
    a.holds parameters binding = b.holds parameters binding := by
  rw [SqlExpr.holds, SqlExpr.holds]
  obtain ⟨v, w, hv, hw, hvw⟩ | ⟨e, hv, hw⟩ := h.cases parameters binding
  · have htruth : v.truth = w.truth := by
      rw [← Value.truth_plain, hvw, Value.truth_plain]
    rw [hv, hw]
    simp only [Traversal.ok_bind, htruth]
  · rw [hv, hw]

end EntityStore.SqlExpr
