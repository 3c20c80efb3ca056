import EntityStore.Proofs.Precedence.Walk

/-!
# Orders of precedence

A graph has an order of precedence unless it has a cycle, and then a node on a cycle is named. In
such an order no edge points backward, so positions grow along edges.
-/

namespace EntityStore.Precedence

open Relation

/-- Lists all nodes once, and no later one precedes an earlier one. -/
structure IsOrder (g : Precedence) (order : List Nat) : Prop where
  perm : order.Perm (List.range g.size)
  forward : order.Pairwise (fun a b => ¬ g.Edge b a)

theorem backEdge?_eq_none {g : Precedence} {before rest : List Nat} (h : g.backEdge? before rest = none)
    (hnodup : (before ++ rest).Nodup) : rest.Pairwise (fun a b => ¬ g.Edge b a) := by
  induction rest generalizing before with
  | nil => exact List.Pairwise.nil
  | cons n rest ih =>
    rw [backEdge?] at h
    split at h
    · cases h
    · rename_i hfind
      rw [List.find?_eq_none] at hfind
      have hnodup' : (n :: before ++ rest).Nodup :=
        List.perm_middle.nodup_iff.mp hnodup
      refine List.pairwise_cons.mpr ⟨?_, ih h hnodup'⟩
      intro b hb hedge
      have hcases := hfind b (mem_predecessors.mpr hedge)
      simp only [Bool.and_eq_true, Bool.not_eq_true', bne_iff_ne, not_and, not_not] at hcases
      by_cases hmem : b ∈ before
      · exact (List.nodup_append.mp hnodup).2.2 b hmem b (List.mem_cons_of_mem n hb) rfl
      · have hbn : b = n := hcases (by simpa using hmem)
        exact (List.nodup_cons.mp (List.nodup_append.mp hnodup).2.1).1 (hbn ▸ hb)

theorem backEdge?_eq_some {g : Precedence} {before rest : List Nat} {p : Nat}
    (h : g.backEdge? before rest = some p) :
    ∃ passed n later, rest = passed ++ n :: later ∧ g.Edge p n ∧ p ≠ n ∧ p ∉ before ∧
      p ∉ passed := by
  induction rest generalizing before with
  | nil => cases h
  | cons n rest ih =>
    rw [backEdge?] at h
    split at h
    · rename_i q hfind
      cases h
      have hedge := mem_predecessors.mp (List.mem_of_find?_eq_some hfind)
      have hnew := List.find?_some hfind
      simp only [Bool.and_eq_true, Bool.not_eq_true', bne_iff_ne] at hnew
      exact ⟨[], n, rest, rfl, hedge, hnew.2, by simpa using hnew.1, List.not_mem_nil⟩
    · obtain ⟨passed, m, later, rfl, hedge, hne, hbefore, hpassed⟩ := ih h
      rw [List.mem_cons, not_or] at hbefore
      refine ⟨n :: passed, m, later, rfl, hedge, hne, hbefore.2, ?_⟩
      rw [List.mem_cons, not_or]
      exact ⟨hbefore.1, hpassed⟩

theorem isOrder_of_order? {g : Precedence} (hg : g.Bounded) {order : List Nat}
    (h : g.order? = .ok order) : g.IsOrder order := by
  obtain ⟨hperm, _⟩ := finishOrder_settled g hg
  unfold order? at h
  split at h
  · cases h
  · rename_i hback
    cases h
    have hnodup : ([] ++ g.finishOrder).Nodup := hperm.nodup_iff.mpr List.nodup_range
    exact ⟨hperm, backEdge?_eq_none hback hnodup⟩

/-- The node that is named when there is no order lies on a cycle: the broken edge from it leads
to a node that leads back to it. -/
theorem cycle_of_order? {g : Precedence} (hg : g.Bounded) {p : Nat} (h : g.order? = .error p) :
    p < g.size ∧ TransGen g.Edge p p := by
  obtain ⟨hperm, hsettled⟩ := finishOrder_settled g hg
  unfold order? at h
  split at h
  · rename_i q hback
    cases h
    obtain ⟨passed, n, later, heq, hedge, hne, _, hpassed⟩ := backEdge?_eq_some hback
    have hp : p < g.size := (hg p n hedge).1
    have hmem : p ∈ later := by
      have hp := hperm.mem_iff.mpr (List.mem_range.mpr hp)
      rw [heq, List.mem_append, List.mem_cons] at hp
      exact (hp.resolve_left hpassed).resolve_left hne
    obtain ⟨between, earlier, rfl⟩ := List.append_of_mem hmem
    have hnodup : g.finishOrder.Nodup := hperm.nodup_iff.mpr List.nodup_range
    -- the source of the edge was finished first, so its target was open at that time
    have hreach : ReflTransGen g.Edge n p := by
      refine (hsettled (passed ++ n :: between) p earlier (by simp [heq]) n hedge).resolve_left ?_
      intro hn
      rw [heq] at hnodup
      have hnodup := (List.nodup_append.mp hnodup).2.1
      exact (List.nodup_cons.mp hnodup).1 (by simp [hn])
    exact ⟨hp, TransGen.head' hedge hreach⟩
  · cases h

theorem IsOrder.nodup {g : Precedence} {order : List Nat} (h : g.IsOrder order) : order.Nodup :=
  h.perm.nodup_iff.mpr List.nodup_range

theorem IsOrder.idxOf_lt {g : Precedence} {order : List Nat} (h : g.IsOrder order)
    (hg : g.Bounded) (hirrefl : ∀ a, ¬ g.Edge a a) {a b : Nat} (hedge : g.Edge a b) :
    order.idxOf a < order.idxOf b := by
  have hmem : ∀ n, n < g.size → n ∈ order := fun n hn => h.perm.mem_iff.mpr (List.mem_range.mpr hn)
  have ha := List.idxOf_lt_length_of_mem (hmem a (hg a b hedge).1)
  have hb := List.idxOf_lt_length_of_mem (hmem b (hg a b hedge).2)
  rcases Nat.lt_trichotomy (order.idxOf a) (order.idxOf b) with hlt | heq | hgt
  · exact hlt
  · have hab : a = b := by
      rw [← List.getElem_idxOf ha, ← List.getElem_idxOf hb]
      simp only [heq]
    exact absurd (hab ▸ hedge) (hirrefl b)
  · have hforward := List.pairwise_iff_getElem.mp h.forward _ _ hb ha hgt
    rw [List.getElem_idxOf ha, List.getElem_idxOf hb] at hforward
    exact absurd hedge hforward

theorem IsOrder.acyclic {g : Precedence} {order : List Nat} (h : g.IsOrder order) (hg : g.Bounded)
    (hirrefl : ∀ a, ¬ g.Edge a a) (a : Nat) : ¬ TransGen g.Edge a a := by
  have hlt : ∀ a b, TransGen g.Edge a b → order.idxOf a < order.idxOf b := by
    intro a b hab
    induction hab with
    | single hedge => exact h.idxOf_lt hg hirrefl hedge
    | tail _ hedge ih => exact Nat.lt_trans ih (h.idxOf_lt hg hirrefl hedge)
  exact fun hcycle => Nat.lt_irrefl _ (hlt a a hcycle)

end EntityStore.Precedence
