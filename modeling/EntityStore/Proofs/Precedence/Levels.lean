import EntityStore.Proofs.Precedence.Order

/-!
# Levels

The level of a node is the length of the longest chain of edges that ends at it. Following an order
of precedence, one pass over the predecessors of each node computes it.
-/

namespace EntityStore.Precedence

open Relation

/-- A chain of a number of steps that ends at a node. -/
inductive Chain (r : Nat → Nat → Prop) : Nat → Nat → Prop
  | start (n : Nat) : Chain r 0 n
  | step {k a b : Nat} (h : Chain r k a) (hab : r a b) : Chain r (k + 1) b

/-- The length of the longest chain that ends at a node. -/
def IsLevel (r : Nat → Nat → Prop) (n k : Nat) : Prop :=
  Chain r k n ∧ ∀ j, Chain r j n → j ≤ k

theorem IsLevel.unique {r : Nat → Nat → Prop} {n k k' : Nat} (h : IsLevel r n k)
    (h' : IsLevel r n k') : k = k' :=
  Nat.le_antisymm (h'.2 k h.1) (h.2 k' h'.1)

theorem IsLevel.lt {r : Nat → Nat → Prop} {a b k j : Nat} (ha : IsLevel r a k) (hb : IsLevel r b j)
    (hab : r a b) : k < j := hb.2 _ (ha.1.step hab)

theorem Chain.of_le {r : Nat → Nat → Prop} {k m n : Nat} (h : Chain r m n) (hle : k ≤ m) :
    Chain r k n := by
  induction h generalizing k with
  | start n =>
    obtain rfl := Nat.le_zero.mp hle
    exact .start n
  | step _ hab ih =>
    cases k with
    | zero => exact .start _
    | succ k => exact (ih (Nat.le_of_succ_le_succ hle)).step hab

theorem IsLevel.le_iff {r : Nat → Nat → Prop} {m n j k : Nat} (hm : IsLevel r m j)
    (hn : IsLevel r n k) : j ≤ k ↔ ∀ i, Chain r i m → Chain r i n := by
  constructor
  · intro hle i hi
    exact hn.1.of_le (Nat.le_trans (hm.2 i hi) hle)
  · intro h
    exact hn.2 j (h j hm.1)

theorem foldl_max (f : Nat → Nat) (ps : List Nat) (start : Nat) :
    let m := ps.foldl (fun level p => max level (f p + 1)) start
    start ≤ m ∧ (∀ p ∈ ps, f p + 1 ≤ m) ∧ (m = start ∨ ∃ p ∈ ps, m = f p + 1) := by
  induction ps generalizing start with
  | nil => simp
  | cons p ps ih =>
    obtain ⟨hle, hall, hcases⟩ := ih (max start (f p + 1))
    simp only [List.foldl_cons]
    refine ⟨by omega, ?_, ?_⟩
    · intro q hq
      rcases List.mem_cons.mp hq with rfl | hq
      · omega
      · exact hall q hq
    · rcases hcases with heq | ⟨q, hq, heq⟩
      · rcases Nat.le_total start (f p + 1) with h | h
        · exact Or.inr ⟨p, List.mem_cons_self, by omega⟩
        · exact Or.inl (by omega)
      · exact Or.inr ⟨q, List.mem_cons_of_mem p hq, heq⟩

theorem isLevel_levelAfter {g : Precedence} {known : List (Nat × Nat)} {n : Nat}
    (h : ∀ p, g.Edge p n → ∃ k, known.lookup p = some k ∧ IsLevel g.Edge p k) :
    IsLevel g.Edge n (g.levelAfter known n) := by
  obtain ⟨_, hall, hcases⟩ := foldl_max (fun p => (known.lookup p).getD 0) (g.predecessors n) 0
  change _ ≤ g.levelAfter known n at *
  change ∀ p ∈ g.predecessors n, _ ≤ g.levelAfter known n at hall
  change g.levelAfter known n = _ ∨ ∃ p ∈ g.predecessors n, g.levelAfter known n = _ at hcases
  constructor
  · rcases hcases with hzero | ⟨p, hp, heq⟩
    · rw [hzero]
      exact .start n
    · have hedge := mem_predecessors.mp hp
      obtain ⟨k, hk, hlevel⟩ := h p hedge
      rw [heq, hk]
      exact hlevel.1.step hedge
  · intro j hj
    cases hj with
    | start => exact Nat.zero_le _
    | step hj hedge =>
      obtain ⟨k, hk, hlevel⟩ := h _ hedge
      have hle := hall _ (mem_predecessors.mpr hedge)
      rw [hk] at hle
      exact Nat.le_trans (Nat.succ_le_succ (hlevel.2 _ hj)) hle

theorem isLevel_foldl {g : Precedence} (hirrefl : ∀ a, ¬ g.Edge a a) {order : List Nat}
    (hmem : ∀ a b, g.Edge a b → a ∈ order)
    (hforward : order.Pairwise (fun a b => ¬ g.Edge b a)) (done rest : List Nat)
    (heq : order = done ++ rest) (known : List (Nat × Nat))
    (hknown : ∀ p ∈ done, ∃ k, known.lookup p = some k ∧ IsLevel g.Edge p k) :
    ∀ p ∈ order, ∃ k, (rest.foldl (fun known n => (n, g.levelAfter known n) :: known) known).lookup p
      = some k ∧ IsLevel g.Edge p k := by
  induction rest generalizing done known with
  | nil =>
    rw [List.append_nil] at heq
    exact heq ▸ hknown
  | cons n rest ih =>
    have hpred : ∀ p, g.Edge p n → ∃ k, known.lookup p = some k ∧ IsLevel g.Edge p k := by
      intro p hedge
      have hp := heq ▸ hmem p n hedge
      rw [List.mem_append, List.mem_cons] at hp
      rcases hp with hp | rfl | hp
      · exact hknown p hp
      · exact absurd hedge (hirrefl p)
      · rw [heq] at hforward
        have hforward := (List.pairwise_append.mp hforward).2.1
        exact absurd hedge ((List.pairwise_cons.mp hforward).1 p hp)
    rw [List.foldl_cons]
    apply ih (done ++ [n]) (by simp [heq])
    intro p hp
    by_cases hpn : p = n
    · subst hpn
      exact ⟨_, by simp, isLevel_levelAfter hpred⟩
    · have hp : p ∈ done := by
        simpa [hpn] using hp
      obtain ⟨k, hk, hlevel⟩ := hknown p hp
      exact ⟨k, by rw [List.lookup_cons, beq_false_of_ne hpn]; exact hk, hlevel⟩

theorem isLevel_levels {g : Precedence} (hg : g.Bounded) (hirrefl : ∀ a, ¬ g.Edge a a)
    {order : List Nat} (h : g.IsOrder order) {n : Nat} (hn : n < g.size) :
    ∃ k, (g.levels order).lookup n = some k ∧ IsLevel g.Edge n k := by
  have hmem : ∀ n, n < g.size → n ∈ order := fun n hn => h.perm.mem_iff.mpr (List.mem_range.mpr hn)
  exact isLevel_foldl hirrefl (fun a b hedge => hmem a (hg a b hedge).1) h.forward [] order rfl []
    (by simp) n (hmem n hn)

theorem IsOrder.chain_lt {g : Precedence} {order : List Nat} (h : g.IsOrder order)
    (hg : g.Bounded) (hirrefl : ∀ a, ¬ g.Edge a a) {k n : Nat} (hn : n < g.size)
    (hchain : Chain g.Edge k n) : k < g.size := by
  have hle : ∀ {k n}, Chain g.Edge k n → k ≤ order.idxOf n := by
    intro k n hchain
    induction hchain with
    | start n => exact Nat.zero_le _
    | step _ hedge ih =>
      have hlt := h.idxOf_lt hg hirrefl hedge
      omega
  have hlt := List.idxOf_lt_length_of_mem (h.perm.mem_iff.mpr (List.mem_range.mpr hn))
  rw [h.perm.length_eq, List.length_range] at hlt
  exact Nat.lt_of_le_of_lt (hle hchain) hlt

end EntityStore.Precedence
