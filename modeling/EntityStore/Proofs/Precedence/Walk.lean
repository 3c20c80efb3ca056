import Mathlib.Data.List.Perm.Subperm
import Mathlib.Logic.Relation
import EntityStore.Save.Precedence

/-!
# Depth-first walks of precedence graphs

A node is open while the walk is at one of its successors. When a node is finished, each of its
successors is finished already or open, and an open node leads to the one being finished. So an
edge that the finishing order breaks closes a cycle, without any appeal to the other nodes of its
component.
-/

namespace EntityStore.Precedence

open Relation

def Edge (g : Precedence) (a b : Nat) : Prop := (a, b) ∈ g.edges

def Bounded (g : Precedence) : Prop := ∀ a b, g.Edge a b → a < g.size ∧ b < g.size

theorem mem_successors {g : Precedence} {a b : Nat} : b ∈ g.successors a ↔ g.Edge a b := by
  simp [successors, Edge]

theorem mem_predecessors {g : Precedence} {a b : Nat} : a ∈ g.predecessors b ↔ g.Edge a b := by
  simp [predecessors, Edge]

theorem mem_addEdge {edges : List (Nat × Nat)} {e e' : Nat × Nat} :
    e' ∈ addEdge edges e ↔ e' ∈ edges ∨ e' = e := by
  unfold addEdge
  split
  · rename_i h
    rw [List.contains_iff_mem] at h
    exact ⟨Or.inl, fun h' => h'.elim id (fun he => he ▸ h)⟩
  · simp

theorem mem_foldl_addEdge {edges added : List (Nat × Nat)} {e : Nat × Nat} :
    e ∈ added.foldl addEdge edges ↔ e ∈ edges ∨ e ∈ added := by
  induction added generalizing edges with
  | nil => simp
  | cons a added ih => simp [ih, mem_addEdge, or_assoc]

theorem edge_ofEdges {size : Nat} {edges : List (Nat × Nat)} {a b : Nat} :
    (ofEdges size edges).Edge a b ↔ (a, b) ∈ edges := by
  simp [Edge, ofEdges, mem_foldl_addEdge]

namespace Walk

/-- Seen and not yet finished. -/
def Open (w : Walk) (n : Nat) : Prop := n ∈ w.seen ∧ n ∉ w.finished

/-- What holds of a walk at every moment. Of a finished node, each successor was finished before it
or leads back to it. -/
structure Sound (g : Precedence) (w : Walk) : Prop where
  seen_nodup : w.seen.Nodup
  seen_lt : ∀ n ∈ w.seen, n < g.size
  finished_nodup : w.finished.Nodup
  finished_seen : ∀ n ∈ w.finished, n ∈ w.seen
  settled : ∀ later n earlier, w.finished = later ++ n :: earlier →
    ∀ m, g.Edge n m → m ∈ earlier ∨ ReflTransGen g.Edge m n

/-- A later moment of a walk at which the same nodes are open. -/
structure Extends (w w' : Walk) : Prop where
  seen : w.seen <:+ w'.seen
  finished : w.finished <:+ w'.finished
  sameOpen : ∀ n, w'.Open n ↔ w.Open n

theorem Extends.refl (w : Walk) : w.Extends w :=
  ⟨List.suffix_refl _, List.suffix_refl _, fun _ => Iff.rfl⟩

theorem Extends.trans {w₁ w₂ w₃ : Walk} (h : w₁.Extends w₂) (h' : w₂.Extends w₃) : w₁.Extends w₃ :=
  ⟨h.seen.trans h'.seen, h.finished.trans h'.finished,
    fun n => (h'.sameOpen n).trans (h.sameOpen n)⟩

theorem Sound.length_seen_le {g : Precedence} {w : Walk} (h : w.Sound g) : w.seen.length ≤ g.size := by
  have hsub : w.seen ⊆ List.range g.size := fun n hn => List.mem_range.mpr (h.seen_lt n hn)
  simpa using (List.subperm_of_subset h.seen_nodup hsub).length_le

theorem Sound.see {g : Precedence} {w : Walk} {n : Nat} (h : w.Sound g) (hn : n < g.size)
    (hnew : n ∉ w.seen) : Sound g { w with seen := n :: w.seen } where
  seen_nodup := List.nodup_cons.mpr ⟨hnew, h.seen_nodup⟩
  seen_lt m hm := by
    rcases List.mem_cons.mp hm with rfl | hm
    · exact hn
    · exact h.seen_lt m hm
  finished_nodup := h.finished_nodup
  finished_seen m hm := List.mem_cons_of_mem _ (h.finished_seen m hm)
  settled := h.settled

theorem Sound.finish {g : Precedence} {w : Walk} {n : Nat} (h : w.Sound g) (hn : w.Open n)
    (hsucc : ∀ m, g.Edge n m → m ∈ w.seen) (hreach : ∀ m, w.Open m → ReflTransGen g.Edge m n) :
    Sound g { w with finished := n :: w.finished } where
  seen_nodup := h.seen_nodup
  seen_lt := h.seen_lt
  finished_nodup := List.nodup_cons.mpr ⟨hn.2, h.finished_nodup⟩
  finished_seen m hm := by
    rcases List.mem_cons.mp hm with rfl | hm
    · exact hn.1
    · exact h.finished_seen m hm
  settled later f earlier heq m hm := by
    cases later with
    | nil =>
      obtain ⟨rfl, rfl⟩ := List.cons.inj heq
      by_cases hfin : m ∈ w.finished
      · exact Or.inl hfin
      · exact Or.inr (hreach m ⟨hsucc m hm, hfin⟩)
    | cons _ later =>
      obtain ⟨_, heq⟩ := List.cons.inj heq
      exact h.settled later f earlier heq m hm

end Walk

structure Visited (g : Precedence) (w w' : Walk) (n : Nat) : Prop where
  sound : w'.Sound g
  grown : w.Extends w'
  seen : n ∈ w'.seen

/-- A visit at a depth that suffices does what it should, at a walk whose open nodes lead to the
node. -/
def VisitsAt (g : Precedence) (depth : Nat) : Prop :=
  ∀ w n, w.Sound g → n < g.size → g.size < depth + w.seen.length →
    (∀ m, w.Open m → ReflTransGen g.Edge m n) → g.Visited w (g.visit depth w n) n

theorem VisitsAt.foldl {g : Precedence} {depth : Nat} (hvisit : g.VisitsAt depth) (ns : List Nat)
    {w : Walk} (hw : w.Sound g) (hns : ∀ n ∈ ns, n < g.size)
    (hdepth : g.size < depth + w.seen.length)
    (hopen : ∀ n ∈ ns, ∀ m, w.Open m → ReflTransGen g.Edge m n) :
    (ns.foldl (g.visit depth) w).Sound g ∧ w.Extends (ns.foldl (g.visit depth) w) ∧
      ∀ n ∈ ns, n ∈ (ns.foldl (g.visit depth) w).seen := by
  induction ns generalizing w with
  | nil => exact ⟨hw, .refl w, by simp⟩
  | cons n ns ih =>
    obtain ⟨hsound, hext, hseen⟩ := hvisit w n hw (hns n List.mem_cons_self) hdepth
      (hopen n List.mem_cons_self)
    have hlen := hext.seen.length_le
    obtain ⟨hsound', hext', hseen'⟩ := ih hsound
      (fun m hm => hns m (List.mem_cons_of_mem _ hm)) (by omega)
      (fun m hm o ho => hopen m (List.mem_cons_of_mem _ hm) o ((hext.sameOpen o).mp ho))
    refine ⟨hsound', hext.trans hext', ?_⟩
    intro m hm
    rcases List.mem_cons.mp hm with rfl | hm
    · exact hext'.seen.subset hseen
    · exact hseen' m hm

/-- The depth bounds the nodes that are still unseen, so it never runs out. -/
theorem visitsAt (g : Precedence) (hg : g.Bounded) (depth : Nat) : g.VisitsAt depth := by
  induction depth with
  | zero =>
    intro w n hw _ hdepth _
    have hlen := hw.length_seen_le
    omega
  | succ depth ih =>
    intro w n hw hn hdepth hopen
    by_cases hseen : n ∈ w.seen
    · have heq : g.visit (depth + 1) w n = w := by
        rw [visit, if_pos (by simpa using hseen)]
      rw [heq]
      exact ⟨hw, .refl w, hseen⟩
    · have hsee := hw.see hn hseen
      have hnew : n ∉ w.finished := fun h => hseen (hw.finished_seen n h)
      -- the node itself is open while its successors are visited
      have hopenAt : ∀ m, Walk.Open { w with seen := n :: w.seen } m → ReflTransGen g.Edge m n := by
        rintro m ⟨hm, hfin⟩
        rcases List.mem_cons.mp hm with rfl | hm
        · exact .refl
        · exact hopen m ⟨hm, hfin⟩
      obtain ⟨hsound, hext, hsucc⟩ := ih.foldl (g.successors n) hsee
        (fun m hm => (hg n m (mem_successors.mp hm)).2) (by simp; omega)
        (fun m hm o ho => (hopenAt o ho).tail (mem_successors.mp hm))
      rw [visit, if_neg (by simpa using hseen)]
      generalize (g.successors n).foldl (g.visit depth) { w with seen := n :: w.seen } = w' at *
      have hnopen : w'.Open n := (hext.sameOpen n).mpr ⟨List.mem_cons_self, hnew⟩
      refine ⟨hsound.finish hnopen (fun m hm => hsucc m (mem_successors.mpr hm))
        (fun m hm => hopenAt m ((hext.sameOpen m).mp hm)), ?_, hnopen.1⟩
      refine ⟨(List.suffix_cons n w.seen).trans hext.seen,
        hext.finished.trans (List.suffix_cons n w'.finished), ?_⟩
      intro m
      constructor
      · rintro ⟨hm, hfin⟩
        rw [List.mem_cons, not_or] at hfin
        obtain ⟨hm, hfin'⟩ := (hext.sameOpen m).mp ⟨hm, hfin.2⟩
        exact ⟨(List.mem_cons.mp hm).resolve_left hfin.1, hfin'⟩
      · rintro ⟨hm, hfin⟩
        obtain ⟨hm', hfin'⟩ := (hext.sameOpen m).mpr ⟨List.mem_cons_of_mem n hm, hfin⟩
        refine ⟨hm', ?_⟩
        rw [List.mem_cons, not_or]
        exact ⟨fun h => hseen (h ▸ hm), hfin'⟩

/-- The finishing order lists every node once, and of an edge that it breaks the target leads back
to the source. -/
theorem finishOrder_settled (g : Precedence) (hg : g.Bounded) :
    g.finishOrder.Perm (List.range g.size) ∧
      ∀ later n earlier, g.finishOrder = later ++ n :: earlier →
        ∀ m, g.Edge n m → m ∈ earlier ∨ ReflTransGen g.Edge m n := by
  have hempty : Walk.Sound g ⟨[], []⟩ := by
    constructor <;> simp
  have hnone : ∀ m, ¬ Walk.Open ⟨[], []⟩ m := fun m hm => absurd hm.1 List.not_mem_nil
  obtain ⟨hsound, hext, hseen⟩ := (visitsAt g hg (g.size + 1)).foldl (List.range g.size) hempty
    (fun n hn => List.mem_range.mp hn) (by simp) (fun _ _ m hm => absurd hm (hnone m))
  refine ⟨?_, hsound.settled⟩
  apply (List.perm_ext_iff_of_nodup hsound.finished_nodup List.nodup_range).mpr
  intro n
  constructor
  · intro hn
    exact List.mem_range.mpr (hsound.seen_lt n (hsound.finished_seen n hn))
  · intro hn
    by_contra hfin
    exact hnone n ((hext.sameOpen n).mp ⟨hseen n hn, hfin⟩)

end EntityStore.Precedence
