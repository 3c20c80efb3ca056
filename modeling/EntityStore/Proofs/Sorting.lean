import Mathlib.Data.List.FinRange
import Mathlib.Data.List.Forall2
import EntityStore.Sorting

/-!
# Sorting

Sorting only rearranges, it works on an image as it does on what is mapped there, and it leaves a
list as it is when no element is less than another. Where being less is a weak order, the result is
in order, elements that are not told apart stay as they were, and up to such elements there is only
one arrangement in order. This fixes what any stable sort makes of a weak order, so it gives the same
result as the insertion sort. Of another comparison a sort may make any arrangement, or nothing at all.
-/

namespace EntityStore

namespace Sorting

variable {α β : Type}

theorem perm_insertReversed (less : α → α → Bool) (x : α) (xs : List α) :
    (insertReversed less x xs).Perm (x :: xs) := by
  induction xs with
  | nil => exact List.Perm.refl _
  | cons y ys ih =>
    rw [insertReversed]
    split
    · exact (ih.cons y).trans (List.Perm.swap x y ys)
    · exact List.Perm.refl _

theorem perm_foldl_insertReversed (less : α → α → Bool) (xs sorted : List α) :
    (xs.foldl (fun sorted x => insertReversed less x sorted) sorted).Perm (sorted ++ xs) := by
  induction xs generalizing sorted with
  | nil => rw [List.foldl_nil, List.append_nil]
  | cons x xs ih =>
    calc
      _ = xs.foldl (fun sorted x => insertReversed less x sorted) (insertReversed less x sorted) := rfl
      List.Perm _ (insertReversed less x sorted ++ xs) := ih _
      List.Perm _ (x :: sorted ++ xs) := (perm_insertReversed less x sorted).append_right xs
      List.Perm _ (sorted ++ x :: xs) := List.perm_middle.symm

theorem perm_sort (less : α → α → Bool) (xs : List α) : (sort less xs).Perm xs :=
  (List.reverse_perm _).trans (perm_foldl_insertReversed less xs [])

theorem insertReversed_map (f : α → β) (less : β → β → Bool) (x : α) (xs : List α) :
    insertReversed less (f x) (xs.map f) =
      (insertReversed (fun x y => less (f x) (f y)) x xs).map f := by
  induction xs with
  | nil => rfl
  | cons y ys ih =>
    rw [List.map_cons, insertReversed, insertReversed, ih]
    split <;> rfl

theorem sort_map (f : α → β) (less : β → β → Bool) (xs : List α) :
    sort less (xs.map f) = (sort (fun x y => less (f x) (f y)) xs).map f := by
  have hfold : ∀ (xs sorted : List α),
      (xs.map f).foldl (fun sorted x => insertReversed less x sorted) (sorted.map f) =
        (xs.foldl (fun sorted x => insertReversed (fun x y => less (f x) (f y)) x sorted) sorted).map f := by
    intro xs
    induction xs with
    | nil => exact fun _ => rfl
    | cons x xs ih =>
      intro sorted
      rw [List.map_cons, List.foldl_cons, List.foldl_cons, insertReversed_map, ih]
  rw [sort, sort, List.map_reverse, ← hfold xs [], List.map_nil]

theorem sort_of_forall_not_less {less : α → α → Bool} (h : ∀ x y, less x y = false) (xs : List α) :
    sort less xs = xs := by
  have hfold : ∀ (xs sorted : List α),
      xs.foldl (fun sorted x => insertReversed less x sorted) sorted = xs.reverse ++ sorted := by
    intro xs
    induction xs with
    | nil => exact fun _ => rfl
    | cons x xs ih =>
      intro sorted
      have hinsert : insertReversed less x sorted = x :: sorted := by
        cases sorted with
        | nil => rfl
        | cons y ys => simp [insertReversed, h]
      rw [List.foldl_cons, hinsert, ih, List.reverse_cons, List.append_assoc, List.singleton_append]
  rw [sort, hfold, List.append_nil, List.reverse_reverse]

/-- Being less is the strict part of a total preorder on the elements of a list. -/
structure WeakOrderOn (less : α → α → Bool) (xs : List α) : Prop where
  asymm : ∀ x ∈ xs, ∀ y ∈ xs, less x y = true → less y x = false
  negTrans : ∀ x ∈ xs, ∀ y ∈ xs, ∀ z ∈ xs, less x y = false → less y z = false → less x z = false

variable {less : α → α → Bool} {xs ys : List α}

theorem WeakOrderOn.of_perm (h : WeakOrderOn less xs) (hperm : ys.Perm xs) : WeakOrderOn less ys where
  asymm x hx y hy := h.asymm x (hperm.mem_iff.1 hx) y (hperm.mem_iff.1 hy)
  negTrans x hx y hy z hz := h.negTrans x (hperm.mem_iff.1 hx) y (hperm.mem_iff.1 hy) z (hperm.mem_iff.1 hz)

/-- The order of a stable result: a lesser element comes first, and of two that are not told apart
the one that came first before. -/
def InPlace (less : α → α → Bool) (earlier : α → α → Prop) (x y : α) : Prop :=
  less x y = true ∨ less y x = false ∧ earlier x y

theorem pairwise_insertReversed (h : WeakOrderOn less xs) {earlier : α → α → Prop} {x : α} (hx : x ∈ xs)
    {sorted : List α} (hsub : ∀ y ∈ sorted, y ∈ xs)
    (hsorted : sorted.Pairwise (fun y z => InPlace less earlier z y)) (hearlier : ∀ y ∈ sorted, earlier y x) :
    (insertReversed less x sorted).Pairwise (fun y z => InPlace less earlier z y) := by
  induction sorted with
  | nil => exact List.pairwise_singleton _ x
  | cons y ys ih =>
    obtain ⟨hy, hsub⟩ := List.forall_mem_cons.1 hsub
    obtain ⟨hbelow, hsorted⟩ := List.pairwise_cons.1 hsorted
    obtain ⟨hyx, hearlier⟩ := List.forall_mem_cons.1 hearlier
    rw [insertReversed]
    split
    · rename_i hless
      refine List.pairwise_cons.2 ⟨?_, ih hsub hsorted hearlier⟩
      intro z hz
      rcases List.mem_cons.1 ((perm_insertReversed less x ys).mem_iff.1 hz) with rfl | hz
      · exact .inl hless
      · exact hbelow z hz
    · rename_i hnot
      have hnot : less x y = false := eq_false_of_ne_true hnot
      refine List.pairwise_cons.2 ⟨?_, List.pairwise_cons.2 ⟨hbelow, hsorted⟩⟩
      intro z hz
      rcases List.mem_cons.1 hz with rfl | hz
      · exact .inr ⟨hnot, hyx⟩
      · -- what stands before `y` is not greater than `y`, which is not greater than `x`
        have hzy : less y z = false := by
          rcases hbelow z hz with hless | ⟨hless, -⟩
          · exact h.asymm z (hsub z hz) y hy hless
          · exact hless
        exact .inr ⟨h.negTrans x hx y hy z (hsub z hz) hnot hzy, hearlier z hz⟩

theorem pairwise_foldl_insertReversed (h : WeakOrderOn less xs) {earlier : α → α → Prop} {rest sorted : List α}
    (hrest : ∀ x ∈ rest, x ∈ xs) (hsub : ∀ y ∈ sorted, y ∈ xs) (hpairs : rest.Pairwise earlier)
    (hsorted : sorted.Pairwise (fun y z => InPlace less earlier z y))
    (hearlier : ∀ y ∈ sorted, ∀ x ∈ rest, earlier y x) :
    (rest.foldl (fun sorted x => insertReversed less x sorted) sorted).Pairwise
      (fun y z => InPlace less earlier z y) := by
  induction rest generalizing sorted with
  | nil => exact hsorted
  | cons x rest ih =>
    obtain ⟨hx, hrest⟩ := List.forall_mem_cons.1 hrest
    obtain ⟨hfirst, hpairs⟩ := List.pairwise_cons.1 hpairs
    have hmem : ∀ y, y ∈ insertReversed less x sorted ↔ y = x ∨ y ∈ sorted := fun y => by
      rw [(perm_insertReversed less x sorted).mem_iff, List.mem_cons]
    apply ih hrest _ hpairs (pairwise_insertReversed h hx hsub hsorted _)
    · intro y hy z hz
      rcases (hmem y).1 hy with rfl | hy
      · exact hfirst z hz
      · exact hearlier y hy z (List.mem_cons_of_mem x hz)
    · intro y hy
      rcases (hmem y).1 hy with rfl | hy
      · exact hx
      · exact hsub y hy
    · exact fun y hy => hearlier y hy x List.mem_cons_self

/-- The result is in order, and what is not told apart stands as it stood before. -/
theorem pairwise_sort (h : WeakOrderOn less xs) {earlier : α → α → Prop} (hpairs : xs.Pairwise earlier) :
    (sort less xs).Pairwise (InPlace less earlier) := by
  rw [sort, List.pairwise_reverse]
  exact pairwise_foldl_insertReversed h (fun _ hx => hx) (List.forall_mem_nil _) hpairs List.Pairwise.nil
    (List.forall_mem_nil _)

def tie (less : α → α → Bool) (x y : α) : Bool := !less x y && !less y x

theorem tie_iff {x y : α} : tie less x y = true ↔ less x y = false ∧ less y x = false := by
  simp [tie]

theorem WeakOrderOn.tie_self (h : WeakOrderOn less xs) {x : α} (hx : x ∈ xs) : tie less x x = true := by
  have hirrefl : less x x = false := by
    rw [← Bool.not_eq_true]
    intro hless
    exact Bool.false_ne_true ((h.asymm x hx x hx hless).symm.trans hless)
  exact tie_iff.2 ⟨hirrefl, hirrefl⟩

theorem WeakOrderOn.tie_congr (h : WeakOrderOn less xs) {x y z : α} (hx : x ∈ xs) (hy : y ∈ xs) (hz : z ∈ xs)
    (hyz : tie less y z = true) : tie less x y = tie less x z := by
  obtain ⟨hyz, hzy⟩ := tie_iff.1 hyz
  rw [Bool.eq_iff_iff, tie_iff, tie_iff]
  constructor
  · rintro ⟨hxy, hyx⟩
    exact ⟨h.negTrans x hx y hy z hz hxy hyz, h.negTrans z hz y hy x hx hzy hyx⟩
  · rintro ⟨hxz, hzx⟩
    exact ⟨h.negTrans x hx z hz y hy hxz hzy, h.negTrans y hy z hz x hx hyz hzx⟩

theorem not_less_of_first (h : WeakOrderOn less xs) {y z : α} {zs : List α} (hy : y ∈ xs)
    (hzs : ∀ x ∈ z :: zs, x ∈ xs) (hpairs : (z :: zs).Pairwise (fun x y => less y x = false))
    (hcount : 0 < (z :: zs).countP (tie less y)) : less y z = false := by
  obtain ⟨w, hw, hyw⟩ := List.countP_pos_iff.1 hcount
  obtain ⟨hyw, -⟩ := tie_iff.1 hyw
  rcases List.mem_cons.1 hw with rfl | hmem
  · exact hyw
  · exact h.negTrans y hy w (hzs w hw) z (hzs z List.mem_cons_self) hyw ((List.pairwise_cons.1 hpairs).1 w hmem)

/-- Arrangements in order agree place by place up to elements that are not told apart. -/
theorem forall₂_tie (h : WeakOrderOn less xs) {ys zs : List α} (hys : ∀ y ∈ ys, y ∈ xs) (hzs : ∀ z ∈ zs, z ∈ xs)
    (hpairs : ys.Pairwise (fun x y => less y x = false)) (hpairs' : zs.Pairwise (fun x y => less y x = false))
    (hcount : ∀ x ∈ xs, ys.countP (tie less x) = zs.countP (tie less x)) :
    List.Forall₂ (fun y z => tie less y z = true) ys zs := by
  have hcount_pos : ∀ {x : α} {l : List α}, (∀ y ∈ x :: l, y ∈ xs) → 0 < (x :: l).countP (tie less x) :=
    fun {x l} hl => List.countP_pos_iff.2 ⟨x, List.mem_cons_self, h.tie_self (hl x List.mem_cons_self)⟩
  induction ys generalizing zs with
  | nil =>
    cases zs with
    | nil => exact .nil
    | cons z zs =>
      have hzero := hcount z (hzs z List.mem_cons_self)
      have hpos := hcount_pos hzs
      rw [List.countP_nil] at hzero
      omega
  | cons y ys ih =>
    have hy := hys y List.mem_cons_self
    have hpos := hcount_pos hys
    cases zs with
    | nil =>
      have hzero := hcount y hy
      rw [List.countP_nil] at hzero
      omega
    | cons z zs =>
      have hz := hzs z List.mem_cons_self
      have hyz : tie less y z = true := by
        refine tie_iff.2 ⟨not_less_of_first h hy hzs hpairs' ?_, not_less_of_first h hz hys hpairs ?_⟩
        · rw [← hcount y hy]
          exact hpos
        · rw [hcount z hz]
          exact hcount_pos hzs
      refine .cons hyz (ih (fun x hx => hys x (List.mem_cons_of_mem y hx))
        (fun x hx => hzs x (List.mem_cons_of_mem z hx)) (List.pairwise_cons.1 hpairs).2
        (List.pairwise_cons.1 hpairs').2 ?_)
      intro x hx
      have hsum := hcount x hx
      rw [List.countP_cons, List.countP_cons, h.tie_congr hx hy hz hyz] at hsum
      omega

theorem pairwise_sort_not_less (h : WeakOrderOn less xs) :
    (sort less xs).Pairwise (fun x y => less y x = false) := by
  have hpairs : xs.Pairwise (fun _ _ => True) := List.pairwise_of_forall (fun _ _ => trivial)
  refine (pairwise_sort h hpairs).imp_of_mem ?_
  rintro x y hx hy (hless | ⟨hless, -⟩)
  · exact h.asymm x ((perm_sort less xs).mem_iff.1 hx) y ((perm_sort less xs).mem_iff.1 hy) hless
  · exact hless

theorem forall₂_sort_of_perm (h : WeakOrderOn less xs) (hperm : ys.Perm xs) :
    List.Forall₂ (fun x y => tie less x y = true) (sort less ys) (sort less xs) := by
  have hsorted := (perm_sort less ys).trans (hperm.trans (perm_sort less xs).symm)
  exact forall₂_tie h (fun y hy => hperm.mem_iff.1 ((perm_sort less ys).mem_iff.1 hy))
    (fun x hx => (perm_sort less xs).mem_iff.1 hx) (pairwise_sort_not_less (h.of_perm hperm))
    (pairwise_sort_not_less h) (fun x _ => hsorted.countP_eq (tie less x))

theorem WeakOrderOn.of_map {f : β → α} {ys : List β} (h : WeakOrderOn less (ys.map f)) :
    WeakOrderOn (fun x y => less (f x) (f y)) ys where
  asymm _ hx _ hy := h.asymm _ (List.mem_map_of_mem hx) _ (List.mem_map_of_mem hy)
  negTrans _ hx _ hy _ hz :=
    h.negTrans _ (List.mem_map_of_mem hx) _ (List.mem_map_of_mem hy) _ (List.mem_map_of_mem hz)

theorem InPlace.asymm (h : WeakOrderOn less xs) {earlier : α → α → Prop} (hearlier : ∀ x y, earlier x y → ¬earlier y x)
    {x y : α} (hx : x ∈ xs) (hy : y ∈ xs) (hxy : InPlace less earlier x y) : ¬InPlace less earlier y x := by
  rcases hxy with hxy | ⟨hyx, hxy⟩
  · rintro (hyx | ⟨hnot, -⟩)
    · exact Bool.false_ne_true ((h.asymm x hx y hy hxy).symm.trans hyx)
    · exact Bool.false_ne_true (hnot.symm.trans hxy)
  · rintro (hless | ⟨-, hlater⟩)
    · exact Bool.false_ne_true (hyx.symm.trans hless)
    · exact hearlier x y hxy hlater

end Sorting

open Sorting

/-- A sorting procedure. It sees a list only by how its places compare, and answers with the places in their
new order, or gives up. If the comparison is a weak order, it does not give up and the order is the
stable one. -/
structure Sorter where
  arrange (n : Nat) : (Fin n → Fin n → Bool) → Option (List (Fin n))
  perm {n : Nat} {less : Fin n → Fin n → Bool} {places : List (Fin n)} :
    arrange n less = some places → places.Perm (List.finRange n)
  stable {n : Nat} {less : Fin n → Fin n → Bool} : WeakOrderOn less (List.finRange n) →
    ∃ places, arrange n less = some places ∧ places.Pairwise (InPlace less (· < ·))

namespace Sorter

variable {α β : Type} {less : α → α → Bool} {xs ys : List α}

def sort (sorter : Sorter) (less : α → α → Bool) (xs : List α) : Option (List α) :=
  (sorter.arrange xs.length (fun i j => less (xs.get i) (xs.get j))).map (·.map xs.get)

/-- The sort that never gives up. -/
def insertion : Sorter where
  arrange n less := some (Sorting.sort less (List.finRange n))
  perm h := Option.some.inj h ▸ perm_sort _ _
  stable h := ⟨_, rfl, pairwise_sort h (List.pairwise_lt_finRange _)⟩

theorem sort_insertion (less : α → α → Bool) (xs : List α) :
    insertion.sort less xs = some (Sorting.sort less xs) := by
  have hsort := sort_map xs.get less (List.finRange xs.length)
  rw [List.map_get_finRange] at hsort
  exact congrArg some hsort.symm

theorem arrange_eq (sorter : Sorter) {n : Nat} {less : Fin n → Fin n → Bool}
    (h : WeakOrderOn less (List.finRange n)) :
    sorter.arrange n less = some (Sorting.sort less (List.finRange n)) := by
  obtain ⟨places, harrange, hplaces⟩ := sorter.stable h
  have hsorted := pairwise_sort h (List.pairwise_lt_finRange n)
  have hperm := (sorter.perm harrange).trans (perm_sort less _).symm
  have hantisymm : ∀ i j : Fin n, i ∈ places → j ∈ Sorting.sort less (List.finRange n) →
      InPlace less (· < ·) i j → InPlace less (· < ·) j i → i = j := fun i j _ _ hij hji =>
    absurd hji (hij.asymm h (fun _ _ hlt => Fin.lt_asymm hlt) (List.mem_finRange i) (List.mem_finRange j))
  rw [harrange, hperm.eq_of_pairwise hantisymm hplaces hsorted]

/-- Where being less is a weak order, all sorts agree. -/
theorem sort_eq (sorter : Sorter) (h : WeakOrderOn less xs) : sorter.sort less xs = some (Sorting.sort less xs) := by
  have hplaces : WeakOrderOn (fun i j => less (xs.get i) (xs.get j)) (List.finRange xs.length) := by
    rw [← List.map_get_finRange xs] at h
    exact h.of_map
  rw [← sort_insertion, sort, sorter.arrange_eq hplaces]
  rfl

theorem perm_of_sort (sorter : Sorter) (h : sorter.sort less xs = some ys) : ys.Perm xs := by
  obtain ⟨places, harrange, rfl⟩ := Option.map_eq_some_iff.1 h
  calc
    places.map xs.get
    List.Perm _ ((List.finRange xs.length).map xs.get) := (sorter.perm harrange).map xs.get
    _ = xs := List.map_get_finRange xs

theorem arrange_cast (sorter : Sorter) {m n : Nat} (h : m = n) (less : Fin n → Fin n → Bool) :
    (sorter.arrange m (fun i j => less (i.cast h) (j.cast h))).map (·.map (Fin.cast h)) =
      sorter.arrange n less := by
  subst h
  simp

theorem sort_map (sorter : Sorter) (f : α → β) (less : β → β → Bool) (xs : List α) :
    sorter.sort less (xs.map f) = (sorter.sort (fun x y => less (f x) (f y)) xs).map (·.map f) := by
  have hlength : (xs.map f).length = xs.length := List.length_map f
  have hget : (xs.map f).get = f ∘ xs.get ∘ Fin.cast hlength := by
    funext i
    simp
  rw [sort, sort, ← sorter.arrange_cast hlength, hget]
  simp only [Option.map_map, Function.comp_def, List.map_map]

end Sorter

end EntityStore
