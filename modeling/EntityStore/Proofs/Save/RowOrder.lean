import EntityStore.Proofs.Save.Stratification

/-!
# The order of commands on one row

Levels look at foreign keys only, so two commands on one row keep the order of their entries exactly
if no chain of precedences puts the earlier one on a higher level than the later one. A dependent
that is deleted in the same save is enough to move the deletion of its principal past a new
insertion of that principal.
-/

namespace EntityStore.Batches

open Precedence Traversal

def isOn (table : String) (key : EntityKey) (c : Command) : Bool :=
  decide (c.table = table ∧ c.key = key)

def OnRow (commands : List Command) (table : String) (key : EntityKey) (n : Nat) : Prop :=
  ∃ c, commands[n]? = some c ∧ isOn table key c = true

/-- A run of commands by the numbers of their entries: which of two entries comes first, and what
is left of it on one row. -/
structure RowOrder (r : Nat → Nat → Prop) (commands : List Command) (order : List Nat)
    (run : List Command) : Prop where
  perm : order.Perm (List.range commands.length)
  numbers : List.Forall₂ (fun n c => commands[n]? = some c) order run
  before_iff : ∀ i j, i < j → j < commands.length →
    (order.idxOf i < order.idxOf j ↔ ∀ k, Chain r k i → Chain r k j)
  row : ∀ table key,
    (∀ i j, i < j → OnRow commands table key i → OnRow commands table key j →
      ∀ k, Chain r k i → Chain r k j) →
    run.filter (isOn table key) = commands.filter (isOn table key)

/-- In a stratified plan an entry comes before a later one unless it has the higher level. -/
theorem Stratified.idxOf_lt_iff {r : Nat → Nat → Prop} {count size : Nat} {plan : List (List Nat)}
    (h : Stratified r count size plan) {i j : Nat} (hij : i < j) (hj : j < count) :
    plan.flatten.idxOf i < plan.flatten.idxOf j ↔ ∀ k, Chain r k i → Chain r k j := by
  have hlevel : ∀ n, n < count → n ∈ plan.flatten ∧ ∃ k, IsLevel r n k := by
    intro n hn
    have hmem := h.perm.mem_iff.mpr (List.mem_range.mpr hn)
    obtain ⟨b, hb, hnb⟩ := List.mem_flatten.mp hmem
    obtain ⟨k, hk⟩ := h.level b hb
    exact ⟨hmem, k, hk n hnb⟩
  obtain ⟨hmemi, a, ha⟩ := hlevel i (Nat.lt_trans hij hj)
  obtain ⟨hmemj, b, hb⟩ := hlevel j hj
  have hi := List.idxOf_lt_length_of_mem hmemi
  have hj := List.idxOf_lt_length_of_mem hmemj
  have hordered := List.pairwise_iff_getElem.mp h.ordered
  rw [← ha.le_iff hb]
  rcases Nat.lt_trichotomy (plan.flatten.idxOf i) (plan.flatten.idxOf j) with hlt | heq | hgt
  · have hcases := hordered _ _ hi hj hlt a b
    rw [List.getElem_idxOf hi, List.getElem_idxOf hj] at hcases
    have := hcases ha hb
    omega
  · have hsame : i = j := by
      rw [← List.getElem_idxOf hi, ← List.getElem_idxOf hj]
      simp only [heq]
    omega
  · have hcases := hordered _ _ hj hi hgt b a
    rw [List.getElem_idxOf hi, List.getElem_idxOf hj] at hcases
    have := hcases hb ha
    omega

theorem filter_eq_filterMap {commands run : List Command} {order : List Nat} (p : Command → Bool)
    (h : List.Forall₂ (fun n c => commands[n]? = some c) order run) :
    run.filter p =
      (order.filter (fun n => (commands[n]?).any p)).filterMap (fun n => commands[n]?) := by
  induction h with
  | nil => rfl
  | @cons n c _ _ hc _ ih =>
    cases hp : p c with
    | false => simpa [hc, hp] using ih
    | true => simpa [hc, hp] using ih

theorem onRow_iff {commands : List Command} {table : String} {key : EntityKey} {n : Nat} :
    OnRow commands table key n ↔ (commands[n]?).any (isOn table key) = true := by
  rw [OnRow, Option.any_eq_true]

theorem filter_eq_of_keepsOrder {commands run : List Command} {order : List Nat} {p : Command → Bool}
    (hperm : order.Perm (List.range commands.length))
    (hnumbers : List.Forall₂ (fun n c => commands[n]? = some c) order run)
    (hkeeps : ∀ i j, i < j → j < commands.length → (commands[i]?).any p = true →
      (commands[j]?).any p = true → order.idxOf i < order.idxOf j) :
    run.filter p = commands.filter p := by
  have hnodup : order.Nodup := hperm.nodup_iff.mpr List.nodup_range
  have hpositions : order.Pairwise (fun i j => order.idxOf i < order.idxOf j) := by
    rw [List.pairwise_iff_getElem]
    intro a b ha hb hab
    rwa [hnodup.idxOf_getElem, hnodup.idxOf_getElem]
  have hsorted : (order.filter (fun n => (commands[n]?).any p)).Pairwise (· < ·) := by
    refine (hpositions.filter _).imp_of_mem ?_
    intro i j hi hj hlt
    obtain ⟨himem, hi⟩ := List.mem_filter.mp hi
    obtain ⟨_, hj⟩ := List.mem_filter.mp hj
    rcases Nat.lt_trichotomy i j with hij | rfl | hji
    · exact hij
    · exact absurd hlt (Nat.lt_irrefl _)
    · have hback := hkeeps j i hji (List.mem_range.mp (hperm.mem_iff.mp himem)) hj hi
      exact absurd hback (Nat.lt_asymm hlt)
  have hall := forall₂_range commands
  rw [filter_eq_filterMap p hnumbers, filter_eq_filterMap p hall]
  congr 1
  refine List.Perm.eq_of_pairwise ?_ hsorted (List.pairwise_lt_range.filter _) (hperm.filter _)
  intro i j _ _ hij hji
  exact absurd hij (Nat.lt_asymm hji)

/-- The order in which the commands of a save run, compared with the order of their entries. -/
theorem rowOrder_ofEntries {d : SchemaDef} {s : Schema} (h : Schema.ofDef d = .ok s)
    {options : StoreOptions} {entries : List PendingEntry} {batches : List Batch}
    (hbatches : ofEntries s options entries = .ok batches) :
    ∃ commands order, List.Forall₂ (fun e c => Command.ofEntry s e = .ok c) entries commands ∧
      RowOrder (MustPrecede s entries) commands order batches.flatten := by
  obtain ⟨commands, plan, hcommands, _, hplan, hstratified⟩ :=
    exists_plan (Schema.valid_of_ofDef h) hbatches
  rw [hcommands.length_eq] at hstratified
  have hnumbers := List.rel_flatten hplan
  refine ⟨commands, plan.flatten, hcommands, hstratified.perm, hnumbers,
    fun i j hij hj => hstratified.idxOf_lt_iff hij hj, ?_⟩
  intro table key hchains
  apply filter_eq_of_keepsOrder hstratified.perm hnumbers
  intro i j hij hj hi hj'
  exact (hstratified.idxOf_lt_iff hij hj).mpr
    (hchains i j hij (onRow_iff.mpr hi) (onRow_iff.mpr hj'))

/-- A blog is deleted and inserted again; a post of the deleted blog is deleted, too, or not. -/
def replacement (posts : List PendingEntry) : List PendingEntry :=
  ⟨⟨0⟩, .deleted, .empty, .ofList [("Id", .integer 1)]⟩ ::
    ⟨⟨0⟩, .added, .ofList [("Id", .integer 1)], .empty⟩ :: posts

/-- Without the post the blog is replaced as it should be. -/
theorem rowOrder_ofEntries_replacement :
    Schema.ofDef Schema.blogDef = .ok Schema.blogs ∧
      ∃ batches, ofEntries Schema.blogs .standard (replacement []) = .ok batches ∧
        ∃ commands order,
          List.Forall₂ (fun e c => Command.ofEntry Schema.blogs e = .ok c) (replacement []) commands ∧
          RowOrder (MustPrecede Schema.blogs (replacement [])) commands order batches.flatten :=
  ⟨Schema.ofDef_blogDef, _, rfl, rowOrder_ofEntries Schema.ofDef_blogDef rfl⟩

/-- With the post, the blog is inserted before it is deleted: the deletion waits for that of the
post, the insertion does not. -/
theorem reversed_replacement :
    ∃ deletion insertion postDeletion : Command,
      let entries := replacement [⟨⟨1⟩, .deleted, .empty,
        .ofList [("Id", .integer 10), ("BlogId", .integer 1)]⟩]
      Schema.ofDef Schema.blogDef = .ok Schema.blogs ∧
      entries.mapM (Command.ofEntry Schema.blogs) = .ok [deletion, insertion, postDeletion] ∧
      deletion.table = insertion.table ∧ deletion.key = insertion.key ∧ deletion ≠ insertion ∧
      ofEntries Schema.blogs .standard entries = .ok [[insertion, postDeletion], [deletion]] := by
  refine ⟨_, _, _, rfl, rfl, rfl, rfl, ?_, rfl⟩
  decide

end EntityStore.Batches
