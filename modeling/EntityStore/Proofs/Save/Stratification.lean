import EntityStore.Proofs.Precedence.Levels
import EntityStore.Proofs.Save.Command
import EntityStore.Proofs.Save.MustPrecede

/-!
# Stratified batches

The batches of a save run level by level, where the level of an entry is the length of the longest
chain of entries that must precede it. A plan lists the numbers of the entries of each batch.
-/

namespace EntityStore.Batches

open Precedence Relation Traversal

variable {α β : Type}

theorem flatten_cut {size : Nat} (hsize : 0 < size) (pieces : Nat) (xs : List α)
    (h : xs.length ≤ pieces) : (cut size pieces xs).flatten = xs := by
  induction pieces generalizing xs with
  | zero =>
    obtain rfl := List.length_eq_zero_iff.mp (Nat.le_zero.mp h)
    rfl
  | succ pieces ih =>
    cases xs with
    | nil => rfl
    | cons x xs =>
      have hrest : ((x :: xs).drop size).length ≤ pieces := by
        simp only [List.length_drop, List.length_cons] at h ⊢
        omega
      rw [cut, List.flatten_cons, ih _ hrest, List.take_append_drop]
      simp

theorem mem_cut {size : Nat} (hsize : 0 < size) {pieces : Nat} {xs b : List α}
    (h : b ∈ cut size pieces xs) : b ≠ [] ∧ b.length ≤ size ∧ ∀ x ∈ b, x ∈ xs := by
  induction pieces generalizing xs with
  | zero => cases h
  | succ pieces ih =>
    cases xs with
    | nil => cases h
    | cons x xs =>
      rw [cut] at h
      rcases List.mem_cons.mp h with rfl | h
      · refine ⟨?_, List.length_take_le _ _, fun y hy => List.mem_of_mem_take hy⟩
        intro hnil
        have hlen := congrArg List.length hnil
        simp only [List.length_take, List.length_cons, List.length_nil] at hlen
        omega
      · obtain ⟨hne, hle, hmem⟩ := ih h
        exact ⟨hne, hle, fun y hy => List.mem_of_mem_drop (hmem y hy)⟩
      · simp

theorem pairwise_cut {size : Nat} (pieces : Nat) (xs : List α) :
    (cut size pieces xs).Pairwise (fun b _ => b.length = size) := by
  induction pieces generalizing xs with
  | zero => exact .nil
  | succ pieces ih =>
    cases xs with
    | nil => exact .nil
    | cons x xs =>
      rw [cut]
      · refine .cons ?_ (ih _)
        intro b hb
        rcases Nat.lt_or_ge size (x :: xs).length with hlt | hge
        · rw [List.length_take]
          omega
        · rw [List.drop_eq_nil_of_le hge] at hb
          cases pieces <;> cases hb
      · simp

theorem forall₂_cut {R : α → β → Prop} {size pieces : Nat} {xs : List α} {ys : List β}
    (h : List.Forall₂ R xs ys) :
    List.Forall₂ (List.Forall₂ R) (cut size pieces xs) (cut size pieces ys) := by
  induction pieces generalizing xs ys with
  | zero => exact .nil
  | succ pieces ih =>
    cases h with
    | nil => exact .nil
    | cons hxy htail =>
      have h := List.Forall₂.cons hxy htail
      rw [cut, cut]
      · exact .cons (List.forall₂_take size h) (ih (List.forall₂_drop size h))
      · simp
      · simp

def onLevel (level : Nat → Option Nat) (count k : Nat) : List Nat :=
  (List.range count).filter (fun n => level n == some k)

def plan (level : Nat → Option Nat) (count size : Nat) : List (List Nat) :=
  (List.range count).flatMap (fun k =>
    cut size (onLevel level count k).length (onLevel level count k))

/-- A plan that runs all entries, level by level and on each level in order, in batches that are
full unless they end a level. -/
structure Stratified (r : Nat → Nat → Prop) (count size : Nat) (plan : List (List Nat)) : Prop where
  perm : plan.flatten.Perm (List.range count)
  sized : ∀ b ∈ plan, b ≠ [] ∧ b.length ≤ size
  level : ∀ b ∈ plan, ∃ k, ∀ n ∈ b, IsLevel r n k
  ordered : plan.flatten.Pairwise (fun m n =>
    ∀ j k, IsLevel r m j → IsLevel r n k → j < k ∨ j = k ∧ m < n)
  filled : plan.Pairwise (fun b b' =>
    ∀ k, (∀ m ∈ b, IsLevel r m k) → (∀ n ∈ b', IsLevel r n k) → b.length = size)

theorem mem_onLevel {level : Nat → Option Nat} {count k n : Nat} :
    n ∈ onLevel level count k ↔ n < count ∧ level n = some k := by
  simp [onLevel]

theorem flatten_plan {level : Nat → Option Nat} {count size : Nat} (hsize : 0 < size) :
    (plan level count size).flatten = (List.range count).flatMap (onLevel level count) := by
  unfold plan
  induction List.range count with
  | nil => rfl
  | cons k ks ih =>
    rw [List.flatMap_cons, List.flatten_append, ih, flatten_cut hsize _ _ (Nat.le_refl _),
      List.flatMap_cons]

section

variable {r : Nat → Nat → Prop} {level : Nat → Option Nat} {count size : Nat}
  (hlevel : ∀ n, n < count → ∃ k, k < count ∧ level n = some k ∧ IsLevel r n k)

include hlevel

theorem isLevel_of_mem_onLevel {n k : Nat} (hn : n ∈ onLevel level count k) :
    n < count ∧ IsLevel r n k := by
  obtain ⟨hlt, hk⟩ := mem_onLevel.mp hn
  obtain ⟨k', _, hk', his⟩ := hlevel n hlt
  rw [hk] at hk'
  cases hk'
  exact ⟨hlt, his⟩

theorem perm_flatten_plan (hsize : 0 < size) :
    (plan level count size).flatten.Perm (List.range count) := by
  have hon := @isLevel_of_mem_onLevel r level count hlevel
  rw [flatten_plan hsize]
  refine (List.perm_ext_iff_of_nodup ?_ List.nodup_range).mpr ?_
  · refine List.pairwise_flatMap.mpr ⟨fun k _ => List.nodup_range.filter _, ?_⟩
    refine List.nodup_range.imp ?_
    rintro j k hne m hm n hn rfl
    exact hne ((hon hm).2.unique (hon hn).2)
  · intro n
    rw [List.mem_flatMap, List.mem_range]
    constructor
    · rintro ⟨k, _, hn⟩
      exact (hon hn).1
    · intro hn
      obtain ⟨k, hk, hkn, _⟩ := hlevel n hn
      exact ⟨k, List.mem_range.mpr hk, mem_onLevel.mpr ⟨hn, hkn⟩⟩

theorem pairwise_flatten_plan (hsize : 0 < size) :
    (plan level count size).flatten.Pairwise (fun m n =>
      ∀ j k, IsLevel r m j → IsLevel r n k → j < k ∨ j = k ∧ m < n) := by
  have hon := @isLevel_of_mem_onLevel r level count hlevel
  rw [flatten_plan hsize]
  refine List.pairwise_flatMap.mpr ⟨?_, ?_⟩
  · intro k _
    have hsorted : (onLevel level count k).Pairwise (· < ·) := List.pairwise_lt_range.filter _
    refine hsorted.imp_of_mem ?_
    intro m n hm hn hlt i j hi hj
    exact Or.inr ⟨by rw [hi.unique (hon hm).2, hj.unique (hon hn).2], hlt⟩
  · refine List.pairwise_lt_range.imp ?_
    intro j k hlt m hm n hn j' k' hj' hk'
    rw [hj'.unique (hon hm).2, hk'.unique (hon hn).2]
    exact Or.inl hlt

/-- Cutting each level gives a stratified plan. -/
theorem stratified_plan (hsize : 0 < size) : Stratified r count size (plan level count size) := by
  have hon := @isLevel_of_mem_onLevel r level count hlevel
  have hbatch : ∀ b ∈ plan level count size,
      ∃ k, b ≠ [] ∧ b.length ≤ size ∧ ∀ n ∈ b, IsLevel r n k := by
    intro b hb
    obtain ⟨k, _, hb⟩ := List.mem_flatMap.mp hb
    obtain ⟨hne, hle, hmem⟩ := mem_cut hsize hb
    exact ⟨k, hne, hle, fun n hn => (hon (hmem n hn)).2⟩
  refine ⟨perm_flatten_plan hlevel hsize, ?_, ?_, pairwise_flatten_plan hlevel hsize, ?_⟩
  · intro b hb
    obtain ⟨_, hne, hle, _⟩ := hbatch b hb
    exact ⟨hne, hle⟩
  · intro b hb
    obtain ⟨k, _, _, hk⟩ := hbatch b hb
    exact ⟨k, hk⟩
  · refine List.pairwise_flatMap.mpr ⟨fun k _ => (pairwise_cut _ _).imp (fun h _ _ _ => h), ?_⟩
    -- batches of different levels have no level in common
    refine List.pairwise_lt_range.imp ?_
    intro j k hlt b hb b' hb' i hi hi'
    obtain ⟨hne, _, hmem⟩ := mem_cut hsize hb
    obtain ⟨hne', _, hmem'⟩ := mem_cut hsize hb'
    obtain ⟨m, hm⟩ := List.exists_mem_of_ne_nil b hne
    obtain ⟨n, hn⟩ := List.exists_mem_of_ne_nil b' hne'
    have hj := (hi m hm).unique (hon (hmem m hm)).2
    have hk := (hi' n hn).unique (hon (hmem' n hn)).2
    omega

end

theorem Stratified.separated {r : Nat → Nat → Prop} {count size : Nat} {plan : List (List Nat)}
    (h : Stratified r count size plan) (hlt : ∀ i j, r i j → i < count ∧ j < count) {i j : Nat}
    (hij : r i j) :
    ∃ (p q : Nat) (b b' : List Nat), p < q ∧ plan[p]? = some b ∧ plan[q]? = some b' ∧ i ∈ b ∧ j ∈ b' := by
  have hmem : ∀ n, n < count → ∃ (p : Nat) (b : List Nat), plan[p]? = some b ∧ n ∈ b := by
    intro n hn
    obtain ⟨b, hb, hnb⟩ := List.mem_flatten.mp (h.perm.mem_iff.mpr (List.mem_range.mpr hn))
    obtain ⟨p, hp⟩ := List.mem_iff_getElem?.mp hb
    exact ⟨p, b, hp, hnb⟩
  obtain ⟨p, b, hp, hib⟩ := hmem i (hlt i j hij).1
  obtain ⟨q, b', hq, hjb'⟩ := hmem j (hlt i j hij).2
  obtain ⟨k, hk⟩ := h.level b (List.mem_of_getElem? hp)
  obtain ⟨k', hk'⟩ := h.level b' (List.mem_of_getElem? hq)
  have hlevels : k < k' := (hk i hib).lt (hk' j hjb') hij
  refine ⟨p, q, b, b', ?_, hp, hq, hib, hjb'⟩
  rcases Nat.lt_trichotomy p q with hpq | rfl | hqp
  · exact hpq
  · rw [hp] at hq
    cases hq
    have := (hk j hjb').unique (hk' j hjb')
    omega
  · -- otherwise the plan would run the higher level first
    obtain ⟨hplt, rfl⟩ := List.getElem?_eq_some_iff.mp hp
    obtain ⟨hqlt, rfl⟩ := List.getElem?_eq_some_iff.mp hq
    have hordered := (List.pairwise_flatten.mp h.ordered).2
    have := List.pairwise_iff_getElem.mp hordered q p hqlt hplt hqp j hjb' i hib k' k
      (hk' j hjb') (hk i hib)
    omega

theorem forall₂_filter_map {R : Nat → Command → Prop} (q : Nat → Bool) {l : List (Nat × Command)}
    (h : ∀ x ∈ l, R x.1 x.2) :
    List.Forall₂ R ((l.map (·.1)).filter q) ((l.filter (fun x => q x.1)).map (·.2)) := by
  induction l with
  | nil => exact .nil
  | cons x l ih =>
    have htail := ih (fun y hy => h y (List.mem_cons_of_mem x hy))
    cases hq : q x.1 with
    | false => simpa [hq] using htail
    | true =>
      simp only [List.map_cons, List.filter_cons, hq, if_true]
      exact .cons (h x List.mem_cons_self) htail

theorem forall₂_atLevel (levels : List (Nat × Nat)) (commands : List Command) (k : Nat) :
    List.Forall₂ (fun n c => commands[n]? = some c)
      (onLevel (fun n => levels.lookup n) commands.length k)
      (atLevel levels (commands.zipIdx.map (fun (c, i) => (i, c))) k) := by
  have hnumbers : (commands.zipIdx.map (fun (c, i) => (i, c))).map (·.1) = List.range commands.length := by
    rw [List.map_map]
    exact (List.zipIdx_map_snd 0 commands).trans List.range_eq_range'.symm
  rw [onLevel, ← hnumbers]
  apply forall₂_filter_map
  intro x hx
  obtain ⟨⟨c, i⟩, hmem, rfl⟩ := List.mem_map.mp hx
  simpa [List.mem_zipIdx_iff_getElem?] using hmem

theorem exists_graph {s : Schema} (hs : s.Valid) (options : StoreOptions)
    {entries : List PendingEntry} {commands : List Command}
    (hcommands : List.Forall₂ (fun e c => Command.ofEntry s e = .ok c) entries commands) :
    ∃ g : Precedence, g.size = entries.length ∧ g.Bounded ∧ g.Edge = MustPrecede s entries ∧
      ofEntries s options entries = (match g.order? with
        | .error n => .error (cycleAt n)
        | .ok order => .ok ((List.range entries.length).flatMap (fun level =>
            let commands := atLevel (g.levels order) (commands.zipIdx.map (fun (c, i) => (i, c))) level
            cut (max 1 options.maxBatchSize.toNat) commands.length commands))) := by
  have htypes : ∀ e ∈ entries, ∃ t, s.entityType e.entityType = .ok t := by
    intro e he
    obtain ⟨c, _, hc⟩ := exists_of_mem_left hcommands he
    obtain ⟨t, _, haccepted⟩ := Command.exists_accepted hs hc
    exact ⟨t, haccepted.type⟩
  obtain ⟨g, hg, hsize, hedge⟩ := exists_precedence hs htypes
  refine ⟨g, hsize, ?_, ?_, ?_⟩
  · intro i j hij
    rw [hsize]
    exact ((hedge i j).mp hij).lt_length
  · funext i j
    exact propext (hedge i j)
  rw [ofEntries, mapM_eq_ok_iff.mpr hcommands, ok_bind, hg]
  change (match g.order? with | .error n => _ | .ok order => _) = _
  cases g.order? <;> rfl

theorem exists_plan {s : Schema} (hs : s.Valid) {options : StoreOptions}
    {entries : List PendingEntry} {batches : List Batch}
    (h : ofEntries s options entries = .ok batches) :
    ∃ commands plan, List.Forall₂ (fun e c => Command.ofEntry s e = .ok c) entries commands ∧
      (∀ n, ¬ TransGen (MustPrecede s entries) n n) ∧
      List.Forall₂ (List.Forall₂ (fun n c => commands[n]? = some c)) plan batches ∧
      Stratified (MustPrecede s entries) entries.length (max 1 options.maxBatchSize.toNat) plan := by
  obtain ⟨commands, hmap, _⟩ := bind_eq_ok_iff.mp h
  have hcommands := mapM_eq_ok_iff.mp hmap
  obtain ⟨g, hsize, hbounded, hedge, heq⟩ := exists_graph hs options hcommands
  have hirrefl : ∀ i, ¬ g.Edge i i := by
    rw [hedge]
    exact fun i hi => hi.1 rfl
  rw [heq] at h
  split at h
  · cases h
  · rename_i order horder
    cases h
    have hisOrder := isOrder_of_order? hbounded horder
    have hlevel : ∀ n, n < entries.length → ∃ k, k < entries.length ∧
        (g.levels order).lookup n = some k ∧ IsLevel g.Edge n k := by
      rw [← hsize]
      intro n hn
      obtain ⟨k, hk, his⟩ := isLevel_levels hbounded hirrefl hisOrder hn
      exact ⟨k, hisOrder.chain_lt hbounded hirrefl hn his.1, hk, his⟩
    refine ⟨commands, plan (fun n => (g.levels order).lookup n) entries.length
      (max 1 options.maxBatchSize.toNat), hcommands, ?_, ?_, ?_⟩
    · rw [← hedge]
      exact hisOrder.acyclic hbounded hirrefl
    · refine List.rel_flatMap (List.forall₂_eq_eq_eq.symm ▸ rfl) ?_
      rintro k _ rfl
      have hat := forall₂_atLevel (g.levels order) commands k
      rw [← hcommands.length_eq] at hat
      simp only [hat.length_eq]
      exact forall₂_cut hat
    · rw [← hedge]
      exact stratified_plan hlevel (by omega)

theorem eq_filterMap {commands cs : List Command} {ns : List Nat}
    (h : List.Forall₂ (fun n c => commands[n]? = some c) ns cs) :
    cs = ns.filterMap (fun n => commands[n]?) := by
  induction h with
  | nil => rfl
  | cons hc _ ih => rw [List.filterMap_cons_some hc, ← ih]

theorem forall₂_range (commands : List Command) :
    List.Forall₂ (fun n c => commands[n]? = some c) (List.range commands.length) commands := by
  refine List.forall₂_iff_get.mpr ⟨List.length_range, ?_⟩
  intro i _ hi
  simp [List.getElem?_eq_getElem hi]

theorem perm_of_numbers {commands cs : List Command} {ns : List Nat}
    (h : List.Forall₂ (fun n c => commands[n]? = some c) ns cs)
    (hns : ns.Perm (List.range commands.length)) : cs.Perm commands := by
  have hperm := hns.filterMap (fun n => commands[n]?)
  rw [← eq_filterMap h, ← eq_filterMap (forall₂_range commands)] at hperm
  exact hperm

theorem cases_of_error {s : Schema} (hs : s.Valid) {options : StoreOptions}
    {entries : List PendingEntry} {e : StoreError} (h : ofEntries s options entries = .error e) :
    (∃ p ∈ entries, ∃ reason, Command.ofEntry s p = .error (Command.refused reason) ∧
      e = Command.refused reason) ∨
    ∃ commands n, List.Forall₂ (fun e c => Command.ofEntry s e = .ok c) entries commands ∧
      e = cycleAt n ∧ TransGen (MustPrecede s entries) n n := by
  cases hmap : entries.mapM (Command.ofEntry s) with
  | error cause =>
    left
    rw [ofEntries, hmap] at h
    cases h
    obtain ⟨p, hp, hrefused⟩ := exists_error_of_mapM hmap
    obtain ⟨reason, rfl⟩ := Command.onlyRefuses_ofEntry hs p _ hrefused
    exact ⟨p, hp, reason, hrefused, rfl⟩
  | ok commands =>
    right
    have hcommands := mapM_eq_ok_iff.mp hmap
    obtain ⟨g, _, hbounded, hedge, heq⟩ := exists_graph hs options hcommands
    rw [heq] at h
    split at h
    · rename_i n hcycle
      cases h
      obtain ⟨_, hn⟩ := cycle_of_order? hbounded hcycle
      exact ⟨commands, n, hcommands, rfl, hedge ▸ hn⟩
    · cases h

/-- What the batches of a save come to: an entry is refused; or all entries are accepted, but some
must precede themselves, and one of these is named; or the commands run by a stratified plan. -/
inductive Outcome (s : Schema) (options : StoreOptions) (entries : List PendingEntry) :
    Except StoreError (List Batch) → Prop
  | refused (e : PendingEntry) (reason : String) (he : e ∈ entries)
      (hrefused : Command.ofEntry s e = .error (.invalidArgument "entries" reason)) :
      Outcome s options entries (.error (.invalidArgument "entries" reason))
  | cyclic (commands : List Command) (n : Nat)
      (hcommands : List.Forall₂ (fun e c => Command.ofEntry s e = .ok c) entries commands)
      (hcycle : TransGen (MustPrecede s entries) n n) :
      Outcome s options entries (.error (cycleAt n))
  | planned (commands : List Command) (plan : List (List Nat)) (batches : List Batch)
      (hcommands : List.Forall₂ (fun e c => Command.ofEntry s e = .ok c) entries commands)
      (hacyclic : ∀ n, ¬ TransGen (MustPrecede s entries) n n)
      (hplan : List.Forall₂ (List.Forall₂ (fun n c => commands[n]? = some c)) plan batches)
      (hperm : batches.flatten.Perm commands)
      (hstratified : Stratified (MustPrecede s entries) entries.length
        (max 1 options.maxBatchSize.toNat) plan)
      (hseparated : ∀ i j, MustPrecede s entries i j → ∃ (p q : Nat) (b b' : List Nat),
        p < q ∧ plan[p]? = some b ∧ plan[q]? = some b' ∧ i ∈ b ∧ j ∈ b') :
      Outcome s options entries (.ok batches)

theorem outcome_ofEntries {d : SchemaDef} {s : Schema} (h : Schema.ofDef d = .ok s)
    (options : StoreOptions) (entries : List PendingEntry) :
    Outcome s options entries (ofEntries s options entries) := by
  have hs := Schema.valid_of_ofDef h
  cases hresult : ofEntries s options entries with
  | error e =>
    rcases cases_of_error hs hresult with ⟨p, hp, reason, hrefused, rfl⟩ | ⟨commands, n, hcommands, rfl, hn⟩
    · exact .refused p reason hp hrefused
    · exact .cyclic commands n hcommands hn
  | ok batches =>
    obtain ⟨commands, plan, hcommands, hacyclic, hplan, hstratified⟩ := exists_plan hs hresult
    refine .planned commands plan batches hcommands hacyclic hplan ?_ hstratified ?_
    · refine perm_of_numbers (List.rel_flatten hplan) ?_
      rw [← hcommands.length_eq]
      exact hstratified.perm
    · intro i j hij
      exact hstratified.separated (fun i j hij => hij.lt_length) hij

/-- A new post is listed before the blog it belongs to. -/
theorem outcome_ofEntries_blogs :
    let entries : List PendingEntry := [
      ⟨⟨1⟩, .added, .ofList [("Id", .integer 10), ("BlogId", .integer 1)], .empty⟩,
      ⟨⟨0⟩, .added, .ofList [("Id", .integer 1)], .empty⟩]
    Schema.ofDef Schema.blogDef = .ok Schema.blogs ∧
      Outcome Schema.blogs .standard entries (ofEntries Schema.blogs .standard entries) ∧
      (ofEntries Schema.blogs .standard entries).map (·.map (·.map (·.table))) =
        .ok [["Blog"], ["Post"]] :=
  ⟨Schema.ofDef_blogDef, outcome_ofEntries Schema.ofDef_blogDef _ _, rfl⟩

end EntityStore.Batches
