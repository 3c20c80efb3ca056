import EntityStore.Proofs.Query.Candidates
import EntityStore.Proofs.Sql.Ordering

/-!
# Order and pages of results

A statement that can be evaluated without a page gives a row for each binding that passes the joins and
the predicate. The rows are in the order of their sort keys, and those with equal keys in the order of
the nested loops over the tables. A page is cut out of these rows, and pages of one size that follow one
another give all of them.
-/

namespace EntityStore.Select

open Traversal Value

/-- A record for each of some tables, in every possible way; the first table varies slowest. -/
def loops (tables : TableContents) : List TableRef → List Binding
  | [] => [[]]
  | t :: rest => (tables t.table).flatMap (fun r => (loops tables rest).map ((t.label, r) :: ·))

def meets (parameters : Parameters) (binding : Binding) (e : SqlExpr) : Bool :=
  (e.holds parameters binding).toOption == some true

def joinsHold (parameters : Parameters) (joins : List TableJoin) (binding : Binding) : Bool :=
  joins.zipIdx.all (fun x => meets parameters (binding.take (x.2 + 2)) x.1.condition)

section

variable (s : Select) (parameters : Parameters) (tables : TableContents)

/-- The bindings that pass the joins and the predicate, in the order of the nested loops. -/
def passing : List Binding :=
  (loops tables s.tables).filter (fun binding =>
    joinsHold parameters s.joins binding && s.predicate.all (meets parameters binding))

def sortKeys (binding : Binding) : List Value :=
  s.orderBy.map (fun o => (o.expr.eval parameters binding).toOption.getD .null)

def directions : List Direction := s.orderBy.map (·.direction)

def paged (offset limit : Option UInt64) : Select := { s with offset := offset, limit := limit }

end

variable {s : Select} {parameters : Parameters} {tables : TableContents}

/-! ### The bindings that pass -/

theorem loops_snoc (ts : List TableRef) (t : TableRef) :
    loops tables (ts ++ [t]) = (loops tables ts).flatMap (fun binding =>
      (tables t.table).map (fun r => binding ++ [(t.label, r)])) := by
  induction ts with
  | nil => simp [loops, List.map_eq_flatMap]
  | cons u ts ih =>
    simp only [List.cons_append, loops, ih, List.flatMap_assoc, List.map_flatMap, List.flatMap_map,
      List.map_map]
    rfl

theorem length_of_mem_loops {ts : List TableRef} {binding : Binding} (h : binding ∈ loops tables ts) :
    binding.length = ts.length := by
  induction ts generalizing binding with
  | nil =>
    obtain rfl := List.mem_singleton.1 h
    rfl
  | cons t ts ih =>
    obtain ⟨r, -, h⟩ := List.mem_flatMap.1 h
    obtain ⟨rest, hrest, rfl⟩ := List.mem_map.1 h
    rw [List.length_cons, ih hrest, List.length_cons]

theorem joinsHold_snoc {joins : List TableJoin} {binding : Binding} (h : binding.length = joins.length + 1)
    (j : TableJoin) (x : String × Record) :
    joinsHold parameters (joins ++ [j]) (binding ++ [x]) =
      (joinsHold parameters joins binding && meets parameters (binding ++ [x]) j.condition) := by
  have hfirst : joins.zipIdx.all (fun y => meets parameters ((binding ++ [x]).take (y.2 + 2)) y.1.condition) =
      joinsHold parameters joins binding := by
    rw [joinsHold, Bool.eq_iff_iff, List.all_eq_true, List.all_eq_true]
    refine forall₂_congr ?_
    intro y hy
    have hlt : y.2 < joins.length := by simpa using (List.mem_zipIdx hy).2.1
    rw [List.take_append_of_le_length (by omega)]
  have hwhole : (binding ++ [x]).take (joins.length + 2) = binding ++ [x] := by
    apply List.take_of_length_le
    rw [List.length_append, h]
    rfl
  rw [joinsHold, List.zipIdx_append, List.all_append, hfirst]
  simp [hwhole]

theorem eq_of_joinTable {bs cs : List Binding} {j : TableJoin} (h : joinTable parameters tables bs j = .ok cs) :
    cs = bs.flatMap (fun binding =>
      ((tables j.table.table).map (fun r => binding ++ [(j.table.label, r)])).filter
        (fun candidate => meets parameters candidate j.condition)) := by
  rw [joinTable, bind_eq_ok_iff] at h
  obtain ⟨extended, hextended, h⟩ := h
  obtain rfl := pure_eq_ok.1 h
  rw [List.flatMap_def]
  congr 1
  rw [← List.forall₂_eq_eq_eq, List.forall₂_map_right_iff]
  exact ((mapM_eq_ok_iff.1 hextended).imp (fun _ _ h => eq_filter_of_filterM h)).flip

theorem filter_loops_snoc (source : TableRef) (joins : List TableJoin) (j : TableJoin) :
    (loops tables (source :: (joins ++ [j]).map (·.table))).filter (joinsHold parameters (joins ++ [j])) =
      ((loops tables (source :: joins.map (·.table))).filter (joinsHold parameters joins)).flatMap
        (fun binding => ((tables j.table.table).map (fun r => binding ++ [(j.table.label, r)])).filter
          (fun candidate => meets parameters candidate j.condition)) := by
  rw [List.map_append, ← List.cons_append, List.map_singleton, loops_snoc, ← List.filter_flatMap]
  apply Reading.filter_flatMap_of_and
  intro binding hbinding candidate hcandidate
  obtain ⟨r, -, rfl⟩ := List.mem_map.1 hcandidate
  have hlength := length_of_mem_loops hbinding
  rw [List.length_cons, List.length_map] at hlength
  exact joinsHold_snoc hlength j _

theorem eq_of_foldlM_joinTable {source : TableRef} {done rest : List TableJoin} {bs : List Binding}
    (h : rest.foldlM (joinTable parameters tables)
      ((loops tables (source :: done.map (·.table))).filter (joinsHold parameters done)) = .ok bs) :
    bs = (loops tables (source :: (done ++ rest).map (·.table))).filter (joinsHold parameters (done ++ rest)) := by
  induction rest generalizing done with
  | nil =>
    cases h
    rw [List.append_nil]
  | cons j rest ih =>
    rw [List.foldlM_cons, bind_eq_ok_iff] at h
    obtain ⟨cs, hcs, h⟩ := h
    rw [eq_of_joinTable hcs, ← filter_loops_snoc] at h
    rw [ih h, List.append_assoc, List.singleton_append]

theorem eq_of_candidates {bs : List Binding} (h : s.candidates parameters tables = .ok bs) :
    bs = (loops tables s.tables).filter (joinsHold parameters s.joins) := by
  have hsource : (tables s.source.table).map (fun r => [(s.source.label, r)]) =
      (loops tables (s.source :: ([] : List TableJoin).map (·.table))).filter (joinsHold parameters []) := by
    have hall : ∀ bs : List Binding, bs.filter (joinsHold parameters []) = bs :=
      fun bs => List.filter_eq_self.2 (fun _ _ => rfl)
    rw [hall]
    simp [loops, List.map_eq_flatMap]
  rw [candidates, hsource] at h
  rw [eq_of_foldlM_joinTable h]
  rfl

theorem eq_of_keep {predicate : Option SqlExpr} {bs cs : List Binding}
    (h : keep predicate parameters bs = .ok cs) : cs = bs.filter (fun b => predicate.all (meets parameters b)) := by
  cases predicate with
  | none =>
    cases h
    simp
  | some p => exact eq_filter_of_filterM h

/-! ### Sorting -/

def before (s : Select) (parameters : Parameters) (b c : Binding) : Bool :=
  compareKeys s.directions (s.sortKeys parameters b) (s.sortKeys parameters c) == .lt

theorem sortKeys_of_mapM {binding : Binding} {keys : List Value}
    (h : s.orderBy.mapM (fun o => o.expr.eval parameters binding) = .ok keys) :
    s.sortKeys parameters binding = keys := by
  rw [sortKeys, ← List.forall₂_eq_eq_eq, List.forall₂_map_left_iff]
  refine (mapM_eq_ok_iff.1 h).imp ?_
  intro o v hv
  rw [hv]
  rfl

theorem eq_of_sortBindings {bs cs : List Binding} (h : sortBindings s.orderBy parameters bs = .ok cs) :
    cs = Sorting.sort (s.before parameters) bs := by
  rw [sortBindings] at h
  split at h
  · rename_i hempty
    cases h
    refine (Sorting.sort_of_forall_not_less ?_ bs).symm
    intro b c
    rw [before, directions, List.isEmpty_iff.1 hempty]
    rfl
  · simp only [bind_eq_ok_iff, pure_eq_ok] at h
    obtain ⟨keyed, hkeyed, rfl⟩ := h
    have hpairs : keyed = bs.map (fun b => (s.sortKeys parameters b, b)) := by
      rw [← List.forall₂_eq_eq_eq, List.forall₂_map_right_iff]
      refine ((mapM_eq_ok_iff.1 hkeyed).imp ?_).flip
      intro b x hx
      rw [bind_eq_ok_iff] at hx
      obtain ⟨keys, hkeys, hx⟩ := hx
      change x = (s.sortKeys parameters b, b)
      rw [sortKeys_of_mapM hkeys]
      exact (pure_eq_ok.1 hx).symm
    rw [hpairs, Sorting.sort_map, List.map_map]
    exact List.map_id _

theorem mapM_eval_of_sortBindings {bs cs : List Binding} (h : sortBindings s.orderBy parameters bs = .ok cs) :
    ∀ b ∈ bs, s.orderBy.mapM (fun o => o.expr.eval parameters b) = .ok (s.sortKeys parameters b) := by
  intro b hb
  rw [sortBindings] at h
  split at h
  · rename_i hempty
    rw [sortKeys, List.isEmpty_iff.1 hempty]
    rfl
  · rw [bind_eq_ok_iff] at h
    obtain ⟨keyed, hkeyed, -⟩ := h
    obtain ⟨x, -, hx⟩ := exists_of_mem_left (mapM_eq_ok_iff.1 hkeyed) hb
    obtain ⟨keys, hkeys, -⟩ := bind_eq_ok_iff.1 hx
    rw [sortKeys_of_mapM hkeys, hkeys]

/-- No sort key of some bindings is a real. -/
def ExactKeys (s : Select) (parameters : Parameters) (bs : List Binding) : Prop :=
  ∀ b ∈ bs, ∀ o ∈ s.orderBy, ∀ r, o.expr.eval parameters b ≠ .ok (.real r)

theorem ExactKeys.noReal {bs : List Binding} (h : ExactKeys s parameters bs) {b : Binding} (hb : b ∈ bs) :
    ∀ v ∈ s.sortKeys parameters b, v.NoReal := by
  intro v hv r hr
  obtain ⟨o, ho, rfl⟩ := List.mem_map.1 hv
  apply h b hb o ho r
  cases heval : o.expr.eval parameters b with
  | ok w =>
    rw [heval] at hr
    exact congrArg Except.ok hr
  | error e =>
    rw [heval] at hr
    cases hr

theorem ExactKeys.weakOrderOn {bs : List Binding} (h : ExactKeys s parameters bs) :
    Sorting.WeakOrderOn (s.before parameters) bs where
  asymm b _ c _ hlt := by
    rw [before, compareKeys_swap, eq_of_beq hlt]
    rfl
  negTrans b hb c hc d hd hbc hcd := by
    have hle : ∀ {b c : Binding}, s.before parameters b c = false ↔
        (compareKeys s.directions (s.sortKeys parameters c) (s.sortKeys parameters b)).isLE := by
      intro b c
      rw [before, compareKeys_swap s.directions (s.sortKeys parameters b)]
      cases compareKeys s.directions (s.sortKeys parameters b) (s.sortKeys parameters c) <;> simp
    have hlength : ∀ b, (s.sortKeys parameters b).length = s.directions.length := by
      intro b
      rw [sortKeys, directions, List.length_map, List.length_map]
    rw [hle] at hbc hcd ⊢
    exact compareKeys_isLE_trans (hlength d) (hlength c) (hlength b) (h.noReal hd) (h.noReal hc)
      (h.noReal hb) hcd hbc

/-- Bindings with their places in the order of the nested loops, as a result shows them: in the order of
the sort keys, and those with equal keys as the loops give them. -/
structure Arranged (s : Select) (parameters : Parameters) (bs : List Binding) (numbered : List (Binding × Nat)) :
    Prop where
  perm : numbered.Perm bs.zipIdx
  sorted : numbered.Pairwise (fun x y =>
    ¬KeysBelow s.directions (s.sortKeys parameters y.1) (s.sortKeys parameters x.1))
  stable : numbered.Pairwise (fun x y =>
    ¬KeysBelow s.directions (s.sortKeys parameters x.1) (s.sortKeys parameters y.1) → x.2 < y.2)

theorem pairwise_zipIdx (bs : List Binding) : bs.zipIdx.Pairwise (fun x y => x.2 < y.2) := by
  rw [← List.pairwise_map (f := Prod.snd), List.zipIdx_map_snd]
  exact List.pairwise_lt_range' 1

theorem ExactKeys.arranged {bs : List Binding} (h : ExactKeys s parameters bs) :
    Arranged s parameters bs (Sorting.sort (fun x y => s.before parameters x.1 y.1) bs.zipIdx) := by
  have hmem : ∀ {x : Binding × Nat}, x ∈ bs.zipIdx → x.1 ∈ bs := fun hx =>
    (List.mem_zipIdx hx).2.2 ▸ List.getElem_mem _
  have hweak : Sorting.WeakOrderOn (fun x y : Binding × Nat => s.before parameters x.1 y.1) bs.zipIdx := {
    asymm := fun x hx y hy => h.weakOrderOn.asymm x.1 (hmem hx) y.1 (hmem hy)
    negTrans := fun x hx y hy z hz =>
      h.weakOrderOn.negTrans x.1 (hmem hx) y.1 (hmem hy) z.1 (hmem hz) }
  have hperm := Sorting.perm_sort (fun x y : Binding × Nat => s.before parameters x.1 y.1) bs.zipIdx
  have hbelow : ∀ {x y : Binding × Nat}, x ∈ bs.zipIdx → y ∈ bs.zipIdx →
      (KeysBelow s.directions (s.sortKeys parameters x.1) (s.sortKeys parameters y.1) ↔
        s.before parameters x.1 y.1 = true) := by
    intro x y hx hy
    rw [keysBelow_iff (h.noReal (hmem hx)) (h.noReal (hmem hy)), before, beq_iff_eq]
  have hplaced := Sorting.pairwise_sort hweak (pairwise_zipIdx bs)
  refine ⟨hperm, hplaced.imp_of_mem ?_, hplaced.imp_of_mem ?_⟩
  · intro x y hx hy hplace hyx
    rw [hbelow (hperm.mem_iff.1 hy) (hperm.mem_iff.1 hx)] at hyx
    have hnot : s.before parameters y.1 x.1 = false := by
      rcases hplace with hxy | ⟨hyx', -⟩
      · exact hweak.asymm x (hperm.mem_iff.1 hx) y (hperm.mem_iff.1 hy) hxy
      · exact hyx'
    exact Bool.false_ne_true (hnot.symm.trans hyx)
  · intro x y hx hy hplace hxy
    rw [hbelow (hperm.mem_iff.1 hx) (hperm.mem_iff.1 hy)] at hxy
    rcases hplace with hless | ⟨-, hearlier⟩
    · exact absurd hless hxy
    · exact hearlier

/-! ### Pages -/

def pageAt (s : Select) (size : UInt64) (i : Nat) : Select :=
  s.paged (some (UInt64.ofNat (i * size.toNat))) (some size)

theorem evaluate_eq_ok_iff {rows : List (List Value)} :
    s.evaluate parameters tables = .ok rows ↔ ∃ bs cs ds, s.candidates parameters tables = .ok bs ∧
      keep s.predicate parameters bs = .ok cs ∧ sortBindings s.orderBy parameters cs = .ok ds ∧
      (page s.offset s.limit ds).mapM (s.projectRow parameters) = .ok rows := by
  simp only [evaluate, bind_eq_ok_iff]
  constructor
  · rintro ⟨bs, hbs, cs, hcs, ds, hds, h⟩
    exact ⟨bs, cs, ds, hbs, hcs, hds, h⟩
  · rintro ⟨bs, cs, ds, hbs, hcs, hds, h⟩
    exact ⟨bs, hbs, cs, hcs, ds, hds, h⟩

theorem exists_of_unpaged {rows : List (List Value)}
    (h : (s.paged none none).evaluate parameters tables = .ok rows) :
    ∃ bs, s.candidates parameters tables = .ok bs ∧
      keep s.predicate parameters bs = .ok (s.passing parameters tables) ∧
      sortBindings s.orderBy parameters (s.passing parameters tables) =
        .ok (Sorting.sort (s.before parameters) (s.passing parameters tables)) ∧
      List.Forall₂ (fun b row => s.projectRow parameters b = .ok row)
        (Sorting.sort (s.before parameters) (s.passing parameters tables)) rows := by
  obtain ⟨bs, cs, ds, hbs, hcs, hds, hrows⟩ := evaluate_eq_ok_iff.1 h
  obtain rfl := eq_of_keep hcs
  obtain rfl := eq_of_sortBindings hds
  have hpassing : bs.filter (fun b => s.predicate.all (meets parameters b)) = s.passing parameters tables := by
    rw [eq_of_candidates hbs, List.filter_filter, passing]
    refine List.filter_congr ?_
    intro b _
    exact Bool.and_comm _ _
  rw [← hpassing]
  exact ⟨bs, hbs, hcs, hds, mapM_eq_ok_iff.1 hrows⟩

theorem forall₂_page {α β : Type} {R : α → β → Prop} {xs : List α} {ys : List β} (h : List.Forall₂ R xs ys)
    (offset limit : Option UInt64) : List.Forall₂ R (page offset limit xs) (page offset limit ys) := by
  have hdrop := List.forall₂_drop ((offset.map UInt64.toNat).getD 0) h
  cases limit with
  | none => exact hdrop
  | some n => exact List.forall₂_take n.toNat hdrop

/-- A page is cut out of the result without a page. -/
theorem evaluate_of_unpaged {rows : List (List Value)}
    (h : (s.paged none none).evaluate parameters tables = .ok rows) (offset limit : Option UInt64) :
    (s.paged offset limit).evaluate parameters tables = .ok (page offset limit rows) := by
  obtain ⟨bs, hbs, hcs, hds, hrows⟩ := exists_of_unpaged h
  exact evaluate_eq_ok_iff.2 ⟨bs, _, _, hbs, hcs, hds, mapM_eq_ok_iff.2 (forall₂_page hrows offset limit)⟩

theorem flatten_map_page (rows : List (List Value)) {size : UInt64} {n : Nat}
    (h : ∀ i < n, i * size.toNat < UInt64.size) :
    ((List.range n).map (fun i => page (some (UInt64.ofNat (i * size.toNat))) (some size) rows)).flatten =
      rows.take (n * size.toNat) := by
  induction n with
  | zero => simp
  | succ n ih =>
    have hoffset : (UInt64.ofNat (n * size.toNat)).toNat = n * size.toNat :=
      UInt64.toNat_ofNat_of_lt' (h n (Nat.lt_add_one n))
    have hlast : page (some (UInt64.ofNat (n * size.toNat))) (some size) rows =
        (rows.drop (n * size.toNat)).take size.toNat := by
      rw [page, Option.map_some, Option.getD_some, hoffset]
    rw [List.range_succ, List.map_append, List.flatten_append,
      ih (fun i hi => h i (Nat.lt_succ_of_lt hi)), List.map_singleton, List.flatten_singleton, hlast,
      ← List.take_add, Nat.succ_mul]

theorem mapM_pageAt {rows : List (List Value)}
    (h : (s.paged none none).evaluate parameters tables = .ok rows) (size : UInt64) (l : List Nat) :
    l.mapM (fun i => (s.pageAt size i).evaluate parameters tables) =
      .ok (l.map (fun i => page (some (UInt64.ofNat (i * size.toNat))) (some size) rows)) := by
  rw [mapM_eq_ok_iff, List.forall₂_map_right_iff, List.forall₂_same]
  intro i _
  exact evaluate_of_unpaged h _ _

theorem exists_pages (rows : List (List Value)) {size : UInt64} (hsize : 0 < size.toNat)
    (hrows : rows.length < UInt64.size) :
    ∃ n, (∀ i < n, i * size.toNat < UInt64.size) ∧ rows.length ≤ n * size.toNat := by
  refine ⟨rows.length / size.toNat + 1, ?_, ?_⟩
  · intro i hi
    calc i * size.toNat ≤ rows.length / size.toNat * size.toNat :=
          Nat.mul_le_mul_right _ (Nat.le_of_lt_succ hi)
      _ ≤ rows.length := Nat.div_mul_le_self _ _
      _ < UInt64.size := hrows
  · rw [Nat.mul_comm]
    exact (Nat.lt_mul_div_succ rows.length hsize).le

/-- What the rows of a result are, in which order, and what the pages show of them. -/
theorem evaluate_paged {rows : List (List Value)}
    (h : (s.paged none none).evaluate parameters tables = .ok rows)
    (hkeys : ExactKeys s parameters (s.passing parameters tables)) :
    (∀ b ∈ s.passing parameters tables,
      s.orderBy.mapM (fun o => o.expr.eval parameters b) = .ok (s.sortKeys parameters b)) ∧
    (∃ numbered, Arranged s parameters (s.passing parameters tables) numbered ∧
      (numbered.map Prod.fst).mapM (s.projectRow parameters) = .ok rows) ∧
    (∀ o l : UInt64,
      (s.paged (some o) none).evaluate parameters tables = .ok (rows.drop o.toNat) ∧
      (s.paged none (some l)).evaluate parameters tables = .ok (rows.take l.toNat) ∧
      (s.paged (some o) (some l)).evaluate parameters tables = .ok ((rows.drop o.toNat).take l.toNat)) ∧
    ∀ size : UInt64, 0 < size.toNat →
      (∀ n, (∀ i < n, i * size.toNat < UInt64.size) →
        ∃ pages, (List.range n).mapM (fun i => (s.pageAt size i).evaluate parameters tables) = .ok pages ∧
          pages.flatten = rows.take (n * size.toNat)) ∧
      (rows.length < UInt64.size → ∃ n pages,
        (List.range n).mapM (fun i => (s.pageAt size i).evaluate parameters tables) = .ok pages ∧
          pages.flatten = rows) := by
  obtain ⟨bs, -, -, hsorted, hrows⟩ := exists_of_unpaged h
  have hpage := evaluate_of_unpaged h
  refine ⟨mapM_eval_of_sortBindings hsorted, ⟨_, hkeys.arranged, ?_⟩, ?_, ?_⟩
  · rw [← Sorting.sort_map Prod.fst, List.zipIdx_map_fst]
    exact mapM_eq_ok_iff.2 hrows
  · exact fun o l => ⟨hpage (some o) none, hpage none (some l), hpage (some o) (some l)⟩
  · intro size hsize
    have hpages := fun n => mapM_pageAt h size (List.range n)
    constructor
    · exact fun n hoffsets => ⟨_, hpages n, flatten_map_page rows hoffsets⟩
    · intro hlength
      obtain ⟨n, hoffsets, hall⟩ := exists_pages rows hsize hlength
      refine ⟨n, _, hpages n, ?_⟩
      rw [flatten_map_page rows hoffsets, List.take_of_length_le hall]

/-- Loans with the shelves of their books. Shelves are numbered, named or not known at all. -/
def loansByShelf : Select :=
  { source := ⟨"loan", "l", ⟨0⟩⟩
    joins := [⟨⟨"book", "b", ⟨1⟩⟩, .equals (.column "b" "id") (.column "l" "book")⟩]
    columns := [⟨.column "l" "day", none, true, none⟩]
    predicate := some (.compare .lt (.column "l" "day") (.literal (.integer 9)))
    orderBy := [⟨.column "b" "shelf", .descending⟩, ⟨.column "b" "id", .ascending⟩]
    limit := none, offset := none }

def lending : TableContents := fun name =>
  if name = "book" then
    [.ofList [("id", .integer 1), ("shelf", .bool true)], .ofList [("id", .integer 2), ("shelf", .text "A")],
      .ofList [("id", .integer 3)], .ofList [("id", .integer 4), ("shelf", .integer 1)]]
  else if name = "loan" then
    [.ofList [("book", .integer 4), ("day", .integer 1)], .ofList [("book", .integer 3), ("day", .integer 2)],
      .ofList [("book", .integer 2), ("day", .integer 9)], .ofList [("book", .integer 1), ("day", .integer 4)],
      .ofList [("book", .integer 2), ("day", .integer 5)], .ofList [("book", .integer 1), ("day", .integer 6)]]
  else []

theorem evaluate_paged_loans :
    (loansByShelf.paged none none).evaluate .empty lending =
        .ok [[.integer 5], [.integer 4], [.integer 6], [.integer 1], [.integer 2]] ∧
      ExactKeys loansByShelf .empty (loansByShelf.passing .empty lending) ∧
      (∃ numbered, Arranged loansByShelf .empty (loansByShelf.passing .empty lending) numbered ∧
        (numbered.map Prod.fst).mapM (loansByShelf.projectRow .empty) =
          .ok [[.integer 5], [.integer 4], [.integer 6], [.integer 1], [.integer 2]]) ∧
      ∃ pages, (List.range 3).mapM (fun i => (loansByShelf.pageAt 2 i).evaluate .empty lending) = .ok pages ∧
        pages.flatten = [[.integer 5], [.integer 4], [.integer 6], [.integer 1], [.integer 2]] := by
  have hrows : (loansByShelf.paged none none).evaluate .empty lending =
      .ok [[.integer 5], [.integer 4], [.integer 6], [.integer 1], [.integer 2]] := rfl
  have htypes : ∀ b ∈ loansByShelf.passing .empty lending, ∀ o ∈ loansByShelf.orderBy,
      (o.expr.eval .empty b).toOption.bind type? ≠ some .real := by
    decide
  have hkeys : ExactKeys loansByShelf .empty (loansByShelf.passing .empty lending) := by
    intro b hb o ho r heval
    apply htypes b hb o ho
    rw [heval]
    rfl
  obtain ⟨-, harranged, -, hpages⟩ := evaluate_paged hrows hkeys
  obtain ⟨pages, heval, hflatten⟩ := (hpages 2 (by decide)).1 3 (by decide)
  exact ⟨hrows, hkeys, harranged, pages, heval, hflatten⟩

end EntityStore.Select
