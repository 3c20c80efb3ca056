import EntityStore.Proofs.Value.SortOrder
import EntityStore.Sql.Evaluation

/-!
# The order of sort keys

Without reals, values are ordered as one expects: null, whole numbers by value, texts, blobs. Lists of
sort keys are ordered by the first place at which they differ, in the direction of this place. The
comparison that sorts the rows of a statement is this order, and it is a total preorder.
-/

namespace EntityStore

namespace Value

/-- The order of values that are no reals; a truth value counts as the whole number that stands for it. -/
inductive Below : Value → Value → Prop
  | null {v : Value} (h : v.isNull = false) : Below .null v
  | whole {v w : Value} {i j : Int64} (hv : v.toInt64? = some i) (hw : w.toInt64? = some j)
      (h : i.toInt < j.toInt) : Below v w
  | wholeText {v : Value} {i : Int64} (hv : v.toInt64? = some i) (t : String) : Below v (.text t)
  | wholeBlob {v : Value} {i : Int64} (hv : v.toInt64? = some i) (b : List UInt8) : Below v (.blob b)
  | text {s t : String} (h : s < t) : Below (.text s) (.text t)
  | textBlob (t : String) (b : List UInt8) : Below (.text t) (.blob b)
  | blob {a b : List UInt8} (h : a < b) : Below (.blob a) (.blob b)

def NoReal (v : Value) : Prop := ∀ r, v ≠ .real r

theorem compareLex_eq_lt (a b : List UInt8) : List.compareLex compare a b = .lt ↔ a < b := by
  induction a generalizing b with
  | nil => cases b <;> simp [List.compareLex_nil_cons, List.compareLex_nil_nil]
  | cons x a ih =>
    cases b with
    | nil => simp [List.compareLex_cons_nil]
    | cons y b =>
      rw [List.compareLex_cons_cons, Ordering.then_eq_lt, ih, List.cons_lt_cons_iff, Std.compare_eq_lt,
        Std.LawfulEqOrd.compare_eq_iff_eq]

theorem Below.sortOrder {v w : Value} (h : Below v w) : v.sortOrder w = .lt := by
  cases h with
  | null h => cases w <;> first | rfl | cases h
  | whole hv hw h =>
    rw [sortOrder_whole hv hw]
    exact Std.compare_eq_lt.2 h
  | wholeText hv t => exact sortOrder_of_rank_lt (by rw [rank_of_whole hv]; exact Nat.lt_add_one 1)
  | wholeBlob hv b => exact sortOrder_of_rank_lt (by rw [rank_of_whole hv]; exact Nat.lt_add_of_pos_right Nat.two_pos)
  | text h => exact compareOfLessAndEq_eq_lt.2 h
  | textBlob t b => rfl
  | blob h => exact (compareLex_eq_lt _ _).2 h

theorem below_of_sortOrder {v w : Value} (hv : v.NoReal) (hw : w.NoReal) (h : v.sortOrder w = .lt) :
    Below v w := by
  have hwhole : ∀ {x : Value}, x.NoReal → x.rank = 1 → ∃ i, x.toInt64? = some i := by
    intro x hx hrank
    rcases number_cases hrank with hi | ⟨r, rfl⟩
    · exact hi
    · exact absurd rfl (hx r)
  by_cases hrank : v.rank = w.rank
  · cases v with
    | null =>
      cases w <;> cases hrank
      cases h
    | text s =>
      cases w <;> cases hrank
      exact .text (compareOfLessAndEq_eq_lt.1 h)
    | blob b =>
      cases w <;> cases hrank
      exact .blob ((compareLex_eq_lt _ _).1 h)
    | real r => exact absurd rfl (hv r)
    | _ =>
      obtain ⟨j, hj⟩ := hwhole hw hrank.symm
      rw [sortOrder_whole rfl hj] at h
      exact .whole rfl hj (Std.compare_eq_lt.1 h)
  · rw [sortOrder_of_rank_ne hrank, Std.compare_eq_lt] at h
    cases v with
    | null =>
      refine .null ?_
      cases w <;> first | rfl | cases h
    | real r => exact absurd rfl (hv r)
    | blob b => cases w <;> simp [rank] at h
    | text t =>
      cases w with
      | blob b => exact .textBlob t b
      | _ => simp [rank] at h
    | _ =>
      cases w with
      | text t => exact .wholeText rfl t
      | blob b => exact .wholeBlob rfl b
      | _ => simp [rank] at h

theorem below_iff {v w : Value} (hv : v.NoReal) (hw : w.NoReal) : Below v w ↔ v.sortOrder w = .lt :=
  ⟨Below.sortOrder, below_of_sortOrder hv hw⟩

def exactOrder (v w : {v : Value // v.NoReal}) : Ordering := v.1.sortOrder w.1

instance : Std.TransCmp exactOrder where
  eq_swap {v w} := sortOrder_swap w.1 v.1
  isLE_trans {u v w} huv hvw := by
    rw [← Ordering.ne_gt_iff_isLE] at huv hvw ⊢
    intro hgt
    obtain ⟨r, hr, -⟩ := blurs_of_lt huv hvw (sortOrder_eq_gt_iff.1 hgt)
    exact v.2 r hr

end Value

namespace Select

open Value

/-- Lists of sort keys in order: at the first place at which they differ, they differ in the direction of
this place. -/
inductive KeysBelow : List Direction → List Value → List Value → Prop
  | ascending {ds : List Direction} {v w : Value} {vs ws : List Value} (h : Below v w) :
      KeysBelow (.ascending :: ds) (v :: vs) (w :: ws)
  | descending {ds : List Direction} {v w : Value} {vs ws : List Value} (h : Below w v) :
      KeysBelow (.descending :: ds) (v :: vs) (w :: ws)
  | next {d : Direction} {ds : List Direction} {v w : Value} {vs ws : List Value} (hvw : ¬Below v w)
      (hwv : ¬Below w v) (h : KeysBelow ds vs ws) : KeysBelow (d :: ds) (v :: vs) (w :: ws)

def directed (d : Direction) (v w : Value) : Ordering :=
  match d with
  | .ascending => v.sortOrder w
  | .descending => w.sortOrder v

theorem compareKeys_cons (d : Direction) (ds : List Direction) (v w : Value) (vs ws : List Value) :
    compareKeys (d :: ds) (v :: vs) (w :: ws) = (directed d v w).then (compareKeys ds vs ws) := by
  cases d <;> rfl

theorem directed_swap (d : Direction) (v w : Value) : directed d w v = (directed d v w).swap := by
  cases d with
  | ascending => exact sortOrder_swap v w
  | descending => exact sortOrder_swap w v

theorem compareKeys_swap (ds : List Direction) (vs ws : List Value) :
    compareKeys ds ws vs = (compareKeys ds vs ws).swap := by
  induction ds generalizing vs ws with
  | nil => rfl
  | cons d ds ih =>
    cases vs with
    | nil => cases ws <;> rfl
    | cons v vs =>
      cases ws with
      | nil => rfl
      | cons w ws => rw [compareKeys_cons, compareKeys_cons, Ordering.swap_then, directed_swap, ih]

def directedExact (d : Direction) (v w : {v : Value // v.NoReal}) : Ordering := directed d v.1 w.1

instance (d : Direction) : Std.TransCmp (directedExact d) where
  eq_swap {v w} := directed_swap d w.1 v.1
  isLE_trans {u v w} huv hvw := by
    cases d with
    | ascending => exact @Std.TransCmp.isLE_trans _ exactOrder _ u v w huv hvw
    | descending => exact @Std.TransCmp.isLE_trans _ exactOrder _ w v u hvw huv

theorem isLE_then_trans {o p q o' p' q' : Ordering} (hle : p.isLE → q.isLE → o.isLE)
    (hlt : p = .lt → q.isLE → o = .lt) (hlt' : p.isLE → q = .lt → o = .lt)
    (h : p'.isLE → q'.isLE → o'.isLE) : (p.then p').isLE → (q.then q').isLE → (o.then o').isLE := by
  cases p <;> cases q <;> cases o <;> simp_all

theorem compareKeys_isLE_trans {ds : List Direction} {us vs ws : List Value} (hus : us.length = ds.length)
    (hvs : vs.length = ds.length) (hws : ws.length = ds.length) (hu : ∀ v ∈ us, v.NoReal)
    (hv : ∀ v ∈ vs, v.NoReal) (hw : ∀ v ∈ ws, v.NoReal) (huv : (compareKeys ds us vs).isLE)
    (hvw : (compareKeys ds vs ws).isLE) : (compareKeys ds us ws).isLE := by
  induction ds generalizing us vs ws with
  | nil => rfl
  | cons d ds ih =>
    obtain ⟨u, us, rfl⟩ := List.exists_cons_of_length_eq_add_one hus
    obtain ⟨v, vs, rfl⟩ := List.exists_cons_of_length_eq_add_one hvs
    obtain ⟨w, ws, rfl⟩ := List.exists_cons_of_length_eq_add_one hws
    obtain ⟨hu, hus'⟩ := List.forall_mem_cons.1 hu
    obtain ⟨hv, hvs'⟩ := List.forall_mem_cons.1 hv
    obtain ⟨hw, hws'⟩ := List.forall_mem_cons.1 hw
    rw [compareKeys_cons] at huv hvw ⊢
    let x : {v : Value // v.NoReal} := ⟨u, hu⟩
    let y : {v : Value // v.NoReal} := ⟨v, hv⟩
    let z : {v : Value // v.NoReal} := ⟨w, hw⟩
    refine isLE_then_trans (@Std.TransCmp.isLE_trans _ (directedExact d) _ x y z)
      (@Std.TransCmp.lt_of_lt_of_isLE _ (directedExact d) _ x y z)
      (@Std.TransCmp.lt_of_isLE_of_lt _ (directedExact d) _ x y z)
      ?_ huv hvw
    exact ih (Nat.succ.inj hus) (Nat.succ.inj hvs) (Nat.succ.inj hws) hus' hvs' hws'

theorem directed_eq_iff {d : Direction} {v w : Value} (hv : v.NoReal) (hw : w.NoReal) :
    directed d v w = .eq ↔ ¬Below v w ∧ ¬Below w v := by
  rw [below_iff hv hw, below_iff hw hv, sortOrder_swap v w]
  cases d with
  | ascending =>
    change v.sortOrder w = .eq ↔ _
    cases v.sortOrder w <;> simp
  | descending =>
    change w.sortOrder v = .eq ↔ _
    rw [sortOrder_swap v w]
    cases v.sortOrder w <;> simp

theorem keysBelow_iff {ds : List Direction} {vs ws : List Value} (hv : ∀ v ∈ vs, v.NoReal)
    (hw : ∀ v ∈ ws, v.NoReal) : KeysBelow ds vs ws ↔ compareKeys ds vs ws = .lt := by
  induction ds generalizing vs ws with
  | nil => exact ⟨nofun, nofun⟩
  | cons d ds ih =>
    cases vs with
    | nil => exact ⟨nofun, nofun⟩
    | cons v vs =>
      cases ws with
      | nil => exact ⟨nofun, nofun⟩
      | cons w ws =>
        obtain ⟨hv, hvs⟩ := List.forall_mem_cons.1 hv
        obtain ⟨hw, hws⟩ := List.forall_mem_cons.1 hw
        rw [compareKeys_cons, Ordering.then_eq_lt, ← ih hvs hws, directed_eq_iff hv hw]
        constructor
        · intro h
          cases h with
          | ascending h => exact .inl h.sortOrder
          | descending h => exact .inl h.sortOrder
          | next hvw hwv h => exact .inr ⟨⟨hvw, hwv⟩, h⟩
        · rintro (h | ⟨⟨hvw, hwv⟩, h⟩)
          · cases d with
            | ascending => exact .ascending (below_of_sortOrder hv hw h)
            | descending => exact .descending (below_of_sortOrder hw hv h)
          · exact .next hvw hwv h

end Select

end EntityStore
