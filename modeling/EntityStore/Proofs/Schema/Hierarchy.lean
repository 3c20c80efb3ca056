import Mathlib.Logic.Relation
import EntityStore.Proofs.Schema.Ancestry

/-!
# Hierarchies

The walk along bases and the walk down to the subtypes see the same relation: a type derives from
another one if it is in the tree below it. Going down, types are compared by the number of their
base, which more than one type has if there are more types than numbers. So a type could stand below
another one without deriving from it; but then it stands in the tree of the root twice.
-/

namespace EntityStore.Schema

open Traversal Relation

variable {s : Schema} {t u v r : EntityType} {l : List EntityType}

def IsBase (s : Schema) (t u : EntityType) : Prop := ∃ b, t.base = some b ∧ s.entityType b = .ok u

abbrev Derives (s : Schema) : EntityType → EntityType → Prop := ReflTransGen s.IsBase

theorem derives_iff : s.Derives t u ↔ u = t ∨ ∃ v, s.IsBase t v ∧ s.Derives v u := by
  rw [eq_comm]
  exact ReflTransGen.cases_head_iff

def Found (s : Schema) (t : EntityType) : Prop := s.entityType t.id = .ok t

theorem Found.mem (h : s.Found t) : t ∈ s.types :=
  List.mem_of_getElem? (entityType_eq_ok_iff.1 h)

theorem Ordered.found (hs : s.Ordered) {id : TypeId} (ht : s.entityType id = .ok t) : s.Found t := by
  rw [Found, hs.id_eq_of_entityType ht]
  exact ht

theorem isBase_unique : Relator.RightUnique s.IsBase := by
  rintro t u v ⟨b, hb, hu⟩ ⟨c, hc, hv⟩
  rw [hb] at hc
  cases hc
  rw [hu] at hv
  cases hv
  rfl

theorem Ordered.base_eq (hs : s.Ordered) (h : s.IsBase t u) : t.base = some u.id ∧ s.Found u := by
  obtain ⟨b, hb, hu⟩ := h
  exact ⟨by rw [hb, hs.id_eq_of_entityType hu], hs.found hu⟩

theorem Ordered.found_of_derives (hs : s.Ordered) (ht : s.Found t) (h : s.Derives t u) : s.Found u := by
  induction h with
  | refl => exact ht
  | tail _ hbase _ => exact (hs.base_eq hbase).2

/-! ### The walk along bases -/

theorem Ordered.exists_upward (hs : s.Ordered) (n : Nat) {id : TypeId} (hn : id.toNat = n)
    (ht : s.entityType id = .ok t) :
    ∃ chain, (∀ steps, n < steps → s.upward steps id = .ok chain) ∧ ∀ u, u ∈ chain ↔ s.Derives t u := by
  induction n using Nat.strongRecOn generalizing id t with
  | ind n ih =>
    cases hb : t.base with
    | none =>
      refine ⟨[t], ?_, ?_⟩
      · intro steps hsteps
        obtain ⟨k, rfl⟩ : ∃ k, steps = k + 1 := ⟨steps - 1, by omega⟩
        simp [upward, ht, hb]
      · intro u
        rw [List.mem_singleton, derives_iff]
        constructor
        · exact Or.inl
        · rintro (rfl | ⟨v, ⟨b, hv, -⟩, -⟩)
          · rfl
          · rw [hb] at hv
            cases hv
    | some b =>
      have hplace := entityType_eq_ok_iff.1 ht
      have hlt : b.toNat < n := hn ▸ hs.base_lt _ _ _ hplace hb
      obtain ⟨parent, hparent⟩ : ∃ parent, s.types[b.toNat]? = some parent := by
        obtain ⟨hid, _⟩ := List.getElem?_eq_some_iff.1 hplace
        exact ⟨s.types[b.toNat], List.getElem?_eq_getElem (by omega)⟩
      have hparent := entityType_eq_ok_iff.2 hparent
      have hbase : s.IsBase t parent := ⟨b, hb, hparent⟩
      obtain ⟨chain, hup, hmem⟩ := ih b.toNat hlt rfl hparent
      refine ⟨t :: chain, ?_, ?_⟩
      · intro steps hsteps
        obtain ⟨k, rfl⟩ : ∃ k, steps = k + 1 := ⟨steps - 1, by omega⟩
        simp [upward, ht, hb, hup k (by omega)]
      · intro u
        rw [List.mem_cons, hmem, derives_iff (t := t)]
        refine or_congr_right ⟨fun hu => ⟨parent, hbase, hu⟩, ?_⟩
        rintro ⟨v, hv, hu⟩
        rw [isBase_unique hv hbase] at hu
        exact hu

theorem Ordered.exists_chain (hs : s.Ordered) {id : TypeId} (ht : s.entityType id = .ok t) :
    ∃ chain, s.baseChain id = .ok chain ∧ ∀ u, u ∈ chain ↔ s.Derives t u := by
  obtain ⟨chain, hup, hmem⟩ := hs.exists_upward id.toNat rfl ht
  obtain ⟨hlt, _⟩ := List.getElem?_eq_some_iff.1 (entityType_eq_ok_iff.1 ht)
  refine ⟨chain.reverse, ?_, ?_⟩
  · rw [baseChain, hup _ (by omega)]
    rfl
  · intro u
    rw [List.mem_reverse, hmem]

theorem Ordered.isAssignable_iff (hs : s.Ordered) {id : TypeId} (ht : s.entityType id = .ok t)
    (ancestor : TypeId) :
    s.isAssignable id ancestor = .ok true ↔ ∃ u, s.Derives t u ∧ u.id = ancestor := by
  obtain ⟨chain, hchain, hmem⟩ := hs.exists_chain ht
  rw [isAssignable, hchain, ok_bind, pure_eq_ok, List.any_eq_true]
  simp only [hmem, beq_iff_eq]

theorem Ordered.isAssignable_iff_derives (hs : s.Ordered) (ht : s.Found t) (hu : s.Found u) :
    s.isAssignable t.id u.id = .ok true ↔ s.Derives t u := by
  rw [hs.isAssignable_iff ht]
  constructor
  · rintro ⟨v, hder, hid⟩
    have hv := hs.found_of_derives ht hder
    rw [Found, hid, hu] at hv
    cases hv
    exact hder
  · intro hder
    exact ⟨u, hder, rfl⟩

theorem derives_of_topFrom {steps : Nat} (h : s.topFrom steps t = .ok r) : s.Derives t r := by
  induction steps generalizing t with
  | zero =>
    cases h
    exact .refl
  | succ steps ih =>
    rw [topFrom] at h
    cases hb : t.base with
    | none =>
      rw [hb] at h
      cases h
      exact .refl
    | some b =>
      rw [hb] at h
      obtain ⟨u, hu, h⟩ := bind_eq_ok_iff.1 h
      exact .head ⟨b, hb, hu⟩ (ih h)

theorem Ordered.exists_derives_root (hs : s.Ordered) (ht : s.Found t) :
    ∃ r, s.root t.id = .ok r ∧ r ∈ s.roots ∧ s.Found r ∧ s.Derives t r := by
  obtain ⟨r, _, hroot, hmem, hr, _⟩ := hs.exists_baseChain ht
  have htop := hroot
  rw [root, ht, ok_bind] at htop
  exact ⟨r, hroot, hmem, hr, derives_of_topFrom htop⟩

theorem eq_of_derives_root (hr : r ∈ s.roots) (h : s.Derives r t) : t = r := by
  rcases derives_iff.1 h with rfl | ⟨u, ⟨b, hb, -⟩, -⟩
  · rfl
  · rw [root_base hr] at hb
    cases hb

theorem Ordered.root_eq_of_derives (hs : s.Ordered) (ht : s.Found t) (h : s.Derives t u) :
    s.root u.id = s.root t.id := by
  obtain ⟨r, hroot, hmem, _, hder⟩ := hs.exists_derives_root ht
  obtain ⟨r', hroot', hmem', _, hder'⟩ := hs.exists_derives_root (hs.found_of_derives ht h)
  have heq : r = r' := by
    rcases ReflTransGen.total_of_right_unique isBase_unique hder (h.trans hder') with h | h
    · exact (eq_of_derives_root hmem h).symm
    · exact eq_of_derives_root hmem' h
  rw [hroot, hroot', heq]

/-! ### The walk down -/

theorem mem_derived : u ∈ s.derived t.id ↔ u ∈ s.types ∧ u.base = some t.id := by
  simp [derived]

theorem mapM_eq_some_iff {α β : Type} {f : α → Option β} {as : List α} {bs : List β} :
    as.mapM f = some bs ↔ List.Forall₂ (fun a b => f a = some b) as bs := by
  induction as generalizing bs with
  | nil => cases bs <;> simp
  | cons a as ih =>
    simp only [List.mapM_cons, Option.bind_eq_bind, Option.bind_eq_some_iff, Option.pure_def,
      Option.some.injEq, ih]
    constructor
    · rintro ⟨b, hb, bs, hbs, rfl⟩
      exact .cons hb hbs
    · intro h
      cases h with
      | cons hb hbs => exact ⟨_, hb, _, hbs, rfl⟩

theorem subtree?_succ {levels : Nat} :
    s.subtree? (levels + 1) t = some l ↔
      ∃ below, List.Forall₂ (fun u lu => s.subtree? levels u = some lu) (s.derived t.id) below ∧
        l = t :: below.flatten := by
  simp only [subtree?, Option.bind_eq_bind, Option.bind_eq_some_iff, mapM_eq_some_iff,
    Option.pure_def, Option.some.injEq]
  constructor
  · rintro ⟨below, hbelow, rfl⟩
    exact ⟨below, hbelow, rfl⟩
  · rintro ⟨below, hbelow, rfl⟩
    exact ⟨below, hbelow, rfl⟩

theorem subtree?_mono {levels : Nat} (h : s.subtree? levels t = some l) :
    s.subtree? (levels + 1) t = some l := by
  induction levels generalizing t l with
  | zero => cases h
  | succ levels ih =>
    obtain ⟨below, hbelow, rfl⟩ := subtree?_succ.1 h
    exact subtree?_succ.2 ⟨below, hbelow.imp (fun _ _ => ih), rfl⟩

theorem subtree?_eq_cons {levels : Nat} (h : s.subtree? levels t = some l) : l = t :: l.tail := by
  cases levels with
  | zero => cases h
  | succ levels =>
    obtain ⟨below, -, rfl⟩ := subtree?_succ.1 h
    rfl

theorem exists_subtree?_of_mem_derived {levels : Nat} (h : s.subtree? levels t = some l)
    (hu : u ∈ s.derived t.id) : ∃ lu, s.subtree? levels u = some lu ∧ lu.Sublist l.tail := by
  cases levels with
  | zero => cases h
  | succ levels =>
    obtain ⟨below, hbelow, rfl⟩ := subtree?_succ.1 h
    obtain ⟨lu, hlu, hsub⟩ := exists_of_mem_left hbelow hu
    exact ⟨lu, subtree?_mono hsub, List.sublist_flatten_of_mem hlu⟩

theorem exists_mem_of_mem_tail {levels : Nat} (h : s.subtree? (levels + 1) t = some l)
    (hu : u ∈ l.tail) :
    ∃ v ∈ s.derived t.id, ∃ lv, s.subtree? levels v = some lv ∧ u ∈ lv ∧ lv.Sublist l.tail := by
  obtain ⟨below, hbelow, rfl⟩ := subtree?_succ.1 h
  obtain ⟨lv, hlv, hmem⟩ := List.mem_flatten.1 hu
  obtain ⟨v, hv, hsub⟩ := exists_of_mem_right hbelow hlv
  exact ⟨v, hv, lv, hsub, hmem, List.sublist_flatten_of_mem hlv⟩

theorem exists_subtree?_of_mem {levels : Nat} (h : s.subtree? levels t = some l) (hu : u ∈ l) :
    ∃ lu, s.subtree? levels u = some lu ∧ lu.Sublist l := by
  induction levels generalizing t l with
  | zero => cases h
  | succ levels ih =>
    rw [subtree?_eq_cons h] at hu
    rcases List.mem_cons.1 hu with rfl | hu
    · exact ⟨l, h, List.Sublist.refl l⟩
    · obtain ⟨v, -, lv, hlv, hmem, hsub⟩ := exists_mem_of_mem_tail h hu
      obtain ⟨lu, hlu, hsub'⟩ := ih hlv hmem
      exact ⟨lu, subtree?_mono hlu, hsub'.trans (hsub.trans (List.tail_sublist l))⟩

theorem Found.hierarchy_eq_ok (ht : s.Found t) :
    s.hierarchy t.id = .ok l ↔ s.subtree? s.types.length t = some l := by
  rw [hierarchy, ht, ok_bind]
  cases s.subtree? s.types.length t with
  | none => simp [throw, throwThe, MonadExceptOf.throw]
  | some types => simp

theorem mem_types_of_mem_subtree? {levels : Nat} (h : s.subtree? levels t = some l) (ht : t ∈ s.types)
    (hu : u ∈ l) : u ∈ s.types := by
  induction levels generalizing t l with
  | zero => cases h
  | succ levels ih =>
    rw [subtree?_eq_cons h] at hu
    rcases List.mem_cons.1 hu with rfl | hu
    · exact ht
    · obtain ⟨v, hv, lv, hlv, hmem, -⟩ := exists_mem_of_mem_tail h hu
      exact ih hlv (mem_derived.1 hv).1 hmem

theorem exists_base_of_mem_tail {levels : Nat} (h : s.subtree? levels t = some l) (hu : u ∈ l.tail) :
    ∃ v ∈ l, u.base = some v.id := by
  induction levels generalizing t l with
  | zero => cases h
  | succ levels ih =>
    obtain ⟨v, hv, lv, hlv, hmem, hsub⟩ := exists_mem_of_mem_tail h hu
    rw [subtree?_eq_cons hlv] at hmem
    rcases List.mem_cons.1 hmem with rfl | hmem
    · refine ⟨t, ?_, (mem_derived.1 hv).2⟩
      rw [subtree?_eq_cons h]
      exact List.mem_cons_self
    · obtain ⟨w, hw, hbase⟩ := ih hlv hmem
      exact ⟨w, List.mem_of_mem_tail (hsub.subset hw), hbase⟩

theorem countP_id_le_count {levels : Nat} (h : s.subtree? levels t = some l) (hu : u ∈ s.types)
    {b : TypeId} (hb : u.base = some b) : l.countP (fun v => decide (v.id = b)) ≤ l.tail.count u := by
  induction levels generalizing t l with
  | zero => cases h
  | succ levels ih =>
    obtain ⟨below, hbelow, rfl⟩ := subtree?_succ.1 h
    have hsum : below.flatten.countP (fun v => decide (v.id = b)) + (s.derived t.id).count u ≤
        below.flatten.count u := by
      generalize s.derived t.id = vs at hbelow
      clear h
      induction hbelow with
      | nil => exact Nat.le_refl 0
      | @cons v lv vs below hlv _ ihbelow =>
        have hhead := ih hlv
        rw [subtree?_eq_cons hlv] at hhead ⊢
        rw [List.flatten_cons, List.countP_append, List.count_append, List.count_cons, List.count_cons]
        rw [List.tail_cons] at hhead
        omega
    rw [List.tail_cons, List.countP_cons]
    split
    · rename_i ht
      have hmem : u ∈ s.derived t.id := by
        rw [mem_derived, hb, of_decide_eq_true ht]
        exact ⟨hu, rfl⟩
      have hpos := List.count_pos_iff.2 hmem
      omega
    · omega

/-! ### Both walks -/

theorem Ordered.mem_derived_of_isBase (hs : s.Ordered) (ht : s.Found t) (h : s.IsBase t u) :
    t ∈ s.derived u.id :=
  mem_derived.2 ⟨ht.mem, (hs.base_eq h).1⟩

theorem Ordered.mem_subtree?_of_derives (hs : s.Ordered) (ht : s.Found t) (h : s.Derives t u)
    {levels : Nat} (hl : s.subtree? levels u = some l) : t ∈ l := by
  induction h using ReflTransGen.head_induction_on with
  | refl =>
    rw [subtree?_eq_cons hl]
    exact List.mem_cons_self
  | head hbase _ ih =>
    obtain ⟨lv, hlv, hsub⟩ := exists_subtree?_of_mem hl (ih (hs.base_eq hbase).2)
    obtain ⟨lt, hlt, hsub'⟩ := exists_subtree?_of_mem_derived hlv (hs.mem_derived_of_isBase ht hbase)
    apply hsub.subset
    apply List.mem_of_mem_tail
    apply hsub'.subset
    rw [subtree?_eq_cons hlt]
    exact List.mem_cons_self

theorem two_le_countP {α : Type} {p : α → Bool} {l : List α} {a b : α} (ha : a ∈ l) (hb : b ∈ l)
    (hne : a ≠ b) (hpa : p a = true) (hpb : p b = true) : 2 ≤ l.countP p := by
  obtain ⟨l₁, l₂, rfl⟩ := List.append_of_mem ha
  have hmem : b ∈ l₁ ++ l₂ := by
    rcases List.mem_append.1 hb with h | h
    · exact List.mem_append_left _ h
    · exact List.mem_append_right _ ((List.mem_cons.1 h).resolve_left (Ne.symm hne))
  have hpos := List.countP_pos_iff.2 ⟨b, hmem, hpb⟩
  rw [List.countP_append] at hpos
  rw [List.countP_append, List.countP_cons_of_pos hpa]
  omega

/-- A type that is in the tree of its root once is in the trees of those types only that it derives
from. -/
theorem Ordered.derives_of_mem_subtree? (hs : s.Ordered) (hr : r ∈ s.roots) {levels : Nat}
    {lr lu : List EntityType} (hlr : s.subtree? levels r = some lr)
    (hlu : s.subtree? levels u = some lu) (hsub : lu.Sublist lr) (ht : s.Found t) (h : s.Derives t r)
    (hmem : t ∈ lu) (honce : lr.count t ≤ 1) : s.Derives t u := by
  induction h using ReflTransGen.head_induction_on with
  | refl =>
    rw [subtree?_eq_cons hlu] at hmem
    rcases List.mem_cons.1 hmem with rfl | hmem
    · exact .refl
    · obtain ⟨v, -, hbase⟩ := exists_base_of_mem_tail hlu hmem
      rw [root_base hr] at hbase
      cases hbase
  | @head t v hbase hder ih =>
    obtain ⟨hb, hv⟩ := hs.base_eq hbase
    rw [subtree?_eq_cons hlu] at hmem
    rcases List.mem_cons.1 hmem with rfl | hmem
    · exact .refl
    · -- the base of `t` in the tree has the number of `v`; two such types would have `t` below each
      obtain ⟨w, hw, hwbase⟩ := exists_base_of_mem_tail hlu hmem
      have hid : w.id = v.id := Option.some.inj (hwbase.symm.trans hb)
      have hvlr := hs.mem_subtree?_of_derives hv hder hlr
      have hcount := countP_id_le_count hlr ht.mem hb
      have htail := (List.tail_sublist lr).count_le t
      have heq : w = v := by
        by_contra hne
        have htwo := two_le_countP (p := fun x => decide (x.id = v.id)) (hsub.subset hw) hvlr hne
          (decide_eq_true hid) (decide_eq_true rfl)
        omega
      have honce' : lr.count v ≤ 1 := by
        have hle : lr.count v ≤ lr.countP (fun x => decide (x.id = v.id)) := by
          apply List.countP_mono_left
          intro x _ hx
          rw [eq_of_beq hx]
          exact decide_eq_true rfl
        omega
      exact .head hbase (ih hv (heq ▸ hw) honce')

/-- A schema in which the number of every type is its place. -/
structure Numbered (s : Schema) : Prop extends Ordered s where
  toNat_eq : ∀ (i : Nat) (t : EntityType), s.types[i]? = some t → t.id.toNat = i

theorem Ordered.numbered (hs : s.Ordered) (hsize : s.types.length ≤ UInt32.size) : s.Numbered where
  toOrdered := hs
  toNat_eq i t hi := by
    obtain ⟨hlt, -⟩ := List.getElem?_eq_some_iff.1 hi
    rw [hs.id_eq i t hi, TypeId.toNat, UInt32.toNat_ofNat']
    exact Nat.mod_eq_of_lt (Nat.lt_of_lt_of_le hlt hsize)

theorem Numbered.found (hs : s.Numbered) (ht : t ∈ s.types) : s.Found t := by
  obtain ⟨i, hi⟩ := List.mem_iff_getElem?.1 ht
  rw [Found, entityType_eq_ok_iff, hs.toNat_eq i t hi]
  exact hi

/-- As long as there are not more types than numbers, every type is found by its own. -/
theorem Ordered.found_of_length_le (hs : s.Ordered) (hsize : s.types.length ≤ UInt32.size)
    (ht : t ∈ s.types) : s.Found t :=
  (hs.numbered hsize).found ht

theorem derives_of_mem_subtree?_of_found (hfound : ∀ v ∈ s.types, s.Found v) {levels : Nat}
    (h : s.subtree? levels u = some l) (hu : u ∈ s.types) (ht : t ∈ l) : s.Derives t u := by
  induction levels generalizing u l with
  | zero => cases h
  | succ levels ih =>
    rw [subtree?_eq_cons h] at ht
    rcases List.mem_cons.1 ht with rfl | ht
    · exact .refl
    · obtain ⟨v, hv, lv, hlv, hmem, -⟩ := exists_mem_of_mem_tail h ht
      obtain ⟨hvmem, hbase⟩ := mem_derived.1 hv
      exact (ih hlv hvmem hmem).tail ⟨u.id, hbase, hfound u hu⟩

theorem Ordered.eq_root_of_id_mem (hs : s.Ordered) {levels : Nat}
    {lr lu : List EntityType} (hlr : s.subtree? levels r = some lr) (hu : s.Found u)
    (hder : s.Derives u r) (hlu : s.subtree? levels u = some lu) {v : EntityType} (hv : v ∈ lu)
    (hid : v.id = r.id) : u = r := by
  rcases ReflTransGen.cases_tail_iff _ _ _ |>.1 hder with heq | ⟨c, huc, hbase⟩
  · exact heq.symm
  · -- `u` stands below `c`, a direct subtype of the root, and `c` below `v`, which stands below `u`
    have hc := hs.found_of_derives hu huc
    obtain ⟨lc, hlc, -⟩ := exists_subtree?_of_mem hlr (hs.mem_subtree?_of_derives hc (.single hbase) hlr)
    obtain ⟨lu', hlu', hsubu⟩ := exists_subtree?_of_mem hlc (hs.mem_subtree?_of_derives hu huc hlc)
    obtain ⟨lv, hlv, hsubv⟩ := exists_subtree?_of_mem hlu hv
    have hcv : c ∈ s.derived v.id := by
      rw [hid]
      exact hs.mem_derived_of_isBase hc hbase
    obtain ⟨lc', hlc', hsubc⟩ := exists_subtree?_of_mem_derived hlv hcv
    rw [hlu] at hlu'
    rw [hlc] at hlc'
    cases hlu'
    cases hlc'
    have hlength := congrArg List.length (subtree?_eq_cons hlv)
    rw [List.length_cons] at hlength
    have h₁ := hsubu.length_le
    have h₂ := hsubv.length_le
    have h₃ := hsubc.length_le
    omega

end EntityStore.Schema
