import Mathlib.Data.List.Chain
import EntityStore.Proofs.Schema.Hierarchy
import EntityStore.Proofs.Schema.Validity

/-!
# Walks over hierarchies

Whatever is registered, and whichever registrations fail, a base has a smaller number than its
subtypes. So a walk along bases ends, and so does a walk down that keeps the types it has yet to visit
on a stack. What they come by is what the hierarchy queries give: the types above a type and the types
below it, each once.
-/

namespace EntityStore.Schema

open Traversal Relation

/-! ### Histories of registrations -/

inductive Registration
  | entityType (d : EntityTypeDef)
  | foreignKey (d : ForeignKeyDef)

def Registration.perform (s : Schema) : Registration → Except SchemaError Schema
  | .entityType d => do
    let (_, s) ← s.addType d
    return s
  | .foreignKey d => s.addForeignKey d

/-- A registration that fails leaves the schema as it is. -/
def attempt (s : Schema) (r : Registration) : Schema :=
  match r.perform s with
  | .ok s' => s'
  | .error _ => s

/-- The schema after some registrations, those that fail among them. -/
def built (rs : List Registration) : Schema := rs.foldl attempt empty

theorem Ordered.perform {s s' : Schema} {r : Registration} (hs : s.Ordered) (h : r.perform s = .ok s') :
    s'.Ordered := by
  cases r with
  | entityType d =>
    simp only [Registration.perform, bind_eq_ok_iff, pure_eq_ok] at h
    obtain ⟨⟨id, s₁⟩, hadd, rfl⟩ := h
    exact hs.addType hadd
  | foreignKey d =>
    obtain ⟨fk, rfl, -⟩ := addForeignKey_eq_ok h
    exact ⟨hs.id_eq, hs.base_lt⟩

theorem Ordered.attempt {s : Schema} (hs : s.Ordered) (r : Registration) : (s.attempt r).Ordered := by
  rw [Schema.attempt]
  split
  · rename_i h
    exact hs.perform h
  · exact hs

theorem ordered_built (rs : List Registration) : (built rs).Ordered := by
  have hrun : ∀ s : Schema, s.Ordered → (rs.foldl Schema.attempt s).Ordered := by
    induction rs with
    | nil => exact fun _ hs => hs
    | cons r rs ih => exact fun s hs => ih (s.attempt r) (hs.attempt r)
  exact hrun empty ordered_empty

variable {s : Schema} {t u v : EntityType} {id : TypeId} {l : List EntityType}

theorem Numbered.nodup_types (hs : s.Numbered) : s.types.Nodup := by
  rw [List.nodup_iff_getElem?_ne_getElem?]
  intro i j hij hj heq
  have hj' := List.getElem?_eq_getElem hj
  have hi := hs.toNat_eq i _ (heq.trans hj')
  rw [hs.toNat_eq j _ hj'] at hi
  omega

theorem Ordered.base_lt_id (hs : s.Ordered) (ht : s.Found t) {b : TypeId} (hb : t.base = some b) :
    b.toNat < t.id.toNat :=
  hs.base_lt _ _ _ (entityType_eq_ok_iff.1 ht) hb

theorem Ordered.id_le_of_derives (hs : s.Ordered) (ht : s.Found t) (h : s.Derives t u) :
    u.id.toNat ≤ t.id.toNat := by
  induction h with
  | refl => exact Nat.le_refl _
  | tail hder hbase ih =>
    have hlt := hs.base_lt_id (hs.found_of_derives ht hder) (hs.base_eq hbase).1
    omega

/-! ### The walk up -/

/-- A walk along bases, with the types it comes by. -/
inductive Climbs (s : Schema) : TypeId → List EntityType → Prop
  | root {id : TypeId} {t : EntityType} (ht : s.entityType id = .ok t) (hb : t.base = none) : Climbs s id [t]
  | base {id b : TypeId} {t : EntityType} {above : List EntityType} (ht : s.entityType id = .ok t)
      (hb : t.base = some b) (h : Climbs s b above) : Climbs s id (t :: above)

theorem Climbs.unique {walk walk' : List EntityType} (h : s.Climbs id walk) (h' : s.Climbs id walk') :
    walk' = walk := by
  induction h generalizing walk' with
  | root ht hb =>
    cases h' with
    | root ht' _ => rw [Except.ok.inj (ht.symm.trans ht')]
    | base ht' hb' _ =>
      rw [← Except.ok.inj (ht.symm.trans ht'), hb] at hb'
      cases hb'
  | base ht hb _ ih =>
    cases h' with
    | root ht' hb' =>
      rw [← Except.ok.inj (ht.symm.trans ht'), hb] at hb'
      cases hb'
    | base ht' hb' h' =>
      obtain rfl := Except.ok.inj (ht.symm.trans ht')
      obtain rfl := Option.some.inj (hb.symm.trans hb')
      rw [ih h']

theorem Climbs.iff_eq {walk walk' : List EntityType} (h : s.Climbs id walk) :
    s.Climbs id walk' ↔ walk' = walk := by
  constructor
  · exact h.unique
  · rintro rfl
    exact h

theorem climbs_of_upward {steps : Nat} {below : List EntityType} {r : EntityType} (hr : r.base = none)
    (h : s.upward steps id = .ok (below ++ [r])) : s.Climbs id (below ++ [r]) := by
  induction steps generalizing id below with
  | zero =>
    have hempty := Except.ok.inj h
    simp at hempty
  | succ steps ih =>
    obtain ⟨t, ht, h⟩ := bind_eq_ok_iff.1 h
    cases hb : t.base with
    | none =>
      rw [hb] at h
      rw [← pure_eq_ok.1 h]
      exact .root ht hb
    | some b =>
      rw [hb] at h
      simp only [bind_eq_ok_iff, pure_eq_ok] at h
      obtain ⟨above, habove, heq⟩ := h
      cases below with
      | nil =>
        cases heq
        rw [hr] at hb
        cases hb
      | cons c below =>
        cases heq
        exact .base ht hb (ih habove)

theorem Climbs.pairwise {walk : List EntityType} (h : s.Climbs id walk) (hs : s.Ordered) :
    (∀ u ∈ walk, u.id.toNat ≤ id.toNat) ∧ walk.Pairwise (fun u v => v.id.toNat < u.id.toNat) := by
  induction h with
  | root ht _ =>
    refine ⟨?_, List.pairwise_singleton _ _⟩
    intro u hu
    exact Nat.le_of_eq (by rw [List.mem_singleton.1 hu, hs.id_eq_of_entityType ht])
  | @base id b t above ht hb _ ih =>
    have hid := hs.id_eq_of_entityType ht
    have hlt : b.toNat < id.toNat := hs.base_lt _ _ _ (entityType_eq_ok_iff.1 ht) hb
    have hbelow : ∀ u ∈ above, u.id.toNat < id.toNat := fun u hu => Nat.lt_of_le_of_lt (ih.1 u hu) hlt
    refine ⟨List.forall_mem_cons.2 ⟨Nat.le_of_eq (congrArg _ hid), fun u hu => Nat.le_of_lt (hbelow u hu)⟩,
      List.pairwise_cons.2 ⟨?_, ih.2⟩⟩
    rw [hid]
    exact hbelow

theorem Climbs.exists_cons {walk : List EntityType} (h : s.Climbs id walk) :
    ∃ t above, s.entityType id = .ok t ∧ walk = t :: above := by
  cases h with
  | root ht _ => exact ⟨_, _, ht, rfl⟩
  | base ht _ _ => exact ⟨_, _, ht, rfl⟩

theorem Climbs.isChain {walk : List EntityType} (h : s.Climbs id walk) (hs : s.Ordered) :
    walk.IsChain (fun u v => u.base = some v.id) := by
  induction h with
  | root _ _ => exact .singleton _
  | base _ hb h ih =>
    obtain ⟨u, above, hu, rfl⟩ := h.exists_cons
    exact .cons_cons (by rw [hb, hs.id_eq_of_entityType hu]) ih

/-- A chain of types from the root of a type down to the type, each the base of the next one. -/
structure LeadsTo (s : Schema) (t : EntityType) (chain : List EntityType) : Prop where
  first : ∃ r, chain.head? = some r ∧ r.base = none ∧ s.root t.id = .ok r
  last : chain.getLast? = some t
  linked : chain.IsChain (fun u v => v.base = some u.id)
  nodup : chain.Nodup

theorem Ordered.exists_leadsTo (hs : s.Ordered) (ht : s.Found t) :
    ∃ chain, s.baseChain t.id = .ok chain ∧ (∀ walk, s.Climbs t.id walk ↔ walk = chain.reverse) ∧
      s.LeadsTo t chain := by
  obtain ⟨hlt, -⟩ := List.getElem?_eq_some_iff.1 (entityType_eq_ok_iff.1 ht)
  obtain ⟨below, r, hr, -, hup, htop⟩ := hs.exists_root t.id.toNat rfl ht
  have hupward := hup (s.types.length + 1) (Nat.lt_succ_of_lt hlt)
  have hclimb := climbs_of_upward hr hupward
  refine ⟨(below ++ [r]).reverse, by rw [baseChain, hupward]; rfl, ?_, ?_⟩
  · intro walk
    rw [List.reverse_reverse]
    exact hclimb.iff_eq
  · constructor
    case first =>
      refine ⟨r, ?_, hr, ?_⟩
      · rw [List.reverse_append]
        rfl
      · rw [root, ht]
        exact htop _ (Nat.le_of_lt hlt)
    case last =>
      obtain ⟨t', above, ht', heq⟩ := hclimb.exists_cons
      rw [ht] at ht'
      cases ht'
      rw [List.getLast?_reverse, heq, List.head?_cons]
    case linked =>
      rw [List.isChain_reverse]
      exact hclimb.isChain hs
    case nodup =>
      rw [List.nodup_reverse]
      refine (hclimb.pairwise hs).2.imp ?_
      rintro u v hlt rfl
      exact Nat.lt_irrefl _ hlt

/-! ### The walk down -/

/-- A walk that visits the type on top of a stack, the end of a list, and puts its direct subtypes in
its place, the first one on top; with the types it visits. -/
inductive Visits (s : Schema) : List EntityType → List EntityType → Prop
  | done : Visits s [] []
  | visit {stack : List EntityType} {t : EntityType} {out : List EntityType}
      (h : Visits s (stack ++ (s.derived t.id).reverse) out) : Visits s (stack ++ [t]) (t :: out)

theorem Visits.unique {stack out out' : List EntityType} (h : s.Visits stack out) (h' : s.Visits stack out') :
    out' = out := by
  induction h generalizing out' with
  | done =>
    generalize hstack : ([] : List EntityType) = stack at h'
    cases h' with
    | done => rfl
    | visit _ => simp at hstack
  | @visit stack t out _ ih =>
    generalize hstack : stack ++ [t] = stack' at h'
    cases h' with
    | done => simp at hstack
    | visit h' =>
      obtain ⟨rfl, hlast⟩ := List.append_inj' hstack rfl
      cases hlast
      rw [ih h']

theorem Visits.iff_eq {stack out out' : List EntityType} (h : s.Visits stack out) :
    s.Visits stack out' ↔ out' = out := by
  constructor
  · exact h.unique
  · rintro rfl
    exact h

/-- A type on top of a stack is visited with everything below it before the rest of the stack. -/
theorem visits_of_subtree? {levels : Nat} (h : s.subtree? levels t = some l) {stack out : List EntityType}
    (hout : s.Visits stack out) : s.Visits (stack ++ [t]) (l ++ out) := by
  induction levels generalizing t l stack out with
  | zero => cases h
  | succ levels ih =>
    obtain ⟨below, hbelow, rfl⟩ := subtree?_succ.1 h
    rw [List.cons_append]
    refine .visit ?_
    -- what is put on the stack in reverse is taken from it in order
    generalize s.derived t.id = vs at hbelow
    clear h
    induction hbelow with
    | nil => simpa using hout
    | cons hlv _ ihbelow =>
      rw [List.reverse_cons, ← List.append_assoc, List.flatten_cons, List.append_assoc _ _ out]
      exact ih hlv ihbelow

theorem Numbered.exists_subtree? (hs : s.Numbered) (ht : t ∈ s.types) {levels : Nat}
    (hlevels : s.types.length ≤ levels + t.id.toNat) : ∃ l, s.subtree? levels t = some l := by
  induction levels generalizing t with
  | zero =>
    have hlt := hs.lt_length_of_mem ht
    omega
  | succ levels ih =>
    refine ⟨_, subtree?_succ.2 ⟨(s.derived t.id).map (fun v => (s.subtree? levels v).getD []), ?_, rfl⟩⟩
    rw [List.forall₂_map_right_iff, List.forall₂_same]
    intro v hv
    obtain ⟨hv, hbase⟩ := mem_derived.1 hv
    have hlt := hs.base_lt_id (hs.found hv) hbase
    obtain ⟨lv, hlv⟩ := ih hv (by omega)
    rw [hlv]
    rfl

theorem Ordered.eq_of_derives (hs : s.Ordered) (hv : s.Found v) {b : TypeId} (hub : u.base = some b)
    (hvb : v.base = some b) (h : s.Derives u v) : v = u := by
  rcases derives_iff.1 h with heq | ⟨w, hbase, hder⟩
  · exact heq
  · obtain ⟨hw, hwfound⟩ := hs.base_eq hbase
    have hle := hs.id_le_of_derives hwfound hder
    have hlt := hs.base_lt_id hv hvb
    rw [hub] at hw
    cases hw
    omega

theorem Numbered.derives_of_mem_subtree? (hs : s.Numbered) (ht : t ∈ s.types) {levels : Nat}
    (h : s.subtree? levels t = some l) (hu : u ∈ l) : s.Derives u t :=
  derives_of_mem_subtree?_of_found (fun _ => hs.found) h ht hu

theorem Numbered.disjoint_subtree? (hs : s.Numbered) (hu : u ∈ s.derived t.id) (hv : v ∈ s.derived t.id)
    (hne : u ≠ v) {levels : Nat} {lu lv : List EntityType} (hlu : s.subtree? levels u = some lu)
    (hlv : s.subtree? levels v = some lv) : lu.Disjoint lv := by
  obtain ⟨humem, hub⟩ := mem_derived.1 hu
  obtain ⟨hvmem, hvb⟩ := mem_derived.1 hv
  intro x hxu hxv
  have hderu := hs.derives_of_mem_subtree? humem hlu hxu
  have hderv := hs.derives_of_mem_subtree? hvmem hlv hxv
  rcases ReflTransGen.total_of_right_unique isBase_unique hderu hderv with h | h
  · exact hne (hs.eq_of_derives (hs.found hvmem) hub hvb h).symm
  · exact hne (hs.eq_of_derives (hs.found humem) hvb hub h)

theorem Numbered.nodup_subtree? (hs : s.Numbered) (ht : t ∈ s.types) {levels : Nat}
    (h : s.subtree? levels t = some l) : l.Nodup := by
  induction levels generalizing t l with
  | zero => cases h
  | succ levels ih =>
    obtain ⟨below, hbelow, rfl⟩ := subtree?_succ.1 h
    refine List.nodup_cons.2 ⟨?_, List.nodup_flatten.2 ⟨?_, ?_⟩⟩
    · intro hmem
      obtain ⟨lv, hlv, hmem⟩ := List.mem_flatten.1 hmem
      obtain ⟨v, hv, hsub⟩ := exists_of_mem_right hbelow hlv
      obtain ⟨hvmem, hbase⟩ := mem_derived.1 hv
      have hle := hs.id_le_of_derives (hs.found ht) (hs.derives_of_mem_subtree? hvmem hsub hmem)
      have hlt := hs.base_lt_id (hs.found hvmem) hbase
      omega
    · intro lv hlv
      obtain ⟨v, hv, hsub⟩ := exists_of_mem_right hbelow hlv
      exact ih (mem_derived.1 hv).1 hsub
    · exact pairwise_of_forall₂ hbelow (hs.nodup_types.filter _)
        (fun u hu v hv _ _ hne hlu hlv => hs.disjoint_subtree? hu hv hne hlu hlv)

/-- A type and those derived from it, each once: first the type, then the trees of its direct subtypes. -/
structure IsTree (s : Schema) (t : EntityType) (tree : List EntityType) : Prop where
  nodup : tree.Nodup
  mem_iff : ∀ u, u ∈ tree ↔ u ∈ s.types ∧ s.isAssignable u.id t.id = .ok true
  eq_cons : ∃ below, (s.derived t.id).mapM (fun u => s.hierarchy u.id) = .ok below ∧ tree = t :: below.flatten

theorem Numbered.exists_isTree (hs : s.Numbered) (ht : t ∈ s.types) :
    ∃ tree, s.hierarchy t.id = .ok tree ∧ (∀ out, s.Visits [t] out ↔ out = tree) ∧ s.IsTree t tree := by
  have hfound := hs.found ht
  obtain ⟨tree, htree⟩ := hs.exists_subtree? ht (Nat.le_add_right s.types.length _)
  have hvisits : s.Visits [t] tree := by
    have h := visits_of_subtree? htree .done
    rwa [List.append_nil] at h
  refine ⟨tree, hfound.hierarchy_eq_ok.2 htree, fun _ => hvisits.iff_eq, ?_⟩
  · constructor
    case nodup => exact hs.nodup_subtree? ht htree
    case mem_iff =>
      intro u
      constructor
      · intro hu
        have hmem := mem_types_of_mem_subtree? htree ht hu
        exact ⟨hmem, (hs.isAssignable_iff_derives (hs.found hmem) hfound).2
          (hs.derives_of_mem_subtree? ht htree hu)⟩
      · rintro ⟨hmem, hassign⟩
        have hu := hs.found hmem
        exact hs.mem_subtree?_of_derives hu ((hs.isAssignable_iff_derives hu hfound).1 hassign) htree
    case eq_cons =>
      obtain ⟨below, hbelow, heq⟩ := subtree?_succ.1 (subtree?_mono htree)
      have hall : ∀ u ∈ s.derived t.id, s.Found u := fun u hu => hs.found (mem_derived.1 hu).1
      refine ⟨below, mapM_eq_ok_iff.2 ?_, heq⟩
      exact ((List.forall₂_and_left _ _).2 ⟨hall, hbelow⟩).imp (fun _ _ h => h.1.hierarchy_eq_ok.2 h.2)

/-- Whatever the registrations were, as long as there are fewer types than numbers, the walks of the
hierarchy queries end, and the queries give exactly what is above and below a type. A number that no type
has is refused. -/
theorem walks_of_built (rs : List Registration) (hsize : (built rs).types.length < UInt32.size) :
    (∀ t ∈ (built rs).types, (built rs).entityType t.id = .ok t ∧
      (∀ b, t.base = some b → b.toNat < t.id.toNat) ∧
      (∃ chain, (built rs).baseChain t.id = .ok chain ∧
        (∀ walk, (built rs).Climbs t.id walk ↔ walk = chain.reverse) ∧ (built rs).LeadsTo t chain) ∧
      ∃ tree, (built rs).hierarchy t.id = .ok tree ∧
        (∀ out, (built rs).Visits [t] out ↔ out = tree) ∧ (built rs).IsTree t tree) ∧
    ∀ id, (∀ t ∈ (built rs).types, t.id ≠ id) →
      (built rs).baseChain id = .error (.entityTypeNotFound id) ∧
      (built rs).root id = .error (.entityTypeNotFound id) ∧
      (built rs).hierarchy id = .error (.entityTypeNotFound id) := by
  have hs := (ordered_built rs).numbered hsize.le
  generalize built rs = s at hs
  constructor
  · intro t ht
    exact ⟨hs.found ht, fun b hb => hs.base_lt_id (hs.found ht) hb, hs.exists_leadsTo (hs.found ht),
      hs.exists_isTree ht⟩
  · intro id hid
    have herror : s.entityType id = .error (.entityTypeNotFound id) := by
      rw [entityType, type?]
      split
      · rename_i t ht
        have hfound := entityType_eq_ok_iff.2 ht
        exact absurd (hs.id_eq_of_entityType hfound) (hid t (List.mem_of_getElem? ht))
      · rfl
    refine ⟨?_, ?_, ?_⟩
    · rw [baseChain, upward, herror]
      rfl
    · rw [root, herror]
      rfl
    · rw [hierarchy, herror]
      rfl

def contentType (name : String) (base : Option String) : EntityTypeDef :=
  { name := name, base := base, isAbstract := false, properties := [], key := [], table := none
    discriminatorProperty := none, discriminatorValue := none }

/-- A name is given away already, and an author is not known. -/
def contentHistory : List Registration :=
  [.entityType (contentType "Content" none), .entityType (contentType "Post" (some "Content")),
    .entityType (contentType "Post" none), .foreignKey ⟨"Post", "Author", [], []⟩,
    .entityType (contentType "Page" (some "Content")), .entityType (contentType "Essay" (some "Post"))]

theorem walks_of_built_contents :
    (built contentHistory).types.length < UInt32.size ∧
      ∃ t ∈ (built contentHistory).types, t.name = "Content" ∧
        ∃ tree, (built contentHistory).hierarchy t.id = .ok tree ∧
          tree.map (·.name) = ["Content", "Post", "Essay", "Page"] ∧
          (built contentHistory).Visits [t] tree ∧ (built contentHistory).IsTree t tree := by
  have hsize : (built contentHistory).types.length < UInt32.size := by decide
  have hmem : ⟨⟨0⟩, "Content", none, false, [], [], none, none, none⟩ ∈ (built contentHistory).types := by decide
  obtain ⟨-, -, -, tree, htree, hvisits, htree'⟩ := (walks_of_built contentHistory hsize).1 _ hmem
  refine ⟨hsize, _, hmem, rfl, tree, htree, ?_, (hvisits tree).2 rfl, htree'⟩
  have hcomputed : ((built contentHistory).hierarchy ⟨0⟩).map (fun types => types.map (·.name)) =
      .ok ["Content", "Post", "Essay", "Page"] := rfl
  rw [htree] at hcomputed
  exact Except.ok.inj hcomputed

end EntityStore.Schema
