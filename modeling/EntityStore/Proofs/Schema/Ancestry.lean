import EntityStore.Proofs.Traversal
import EntityStore.Schema.Registration

/-!
# Bases of registered types

A type is registered after its base, so a walk along bases ends at a root, and the walks that the
hierarchy queries make have room to get there. What a type inherits is therefore defined for every
type that a number finds.
-/

namespace EntityStore.Schema

open Traversal

theorem entityType_eq_ok_iff {s : Schema} {id : TypeId} {t : EntityType} :
    s.entityType id = .ok t ↔ s.types[id.toNat]? = some t := by
  unfold entityType type?
  cases h : s.types[id.toNat]? with
  | none => simp
  | some u => simp

/-- Every type has the number of its place, and a base stands before its subtypes. Places beyond
the range of numbers get a smaller number again, which finds the earlier type. -/
structure Ordered (s : Schema) : Prop where
  id_eq : ∀ (i : Nat) (t : EntityType), s.types[i]? = some t → t.id = ⟨UInt32.ofNat i⟩
  base_lt : ∀ (i : Nat) (t : EntityType) (b : TypeId),
    s.types[i]? = some t → t.base = some b → b.toNat < i

theorem ordered_empty : Ordered empty := by
  constructor <;> intros <;> simp_all [empty]

theorem toNat_ofNat_le (i : Nat) : (⟨UInt32.ofNat i⟩ : TypeId).toNat ≤ i := by
  simp only [TypeId.toNat, UInt32.toNat_ofNat']
  exact Nat.mod_le _ _

theorem Ordered.lt_length_of_mem {s : Schema} (hs : s.Ordered) {t : EntityType}
    (ht : t ∈ s.types) : t.id.toNat < s.types.length := by
  obtain ⟨i, hi⟩ := List.mem_iff_getElem?.mp ht
  obtain ⟨hlt, _⟩ := List.getElem?_eq_some_iff.mp hi
  rw [hs.id_eq i t hi]
  exact Nat.lt_of_le_of_lt (toNat_ofNat_le i) hlt

theorem Ordered.exists_entityType {s : Schema} (hs : s.Ordered) {t : EntityType} (ht : t ∈ s.types) :
    ∃ t', s.entityType t.id = .ok t' :=
  ⟨_, entityType_eq_ok_iff.2 (List.getElem?_eq_getElem (hs.lt_length_of_mem ht))⟩

theorem checkDerived_eq_ok {s : Schema} {base : TypeId} {d : EntityTypeDef}
    (h : s.checkDerived base d = .ok ()) :
    ∃ inherited, s.properties base = .ok inherited ∧
      ∀ p ∈ d.properties, ∀ q ∈ inherited, q.name ≠ p.name := by
  unfold checkDerived at h
  simp only at h
  split at h
  · simp only [bind_eq_ok_iff] at h
    obtain ⟨_, _, _, hthrow, -⟩ := h
    cases hthrow
  obtain ⟨inherited, hinherited, h⟩ := bind_eq_ok_iff.1 h
  refine ⟨inherited, hinherited, ?_⟩
  split at h
  · obtain ⟨_, _, hthrow⟩ := bind_eq_ok_iff.1 h
    cases hthrow
  · rename_i hnone
    intro p hp q hq hname
    have hfresh := List.find?_eq_none.1 hnone p hp
    exact hfresh (List.any_eq_true.2 ⟨q, hq, beq_iff_eq.2 hname⟩)

theorem addType_eq_ok {s s' : Schema} {d : EntityTypeDef} {id : TypeId}
    (h : s.addType d = .ok (id, s')) :
    ∃ t, s' = { s with types := s.types ++ [t] } ∧ t.id = s.nextId ∧
      (∀ b, t.base = some b → ∃ parent ∈ s.types, parent.id = b ∧
        ∃ inherited, s.properties b = .ok inherited ∧
          ∀ p ∈ t.properties, ∀ q ∈ inherited, q.name ≠ p.name) ∧
      t.name ∉ s.types.map (·.name) := by
  unfold addType at h
  simp only at h
  split at h
  · cases h
  rename_i hnone
  have hnew : d.name ∉ s.types.map (·.name) := by
    rintro hmem
    obtain ⟨u, hu, hname⟩ := List.mem_map.1 hmem
    apply hnone
    rw [findByName?, List.find?_isSome]
    exact ⟨u, hu, beq_iff_eq.2 hname⟩
  cases hd : d.base with
  | none =>
    rw [hd] at h
    cases h
    exact ⟨_, rfl, rfl, by simp, hnew⟩
  | some name =>
    rw [hd] at h
    simp only [bind_eq_ok_iff, pure_eq_ok] at h
    obtain ⟨parent, hparent, _, rfl, h⟩ := h
    simp only [bind_eq_ok_iff, pure_eq_ok] at h
    obtain ⟨_, hcheck, h⟩ := h
    cases h
    refine ⟨_, rfl, rfl, ?_, hnew⟩
    rintro b ⟨⟩
    unfold entityTypeByName findByName? at hparent
    split at hparent
    · rename_i found hfound
      cases hparent
      exact ⟨_, List.mem_of_find?_eq_some hfound, rfl, checkDerived_eq_ok hcheck⟩
    · cases hparent

theorem getElem?_snoc {l : List EntityType} {t u : EntityType} {i : Nat}
    (h : (l ++ [t])[i]? = some u) : l[i]? = some u ∨ i = l.length ∧ u = t := by
  rcases Nat.lt_or_ge i l.length with hi | hi
  · left
    rwa [List.getElem?_append_left hi] at h
  · right
    rw [List.getElem?_append_right hi, List.getElem?_singleton] at h
    split at h
    · exact ⟨by omega, (Option.some.inj h).symm⟩
    · cases h

theorem Ordered.addType {s s' : Schema} {d : EntityTypeDef} {id : TypeId} (hs : s.Ordered)
    (h : s.addType d = .ok (id, s')) : s'.Ordered := by
  obtain ⟨t, rfl, hid, hbase, -⟩ := addType_eq_ok h
  constructor
  · intro i u hu
    rcases getElem?_snoc hu with hu | ⟨rfl, rfl⟩
    · exact hs.id_eq i u hu
    · exact hid
  · intro i u b hu hb
    rcases getElem?_snoc hu with hu | ⟨rfl, rfl⟩
    · exact hs.base_lt i u b hu hb
    · obtain ⟨parent, hparent, rfl, -⟩ := hbase b hb
      exact hs.lt_length_of_mem hparent

theorem Ordered.addTypes {s s' : Schema} {ds : List EntityTypeDef} (hs : s.Ordered)
    (h : s.addTypes ds = .ok s') : s'.Ordered := by
  apply foldlM_preserves h hs
  intro d _ s s' hs hd
  simp only [bind_eq_ok_iff, pure_eq_ok] at hd
  obtain ⟨⟨id, s₁⟩, hadd, rfl⟩ := hd
  exact hs.addType hadd

/-- The walk along bases from a type that a number finds: it ends at a root, which has the number
of its own place, and both walks of the hierarchy queries get there. -/
theorem Ordered.exists_root {s : Schema} (hs : s.Ordered) (n : Nat) {id : TypeId} {t : EntityType}
    (hn : id.toNat = n) (ht : s.entityType id = .ok t) :
    ∃ below r, r.base = none ∧ s.entityType r.id = .ok r ∧
      (∀ steps, n < steps → s.upward steps id = .ok (below ++ [r])) ∧
      ∀ steps, n ≤ steps → s.topFrom steps t = .ok r := by
  induction n using Nat.strongRecOn generalizing id t with
  | ind n ih =>
    have hplace := entityType_eq_ok_iff.mp ht
    have hid : t.id = id := by
      rw [hs.id_eq _ _ hplace]
      simp [TypeId.toNat]
    cases hb : t.base with
    | none =>
      refine ⟨[], t, hb, hid ▸ ht, ?_, ?_⟩
      · intro steps hsteps
        obtain ⟨k, rfl⟩ : ∃ k, steps = k + 1 := ⟨steps - 1, by omega⟩
        simp [upward, ht, hb]
      · intro steps _
        cases steps with
        | zero => rfl
        | succ k => simp [topFrom, hb]
    | some b =>
      have hlt : b.toNat < n := hn ▸ hs.base_lt _ _ _ hplace hb
      obtain ⟨parent, hparent⟩ : ∃ parent, s.types[b.toNat]? = some parent := by
        obtain ⟨hid, _⟩ := List.getElem?_eq_some_iff.mp hplace
        exact ⟨s.types[b.toNat], List.getElem?_eq_getElem (by omega)⟩
      have hparent := entityType_eq_ok_iff.mpr hparent
      obtain ⟨below, r, hr, hrid, hup, htop⟩ := ih b.toNat hlt rfl hparent
      refine ⟨t :: below, r, hr, hrid, ?_, ?_⟩
      · intro steps hsteps
        obtain ⟨k, rfl⟩ : ∃ k, steps = k + 1 := ⟨steps - 1, by omega⟩
        simp [upward, ht, hb, hup k (by omega)]
      · intro steps hsteps
        obtain ⟨k, rfl⟩ : ∃ k, steps = k + 1 := ⟨steps - 1, by omega⟩
        simp [topFrom, hb, hparent, htop k (by omega)]

theorem Ordered.id_eq_of_entityType {s : Schema} (hs : s.Ordered) {id : TypeId} {t : EntityType}
    (ht : s.entityType id = .ok t) : t.id = id := by
  rw [hs.id_eq _ _ (entityType_eq_ok_iff.mp ht)]
  simp [TypeId.toNat]

theorem Ordered.exists_baseChain {s : Schema} (hs : s.Ordered) {id : TypeId} {t : EntityType}
    (ht : s.entityType id = .ok t) :
    ∃ r chain, s.root id = .ok r ∧ r ∈ s.roots ∧ s.entityType r.id = .ok r ∧
      s.baseChain id = .ok (r :: chain) := by
  have hplace := entityType_eq_ok_iff.mp ht
  obtain ⟨hlt, _⟩ := List.getElem?_eq_some_iff.mp hplace
  obtain ⟨below, r, hbase, hr, hup, htop⟩ := hs.exists_root id.toNat rfl ht
  refine ⟨r, below.reverse, ?_, ?_, hr, ?_⟩
  · rw [root, ht]
    exact htop _ (by omega)
  · have hmem := List.mem_of_getElem? (entityType_eq_ok_iff.mp hr)
    exact List.mem_filter.mpr ⟨hmem, by simp [EntityType.isRoot, hbase]⟩
  · simp [baseChain, hup _ (show id.toNat < s.types.length + 1 by omega)]

theorem Ordered.exists_isAssignable {s : Schema} (hs : s.Ordered) {id : TypeId} {t : EntityType}
    (ht : s.entityType id = .ok t) (ancestor : TypeId) : ∃ b, s.isAssignable id ancestor = .ok b := by
  obtain ⟨r, chain, _, _, _, hchain⟩ := hs.exists_baseChain ht
  exact ⟨_, by rw [isAssignable, hchain]; rfl⟩

theorem Ordered.exists_properties {s : Schema} (hs : s.Ordered) {id : TypeId} {t : EntityType}
    (ht : s.entityType id = .ok t) :
    ∃ r rest, s.root id = .ok r ∧ r ∈ s.roots ∧ s.entityType r.id = .ok r ∧
      s.properties id = .ok (r.properties ++ rest) := by
  obtain ⟨r, chain, hroot, hmem, hr, hchain⟩ := hs.exists_baseChain ht
  exact ⟨r, chain.flatMap (·.properties), hroot, hmem, hr, by simp [properties, hchain]⟩

theorem Ordered.mem_properties_of_root {s : Schema} (hs : s.Ordered) {id : TypeId} {t r : EntityType}
    (ht : s.entityType id = .ok t) (hroot : s.root id = .ok r) {all : List Property}
    (hall : s.properties id = .ok all) {p : Property} (hp : p ∈ r.properties) : p ∈ all := by
  obtain ⟨r', rest, hroot', -, -, hall'⟩ := hs.exists_properties ht
  rw [hroot] at hroot'
  rw [hall] at hall'
  cases hroot'
  cases hall'
  exact List.mem_append_left rest hp

theorem root_base {s : Schema} {r : EntityType} (hr : r ∈ s.roots) : r.base = none := by
  have h := (List.mem_filter.mp hr).2
  simpa [EntityType.isRoot] using h

theorem root_of_root {s : Schema} {r : EntityType} (hr : r ∈ s.roots)
    (hid : s.entityType r.id = .ok r) : s.root r.id = .ok r := by
  rw [root, hid, ok_bind]
  cases s.types.length with
  | zero => rfl
  | succ n => simp [topFrom, root_base hr]

theorem properties_of_root {s : Schema} {r : EntityType} (hr : r ∈ s.roots)
    (hid : s.entityType r.id = .ok r) : s.properties r.id = .ok r.properties := by
  simp [properties, baseChain, upward, hid, root_base hr]

theorem property_eq_ok_iff {s : Schema} {id : TypeId} {name : String} {p : Property} :
    s.property id name = .ok p ↔
      ∃ all, s.properties id = .ok all ∧ all.find? (·.name == name) = some p := by
  simp only [property, bind_eq_ok_iff]
  constructor
  · rintro ⟨all, hall, h⟩
    refine ⟨all, hall, ?_⟩
    split at h
    · rename_i q hq
      rwa [pure_eq_ok.mp h] at hq
    · cases h
  · rintro ⟨all, hall, hfind⟩
    exact ⟨all, hall, by simp [hfind]⟩

theorem Ordered.property_of_root {s : Schema} (hs : s.Ordered) {id : TypeId} {t r : EntityType}
    (ht : s.entityType id = .ok t) (hroot : s.root id = .ok r) {name : String} {p : Property}
    (hp : s.property r.id name = .ok p) : s.property id name = .ok p := by
  obtain ⟨r', rest, hroot', hmem, hr, hall⟩ := hs.exists_properties ht
  rw [hroot] at hroot'
  cases hroot'
  obtain ⟨declared, hdeclared, hfind⟩ := property_eq_ok_iff.1 hp
  rw [properties_of_root hmem hr] at hdeclared
  cases hdeclared
  exact property_eq_ok_iff.2 ⟨_, hall, by rw [List.find?_append, hfind, Option.some_or]⟩

end EntityStore.Schema
