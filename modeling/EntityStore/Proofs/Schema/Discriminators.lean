import Mathlib.Data.List.Nodup
import EntityStore.Proofs.Schema.Hierarchy
import EntityStore.Proofs.Schema.Validity
import EntityStore.Proofs.Value.Conversion

/-!
# Discriminator values

In the schema of an accepted definition the concrete types of a hierarchy have discriminator values
of the type of the discriminator, and no two of them have the same.
-/

namespace EntityStore.Schema

open Traversal

/-- A type has a discriminator value that fits a discriminator. -/
def Valued (p : Property) (t : EntityType) : Prop :=
  ∃ v k w, t.discriminatorValue = some v ∧ v.discriminatorKey? = some k ∧ v.convert? p.type = some w

def keyOf? (t : EntityType) : Option DiscriminatorKey := t.discriminatorValue.bind (·.discriminatorKey?)

theorem keyOf?_eq {t : EntityType} {v : Value} (hvalue : t.discriminatorValue = some v) :
    keyOf? t = v.discriminatorKey? := by
  rw [keyOf?, hvalue, Option.bind_some]

theorem validateDiscriminators_cons {root t : EntityType} {p : Property} {seen : List DiscriminatorKey}
    {types : List EntityType} :
    validateDiscriminators root p seen (t :: types) = .ok () ↔
      Valued p t ∧ ∃ k, keyOf? t = some k ∧ k ∉ seen ∧
        validateDiscriminators root p (k :: seen) types = .ok () := by
  cases hvalue : t.discriminatorValue with
  | none => simp [validateDiscriminators, keyOf?, hvalue, throw, throwThe, MonadExceptOf.throw]
  | some v =>
    rw [keyOf?_eq hvalue, Valued, hvalue]
    cases hkey : v.discriminatorKey? with
    | none => simp [validateDiscriminators, hvalue, hkey, throw, throwThe, MonadExceptOf.throw]
    | some k =>
      simp only [validateDiscriminators, hvalue, pure_bind, hkey, bind_eq_ok_iff]
      constructor
      · rintro ⟨_, hcoerce, h⟩
        obtain ⟨w, hw⟩ := discard_eq_ok_iff.1 hcoerce
        split at h
        · cases h
        · rename_i hnew
          exact ⟨⟨v, k, w, rfl, hkey, Value.coerce_eq_ok.1 hw⟩, k, rfl,
            fun hk => hnew (List.contains_iff_mem.2 hk), h⟩
      · rintro ⟨⟨_, _, w, hv, -, hw⟩, _, hk, hnew, h⟩
        cases hv
        cases hk
        refine ⟨(), discard_eq_ok_iff.2 ⟨w, Value.coerce_eq_ok.2 hw⟩, ?_⟩
        rwa [if_neg (fun hk => hnew (List.contains_iff_mem.1 hk))]

theorem validateDiscriminators_eq_ok_iff {root : EntityType} {p : Property} {seen : List DiscriminatorKey}
    {types : List EntityType} :
    validateDiscriminators root p seen types = .ok () ↔
      (∀ t ∈ types, Valued p t) ∧ (types.map keyOf?).Nodup ∧ ∀ t ∈ types, ∀ k ∈ seen, keyOf? t ≠ some k := by
  induction types generalizing seen with
  | nil => simp [validateDiscriminators]
  | cons t types ih =>
    rw [validateDiscriminators_cons, List.map_cons, List.nodup_cons]
    simp only [List.forall_mem_cons, ih]
    constructor
    · rintro ⟨hvalued, k, hkey, hnew, hrest, hnodup, hseen⟩
      refine ⟨⟨hvalued, hrest⟩, ⟨?_, hnodup⟩, ?_, fun u hu => (hseen u hu).2⟩
      · intro hmem
        obtain ⟨u, hu, huk⟩ := List.mem_map.1 hmem
        exact (hseen u hu).1 (huk.trans hkey)
      · intro k' hk' heq
        rw [hkey] at heq
        cases heq
        exact hnew hk'
    · rintro ⟨⟨hvalued, hrest⟩, ⟨hfirst, hnodup⟩, hnew, hseen⟩
      obtain ⟨v, k, w, hvalue, hkey, hw⟩ := hvalued
      have hkeyOf : keyOf? t = some k := (keyOf?_eq hvalue).trans hkey
      refine ⟨⟨v, k, w, hvalue, hkey, hw⟩, k, hkeyOf, fun hk => hnew k hk hkeyOf, hrest, hnodup, ?_⟩
      intro u hu
      exact ⟨fun huk => hfirst (List.mem_map.2 ⟨u, hu, huk.trans hkeyOf.symm⟩), hseen u hu⟩

structure Checked (s : Schema) (r : EntityType) (types : List EntityType) : Prop where
  hierarchy : s.hierarchy r.id = .ok types
  single : s.discriminator? r.id = .ok none → types.length ≤ 1
  kind : ∀ p, s.discriminator? r.id = .ok (some p) → canDiscriminate p.type = true
  valued : ∀ p, s.discriminator? r.id = .ok (some p) → ∀ t ∈ concrete types, Valued p t
  distinct : ∀ p, s.discriminator? r.id = .ok (some p) → ((concrete types).map keyOf?).Nodup

theorem exists_checked {d : SchemaDef} {s : Schema} (h : ofDef d = .ok s) {r : EntityType}
    (hr : r ∈ s.roots) : ∃ types, s.Checked r types := by
  simp only [ofDef, bind_eq_ok_iff, pure_eq_ok] at h
  obtain ⟨s', _, _, hvalid, rfl⟩ := h
  rw [validate, List.forM_eq_forM] at hvalid
  obtain ⟨-, -, types, discriminator, htypes, hd, hnone, hsome⟩ :=
    validateRoot_eq_ok_iff.1 (forM_eq_ok_iff.1 hvalid r hr)
  have hfits : ∀ p, s'.discriminator? r.id = .ok (some p) → canDiscriminate p.type = true ∧
      validateDiscriminators r p [] (concrete types) = .ok () :=
    fun p hp => hsome p (Except.ok.inj (hd.symm.trans hp))
  refine ⟨types, htypes, ?_, ?_, ?_, ?_⟩
  · intro hp
    exact hnone (Except.ok.inj (hd.symm.trans hp))
  · intro p hp
    exact (hfits p hp).1
  · intro p hp
    exact (validateDiscriminators_eq_ok_iff.1 (hfits p hp).2).1
  · intro p hp
    exact (validateDiscriminators_eq_ok_iff.1 (hfits p hp).2).2.1

theorem Found.concreteTypes_eq {s : Schema} {t : EntityType} (ht : s.Found t) {below : List EntityType}
    (hbelow : s.subtree? s.types.length t = some below) :
    s.concreteTypes t.id = .ok (concrete below) := by
  rw [concreteTypes, ht.hierarchy_eq_ok.2 hbelow]
  rfl

theorem discriminator?_eq_of_root {s : Schema} {id id' : TypeId} (h : s.root id = s.root id') :
    s.discriminator? id = s.discriminator? id' := by
  rw [discriminator?, discriminator?, h]

theorem Ordered.mem_root_properties {s : Schema} (hs : s.Ordered) {t root : EntityType} (ht : s.Found t)
    (hroot : s.root t.id = .ok root) {p : Property} (hp : s.discriminator? t.id = .ok (some p)) :
    p ∈ root.properties := by
  obtain ⟨r, -, hr, hmem, hfound, -⟩ := hs.exists_properties ht
  rw [hroot] at hr
  cases hr
  rw [discriminator?, hroot, ok_bind] at hp
  split at hp
  · cases hp
  · simp only [bind_eq_ok_iff, pure_eq_ok, Option.some.injEq] at hp
    obtain ⟨q, hq, rfl⟩ := hp
    obtain ⟨declared, hdeclared, hfind⟩ := property_eq_ok_iff.1 hq
    rw [properties_of_root hmem hfound] at hdeclared
    cases hdeclared
    exact List.mem_of_find?_eq_some hfind

theorem Ordered.mem_properties_of_discriminator? {s : Schema} (hs : s.Ordered) {t : EntityType}
    (ht : s.Found t) {p : Property} (hp : s.discriminator? t.id = .ok (some p))
    {properties : List Property} (hproperties : s.properties t.id = .ok properties) : p ∈ properties := by
  obtain ⟨root, _, hroot, -⟩ := hs.exists_properties ht
  exact hs.mem_properties_of_root ht hroot hproperties (hs.mem_root_properties ht hroot hp)

structure Within (s : Schema) (root : EntityType) (types : List EntityType) (t : EntityType) : Prop where
  valid : s.Valid
  checked : s.Checked root types
  found : s.Found t
  root_eq : s.root t.id = .ok root

theorem exists_within {d : SchemaDef} {s : Schema} (h : ofDef d = .ok s) {t : EntityType}
    (ht : s.Found t) : ∃ root types, s.Within root types t := by
  have hs := valid_of_ofDef h
  obtain ⟨root, hroot, hmem, -, -⟩ := hs.exists_derives_root ht
  obtain ⟨types, hchecked⟩ := exists_checked h hmem
  exact ⟨root, types, hs, hchecked, ht, hroot⟩

section

variable {s : Schema} {root t u : EntityType} {types : List EntityType}

theorem Within.of_derives (h : s.Within root types t) (hu : s.Derives t u) : s.Within root types u where
  valid := h.valid
  checked := h.checked
  found := h.valid.found_of_derives h.found hu
  root_eq := (h.valid.root_eq_of_derives h.found hu).trans h.root_eq

theorem Within.of_derived (h : s.Within root types u) (ht : s.Found t) (hder : s.Derives t u) :
    s.Within root types t where
  valid := h.valid
  checked := h.checked
  found := ht
  root_eq := (h.valid.root_eq_of_derives ht hder).symm.trans h.root_eq

theorem Within.derives_root (h : s.Within root types t) :
    root ∈ s.roots ∧ s.Found root ∧ s.Derives t root := by
  obtain ⟨r, hr, hmem, hfound, hder⟩ := h.valid.exists_derives_root h.found
  rw [h.root_eq] at hr
  cases hr
  exact ⟨hmem, hfound, hder⟩

theorem Within.to_root (h : s.Within root types t) : s.Within root types root :=
  h.of_derives h.derives_root.2.2

theorem Within.discriminator?_eq (h : s.Within root types t) :
    s.discriminator? t.id = s.discriminator? root.id := by
  obtain ⟨hmem, hfound, -⟩ := h.derives_root
  apply discriminator?_eq_of_root
  rw [h.root_eq, root_of_root hmem hfound]

theorem Within.subtree?_root (h : s.Within root types t) :
    s.subtree? s.types.length root = some types :=
  h.derives_root.2.1.hierarchy_eq_ok.1 h.checked.hierarchy

theorem Within.mem (h : s.Within root types t) : t ∈ types :=
  h.valid.mem_subtree?_of_derives h.found h.derives_root.2.2 h.subtree?_root

theorem Within.exists_subtree? (h : s.Within root types t) :
    ∃ below, s.subtree? s.types.length t = some below ∧ below.Sublist types ∧
      s.concreteTypes t.id = .ok (concrete below) := by
  obtain ⟨below, hbelow, hsub⟩ := exists_subtree?_of_mem h.subtree?_root h.mem
  exact ⟨below, hbelow, hsub, h.found.concreteTypes_eq hbelow⟩

theorem concrete_sublist {l l' : List EntityType} (h : l.Sublist l') : (concrete l).Sublist (concrete l') :=
  h.filter _

theorem Within.sublist (h : s.Within root types t) {below : List EntityType}
    (hbelow : s.subtree? s.types.length t = some below) : below.Sublist types := by
  obtain ⟨below', hbelow', hsub, -⟩ := h.exists_subtree?
  rw [hbelow] at hbelow'
  cases hbelow'
  exact hsub

theorem Within.of_mem_subtree? (h : s.Within root types u) (hfound : ∀ v ∈ s.types, s.Found v)
    {below : List EntityType} (hbelow : s.subtree? s.types.length u = some below) (ht : t ∈ below) :
    s.Within root types t ∧ s.Derives t u := by
  have hder := derives_of_mem_subtree?_of_found hfound hbelow h.found.mem ht
  exact ⟨h.of_derived (hfound t (mem_types_of_mem_subtree? hbelow h.found.mem ht)) hder, hder⟩

theorem Within.eq_root (h : s.Within root types t) (hnone : s.discriminator? t.id = .ok none) :
    types = [root] ∧ t = root := by
  have hlength := h.checked.single (h.discriminator?_eq ▸ hnone)
  have htypes : types = [root] := by
    rw [subtree?_eq_cons h.subtree?_root] at hlength ⊢
    rw [List.length_cons] at hlength
    have hnil : types.tail = [] := List.eq_nil_of_length_eq_zero (by omega)
    rw [hnil]
  have hmem := h.mem
  rw [htypes, List.mem_singleton] at hmem
  exact ⟨htypes, hmem⟩

theorem mem_concrete : t ∈ concrete types ↔ t ∈ types ∧ t.isAbstract = false := by
  simp [concrete]

theorem Within.valued (h : s.Within root types t) {p : Property}
    (hp : s.discriminator? t.id = .ok (some p)) (hu : u ∈ concrete types) : Valued p u :=
  h.checked.valued p (h.discriminator?_eq ▸ hp) u hu

/-- A concrete type is known by its discriminator value. -/
theorem Within.eq_of_keyOf? (h : s.Within root types t) {p : Property}
    (hp : s.discriminator? t.id = .ok (some p)) {v : EntityType} (hu : u ∈ concrete types)
    (hv : v ∈ concrete types) (hkey : keyOf? u = keyOf? v) : u = v :=
  List.inj_on_of_nodup_map (h.checked.distinct p (h.discriminator?_eq ▸ hp)) hu hv hkey

theorem Within.derives_of_mem (h : s.Within root types t) (hconcrete : t.isAbstract = false)
    {p : Property} (hp : s.discriminator? t.id = .ok (some p)) (hu : s.Within root types u)
    {below : List EntityType} (hbelow : s.subtree? s.types.length u = some below) (hmem : t ∈ below) :
    s.Derives t u := by
  have honce : types.count t ≤ 1 := by
    have hnodup := List.Nodup.of_map keyOf? (h.checked.distinct p (h.discriminator?_eq ▸ hp))
    have hcount := List.nodup_iff_count_le_one.1 hnodup t
    rwa [concrete, List.count_filter (by simp [hconcrete])] at hcount
  obtain ⟨hroot, -, hder⟩ := h.derives_root
  exact h.valid.derives_of_mem_subtree? hroot h.subtree?_root hbelow (hu.sublist hbelow) h.found hder
    hmem honce

theorem Within.mem_concrete_iff (h : s.Within root types t) (hconcrete : t.isAbstract = false)
    (hu : s.Within root types u) {below : List EntityType}
    (hbelow : s.subtree? s.types.length u = some below) : t ∈ concrete below ↔ s.Derives t u := by
  rw [mem_concrete]
  constructor
  · rintro ⟨hmem, -⟩
    obtain ⟨d, hd⟩ := h.valid.exists_discriminator h.found
    cases d with
    | some p => exact h.derives_of_mem hconcrete hd hu hbelow hmem
    | none =>
      have hdu : s.discriminator? u.id = .ok none := by
        rw [hu.discriminator?_eq, ← h.discriminator?_eq, hd]
      rw [(h.eq_root hd).2, (hu.eq_root hdu).2]
  · intro hder
    exact ⟨h.valid.mem_subtree?_of_derives h.found hder hbelow, hconcrete⟩

theorem Within.eq_root_of_map_id (h : s.Within root types t) {below : List EntityType}
    (hbelow : s.subtree? s.types.length t = some below)
    (hone : (concrete below).map (·.id) = [root.id]) : t = root := by
  obtain ⟨v, hv, hid⟩ := List.map_eq_singleton_iff.1 hone
  have hmem : v ∈ concrete below := hv ▸ List.mem_cons_self
  exact h.valid.eq_root_of_id_mem h.subtree?_root h.found h.derives_root.2.2 hbelow
    (mem_concrete.1 hmem).1 hid

theorem Within.map_id_eq_iff (h : s.Within root types t) {below : List EntityType}
    (hbelow : s.subtree? s.types.length t = some below) (hne : concrete below ≠ []) :
    (concrete below).map (·.id) = [root.id] ↔ (concrete types).map (·.id) = [root.id] := by
  constructor
  · intro hone
    rw [h.eq_root_of_map_id hbelow hone, h.subtree?_root] at hbelow
    cases hbelow
    exact hone
  · intro hone
    have hlength := congrArg List.length hone
    have hpos := List.length_pos_iff.2 hne
    rw [List.length_map, List.length_singleton] at hlength
    rw [(concrete_sublist (h.sublist hbelow)).eq_of_length_le (by omega), hone]

end

end EntityStore.Schema
