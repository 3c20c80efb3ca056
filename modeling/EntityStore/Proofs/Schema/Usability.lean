import Mathlib.Data.List.Perm.Basic
import EntityStore.Proofs.Schema.Discriminators
import EntityStore.Proofs.Schema.Walks

/-!
# Usable schemas

What `validate` accepts, said of the types themselves: every root has a key among its properties and, if
it has subtypes, a property whose stored value tells the concrete types of the hierarchy apart. Values
are stored in the type of the discriminator but compared by their keys when a schema is checked. That
comes to the same, since conversion keeps the key and no two values of one type share it.
-/

namespace EntityStore.Schema

open Traversal

variable {s : Schema} {r t u : EntityType} {p : Property} {types : List EntityType} {v w : Value}

/-! ### Values that tell types apart -/

/-- What a row of a type has in the column of the discriminator. -/
def storedValue? (p : Property) (t : EntityType) : Option Value :=
  t.discriminatorValue.bind (·.convert? p.type)

structure TellsApart (p : Property) (types : List EntityType) : Prop where
  kind : p.type = .text ∨ p.type = .integer ∨ p.type = .bool
  valued : ∀ t ∈ types, ∃ v, t.discriminatorValue = some v ∧
    (v.type? = some .text ∨ v.type? = some .integer ∨ v.type? = some .bool) ∧
    ∃ w, v.convert? p.type = some w
  distinct : (types.map (storedValue? p)).Nodup

theorem canDiscriminate_iff {type : ValueType} :
    canDiscriminate type = true ↔ type = .text ∨ type = .integer ∨ type = .bool := by
  cases type <;> decide

theorem exists_discriminatorKey?_iff :
    (∃ k, v.discriminatorKey? = some k) ↔
      v.type? = some .text ∨ v.type? = some .integer ∨ v.type? = some .bool := by
  cases v <;> simp [Value.discriminatorKey?, Value.type?]

theorem valued_iff :
    Valued p t ↔ ∃ v, t.discriminatorValue = some v ∧
      (v.type? = some .text ∨ v.type? = some .integer ∨ v.type? = some .bool) ∧
      ∃ w, v.convert? p.type = some w := by
  simp only [← exists_discriminatorKey?_iff]
  constructor
  · rintro ⟨v, k, w, hvalue, hk, hw⟩
    exact ⟨v, hvalue, ⟨k, hk⟩, w, hw⟩
  · rintro ⟨v, hvalue, ⟨k, hk⟩, w, hw⟩
    exact ⟨v, k, w, hvalue, hk, hw⟩

theorem storedValue?_eq_iff (hkind : canDiscriminate p.type = true) (ht : Valued p t) (hu : Valued p u) :
    storedValue? p t = storedValue? p u ↔ keyOf? t = keyOf? u := by
  obtain ⟨v, k, w, hvalue, hk, hw⟩ := ht
  obtain ⟨v', k', w', hvalue', hk', hw'⟩ := hu
  have hwk := Value.discriminatorKey?_convert hkind hk hw
  have hwk' := Value.discriminatorKey?_convert hkind hk' hw'
  rw [keyOf?_eq hvalue, keyOf?_eq hvalue', hk, hk', storedValue?, storedValue?, hvalue, hvalue',
    Option.bind_some, Option.bind_some, hw, hw', Option.some.injEq, Option.some.injEq]
  constructor
  · rintro rfl
    exact Option.some.inj (hwk.symm.trans hwk')
  · rintro rfl
    exact Value.eq_of_discriminatorKey? (Value.convert?_convert? hw) (Value.convert?_convert? hw') hwk hwk'

theorem nodup_storedValue?_iff (hkind : canDiscriminate p.type = true) (hvalued : ∀ t ∈ types, Valued p t) :
    (types.map (storedValue? p)).Nodup ↔ (types.map keyOf?).Nodup := by
  rw [List.Nodup, List.Nodup, List.pairwise_map, List.pairwise_map]
  refine List.Pairwise.iff_of_mem ?_
  intro t u ht hu
  exact not_congr (storedValue?_eq_iff hkind (hvalued t ht) (hvalued u hu))

theorem tellsApart_iff :
    TellsApart p types ↔ canDiscriminate p.type = true ∧ validateDiscriminators r p [] types = .ok () := by
  rw [validateDiscriminators_eq_ok_iff]
  constructor
  · rintro ⟨hkind, hvalued, hdistinct⟩
    have hkind := canDiscriminate_iff.2 hkind
    have hvalued : ∀ t ∈ types, Valued p t := fun t ht => valued_iff.2 (hvalued t ht)
    refine ⟨hkind, hvalued, (nodup_storedValue?_iff hkind hvalued).1 hdistinct, ?_⟩
    rintro _ _ _ ⟨⟩
  · rintro ⟨hkind, hvalued, hnodup, -⟩
    constructor
    case kind => exact canDiscriminate_iff.1 hkind
    case valued => exact fun t ht => valued_iff.1 (hvalued t ht)
    case distinct => exact (nodup_storedValue?_iff hkind hvalued).2 hnodup

theorem TellsApart.perm {types' : List EntityType} (h : TellsApart p types) (hperm : types.Perm types') :
    TellsApart p types' where
  kind := h.kind
  valued t ht := h.valued t (hperm.mem_iff.2 ht)
  distinct := (hperm.map _).nodup_iff.1 h.distinct

/-- A value that a row has in the column of the discriminator is that of a type, as a query compares them
or as the row is dispatched. -/
def Owns (t : EntityType) (w : Value) : Prop :=
  ∃ v, t.discriminatorValue = some v ∧
    (w.compare? v = some .eq ∨ ∃ k, w.discriminatorKey? = some k ∧ v.discriminatorKey? = some k)

theorem Owns.keyOf?_eq (howns : Owns t w) (hkind : canDiscriminate p.type = true) (ht : Valued p t)
    (hw : w.convert? p.type = some w) : ∃ k, w.discriminatorKey? = some k ∧ keyOf? t = some k := by
  obtain ⟨v, hvalue, hmatch⟩ := howns
  rw [Schema.keyOf?_eq hvalue]
  rcases hmatch with hcompare | hkey
  · obtain ⟨v', k', -, hvalue', hk', -⟩ := ht
    rw [hvalue] at hvalue'
    cases hvalue'
    obtain ⟨k, hk⟩ := Value.exists_discriminatorKey? hkind hw (Value.isNull_of_compare? hcompare)
    have heq := (Value.compare?_eq_iff hk hk').1 hcompare
    exact ⟨k, hk, heq ▸ hk'⟩
  · exact hkey

theorem TellsApart.eq_of_owns (h : TellsApart p types) (hw : w.convert? p.type = some w) (ht : t ∈ types)
    (hu : u ∈ types) (htw : Owns t w) (huw : Owns u w) : t = u := by
  have hkind := canDiscriminate_iff.2 h.kind
  have hvalued : ∀ t ∈ types, Valued p t := fun t ht => valued_iff.2 (h.valued t ht)
  obtain ⟨k, hk, hkt⟩ := htw.keyOf?_eq hkind (hvalued t ht) hw
  obtain ⟨k', hk', hku⟩ := huw.keyOf?_eq hkind (hvalued u hu) hw
  rw [hk] at hk'
  cases hk'
  exact List.inj_on_of_nodup_map ((nodup_storedValue?_iff hkind hvalued).1 h.distinct) ht hu
    (hkt.trans hku.symm)

/-! ### What is checked -/

/-- What can be said of a root whose hierarchy is found by its number. -/
structure UsableByNumber (s : Schema) (r : EntityType) : Prop where
  key_ne_nil : r.key ≠ []
  key : ∀ name ∈ r.key, ∃ p, s.property r.id name = .ok p
  discriminated : ∃ types d, s.hierarchy r.id = .ok types ∧ s.discriminator? r.id = .ok d ∧
    (1 < types.length → d ≠ none) ∧ ∀ p, d = some p → TellsApart p (concrete types)

theorem validateRoot_eq_ok_iff_usable : s.validateRoot r = .ok () ↔ s.UsableByNumber r := by
  rw [validateRoot_eq_ok_iff]
  simp only [← tellsApart_iff]
  constructor
  · rintro ⟨hne, hkey, types, d, htypes, hd, hnone, hsome⟩
    refine ⟨hne, hkey, types, d, htypes, hd, ?_, hsome⟩
    intro hlength hd
    have hle := hnone hd
    omega
  · rintro ⟨hne, hkey, types, d, htypes, hd, hneeded, hsome⟩
    refine ⟨hne, hkey, types, d, htypes, hd, ?_, hsome⟩
    intro hd
    by_contra hlength
    exact hneeded (by omega) hd

theorem validate_eq_ok_iff : s.validate = .ok () ↔ ∀ r ∈ s.roots, s.UsableByNumber r := by
  rw [validate, List.forM_eq_forM, forM_eq_ok_iff]
  simp only [validateRoot_eq_ok_iff_usable]

/-! ### What there is below a root -/

def concreteBelow (s : Schema) (r : EntityType) : List EntityType :=
  s.types.filter (fun t => !t.isAbstract && decide (s.isAssignable t.id r.id = .ok true))

structure Usable (s : Schema) (r : EntityType) : Prop where
  key_ne_nil : r.key ≠ []
  key : ∀ name ∈ r.key, ∃ p ∈ r.properties, p.name = name
  discriminated : (∃ t ∈ s.types, t.base = some r.id) → r.discriminatorProperty ≠ none
  tellsApart : ∀ name, r.discriminatorProperty = some name →
    ∃ p, r.properties.find? (·.name == name) = some p ∧ TellsApart p (s.concreteBelow r)

theorem property_of_root_eq_ok_iff (hr : r ∈ s.roots) (hfound : s.Found r) {name : String} :
    s.property r.id name = .ok p ↔ r.properties.find? (·.name == name) = some p := by
  rw [property_eq_ok_iff, properties_of_root hr hfound]
  simp only [Except.ok.injEq, exists_eq_left']

theorem exists_property_iff (hr : r ∈ s.roots) (hfound : s.Found r) {name : String} :
    (∃ p, s.property r.id name = .ok p) ↔ ∃ p ∈ r.properties, p.name = name := by
  simp only [property_of_root_eq_ok_iff hr hfound, ← Option.isSome_iff_exists, List.find?_isSome, beq_iff_eq]

theorem discriminator?_of_root_eq_ok_iff (hr : r ∈ s.roots) (hfound : s.Found r) {d : Option Property} :
    s.discriminator? r.id = .ok d ↔
      match r.discriminatorProperty with
      | none => d = none
      | some name => ∃ p, r.properties.find? (·.name == name) = some p ∧ d = some p := by
  rw [discriminator?, root_of_root hr hfound, ok_bind]
  cases r.discriminatorProperty with
  | none =>
    simp only [pure_eq_ok]
    exact eq_comm
  | some name =>
    simp only [bind_eq_ok_iff, pure_eq_ok, property_of_root_eq_ok_iff hr hfound]
    exact exists_congr (fun p => and_congr_right (fun _ => eq_comm))

theorem one_lt_length_iff_of_subtree? {levels : Nat} (h : s.subtree? levels t = some types) :
    1 < types.length ↔ ∃ u ∈ s.types, u.base = some t.id := by
  constructor
  · intro hlength
    rw [subtree?_eq_cons h, List.length_cons] at hlength
    obtain ⟨u, hu⟩ := List.exists_mem_of_length_pos (l := types.tail) (by omega)
    obtain ⟨v, hv, -⟩ := exists_mem_of_mem_tail (subtree?_mono h) hu
    exact ⟨v, mem_derived.1 hv⟩
  · rintro ⟨u, hu⟩
    obtain ⟨below, hbelow, hsub⟩ := exists_subtree?_of_mem_derived h (mem_derived.2 hu)
    have hle := hsub.length_le
    rw [subtree?_eq_cons hbelow, List.length_cons] at hle
    rw [subtree?_eq_cons h, List.length_cons]
    omega

theorem Numbered.perm_concreteBelow (hs : s.Numbered) (htree : s.IsTree r types) :
    (concrete types).Perm (s.concreteBelow r) := by
  refine (List.perm_ext_iff_of_nodup (htree.nodup.filter _) (hs.nodup_types.filter _)).2 ?_
  intro u
  rw [List.mem_filter, List.mem_filter, htree.mem_iff, Bool.and_eq_true, decide_eq_true_eq]
  tauto

theorem Numbered.usableByNumber_iff (hs : s.Numbered) (hr : r ∈ s.roots) :
    s.UsableByNumber r ↔ s.Usable r := by
  have hmem : r ∈ s.types := (List.mem_filter.1 hr).1
  have hfound := hs.found hmem
  obtain ⟨types, htypes, -, htree⟩ := hs.exists_isTree hmem
  have hlength := one_lt_length_iff_of_subtree? (hfound.hierarchy_eq_ok.1 htypes)
  have hperm := hs.perm_concreteBelow htree
  have hdiscriminator := fun d => discriminator?_of_root_eq_ok_iff (d := d) hr hfound
  -- the types are compared as lists of the same members: one is in the order of the walk down, the other in
  -- that of registration
  constructor
  · rintro ⟨hne, hkey, types', d, htypes', hd, hneeded, htells⟩
    rw [htypes] at htypes'
    cases htypes'
    rw [hdiscriminator] at hd
    constructor
    case key_ne_nil => exact hne
    case key => exact fun name hname => (exists_property_iff hr hfound).1 (hkey name hname)
    case discriminated =>
      intro hderived hnone
      rw [hnone] at hd
      exact hneeded (hlength.2 hderived) hd
    case tellsApart =>
      intro name hname
      rw [hname] at hd
      obtain ⟨p, hp, hd⟩ := hd
      exact ⟨p, hp, (htells p hd).perm hperm⟩
  · rintro ⟨hne, hkey, hneeded, htells⟩
    constructor
    case key_ne_nil => exact hne
    case key => exact fun name hname => (exists_property_iff hr hfound).2 (hkey name hname)
    case discriminated =>
      cases hproperty : r.discriminatorProperty with
      | none =>
        refine ⟨types, none, htypes, (hdiscriminator _).2 (by rw [hproperty]), ?_, by rintro _ ⟨⟩⟩
        intro hlong _
        exact hneeded (hlength.1 hlong) hproperty
      | some name =>
        obtain ⟨p, hp, htells⟩ := htells name hproperty
        refine ⟨types, some p, htypes, (hdiscriminator _).2 (by rw [hproperty]; exact ⟨p, hp, rfl⟩),
          by simp, ?_⟩
        rintro _ ⟨⟩
        exact htells.perm hperm.symm

/-! ### Schemas that have been built -/

/-- After any registrations the roots that are looked at by their numbers are all usable exactly if the
schema is accepted. As long as there are not more types than numbers, that is what their types say. Then
no stored value is that of two concrete types of a hierarchy. -/
theorem validate_built_iff (rs : List Registration) :
    ((built rs).validate = .ok () ↔ ∀ r ∈ (built rs).roots, (built rs).UsableByNumber r) ∧
    ((built rs).types.length ≤ UInt32.size →
      ((built rs).validate = .ok () ↔ ∀ r ∈ (built rs).roots, (built rs).Usable r)) ∧
    ((built rs).validate = .ok () → ∀ r ∈ (built rs).roots, ∀ types p,
      (built rs).hierarchy r.id = .ok types → (built rs).discriminator? r.id = .ok (some p) →
      ∀ w : Value, w.convert? p.type = some w → ∀ t ∈ concrete types, ∀ u ∈ concrete types,
        Owns t w → Owns u w → t = u) := by
  refine ⟨validate_eq_ok_iff, ?_, ?_⟩
  · intro hsize
    have hs := (ordered_built rs).numbered hsize
    rw [validate_eq_ok_iff]
    exact forall₂_congr (fun r hr => hs.usableByNumber_iff hr)
  · intro hvalid r hr types p htypes hp w hw t ht u hu htw huw
    obtain ⟨types', d, htypes', hd, -, htells⟩ := (validate_eq_ok_iff.1 hvalid r hr).discriminated
    rw [htypes] at htypes'
    cases htypes'
    rw [hp] at hd
    cases hd
    exact (htells p rfl).eq_of_owns hw ht hu htw huw

def mediaType : EntityTypeDef where
  name := "Media"
  base := none
  isAbstract := true
  properties := [⟨"Id", none, .integer, false⟩, ⟨"Moving", none, .bool, false⟩]
  key := ["Id"]
  table := none
  discriminatorProperty := some "Moving"
  discriminatorValue := none

def mediumType (name : String) (v : Value) : EntityTypeDef where
  name := name
  base := some "Media"
  isAbstract := false
  properties := []
  key := []
  table := none
  discriminatorProperty := none
  discriminatorValue := some v

/-- A number and a truth value are declared for a column of truth values, and a name is given twice. -/
def mediaHistory (photo : Value) : List Registration :=
  [.entityType mediaType, .entityType (mediumType "Film" (.integer 1)),
    .entityType (mediumType "Photo" photo), .entityType (mediumType "Photo" (.text "photo")),
    .foreignKey ⟨"Film", "Photo", ["Id"], ["Id"]⟩]

/-- Films and photos are told apart by a truth value as long as it is not that of both. -/
theorem validate_built_iff_media :
    (built (mediaHistory (.bool false))).validate = .ok () ∧
      (∃ r ∈ (built (mediaHistory (.bool false))).roots, r.name = "Media" ∧
        (built (mediaHistory (.bool false))).Usable r ∧
        ∃ types, (built (mediaHistory (.bool false))).hierarchy r.id = .ok types ∧
          ∃ film ∈ concrete types, film.name = "Film" ∧ Owns film (.bool true) ∧
            ∀ u ∈ concrete types, Owns u (.bool true) → u = film) ∧
      (built (mediaHistory (.bool true))).validate = .error (.duplicateDiscriminator "Media" (.bool true)) ∧
      ∃ r ∈ (built (mediaHistory (.bool true))).roots, ¬(built (mediaHistory (.bool true))).Usable r := by
  have hsize : ∀ v, (built (mediaHistory v)).types.length ≤ UInt32.size := by
    intro v
    have hlength : (built (mediaHistory v)).types.length = 3 := rfl
    rw [hlength]
    decide
  have haccepted : (built (mediaHistory (.bool false))).validate = .ok () := rfl
  have hrefused : (built (mediaHistory (.bool true))).validate =
      .error (.duplicateDiscriminator "Media" (.bool true)) := rfl
  have husable := ((validate_built_iff (mediaHistory (.bool false))).2.1 (hsize _)).1 haccepted
  have hunusable := mt ((validate_built_iff (mediaHistory (.bool true))).2.1 (hsize _)).2
    (by rw [hrefused]; exact fun h => by cases h)
  have honce := (validate_built_iff (mediaHistory (.bool false))).2.2 haccepted _ List.mem_cons_self _
    ⟨"Moving", none, .bool, false⟩ rfl rfl (.bool true) rfl
  simp only [not_forall] at hunusable
  obtain ⟨r, hr, hunusable⟩ := hunusable
  have howns : Owns (built (mediaHistory (.bool false))).types[1] (.bool true) := ⟨.integer 1, rfl, .inl rfl⟩
  refine ⟨haccepted, ⟨_, List.mem_cons_self, rfl, husable _ List.mem_cons_self, _, rfl, _,
    List.mem_cons_self, rfl, howns, ?_⟩, hrefused, r, hr, hunusable⟩
  intro u hu huw
  exact honce u hu _ List.mem_cons_self huw howns

end EntityStore.Schema
