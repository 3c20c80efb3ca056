import EntityStore.Proofs.Query.Entities

/-!
# Records of types

A record that stores an entity of a concrete type becomes this entity wherever the type, or one that
it derives from, is read. Where any other type of the hierarchy is read, it is passed over.
-/

namespace EntityStore.Reading

open Traversal Schema

/-- A record that stores an entity of a type: the values have the declared types, and the
discriminator tells the type. -/
structure Stores (s : Schema) (t : EntityType) (properties : List Property) (r : Record) : Prop where
  properties_eq : s.properties t.id = .ok properties
  typed : IsTyped [(⟨0⟩, r)] ⟨0⟩ properties
  told : ∀ p, s.discriminator? t.id = .ok (some p) →
    ∃ k, (read [(⟨0⟩, r)] ⟨0⟩ p.columnName).discriminatorKey? = some k ∧ Schema.keyOf? t = some k

section

variable {s : Schema} {root t u : EntityType} {types : List EntityType}

theorem exists_concreteProperties (hs : s.Ordered) (ht : s.Found t) {below : List EntityType}
    (hbelow : s.subtree? s.types.length t = some below) :
    ∃ ts, Materializer.concreteProperties s t.id = .ok ts ∧ ts.map Prod.fst = concrete below := by
  have hconcrete := ht.concreteTypes_eq hbelow
  have hproperties : ∀ u ∈ concrete below, ∃ pair, (do
      let properties ← s.properties u.id
      return (u, properties) : Except SchemaError _) = .ok pair := by
    intro u hu
    -- the number of a type in the tree finds a type, though it need not be this one
    have hmem := mem_types_of_mem_subtree? hbelow ht.mem (mem_concrete.1 hu).1
    obtain ⟨v, hv⟩ := hs.exists_entityType hmem
    obtain ⟨_, rest, -, -, -, hall⟩ := hs.exists_properties hv
    rw [hall]
    exact ⟨_, rfl⟩
  obtain ⟨ts, hts⟩ := exists_mapM hproperties
  have hall : Materializer.concreteProperties s t.id = .ok ts := by
    rw [Materializer.concreteProperties, hconcrete, ok_bind]
    exact hts
  refine ⟨ts, hall, ?_⟩
  have hsame := (concreteProperties_eq_ok hall).1
  rw [hconcrete] at hsame
  exact (Except.ok.inj hsame).symm

theorem exists_discriminator (hu : s.Within root types u) {below : List EntityType}
    (hbelow : s.subtree? s.types.length u = some below) (hne : concrete types ≠ [])
    (hmany : (concrete below).map (·.id) ≠ [root.id]) : ∃ p, s.discriminator? u.id = .ok (some p) := by
  obtain ⟨d, hd⟩ := hu.valid.exists_discriminator hu.found
  cases d with
  | some p => exact ⟨p, hd⟩
  | none =>
    -- the root is the only type then, and there is nothing to tell apart
    obtain ⟨htypes, rfl⟩ := hu.eq_root hd
    rw [hu.subtree?_root] at hbelow
    cases hbelow
    rw [htypes] at hne hmany
    cases hconcrete : u.isAbstract with
    | false => exact absurd (by simp [concrete, hconcrete]) hmany
    | true => exact absurd (by simp [concrete, hconcrete]) hne

theorem exists_tellable (ht : s.Within root types t) (hconcrete : t.isAbstract = false)
    (hu : s.Derives t u) (source : SourceId) :
    ∃ ts, Materializer.concreteProperties s u.id = .ok ts ∧ ts ≠ [] ∧
      ∀ known, Tellable s u.id root source ((typeColumns source ts).foldl mention known) (ts.map Prod.fst) := by
  have hw := ht.of_derives hu
  obtain ⟨below, hbelow, hsub, -⟩ := hw.exists_subtree?
  obtain ⟨ts, hts, hfst⟩ := exists_concreteProperties hw.valid.toOrdered hw.found hbelow
  have hmem : t ∈ concrete below :=
    mem_concrete.2 ⟨ht.valid.mem_subtree?_of_derives ht.found hu hbelow, hconcrete⟩
  rw [← hfst] at hmem
  obtain ⟨⟨_, properties⟩, hpair, rfl⟩ := List.mem_map.1 hmem
  refine ⟨ts, hts, List.ne_nil_of_mem hpair, ?_⟩
  intro known hmany
  rw [hfst] at hmany
  obtain ⟨p, hp⟩ := exists_discriminator hw hbelow
    (List.ne_nil_of_mem (mem_concrete.2 ⟨ht.mem, hconcrete⟩)) hmany
  refine ⟨p, hp, ?_, ?_⟩
  · have hproperties := (concreteProperties_eq_ok hts).2 _ hpair
    have hsame : s.discriminator? u.id = s.discriminator? _ := hw.discriminator?_eq.trans ht.discriminator?_eq.symm
    have hpmem := ht.valid.mem_properties_of_discriminator? ht.found (hsame ▸ hp) hproperties
    rw [mem_foldl_mention, typeColumns, List.mem_flatMap]
    exact Or.inr ⟨_, hpair, List.mem_map_of_mem hpmem⟩
  · intro v hv
    rw [hfst] at hv
    exact hw.valued hp ((concrete_sublist hsub).subset hv)

/-- The entities of a type from which a concrete type derives can be queried. -/
theorem exists_plan_of_derives (ht : s.Within root types t) (hconcrete : t.isAbstract = false)
    (hu : s.Derives t u) : ∃ plan, Plan.ofQuery s (Query.entities u.id) = .ok plan := by
  have hw := ht.of_derives hu
  obtain ⟨ts, hts, hne, htell⟩ := exists_tellable ht hconcrete hu ⟨0⟩
  exact exists_plan_entities hw.found hw.root_eq hts hne (htell [])

theorem isRecordOf_eq (hu : s.Within root types u) {below : List EntityType}
    (hbelow : s.subtree? s.types.length u = some below) {p : Property}
    (hp : s.discriminator? u.id = .ok (some p)) (hmany : (concrete below).map (·.id) ≠ [root.id])
    (r : Record) :
    isRecordOf s u.id r = ((concrete below).filterMap (·.discriminatorValue)).any (fun v =>
      (read [(⟨0⟩, r)] ⟨0⟩ p.columnName).compare? v == some .eq) := by
  rw [isRecordOf, isOfType, entitySource,
    discriminators?_eq_some (hu.found.concreteTypes_eq hbelow) hu.root_eq hmany hp]

/-- A record tells a concrete type of a hierarchy, if it has to: the value of the discriminator has the
declared type and the key of this type. -/
structure Tells (s : Schema) (root : EntityType) (types : List EntityType) (t : EntityType) (r : Record) :
    Prop where
  mem : t ∈ concrete types
  told : ∀ p, s.discriminator? root.id = .ok (some p) →
    ∃ v k, read [(⟨0⟩, r)] ⟨0⟩ p.columnName = v ∧ v.convert? p.type = some v ∧
      v.discriminatorKey? = some k ∧ keyOf? t = some k

section

variable {below : List EntityType} {r : Record}

theorem Tells.compare?_iff (hr : Tells s root types t r) (hu : s.Within root types u) {p : Property}
    (hp : s.discriminator? u.id = .ok (some p)) {w : EntityType} (hw : w ∈ concrete types) {v : Value}
    (hv : w.discriminatorValue = some v) :
    (read [(⟨0⟩, r)] ⟨0⟩ p.columnName).compare? v = some .eq ↔ w = t := by
  obtain ⟨stored, k, hread, -, hstored, hk⟩ := hr.told p (hu.discriminator?_eq ▸ hp)
  obtain ⟨v', k', _, hv', hk', -⟩ := hu.valued hp hw
  rw [hv] at hv'
  cases hv'
  have hkey : keyOf? w = some k' := by
    rw [keyOf?, hv, Option.bind_some, hk']
  rw [hread, Value.compare?_eq_iff hstored hk']
  constructor
  · rintro rfl
    exact hu.eq_of_keyOf? hp hw hr.mem (hkey.trans hk.symm)
  · rintro rfl
    exact Option.some.inj (hk.symm.trans hkey)

theorem Tells.isRecordOf_iff (hr : Tells s root types t r) (hu : s.Within root types u)
    (hbelow : s.subtree? s.types.length u = some below) :
    isRecordOf s u.id r = true ↔ t ∈ concrete below := by
  have hsub := concrete_sublist (hu.sublist hbelow)
  by_cases hone : (concrete below).map (·.id) = [root.id]
  · -- nothing is told apart, but then this is the tree of the root
    have hroot := hu.eq_root_of_map_id hbelow hone
    rw [isRecordOf, isOfType, entitySource, discriminators?_eq_none (hu.found.concreteTypes_eq hbelow) hu.root_eq hone]
    subst hroot
    rw [hu.subtree?_root] at hbelow
    cases hbelow
    exact iff_of_true rfl hr.mem
  · obtain ⟨p, hp⟩ := exists_discriminator hu hbelow (List.ne_nil_of_mem hr.mem) hone
    rw [isRecordOf_eq hu hbelow hp hone, List.any_eq_true]
    constructor
    · rintro ⟨v, hv, heq⟩
      obtain ⟨w, hw, hwv⟩ := List.mem_filterMap.1 hv
      have hwt := (hr.compare?_iff hu hp (hsub.subset hw) hwv).1 (beq_iff_eq.1 heq)
      exact hwt ▸ hw
    · intro hmem
      obtain ⟨v, _, _, hv, -, -⟩ := hu.valued hp hr.mem
      exact ⟨v, List.mem_filterMap.2 ⟨t, hmem, hv⟩, beq_iff_eq.2 ((hr.compare?_iff hu hp hr.mem hv).2 rfl)⟩

theorem exists_tells (hu : s.Within root types u) (hbelow : s.subtree? s.types.length u = some below)
    (hne : concrete types ≠ []) (hmany : (concrete below).map (·.id) ≠ [root.id])
    (htyped : IsTyped [(⟨0⟩, r)] ⟨0⟩ root.properties) (h : isRecordOf s u.id r = true) :
    ∃ t ∈ concrete below, Tells s root types t r := by
  obtain ⟨p, hp⟩ := exists_discriminator hu hbelow hne hmany
  rw [isRecordOf_eq hu hbelow hp hmany, List.any_eq_true] at h
  obtain ⟨v, hv, heq⟩ := h
  obtain ⟨t, ht, htv⟩ := List.mem_filterMap.1 hv
  have hmem := (concrete_sublist (hu.sublist hbelow)).subset ht
  refine ⟨t, ht, hmem, ?_⟩
  intro p' hp'
  rw [← hu.discriminator?_eq, hp] at hp'
  cases hp'
  obtain ⟨v', k, _, hv', hk, -⟩ := hu.valued hp hmem
  rw [htv] at hv'
  cases hv'
  -- null equals no value, so the stored value has a key, which is that of `t`
  have hstored := htyped p (hu.valid.mem_root_properties hu.found hu.root_eq hp)
  have hkind := hu.checked.kind p (hu.discriminator?_eq ▸ hp)
  have heq := beq_iff_eq.1 heq
  obtain ⟨k', hk'⟩ := Value.exists_discriminatorKey? hkind hstored (Value.isNull_of_compare? heq)
  have hsame := (Value.compare?_eq_iff hk' hk).1 heq
  refine ⟨_, k', rfl, hstored, hk', ?_⟩
  rw [keyOf?, htv, Option.bind_some, hk, hsame]

/-- A record becomes an entity of the type that it tells, whichever type is read. -/
theorem Tells.materialize_eq (hr : Tells s root types t r) (hu : s.Within root types u)
    (hbelow : s.subtree? s.types.length u = some below) (hmem : t ∈ concrete below)
    {properties : List Property} (hproperties : s.properties t.id = .ok properties) {m : Materializer}
    (hm : ReadsSource s (selected s (Query.entities u.id)) ⟨0⟩ u.id m) :
    m.materialize (entityRow s u.id r) =
      entityOf (t, properties) (fun p => read [(⟨0⟩, r)] ⟨0⟩ p.columnName) := by
  have hsub := concrete_sublist (hu.sublist hbelow)
  refine hm.materialize_eq (hu.found.concreteTypes_eq hbelow) hmem hproperties
    (fun y => read [(⟨0⟩, r)] y.1 y.2) ?_
  intro p hp
  obtain ⟨v, k, hread, htype, hkey, hk⟩ := hr.told p (hu.discriminator?_eq ▸ hp)
  refine ⟨v, k, ?_, hkey, ?_⟩
  · rw [hread]
    exact Value.coerce_eq_ok.2 htype
  · intro w hw
    constructor
    · intro hwk
      exact hu.eq_of_keyOf? hp (hsub.subset hw) hr.mem (hwk.trans hk.symm)
    · rintro rfl
      exact hk

end

theorem Stores.tells {properties : List Property} {r : Record} (hr : Stores s t properties r)
    (ht : s.Within root types t) (hconcrete : t.isAbstract = false) : Tells s root types t r where
  mem := mem_concrete.2 ⟨ht.mem, hconcrete⟩
  told p hp := by
    rw [← ht.discriminator?_eq] at hp
    obtain ⟨k, hread, hk⟩ := hr.told p hp
    have hpmem := ht.valid.mem_properties_of_discriminator? ht.found hp hr.properties_eq
    exact ⟨_, k, rfl, hr.typed p hpmem, hread, hk⟩

theorem Stores.isRecordOf_iff {properties : List Property} {r : Record}
    (hr : Stores s t properties r) (ht : s.Within root types t) (hconcrete : t.isAbstract = false)
    (hu : s.Within root types u) : isRecordOf s u.id r = true ↔ s.Derives t u := by
  obtain ⟨below, hbelow, -, -⟩ := hu.exists_subtree?
  rw [(hr.tells ht hconcrete).isRecordOf_iff hu hbelow, ht.mem_concrete_iff hconcrete hu hbelow]

def storedEntity (t : EntityType) (properties : List Property) (r : Record) : Entity where
  entityType := t.id
  typeName := t.name
  values := .ofList (storedValues [(⟨0⟩, r)] ⟨0⟩ properties)

theorem Stores.materialize_eq {properties : List Property} {r : Record}
    (hr : Stores s t properties r) (ht : s.Within root types t) (hconcrete : t.isAbstract = false)
    (hu : s.Derives t u) {m : Materializer}
    (hm : ReadsSource s (selected s (Query.entities u.id)) ⟨0⟩ u.id m) :
    m.materialize (entityRow s u.id r) = .ok (storedEntity t properties r) := by
  have hw := ht.of_derives hu
  obtain ⟨below, hbelow, -, -⟩ := hw.exists_subtree?
  have hmem := (ht.mem_concrete_iff hconcrete hw hbelow).2 hu
  exact ((hr.tells ht hconcrete).materialize_eq hw hbelow hmem hr.properties_eq hm).trans
    (entityOf_of_typed (t := (t, properties)) hr.typed)

end

section

def animalDef : SchemaDef :=
  let property (name : String) (type : ValueType) : Property :=
    { name := name, column := none, type := type, nullable := false }
  let country : EntityTypeDef :=
    { name := "Country", base := none, isAbstract := false
      properties := [property "Id" .integer, property "Name" .text], key := ["Id"], table := none
      discriminatorProperty := none, discriminatorValue := none }
  let animal : EntityTypeDef :=
    { name := "Animal", base := none, isAbstract := false
      properties := [property "Id" .integer, property "CountryId" .integer, property "Kind" .text]
      key := ["Id"], table := none, discriminatorProperty := some "Kind"
      discriminatorValue := some (.text "Animal") }
  let kiwi : EntityTypeDef :=
    { name := "Kiwi", base := some "Animal", isAbstract := false
      properties := [property "FoundOn" .integer], key := [], table := none
      discriminatorProperty := none, discriminatorValue := some (.text "Kiwi") }
  { entityTypes := [country, animal, kiwi], foreignKeys := [] }

theorem ofDef_animalDef : Schema.ofDef animalDef = .ok animals := rfl

def kiwiFoundOn (day : Value) : PendingEntry where
  entityType := ⟨2⟩
  state := .added
  current := .ofList [("Id", .integer 5), ("CountryId", .integer 1), ("FoundOn", day)]
  loaded := .empty

def newKiwi : PendingEntry := kiwiFoundOn (.integer 60)

theorem namesApart_animals : NamesApart animals := by
  intro t ht all hall
  simp only [animals, List.mem_cons, List.not_mem_nil, or_false] at ht
  rcases ht with rfl | rfl | rfl
  · cases hall
    decide
  · cases hall
    decide
  · cases hall
    decide

theorem columnsApart_animals : ColumnsApart animals := by
  intro t ht all hall
  simp only [animals, List.mem_cons, List.not_mem_nil, or_false] at ht
  rcases ht with rfl | rfl | rfl
  · cases hall
    decide
  · cases hall
    decide
  · cases hall
    decide

theorem tablesApart_animals : TablesApart animals := by
  unfold TablesApart
  decide

end

end EntityStore.Reading
