import EntityStore.Proofs.Query.Dispatch

/-!
# Discriminators of no type

A row whose discriminator tells no concrete type does not become an entity. The failure says so if the
stored value converts to the declared type of the discriminator, as null always does. Any other value
is refused as mistyped before types are looked at.
-/

namespace EntityStore.Reading

open Traversal Schema

def TellsType (v : Value) (t : EntityType) : Prop :=
  ∃ key, v.discriminatorKey? = some key ∧ keyOf? t = some key

/-- What becomes of a row in which a discriminator of a declared type has some value. -/
structure Discriminates (root : EntityType) (type : ValueType) (types : List EntityType) (v : Value)
    (outcome : Except StoreError Entity) : Prop where
  mistyped : v.convert? type = none → outcome = .error (.schema (.typeMismatch type v))
  unknown (w : Value) : v.convert? type = some w → (∀ t ∈ types, ¬TellsType w t) →
    outcome = .error (.unableToDiscriminate root.name w.display)
  /-- A row may fail for other reasons, but its type is known. -/
  told (w : Value) : v.convert? type = some w → (∃ t ∈ types, TellsType w t) →
    ∀ name text, outcome ≠ .error (.unableToDiscriminate name text)

section

variable {s : Schema} {q : Query} {columns : List (SourceId × String)} {source : SourceId} {id : TypeId}

theorem shapeFor?_eq_none_iff {ts : List (EntityType × List Property)}
    {entries : List (DiscriminatorKey × EntityShape)}
    (h : List.Forall₂ (fun t entry => Schema.keyOf? t.1 = some entry.1 ∧
      ReadsEntity columns source t entry.2) ts entries) (w : Value) :
    Materializer.shapeFor? entries w = none ↔ ∀ t ∈ ts.map Prod.fst, ¬TellsType w t := by
  constructor
  · rintro hnone _ hmem ⟨key, hkey, htkey⟩
    obtain ⟨t, ht, rfl⟩ := List.mem_map.1 hmem
    obtain ⟨_, -, -, shape, hlookup, -⟩ := exists_lookup_of_reads h ht htkey
    rw [Materializer.shapeFor?, hkey, Option.bind_some, hlookup] at hnone
    cases hnone
  · intro hnone
    cases hshape : Materializer.shapeFor? entries w with
    | none => rfl
    | some shape =>
      obtain ⟨key, hkey, hlookup⟩ := Option.bind_eq_some_iff.1 hshape
      obtain ⟨t, ht, htkey, -⟩ := exists_of_mem_right h (OrderedMap.mem_of_lookup hlookup)
      exact absurd ⟨key, hkey, htkey⟩ (hnone t.1 (List.mem_map_of_mem ht))

theorem entityOf_eq_error {t : EntityType × List Property} {value : Property → Value} {e : StoreError}
    (h : entityOf t value = .error e) : ∃ cause, e = .schema cause := by
  rw [entityOf] at h
  cases hpairs : t.2.mapM (namedValue value) with
  | ok pairs =>
    rw [hpairs] at h
    cases h
  | error e' =>
    rw [hpairs] at h
    cases h
    obtain ⟨_, p, _, -, -, hp⟩ := first_error_of_mapM hpairs
    obtain ⟨cause, rfl, -⟩ := namedValue_eq_error hp
    exact ⟨cause, rfl⟩

theorem ReadsSource.discriminates {m : Materializer} (hm : ReadsSource s columns source id m)
    {types : List EntityType} (htypes : s.concreteTypes id = .ok types) (hmany : 2 ≤ types.length) :
    ∃ (root : EntityType) (p : Property) (index : Nat), s.root id = .ok root ∧
      s.discriminator? id = .ok (some p) ∧ columns[index]? = some (source, p.columnName) ∧
      ∀ f : SourceId × String → Value,
        Discriminates root p.type types (f (source, p.columnName)) (m.materialize (columns.map f)) := by
  cases hm with
  | plain hts =>
    obtain rfl := types_eq_of_concreteProperties htypes hts
    exact absurd hmany (by simp)
  | @dispatching ts root p index entries hts hroot hp hplace hreads =>
    obtain rfl := types_eq_of_concreteProperties htypes hts
    refine ⟨root, p, index, hroot, hp, hplace, fun f => ?_⟩
    have hconverted {w : Value} (hw : (f (source, p.columnName)).convert? p.type = some w) :
        Row.readAs (columns.map f) index p.type = .ok w := by
      rw [readAs_map hplace f, Value.coerce_eq_ok.2 hw]
      rfl
    constructor
    case mistyped =>
      intro hnone
      rw [Materializer.materialize, readAs_map hplace f, Value.coerce, hnone]
      rfl
    case unknown =>
      intro w hw hunknown
      rw [Materializer.materialize, hconverted hw, ok_bind, (shapeFor?_eq_none_iff hreads w).2 hunknown]
      rfl
    case told =>
      rintro w hw ⟨t, ht, htold⟩ name text hfails
      rw [Materializer.materialize, hconverted hw, ok_bind] at hfails
      split at hfails
      · rename_i shape hshape
        obtain ⟨key, -, hlookup⟩ := Option.bind_eq_some_iff.1 hshape
        obtain ⟨u, -, -, hureads⟩ := exists_of_mem_right hreads (OrderedMap.mem_of_lookup hlookup)
        rw [hureads.shape_eq f] at hfails
        obtain ⟨cause, hcause⟩ := entityOf_eq_error hfails
        cases hcause
      · rename_i hshape
        exact (shapeFor?_eq_none_iff hreads w).1 hshape t ht htold

/-- In every row of a plan, an unknown type of a source with several concrete types is reported under
the name of the root, unless the stored value does not convert to the type of the discriminator. -/
theorem discriminates_materialize {plan : Plan} (hplan : Plan.ofQuery s q = .ok plan) {x : QuerySource}
    (hx : x ∈ q.sources) {n : Nat} (hn : (Plan.materializedSources q.shape.selector)[n]? = some x.id)
    {types : List EntityType} (htypes : s.concreteTypes x.entityType = .ok types)
    (hmany : 2 ≤ types.length) :
    ∃ m root p i, plan.shape.materializers[n]? = some m ∧ s.root x.entityType = .ok root ∧
      s.discriminator? x.entityType = .ok (some p) ∧ IsPlace plan.select x.id p i ∧
      ∀ row : Row, row.length = plan.select.width → ∃ v, row[i]? = some v ∧
        Discriminates root p.type types v (m.materialize row) := by
  have hplanned := planned_ofQuery hplan
  obtain ⟨m, hm, id, hid, hreads⟩ := hplanned.shape.exists_materializer hn
  rw [hplanned.declared.sourceType?_eq hx] at hid
  cases hid
  obtain ⟨root, p, i, hroot, hp, hi, hdiscriminates⟩ := hreads.discriminates htypes hmany
  have hnodup : (selected s q).Nodup := nodup_foldl_mention List.nodup_nil _
  refine ⟨m, root, p, i, hm, hroot, hp, isPlace_of_getElem? hplanned.projection hnodup hi, ?_⟩
  intro row hwidth
  have hlength : row.length = (selected s q).length := by
    rw [hwidth, Select.width, hplanned.projection, List.length_map]
  -- as no column stands twice, the row may be read by columns instead of positions
  obtain ⟨f, rfl⟩ := exists_values hnodup hlength
  refine ⟨f (x.id, p.columnName), ?_, hdiscriminates f⟩
  rw [List.getElem?_map, hi]
  rfl

/-- The kind of an animal, which is a text, is missing. -/
theorem discriminates_materialize_sightings :
    let x : QuerySource := ⟨⟨1⟩, ⟨1⟩⟩
    let row : Row := [.integer 1, .text "New Zealand", .integer 5, .integer 1, .null, .null]
    ∃ (plan : Plan) (types : List EntityType) (m : Materializer) (root : EntityType) (p : Property),
      Plan.ofQuery animals sightings = .ok plan ∧ x ∈ sightings.sources ∧
      (Plan.materializedSources sightings.shape.selector)[1]? = some x.id ∧
      animals.concreteTypes x.entityType = .ok types ∧ 2 ≤ types.length ∧
      plan.shape.materializers[1]? = some m ∧ row.length = plan.select.width ∧
      Discriminates root p.type types .null (m.materialize row) ∧
      m.materialize row = .error (.unableToDiscriminate "Animal" "NULL") := by
  intro x row
  obtain ⟨m, root, p, i, hm, hroot, hp, hi, hall⟩ := discriminates_materialize (s := animals)
    (q := sightings) rfl (x := x) (by decide) (n := 1) rfl rfl (by decide)
  cases hroot
  cases hp
  cases hm
  obtain rfl : 4 = i := (hi 4).1 rfl
  obtain ⟨v, hv, hdiscriminates⟩ := hall row rfl
  cases hv
  refine ⟨_, _, _, _, _, rfl, by decide, rfl, rfl, by decide, rfl, rfl, hdiscriminates, ?_⟩
  refine hdiscriminates.unknown .null rfl ?_
  rintro t - ⟨key, hkey, -⟩
  cases hkey

/-- A number is the kind of no animal, but it is not reported as such. -/
theorem mistyped_sightings :
    let row : Row := [.integer 1, .text "New Zealand", .integer 5, .integer 1, .integer 5, .null]
    ∃ plan m, Schema.ofDef animalDef = .ok animals ∧ Plan.ofQuery animals sightings = .ok plan ∧
      animals.concreteTypes ⟨1⟩ = .ok (animals.types.drop 1) ∧ plan.shape.materializers[1]? = some m ∧
      row.length = plan.select.width ∧
      (∀ t ∈ animals.types.drop 1, t.discriminatorValue ≠ some (.integer 5) ∧ ¬TellsType (.integer 5) t) ∧
      m.materialize row = .error (.schema (.typeMismatch .text (.integer 5))) := by
  intro row
  refine ⟨_, _, ofDef_animalDef, rfl, rfl, rfl, rfl, ?_, rfl⟩
  intro t ht
  have hkey : keyOf? t ≠ some (.integer 5) := by
    revert t
    decide
  refine ⟨?_, ?_⟩
  · intro hvalue
    exact hkey (by rw [keyOf?, hvalue]; rfl)
  · rintro ⟨key, hfive, htkey⟩
    cases hfive
    exact hkey htkey

end

end EntityStore.Reading
