import EntityStore.Proofs.Query.Records
import Mathlib.Data.List.GetD

/-!
# Dispatch on discriminators

Where the type of a source has several concrete types, the discriminator in a row tells the type of
the entity, and each property is read from the one place of its column.
-/

namespace EntityStore

def ResultShape.materializers : ResultShape → List Materializer
  | .entity m => [m]
  | .entities ms => ms
  | .values _ => []

namespace Reading

open Traversal Schema

/-- The one place in the rows of a statement that has the column of a property of a source. -/
def IsPlace (select : Select) (source : SourceId) (p : Property) (i : Nat) : Prop :=
  ∀ j, (select.projection[j]?).map (·.expr) = some (Plan.columnExpr source p) ↔ j = i

/-- What the value of a property in a row becomes in the declared type. -/
def Coerces (select : Select) (source : SourceId) (row : Row) (p : Property)
    (outcome : Except SchemaError Value) : Prop :=
  ∃ i v, IsPlace select source p i ∧ row[i]? = some v ∧ v.coerce p.type = outcome

/-- What becomes of a row as an entity of a type: the values of its properties, or the failure of
the first that does not have the declared type. -/
inductive Becomes (select : Select) (source : SourceId) (row : Row) (t : EntityType)
    (properties : List Property) : Except StoreError Entity → Prop
  | entity {values : OrderedMap String Value}
      (h : List.Forall₂ (fun p x => x.1 = p.name ∧ Coerces select source row p (.ok x.2)) properties
        values.entries) :
      Becomes select source row t properties (.ok ⟨t.id, t.name, values⟩)
  | failed {before after : List Property} {p : Property} {cause : SchemaError}
      (heq : properties = before ++ p :: after)
      (hbefore : ∀ p' ∈ before, ∃ v, Coerces select source row p' (.ok v))
      (hfails : Coerces select source row p (.error cause)) :
      Becomes select source row t properties (.error (.schema cause))

section

variable {s : Schema} {q : Query} {select : Select} {columns : List (SourceId × String)}
  {source : SourceId}

theorem isPlace_of_getElem? (hprojection : select.projection = columns.map entryOf)
    (hnodup : columns.Nodup) {p : Property} {i : Nat} (h : columns[i]? = some (source, p.columnName)) :
    IsPlace select source p i := by
  intro j
  rw [hprojection, List.getElem?_map, Option.map_map]
  constructor
  · intro hj
    obtain ⟨⟨source', column⟩, hcolumn, hexpr⟩ := Option.map_eq_some_iff.1 hj
    injection hexpr with hlabel hname
    obtain rfl := tableLabel_injective hlabel
    obtain rfl : column = p.columnName := hname
    obtain ⟨hlt, _⟩ := List.getElem?_eq_some_iff.1 hcolumn
    exact (List.getElem?_inj hlt hnodup).1 (hcolumn.trans h.symm)
  · rintro rfl
    rw [h]
    rfl

theorem exists_values (hnodup : columns.Nodup) {row : Row} (hlength : row.length = columns.length) :
    ∃ f : SourceId × String → Value, row = columns.map f := by
  refine ⟨fun x => row.getD (columns.idxOf x) .null, ?_⟩
  refine List.ext_getElem (by rw [List.length_map, hlength]) ?_
  intro i hi hi'
  have hlt : i < columns.length := hlength ▸ hi
  rw [List.getElem_map, hnodup.idxOf_getElem i hlt, List.getD_eq_getElem _ _ hi]

theorem becomes_entityOf (hprojection : select.projection = columns.map entryOf)
    (hnodup : columns.Nodup) (f : SourceId × String → Value) {t : EntityType × List Property}
    (hnames : (t.2.map (·.name)).Nodup) (hcolumns : ∀ p ∈ t.2, (source, p.columnName) ∈ columns) :
    Becomes select source (columns.map f) t.1 t.2 (entityOf t (fun p => f (source, p.columnName))) := by
  have hcoerces : ∀ p ∈ t.2, ∀ outcome, (f (source, p.columnName)).coerce p.type = outcome →
      Coerces select source (columns.map f) p outcome := by
    intro p hp outcome houtcome
    obtain ⟨i, hi⟩ := List.mem_iff_getElem?.1 (hcolumns p hp)
    refine ⟨i, _, isPlace_of_getElem? hprojection hnodup hi, ?_, houtcome⟩
    rw [List.getElem?_map, hi]
    rfl
  rw [entityOf]
  cases hpairs : t.2.mapM (namedValue (fun p => f (source, p.columnName))) with
  | ok pairs =>
    rw [mapM_eq_ok_iff] at hpairs
    have hpairs := hpairs.imp (fun _ _ h => namedValue_eq_ok.1 h)
    have hkeys : (pairs.map Prod.fst).Nodup := by
      have hfst : pairs.map Prod.fst = t.2.map (·.name) := by
        rw [← List.forall₂_eq_eq_eq, List.forall₂_map_left_iff, List.forall₂_map_right_iff]
        exact (hpairs.imp (fun _ _ h => h.1)).flip
      rw [hfst]
      exact hnames
    refine .entity ?_
    rw [OrderedMap.entries_ofList hkeys]
    refine ((List.forall₂_and_left _ _).2 ⟨fun p hp => hcoerces p hp, hpairs⟩).imp ?_
    rintro p x ⟨hp, hname, hx⟩
    exact ⟨hname, hp _ hx⟩
  | error e =>
    obtain ⟨before, p, after, heq, hbefore, hp⟩ := first_error_of_mapM hpairs
    obtain ⟨cause, rfl, hfails⟩ := namedValue_eq_error hp
    refine .failed heq ?_ (hcoerces p ?_ _ hfails)
    · intro p' hp'
      obtain ⟨x, hx⟩ := hbefore p' hp'
      exact ⟨x.2, hcoerces p' (heq ▸ List.mem_append_left _ hp') _ (namedValue_eq_ok.1 hx).2⟩
    · exact heq ▸ List.mem_append_right _ List.mem_cons_self

theorem ReadsShape.exists_materializer {selector : Selector} {shape : ResultShape}
    (h : ReadsShape s q columns selector shape) {n : Nat}
    (hn : (Plan.materializedSources selector)[n]? = some source) :
    ∃ m, shape.materializers[n]? = some m ∧ ReadsAny s q columns source m := by
  cases h with
  | entity hreads =>
    cases n with
    | zero =>
      cases hn
      exact ⟨_, rfl, hreads⟩
    | succ n => cases hn
  | @entities sources ms hreads =>
    obtain ⟨hlt, hsource⟩ := List.getElem?_eq_some_iff.1 hn
    have hlt' : n < ms.length := hreads.length_eq ▸ hlt
    have hread := hreads.get hlt hlt'
    simp only [List.get_eq_getElem] at hread
    exact ⟨ms[n], List.getElem?_eq_getElem hlt', hsource ▸ hread⟩
  | values => cases hn

theorem ReadsSource.exists_properties {id : TypeId} {m : Materializer}
    (hm : ReadsSource s columns source id m) {types : List EntityType}
    (htypes : s.concreteTypes id = .ok types) {t : EntityType} (ht : t ∈ types) :
    ∃ properties, s.properties t.id = .ok properties ∧
      ∀ p ∈ properties, (source, p.columnName) ∈ columns := by
  have hplaces : ∀ {t' : EntityType × List Property} {shape : EntityShape},
      ReadsEntity columns source t' shape → ∀ p ∈ t'.2, (source, p.columnName) ∈ columns := by
    intro t' shape hreads p hp
    obtain ⟨c, -, hc⟩ := exists_of_mem_left hreads.places hp
    exact List.mem_of_getElem? hc.column
  cases hm with
  | @plain t' shape hts hreads =>
    obtain rfl := types_eq_of_concreteProperties htypes hts
    obtain rfl := List.mem_singleton.1 ht
    exact ⟨t'.2, (concreteProperties_eq_ok hts).2 t' List.mem_cons_self, hplaces hreads⟩
  | @dispatching ts root p index entries hts _ _ _ hreads =>
    obtain rfl := types_eq_of_concreteProperties htypes hts
    obtain ⟨t', ht', rfl⟩ := List.mem_map.1 ht
    obtain ⟨entry, -, -, hentry⟩ := exists_of_mem_left hreads ht'
    exact ⟨t'.2, (concreteProperties_eq_ok hts).2 t' ht', hplaces hentry⟩

theorem ReadsSource.exists_discriminator {id : TypeId} {m : Materializer}
    (hm : ReadsSource s columns source id m) {types : List EntityType}
    (htypes : s.concreteTypes id = .ok types) (hmany : 2 ≤ types.length) :
    ∃ (p : Property) (index : Nat), s.discriminator? id = .ok (some p) ∧
      columns[index]? = some (source, p.columnName) := by
  cases hm with
  | plain hts =>
    obtain rfl := types_eq_of_concreteProperties htypes hts
    exact absurd hmany (by simp)
  | dispatching _ _ hp hplace _ => exact ⟨_, _, hp, hplace⟩

/-- Dispatch is exact. In a row of a plan, the discriminator of a source with several concrete types
tells at most one of them, and the row becomes an entity of this type. -/
theorem becomes_materialize {d : SchemaDef} (hd : Schema.ofDef d = .ok s) (hnames : NamesApart s)
    {plan : Plan} (hplan : Plan.ofQuery s q = .ok plan) {x : QuerySource} (hx : x ∈ q.sources) {n : Nat}
    (hn : (Plan.materializedSources q.shape.selector)[n]? = some x.id) {types : List EntityType}
    (htypes : s.concreteTypes x.entityType = .ok types) (hmany : 2 ≤ types.length) :
    ∃ m p i, plan.shape.materializers[n]? = some m ∧ s.discriminator? x.entityType = .ok (some p) ∧
      IsPlace plan.select x.id p i ∧
      ∀ (row : Row) (v w : Value) (key : DiscriminatorKey), ∀ t ∈ types,
        row.length = plan.select.width → row[i]? = some v → v.coerce p.type = .ok w →
        w.discriminatorKey? = some key → keyOf? t = some key →
          (∀ t' ∈ types, keyOf? t' = some key → t' = t) ∧
          ∃ properties, s.properties t.id = .ok properties ∧
            Becomes plan.select x.id row t properties (m.materialize row) := by
  have hplanned := planned_ofQuery hplan
  obtain ⟨m, hm, id, hid, hreads⟩ := hplanned.shape.exists_materializer hn
  rw [hplanned.declared.sourceType?_eq hx] at hid
  cases hid
  obtain ⟨p, i, hp, hi⟩ := hreads.exists_discriminator htypes hmany
  have hnodup : (selected s q).Nodup := nodup_foldl_mention List.nodup_nil _
  refine ⟨m, p, i, hm, hp, isPlace_of_getElem? hplanned.projection hnodup hi, ?_⟩
  obtain ⟨u, hu⟩ := hplanned.declared.known x hx
  have hs := valid_of_ofDef hd
  have hfound := hs.found hu
  obtain ⟨root, tree, hw⟩ := exists_within hd hfound
  obtain ⟨below, hbelow, hsub, hconcrete⟩ := hw.exists_subtree?
  rw [hs.id_eq_of_entityType hu, htypes] at hconcrete
  cases hconcrete
  intro row v w key t ht hwidth hv hw' hkey htkey
  have hunique : ∀ t' ∈ concrete below, keyOf? t' = some key → t' = t := by
    intro t' hmem hkey'
    exact hw.eq_of_keyOf? (hs.id_eq_of_entityType hu ▸ hp) ((concrete_sublist hsub).subset hmem)
      ((concrete_sublist hsub).subset ht) (hkey'.trans htkey.symm)
  obtain ⟨properties, hproperties, hcolumns⟩ := hreads.exists_properties htypes ht
  refine ⟨hunique, properties, hproperties, ?_⟩
  have hlength : row.length = (selected s q).length := by
    rw [hwidth, Select.width, hplanned.projection, List.length_map]
  -- as no column stands twice, the row may be read by columns instead of positions
  obtain ⟨f, rfl⟩ := exists_values hnodup hlength
  rw [List.getElem?_map, hi] at hv
  cases hv
  have hmem := mem_types_of_mem_subtree? hbelow hfound.mem (mem_concrete.1 ht).1
  rw [hreads.materialize_eq htypes ht hproperties f]
  · exact becomes_entityOf hplanned.projection hnodup f (t := (t, properties))
      (hnames t hmem properties hproperties) hcolumns
  · intro p' hp'
    rw [hp] at hp'
    cases hp'
    refine ⟨w, key, hw', hkey, ?_⟩
    intro t' ht'
    exact ⟨hunique t' ht', fun heq => heq ▸ htkey⟩

end

/-- Countries with their animals, in the fifth column of which the animals tell their types. -/
def sightings : Query :=
  { shape :=
      { source := ⟨⟨0⟩, ⟨0⟩⟩
        joins := [⟨⟨⟨1⟩, ⟨1⟩⟩, .property ⟨0⟩ "Id", "CountryId"⟩]
        filter := none, orderBy := [], skip := none, take := none
        selector := .entities [⟨0⟩, ⟨1⟩] }
    parameters := .empty }

/-- The fifth column says that the animal is a kiwi. It was found at no number, so there is no kiwi. -/
theorem becomes_materialize_sightings :
    let x : QuerySource := ⟨⟨1⟩, ⟨1⟩⟩
    let row : Row := [.integer 1, .text "New Zealand", .integer 5, .integer 1, .text "Kiwi", .text "high"]
    ∃ plan types m p kiwi, Schema.ofDef animalDef = .ok animals ∧ NamesApart animals ∧
      Plan.ofQuery animals sightings = .ok plan ∧ x ∈ sightings.sources ∧
      (Plan.materializedSources sightings.shape.selector)[1]? = some x.id ∧
      animals.concreteTypes x.entityType = .ok types ∧ 2 ≤ types.length ∧
      plan.shape.materializers[1]? = some m ∧ IsPlace plan.select x.id p 4 ∧
      row.length = plan.select.width ∧ kiwi ∈ types ∧ keyOf? kiwi = some (.text "Kiwi") ∧
      (∃ properties, animals.properties kiwi.id = .ok properties ∧
        Becomes plan.select x.id row kiwi properties (m.materialize row)) ∧
      ∃ cause, m.materialize row = .error (.schema cause) := by
  intro x row
  obtain ⟨m, p, i, hm, hp, hi, hexact⟩ := becomes_materialize (s := animals) (q := sightings)
    ofDef_animalDef namesApart_animals rfl (x := x) (by decide) (n := 1) rfl rfl (by decide)
  cases hp
  cases hm
  obtain rfl : 4 = i := (hi 4).1 rfl
  have hkiwi := hexact row (.text "Kiwi") (.text "Kiwi") (.text "Kiwi") _
    (List.mem_cons_of_mem _ List.mem_cons_self) rfl rfl rfl rfl rfl
  exact ⟨_, _, _, _, _, ofDef_animalDef, namesApart_animals, rfl, by decide, rfl, rfl, by decide, rfl, hi,
    rfl, List.mem_cons_of_mem _ List.mem_cons_self, rfl, hkiwi.2, _, rfl⟩

end Reading

end EntityStore
