import EntityStore.Proofs.Memory.Columns
import EntityStore.Proofs.Memory.RoundTrip
import EntityStore.Proofs.Query.Dispatch

/-!
# Entities of subtypes

The entities of a type are those entities of its root that have one of its concrete types, in the same
order. The two queries select different columns, and whether one of them compares the discriminator, and
with how many values, depends on how many concrete types there are below each type. What decides is which
type a record tells.
-/

namespace EntityStore.Memory

open Schema Traversal Reading Results

def HasOneOf (types : List EntityType) (e : Entity) : Prop :=
  ∃ t ∈ types, e.entityType = t.id ∧ e.typeName = t.name

instance (types : List EntityType) (e : Entity) : Decidable (HasOneOf types e) :=
  inferInstanceAs (Decidable (∃ t ∈ types, e.entityType = t.id ∧ e.typeName = t.name))

theorem hasOneOf_iff {s : Schema} (hnames : (s.types.map (·.name)).Nodup) {types : List EntityType}
    (hsub : types ⊆ s.types) {t : EntityType} (ht : t ∈ s.types) {e : Entity} (hid : e.entityType = t.id)
    (hname : e.typeName = t.name) : HasOneOf types e ↔ t ∈ types := by
  constructor
  · rintro ⟨u, hu, -, huname⟩
    have heq := List.inj_on_of_nodup_map hnames (hsub hu) ht (huname.symm.trans hname)
    exact heq ▸ hu
  · intro hmem
    exact ⟨t, hmem, hid, hname⟩

theorem concrete_subset {s : Schema} {u : EntityType} {below : List EntityType} (hu : s.Found u)
    (hbelow : s.subtree? s.types.length u = some below) : concrete below ⊆ s.types := by
  intro t ht
  exact mem_types_of_mem_subtree? hbelow hu.mem (mem_concrete.1 ht).1

section

variable {s : Schema} {root u : EntityType} {types below : List EntityType} {name : String} {mode : Mode}
  {db : MemoryDatabase} {whole : List Entity}

theorem results_eq_map_ok_iff {id : TypeId} {m : Materializer} {es : List Entity}
    (h : results name s mode db (Query.entities id) =
      .ok (upToFailure ((recordsOf s db id).map (fun r => m.materialize (entityRow s id r))))) :
    results name s mode db (Query.entities id) = .ok (es.map .ok) ↔
      (recordsOf s db id).map (fun r => m.materialize (entityRow s id r)) = es.map .ok := by
  rw [h, Except.ok.injEq, upToFailure_eq_map_ok_iff]

theorem hasOneOf_of_mem_results {id : TypeId} (htypes : s.concreteTypes id = .ok types)
    (hwhole : results name s mode db (Query.entities id) = .ok (whole.map .ok)) {e : Entity}
    (he : e ∈ whole) : HasOneOf types e := by
  obtain ⟨plan, hplan⟩ := exists_plan_of_results hwhole
  obtain ⟨m, hm, hresults⟩ := results_entities hplan
  rw [results_eq_map_ok_iff (hresults name mode db)] at hwhole
  have hitem : (.ok e : Except StoreError Entity) ∈ whole.map .ok := List.mem_map_of_mem he
  rw [← hwhole] at hitem
  obtain ⟨r, -, hr⟩ := List.mem_map.1 hitem
  exact hm.exists_type htypes (fun y => read [(⟨0⟩, r)] y.1 y.2) hr

theorem results_of_told (hnames : (s.types.map (·.name)).Nodup) (htyped : Typed s db)
    (hu : s.Within root types u) (hbelow : s.subtree? s.types.length u = some below)
    (hne : concrete below ≠ []) (hmany : (concrete types).map (·.id) ≠ [root.id]) {plan : Plan}
    (hplan : Plan.ofQuery s (Query.entities u.id) = .ok plan)
    (hwhole : results name s mode db (Query.entities root.id) = .ok (whole.map .ok)) :
    results name s mode db (Query.entities u.id) =
      .ok ((whole.filter (fun e => HasOneOf (concrete below) e)).map .ok) := by
  have hroot := hu.to_root
  have htop := hroot.subtree?_root
  have hnetypes := List.ne_nil_of_mem ((concrete_sublist (hu.sublist hbelow)).subset (List.head_mem hne))
  have hmanybelow := mt (hu.map_id_eq_iff hbelow hne).1 hmany
  have hrows := htyped root hu.derives_root.1
  obtain ⟨rootplan, hrootplan⟩ := exists_plan_of_results hwhole
  obtain ⟨mroot, hmroot, hrootresults⟩ := results_entities hrootplan
  obtain ⟨m, hm, hresults⟩ := results_entities hplan
  rw [results_eq_map_ok_iff (hrootresults name mode db), recordsOf_eq hroot.root_eq] at hwhole
  rw [results_eq_map_ok_iff (hresults name mode db), recordsOf_eq hu.root_eq]
  -- both lists are made of the rows of one table, and every record of the root tells its type
  refine filter_map_ok hwhole ?_ ?_
  · intro r hr hrecord
    obtain ⟨t, -, htells⟩ := exists_tells hu hbelow hnetypes hmanybelow (hrows r hr) hrecord
    exact (htells.isRecordOf_iff hroot htop).2 htells.mem
  · intro r hr hrecord e he
    obtain ⟨t, ht, htells⟩ := exists_tells hroot htop hnetypes hmany (hrows r hr) hrecord
    obtain ⟨properties, hproperties, -⟩ :=
      hmroot.exists_properties (hroot.found.concreteTypes_eq htop) ht
    have hentity := htells.materialize_eq hroot htop ht hproperties hmroot
    obtain ⟨hid, hname⟩ := entityOf_eq_ok (hentity.symm.trans he)
    have hiff := htells.isRecordOf_iff hu hbelow
    constructor
    · rw [Bool.eq_iff_iff, hiff, decide_eq_true_iff]
      exact hasOneOf_iff hnames (concrete_subset hu.found hbelow)
        (concrete_subset hroot.found htop ht) hid hname
    · intro hrecord
      rw [htells.materialize_eq hu hbelow (hiff.1 hrecord) hproperties hm, ← hentity]
      exact he

theorem results_of_root (hnames : (s.types.map (·.name)).Nodup) (htyped : Typed s db)
    (hu : s.Within root types u) (hbelow : s.subtree? s.types.length u = some below)
    (hne : concrete below ≠ []) {plan : Plan} (hplan : Plan.ofQuery s (Query.entities u.id) = .ok plan)
    (hwhole : results name s mode db (Query.entities root.id) = .ok (whole.map .ok)) :
    results name s mode db (Query.entities u.id) =
      .ok ((whole.filter (fun e => HasOneOf (concrete below) e)).map .ok) := by
  by_cases hone : (concrete types).map (·.id) = [root.id]
  · -- no other type than the root has a concrete type below it, so both queries are the same
    obtain rfl := hu.eq_root_of_map_id hbelow ((hu.map_id_eq_iff hbelow hne).2 hone)
    have hall : whole.filter (fun e => HasOneOf (concrete below) e) = whole := by
      rw [List.filter_eq_self]
      intro e he
      exact decide_eq_true (hasOneOf_of_mem_results (hu.found.concreteTypes_eq hbelow) hwhole he)
    rw [hall, hwhole]
  · exact results_of_told hnames htyped hu hbelow hne hone hplan hwhole

end

/-- Queries for subtypes. After any saves, the entities of a type that can be queried at all are those
entities of its root that have one of its concrete types, in the same order. As long as there are not
more types than numbers, they can be queried if those of the root can, and the concrete types are those
that are assignable to the type. -/
theorem results_subtype {d : SchemaDef} {s : Schema} (hd : Schema.ofDef d = .ok s)
    (hcolumns : ColumnsApart s) (htables : TablesApart s) {id : TypeId} {root : EntityType}
    (hroot : s.root id = .ok root) {types : List EntityType} (htypes : s.concreteTypes id = .ok types)
    (hne : types ≠ []) (name : String) (calls : List SaveCall) (mode : Mode) {whole : List Entity} :
    let entities (id : TypeId) :=
      results name s mode (afterSaves name s calls .empty) (Query.entities id)
    entities root.id = .ok (whole.map .ok) →
      (∀ items, entities id = .ok items → items = (whole.filter (fun e => HasOneOf types e)).map .ok) ∧
      (s.types.length ≤ UInt32.size →
        entities id = .ok ((whole.filter (fun e => HasOneOf types e)).map .ok) ∧
          ∀ e ∈ whole, HasOneOf types e ↔ s.isAssignable e.entityType id = .ok true) := by
  intro entities hwhole
  have hs := valid_of_ofDef hd
  have hnames := nodup_names_of_ofDef hd
  have htyped := typed_afterSaves hs hcolumns htables name calls
  obtain ⟨u, hu, -⟩ := bind_eq_ok_iff.1 hroot
  obtain rfl := hs.id_eq_of_entityType hu
  obtain ⟨root', tree, hw⟩ := exists_within hd hu
  have hsame := hw.root_eq
  rw [hroot] at hsame
  cases hsame
  obtain ⟨below, hbelow, -, hconcretes⟩ := hw.exists_subtree?
  rw [htypes] at hconcretes
  cases hconcretes
  have hresults : ∀ plan, Plan.ofQuery s (Query.entities u.id) = .ok plan →
      entities u.id = .ok ((whole.filter (fun e => HasOneOf (concrete below) e)).map .ok) :=
    fun plan hplan => results_of_root hnames htyped hw hbelow hne hplan hwhole
  constructor
  · intro items hitems
    obtain ⟨plan, hplan⟩ := exists_plan_of_results hitems
    exact Except.ok.inj (hitems.symm.trans (hresults plan hplan))
  · intro hsize
    have hfound : ∀ t ∈ s.types, s.Found t := fun t ht => hs.found_of_length_le hsize ht
    constructor
    · obtain ⟨t, ht⟩ := List.exists_mem_of_ne_nil _ hne
      obtain ⟨hmem, hconcrete⟩ := mem_concrete.1 ht
      obtain ⟨htw, hder⟩ := hw.of_mem_subtree? hfound hbelow hmem
      obtain ⟨plan, hplan⟩ := exists_plan_of_derives htw hconcrete hder
      exact hresults plan hplan
    · intro e he
      have hrootw := hw.to_root
      have htop := hw.subtree?_root
      obtain ⟨t, ht, hid, hname⟩ :=
        hasOneOf_of_mem_results (hrootw.found.concreteTypes_eq htop) hwhole he
      obtain ⟨hmem, hconcrete⟩ := mem_concrete.1 ht
      obtain ⟨htw, -⟩ := hrootw.of_mem_subtree? hfound htop hmem
      rw [hasOneOf_iff hnames (concrete_subset hw.found hbelow) htw.found.mem hid hname, hid,
        hs.isAssignable_iff_derives htw.found hw.found, htw.mem_concrete_iff hconcrete hw hbelow]

def animalEntries : List PendingEntry :=
  [newKiwi,
    { entityType := ⟨1⟩, state := .added
      current := .ofList [("Id", .integer 6), ("CountryId", .integer 1)], loaded := .empty }]

/-- Of the animals that were saved the kiwis are the first. -/
theorem results_subtype_kiwis :
    let calls : List SaveCall := [⟨.plain, false, animalEntries⟩]
    let entities (id : TypeId) :=
      results "zoo" animals .plain (afterSaves "zoo" animals calls .empty) (Query.entities id)
    ∃ root types kiwi animal, Schema.ofDef animalDef = .ok animals ∧ ColumnsApart animals ∧
      TablesApart animals ∧ animals.root ⟨2⟩ = .ok root ∧ animals.concreteTypes ⟨2⟩ = .ok types ∧
      types ≠ [] ∧ entities root.id = .ok [.ok kiwi, .ok animal] ∧
      kiwi.values.get? "FoundOn" = some (.integer 60) ∧ animals.types.length ≤ UInt32.size ∧
      entities ⟨2⟩ = .ok [.ok kiwi] := by
  intro calls entities
  let kiwi : Entity := ⟨⟨2⟩, "Kiwi", .ofList [("Id", .integer 5), ("CountryId", .integer 1),
    ("Kind", .text "Kiwi"), ("FoundOn", .integer 60)]⟩
  let animal : Entity := ⟨⟨1⟩, "Animal", .ofList [("Id", .integer 6), ("CountryId", .integer 1),
    ("Kind", .text "Animal")]⟩
  have hwhole : entities ⟨1⟩ = .ok ([kiwi, animal].map .ok) := by
    change results _ _ _ _ _ = _
    rw [results_eq]
    rfl
  have hsize : animals.types.length ≤ UInt32.size := by decide
  have hroot : animals.root ⟨2⟩ = .ok _ := rfl
  have hsubtype := results_subtype ofDef_animalDef columnsApart_animals tablesApart_animals hroot rfl
    (List.cons_ne_nil _ _) "zoo" calls .plain hwhole
  refine ⟨_, _, kiwi, animal, ofDef_animalDef, columnsApart_animals, tablesApart_animals, rfl, rfl,
    List.cons_ne_nil _ _, hwhole, rfl, hsize, ?_⟩
  exact (hsubtype.2 hsize).1

end EntityStore.Memory
