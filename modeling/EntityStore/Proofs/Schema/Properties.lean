import Mathlib.Data.List.Pairwise
import EntityStore.Proofs.Schema.Discriminators
import EntityStore.Proofs.Schema.Walks

/-!
# Properties by name

A derived type is refused if it declares a property that its base has already. What a single type
declares is not compared, so a name stands for two properties of a type exactly if the type or one of its
bases declares the name twice. The columns of a table are told apart in any case.
-/

namespace EntityStore.Schema

open Traversal

variable {s s' : Schema} {t u : EntityType} {id b : TypeId} {all : List Property} {walk : List EntityType}

/-! ### Walks and what they come by -/

def declared (walk : List EntityType) : List Property := walk.reverse.flatMap (·.properties)

theorem declared_cons (t : EntityType) (above : List EntityType) :
    declared (t :: above) = declared above ++ t.properties := by
  rw [declared, List.reverse_cons, List.flatMap_append, List.flatMap_singleton]
  rfl

theorem Climbs.mono (hext : s.types <+: s'.types) (h : s.Climbs id walk) : s'.Climbs id walk := by
  obtain ⟨more, hmore⟩ := hext
  have hkept : ∀ {id : TypeId} {t : EntityType}, s.entityType id = .ok t → s'.entityType id = .ok t := by
    intro id t ht
    rw [entityType_eq_ok_iff] at ht ⊢
    obtain ⟨hlt, -⟩ := List.getElem?_eq_some_iff.1 ht
    rwa [← hmore, List.getElem?_append_left hlt]
  induction h with
  | root ht hb => exact .root (hkept ht) hb
  | base ht hb _ ih => exact .base (hkept ht) hb ih

theorem Ordered.exists_climbs (hs : s.Ordered) (ht : s.entityType id = .ok t) :
    ∃ walk, s.Climbs id walk ∧ s.properties id = .ok (declared walk) ∧ ∀ u, u ∈ walk ↔ s.Derives t u := by
  obtain ⟨chain, hchain, hmem⟩ := hs.exists_chain ht
  obtain ⟨chain', hchain', hclimbs, -⟩ := hs.exists_leadsTo (hs.found ht)
  rw [hs.id_eq_of_entityType ht] at hchain' hclimbs
  rw [hchain] at hchain'
  cases hchain'
  refine ⟨chain.reverse, (hclimbs _).2 rfl, ?_, ?_⟩
  · rw [properties, hchain, declared, List.reverse_reverse]
    rfl
  · intro u
    rw [List.mem_reverse, hmem]

theorem Climbs.properties_eq (h : s.Climbs id walk) (hs : s.Ordered) :
    s.properties id = .ok (declared walk) := by
  obtain ⟨t, above, ht, -⟩ := h.exists_cons
  obtain ⟨walk', h', hall, -⟩ := hs.exists_climbs ht
  rwa [h'.unique h]

theorem Ordered.properties_mono (hs : s.Ordered) (hs' : s'.Ordered) (hext : s.types <+: s'.types)
    (ht : s.entityType id = .ok t) : s'.properties id = s.properties id := by
  obtain ⟨walk, hclimbs, hall, -⟩ := hs.exists_climbs ht
  rw [hall, (hclimbs.mono hext).properties_eq hs']

/-! ### Names along a walk -/

/-- No type declares a property that its base has already. -/
def DeclaresAnew (s : Schema) : Prop :=
  ∀ t ∈ s.types, ∀ b, t.base = some b → ∀ inherited, s.properties b = .ok inherited →
    ∀ p ∈ t.properties, ∀ q ∈ inherited, q.name ≠ p.name

theorem Ordered.exists_base (hs : s.Ordered) (ht : t ∈ s.types) (hb : t.base = some b) :
    ∃ u, s.entityType b = .ok u := by
  obtain ⟨i, hi⟩ := List.mem_iff_getElem?.1 ht
  obtain ⟨hlt, -⟩ := List.getElem?_eq_some_iff.1 hi
  have hbase := hs.base_lt i t b hi hb
  exact ⟨_, entityType_eq_ok_iff.2 (List.getElem?_eq_getElem (by omega))⟩

theorem DeclaresAnew.of_mem (hs : s.Ordered) (hs' : s'.Ordered) (hext : s.types <+: s'.types)
    (hanew : s.DeclaresAnew) (ht : t ∈ s.types) (hb : t.base = some b) {inherited : List Property}
    (h : s'.properties b = .ok inherited) : ∀ p ∈ t.properties, ∀ q ∈ inherited, q.name ≠ p.name := by
  obtain ⟨u, hu⟩ := hs.exists_base ht hb
  rw [hs.properties_mono hs' hext hu] at h
  exact hanew t ht b hb inherited h

theorem DeclaresAnew.addType {d : EntityTypeDef} (hs : s.Ordered) (hanew : s.DeclaresAnew)
    (h : s.addType d = .ok (id, s')) : s'.DeclaresAnew := by
  have hs' := hs.addType h
  obtain ⟨t, rfl, -, hbase, -⟩ := addType_eq_ok h
  have hext : s.types <+: s.types ++ [t] := List.prefix_append _ _
  intro u hu b hb inherited hinherited
  rcases List.mem_append.1 hu with hu | hu
  · exact hanew.of_mem hs hs' hext hu hb hinherited
  · obtain rfl := List.mem_singleton.1 hu
    obtain ⟨parent, hparent, rfl, all, hall, hnew⟩ := hbase b hb
    obtain ⟨v, hv⟩ := hs.exists_entityType hparent
    rw [hs.properties_mono hs' hext hv, hall] at hinherited
    cases hinherited
    exact hnew

theorem declaresAnew_addTypes {ds : List EntityTypeDef} (h : empty.addTypes ds = .ok s) :
    s.Ordered ∧ s.DeclaresAnew := by
  refine foldlM_preserves (P := fun s : Schema => s.Ordered ∧ s.DeclaresAnew) h ⟨ordered_empty, ?_⟩ ?_
  · intro t ht
    cases ht
  · rintro d _ s₁ s₂ ⟨hs, hanew⟩ hd
    simp only [bind_eq_ok_iff, pure_eq_ok] at hd
    obtain ⟨⟨id, s₃⟩, hadd, rfl⟩ := hd
    exact ⟨hs.addType hadd, hanew.addType hs hadd⟩

theorem declaresAnew_of_ofDef {d : SchemaDef} (h : ofDef d = .ok s) : s.DeclaresAnew := by
  have hs := (valid_of_ofDef h).toOrdered
  simp only [ofDef, register, bind_eq_ok_iff, pure_eq_ok] at h
  obtain ⟨s', ⟨s₁, htypes, hfks⟩, _, -, rfl⟩ := h
  obtain ⟨hs₁, hanew⟩ := declaresAnew_addTypes htypes
  obtain ⟨hsame, -⟩ := addForeignKeys_eq_ok hfks (foreignKeys_addTypes htypes)
  intro t ht b hb inherited hinherited
  rw [hsame] at ht
  exact hanew.of_mem hs₁ hs (hsame ▸ List.prefix_refl _) ht hb hinherited

/-- Names repeat along a walk only where one type repeats them. -/
theorem Climbs.nodup_names_iff (h : s.Climbs id walk) (hs : s.Ordered) (hanew : s.DeclaresAnew) :
    ((declared walk).map (·.name)).Nodup ↔ ∀ u ∈ walk, (u.properties.map (·.name)).Nodup := by
  induction h with
  | root _ _ => simp [declared]
  | @base id b t above ht hb habove ih =>
    -- what a type declares anew is apart from all that is declared above it, not only by its base
    have hapart : ∀ a ∈ (declared above).map (·.name), ∀ c ∈ t.properties.map (·.name), a ≠ c := by
      simp only [List.forall_mem_map]
      intro q hq p hp
      have hmem := List.mem_of_getElem? (entityType_eq_ok_iff.1 ht)
      exact hanew t hmem b hb _ (habove.properties_eq hs) p hp q hq
    rw [declared_cons, List.map_append, List.nodup_append, ih, List.forall_mem_cons]
    constructor
    · rintro ⟨habove, ht, -⟩
      exact ⟨ht, habove⟩
    · rintro ⟨ht, habove⟩
      exact ⟨habove, ht, hapart⟩

theorem property_eq_ok_iff_of_nodup (hall : s.properties id = .ok all) (hnodup : (all.map (·.name)).Nodup)
    {name : String} {p : Property} : s.property id name = .ok p ↔ p ∈ all ∧ p.name = name := by
  rw [property_eq_ok_iff]
  constructor
  · rintro ⟨all', hall', hfind⟩
    rw [hall] at hall'
    cases hall'
    exact ⟨List.mem_of_find?_eq_some hfind, by simpa using List.find?_some hfind⟩
  · rintro ⟨hp, rfl⟩
    refine ⟨all, hall, ?_⟩
    cases hfind : all.find? (·.name == p.name) with
    | none => simpa using List.find?_eq_none.1 hfind p hp
    | some q =>
      have hname : q.name = p.name := by simpa using List.find?_some hfind
      rw [List.inj_on_of_nodup_map hnodup (List.mem_of_find?_eq_some hfind) hp hname]

/-! ### Columns of a table -/

theorem distinctColumns_eq (properties : List Property) :
    distinctColumns properties =
      (properties.reverse.pwFilter (fun p q => p.columnName ≠ q.columnName)).reverse := by
  -- the fold goes from the left and keeps the first property of a column; `pwFilter` goes from the right
  rw [distinctColumns, List.foldl_eq_foldr_reverse, List.pwFilter]
  congr 2
  funext p kept
  by_cases h : ∀ q ∈ kept, p.columnName ≠ q.columnName
  · rw [if_pos h, if_neg]
    simp only [List.any_eq_true, beq_iff_eq, not_exists, not_and]
    exact fun q hq heq => h q hq heq.symm
  · rw [if_neg h, if_pos]
    simp only [ne_eq, not_forall, not_not] at h
    obtain ⟨q, hq, heq⟩ := h
    exact List.any_eq_true.2 ⟨q, hq, beq_iff_eq.2 heq.symm⟩

theorem nodup_distinctColumns (properties : List Property) :
    ((distinctColumns properties).map (·.columnName)).Nodup := by
  rw [distinctColumns_eq, List.map_reverse, List.nodup_reverse, List.Nodup, List.pairwise_map]
  exact List.pairwise_pwFilter _

theorem exists_mem_distinctColumns {properties : List Property} {p : Property} (hp : p ∈ properties) :
    ∃ c ∈ distinctColumns properties, c.columnName = p.columnName := by
  have htrans : ∀ {x y z : Property}, x.columnName ≠ z.columnName →
      x.columnName ≠ y.columnName ∨ y.columnName ≠ z.columnName := by
    intro x y z hxz
    by_contra h
    simp only [ne_eq, not_or, not_not] at h
    exact hxz (h.1.trans h.2)
  by_contra hnone
  simp only [not_exists, not_and] at hnone
  refine (List.forall_mem_pwFilter (R := fun p q => p.columnName ≠ q.columnName) htrans p
    properties.reverse).1 ?_ p (List.mem_reverse.2 hp) rfl
  intro q hq heq
  refine hnone q ?_ heq.symm
  rwa [distinctColumns_eq, List.mem_reverse]

theorem Within.tableColumns_eq {root : EntityType} {types : List EntityType} (h : s.Within root types t) :
    s.tableColumns t.id = .ok (distinctColumns (types.flatMap (·.properties))) := by
  rw [tableColumns, h.root_eq, ok_bind, h.checked.hierarchy]
  rfl

theorem exists_entityType_of_isAssignable {ancestor : TypeId} {b : Bool}
    (h : s.isAssignable id ancestor = .ok b) : ∃ t, s.entityType id = .ok t := by
  simp only [isAssignable, baseChain, upward, bind_eq_ok_iff] at h
  obtain ⟨_, ⟨_, ⟨t, ht, -⟩, -⟩, -⟩ := h
  exact ⟨t, ht⟩

theorem Ordered.derives_of_isAssignable (hs : s.Ordered) (hu : s.Found u)
    (h : s.isAssignable id u.id = .ok true) : ∃ t, s.Found t ∧ t.id = id ∧ s.Derives t u := by
  obtain ⟨t, ht⟩ := exists_entityType_of_isAssignable h
  obtain rfl := hs.id_eq_of_entityType ht
  exact ⟨t, ht, rfl, (hs.isAssignable_iff_derives ht hu).1 h⟩

/-! ### Accepted schemas -/

/-- The properties of a type as they come from its base and from the type itself. If no name repeats, a
look-up by name is exact. -/
structure PropertiesOf (s : Schema) (id : TypeId) (t : EntityType) (all : List Property) : Prop where
  properties : s.properties id = .ok all
  of_root : t.base = none → all = t.properties
  of_base : ∀ b, t.base = some b →
    ∃ inherited, s.properties b = .ok inherited ∧ all = inherited ++ t.properties
  nodup_iff : (all.map (·.name)).Nodup ↔ ∀ u, s.Derives t u → (u.properties.map (·.name)).Nodup
  property_iff : (all.map (·.name)).Nodup →
    ∀ name p, s.property id name = .ok p ↔ p ∈ all ∧ p.name = name

/-- The columns of the table in which a hierarchy keeps what its types have. -/
structure TableOf (s : Schema) (id : TypeId) (all columns : List Property) : Prop where
  tableColumns : s.tableColumns id = .ok columns
  nodup : (columns.map (·.columnName)).Nodup
  covers : ∀ p ∈ all, ∃ c ∈ columns, c.columnName = p.columnName
  shared : ∀ r, s.root id = .ok r →
    ∀ id', s.isAssignable id' r.id = .ok true → s.tableColumns id' = .ok columns

theorem exists_propertiesOf (hs : s.Ordered) (hanew : s.DeclaresAnew) (ht : s.Found t) :
    ∃ all, s.PropertiesOf t.id t all ∧ ∀ p ∈ all, ∃ u, s.Derives t u ∧ p ∈ u.properties := by
  obtain ⟨walk, hclimbs, hall, hmem⟩ := hs.exists_climbs ht
  refine ⟨declared walk, ?_, ?_⟩
  · constructor
    case properties => exact hall
    case of_root =>
      intro hb
      obtain rfl := hclimbs.unique (.root ht hb)
      simp [declared]
    case of_base =>
      intro b hb
      obtain ⟨u, hu⟩ := hs.exists_base ht.mem hb
      obtain ⟨above, habove, hinherited, -⟩ := hs.exists_climbs hu
      refine ⟨declared above, hinherited, ?_⟩
      obtain rfl := hclimbs.unique (.base ht hb habove)
      exact declared_cons t above
    case nodup_iff =>
      rw [hclimbs.nodup_names_iff hs hanew]
      simp only [hmem]
    case property_iff => exact fun hnodup _ _ => property_eq_ok_iff_of_nodup hall hnodup
  · intro p hp
    obtain ⟨u, hu, hpu⟩ := List.mem_flatMap.1 hp
    exact ⟨u, (hmem u).1 (List.mem_reverse.1 hu), hpu⟩

theorem Within.tableOf {root : EntityType} {types : List EntityType} (h : s.Within root types t)
    (hall : ∀ p ∈ all, ∃ u, s.Derives t u ∧ p ∈ u.properties) :
    s.TableOf t.id all (distinctColumns (types.flatMap (·.properties))) := by
  constructor
  case tableColumns => exact h.tableColumns_eq
  case nodup => exact nodup_distinctColumns _
  case covers =>
    intro p hp
    obtain ⟨u, hder, hpu⟩ := hall p hp
    exact exists_mem_distinctColumns (List.mem_flatMap.2 ⟨u, (h.of_derives hder).mem, hpu⟩)
  case shared =>
    intro r hr id hid
    rw [h.root_eq] at hr
    cases hr
    obtain ⟨-, hroot, -⟩ := h.derives_root
    obtain ⟨u, hu, rfl, hder⟩ := h.valid.derives_of_isAssignable hroot hid
    exact (h.to_root.of_derived hu hder).tableColumns_eq

/-- In the schema of an accepted definition every type has its own properties after those of its base, and
all of them have columns in the one table of the hierarchy. Their names are distinct exactly if no type of
the chain declares a name twice. -/
theorem propertiesOf_ofDef {d : SchemaDef} (h : ofDef d = .ok s) (ht : s.entityType id = .ok t) :
    ∃ all columns, s.PropertiesOf id t all ∧ s.TableOf id all columns := by
  have hs := (valid_of_ofDef h).toOrdered
  obtain rfl := hs.id_eq_of_entityType ht
  obtain ⟨root, types, hwithin⟩ := exists_within h ht
  obtain ⟨all, hproperties, hall⟩ := exists_propertiesOf hs (declaresAnew_of_ofDef h) ht
  exact ⟨all, _, hproperties, hwithin.tableOf hall⟩

def itemProperties : List Property := [⟨"Id", none, .integer, false⟩, ⟨"Kind", none, .text, false⟩]

def pages : Property := ⟨"Pages", some "Size", .integer, false⟩

def minutes : Property := ⟨"Minutes", some "Size", .integer, false⟩

def itemDef : SchemaDef where
  entityTypes := [⟨"Item", none, true, itemProperties, ["Id"], none, some "Kind", none⟩,
    ⟨"Book", some "Item", false, [pages], [], none, none, some (.text "Book")⟩,
    ⟨"Film", some "Item", false, [minutes], [], none, none, some (.text "Film")⟩]
  foreignKeys := []

def items : Schema where
  types := [⟨⟨0⟩, "Item", none, true, itemProperties, ["Id"], none, some "Kind", none⟩,
    ⟨⟨1⟩, "Book", some ⟨0⟩, false, [pages], [], none, none, some (.text "Book")⟩,
    ⟨⟨2⟩, "Film", some ⟨0⟩, false, [minutes], [], none, none, some (.text "Film")⟩]
  foreignKeys := []

/-- Films have their length in the column of the pages. -/
theorem propertiesOf_ofDef_films : ofDef itemDef = .ok items ∧
    ∃ film all columns, items.entityType ⟨2⟩ = .ok film ∧ items.PropertiesOf ⟨2⟩ film all ∧
      items.TableOf ⟨2⟩ all columns ∧ (all.map (·.name)).Nodup ∧ all.map (·.name) = ["Id", "Kind", "Minutes"] ∧
      columns.map (·.name) = ["Id", "Kind", "Pages"] := by
  have hdef : ofDef itemDef = .ok items := rfl
  have hfilm : items.entityType ⟨2⟩ = .ok items.types[2] := rfl
  obtain ⟨all, columns, hproperties, htable⟩ := propertiesOf_ofDef hdef hfilm
  have hall : (items.properties ⟨2⟩).map (fun all => all.map (·.name)) = .ok ["Id", "Kind", "Minutes"] := rfl
  have hcolumns : (items.tableColumns ⟨2⟩).map (fun all => all.map (·.name)) =
      .ok ["Id", "Kind", "Pages"] := rfl
  rw [hproperties.properties] at hall
  rw [htable.tableColumns] at hcolumns
  have hnames : all.map (·.name) = ["Id", "Kind", "Minutes"] := Except.ok.inj hall
  have hnodup : (all.map (·.name)).Nodup := by
    rw [hnames]
    decide
  exact ⟨hdef, _, all, columns, hfilm, hproperties, htable, hnodup, hnames, Except.ok.inj hcolumns⟩

def draftProperties : List Property :=
  [⟨"Id", none, .integer, false⟩, ⟨"Title", none, .text, false⟩, ⟨"Title", none, .integer, false⟩]

def draftDef : SchemaDef where
  entityTypes := [⟨"Draft", none, false, draftProperties, ["Id"], none, none, none⟩]
  foreignKeys := []

def drafts : Schema where
  types := [⟨⟨0⟩, "Draft", none, false, draftProperties, ["Id"], none, none, none⟩]
  foreignKeys := []

/-- A definition is accepted although one type declares a name twice, and of the two properties only the
first is found by its name. -/
theorem repeated_name_drafts : ofDef draftDef = .ok drafts ∧ drafts.properties ⟨0⟩ = .ok draftProperties ∧
    ¬(draftProperties.map (·.name)).Nodup ∧
    ∃ p ∈ draftProperties, drafts.property ⟨0⟩ p.name ≠ .ok p :=
  ⟨rfl, rfl, by decide, ⟨"Title", none, .integer, false⟩, by decide, by decide⟩

end EntityStore.Schema
