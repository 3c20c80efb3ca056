import EntityStore.Proofs.Query.Records
import EntityStore.Proofs.Save.Columns
import EntityStore.Proofs.Schema.Discriminators

/-!
# What is demanded of an entry, and what it becomes

On an accepted definition in which no type has two properties of one name, an entry either meets all
demands and becomes a command that is fully described by the entry and its type, or it is refused.
-/

namespace EntityStore.Command

open Schema Traversal

section

variable {s : Schema} {t : EntityType}

def Keyed (e : PendingEntry) (shape : Shape s t) : Prop :=
  ∀ p ∈ shape.key, ∃ v, e.identifying? p.name = some v ∧ v ≠ .null

structure Fits (e : PendingEntry) (shape : Shape s t) : Prop where
  identifying : ∀ p ∈ shape.key, ∀ v, e.identifying? p.name = some v → ∃ w, v.convert? p.type = some w
  supplied : e.state ≠ .deleted → ∀ p ∈ shape.properties, p ∉ shape.key →
    ∀ v, e.current.get? p.name = some v →
      (v = .null → p.nullable = true) ∧ ∃ w, v.convert? p.type = some w
  omitted : e.state = .added → ∀ p ∈ shape.properties, e.current.get? p.name = none →
    shape.discriminator = some p ∨ p.nullable = true
  unchanged : e.state = .modified → ∀ p ∈ shape.key, ∀ v w,
    e.current.get? p.name = some v → e.loaded.get? p.name = some w → v.same w = true

/-- What is demanded of an entry. -/
structure Admissible (e : PendingEntry) (shape : Shape s t) : Prop extends Fits e shape where
  type : s.entityType e.entityType = .ok t
  concrete : t.isAbstract = false
  keyed : Keyed e shape
  names : ∀ name ∈ e.current.keys, ∃ p ∈ shape.properties, p.name = name

structure ColumnOf (p : Property) (x : ColumnChange) : Prop where
  property : x.property = p.name
  column : x.column = p.columnName
  typed : x.value = .null ∨ x.value.type? = some p.type

structure Inserted (e : PendingEntry) (shape : Shape s t) (p : Property) (x : ColumnChange) : Prop
    extends ColumnOf p x where
  nullable : x.value = .null → p.nullable = true
  supplied : ∀ v, e.current.get? p.name = some v → v.convert? p.type = some x.value
  declared : e.current.get? p.name = none → shape.discriminator = some p →
    ∃ v, t.discriminatorValue = some v ∧ v.convert? p.type = some x.value
  missing : e.current.get? p.name = none → shape.discriminator ≠ some p → x.value = .null
  isKey : x.isKey = true ↔ p ∈ shape.key
  isWrite : x.isWrite = true

def Supplies (e : PendingEntry) (shape : Shape s t) (p : Property) : Prop :=
  p ∉ shape.key ∧ ∃ v, e.current.get? p.name = some v

/-- The entry supplies a property with a value other than the loaded one. -/
def Changes (e : PendingEntry) (shape : Shape s t) (p : Property) : Prop :=
  p ∉ shape.key ∧ ∃ v, e.current.get? p.name = some v ∧
    ∀ w, e.loaded.get? p.name = some w → w.same v = false

/-- What is written of an existing row: the changes; if there are none, all that is supplied; and if
nothing is supplied, the key. -/
def Writes (e : PendingEntry) (shape : Shape s t) (p : Property) : Prop :=
  Changes e shape p ∨ (∀ q ∈ shape.properties, ¬ Changes e shape q) ∧
    (Supplies e shape p ∨ ∀ q ∈ shape.properties, ¬ Supplies e shape q)

structure Updated (e : PendingEntry) (shape : Shape s t) (p : Property) (x : ColumnChange) : Prop
    extends ColumnOf p x where
  found : p ∈ shape.key → ∃ v, e.identifying? p.name = some v ∧ v.convert? p.type = some x.value
  supplied : p ∉ shape.key → ∃ v, e.current.get? p.name = some v ∧ v.convert? p.type = some x.value
  nullable : p ∉ shape.key → x.value = .null → p.nullable = true
  isKey : x.isKey = true ↔ p ∈ shape.key
  isWrite : x.isWrite = true ↔ Writes e shape p

structure Deleted (e : PendingEntry) (p : Property) (x : ColumnChange) : Prop
    extends ColumnOf p x where
  found : ∃ v, e.identifying? p.name = some v ∧ v.convert? p.type = some x.value
  isKey : x.isKey = true
  isWrite : x.isWrite = false

inductive Columns (e : PendingEntry) (shape : Shape s t) (columns : List ColumnChange) : Prop
  | added (state : e.state = .added) (all : List.Forall₂ (Inserted e shape) shape.properties columns)
  | modified (state : e.state = .modified)
      (all : List.Forall₂ (Updated e shape)
        (shape.properties.filter (fun p => decide (p ∈ shape.key) || e.current.contains p.name)) columns)
  | deleted (state : e.state = .deleted)
      (all : List.Forall₂ (Deleted e) (shape.properties.filter (fun p => decide (p ∈ shape.key))) columns)

/-- What an admissible entry becomes. -/
structure Describes (e : PendingEntry) (shape : Shape s t) (c : Command) : Prop where
  entityType : c.entityType = t.id
  table : c.table = tableOf shape.root
  state : c.state = e.state
  key : List.Forall₂ (fun p v => e.identifying? p.name = some v ∧ v ≠ .null) shape.key c.key
  columns : Columns e shape c.columns
  keyColumns : ∀ x ∈ c.keyColumns, x.value ≠ .null
  writes : e.state ≠ .deleted → c.writeColumns ≠ []

/-- The type of an entry, in a checked schema, with names that tell its properties apart. -/
structure Apart (shape : Shape s t) : Prop where
  mem_discriminator : ∀ p, shape.discriminator = some p → p ∈ shape.properties
  valued : ∀ p, shape.discriminator = some p → t.isAbstract = false → Valued p t
  names : (shape.properties.map (·.name)).Nodup

theorem apart_of_ofDef {d : SchemaDef} (hd : Schema.ofDef d = .ok s) (hnames : NamesApart s)
    {id : TypeId} (ht : s.entityType id = .ok t) (shape : Shape s t) : Apart shape := by
  have hs := valid_of_ofDef hd
  have hfound := hs.found ht
  have hdiscriminator : ∀ p, shape.discriminator = some p → s.discriminator? t.id = .ok (some p) := by
    intro p hp
    rw [shape.discriminator_eq, hp]
  constructor
  · intro p hp
    exact hs.mem_properties_of_discriminator? hfound (hdiscriminator p hp) shape.properties_eq
  · intro p hp hconcrete
    obtain ⟨root, types, hw⟩ := exists_within hd hfound
    exact hw.valued (hdiscriminator p hp) (Schema.mem_concrete.2 ⟨hw.mem, hconcrete⟩)
  · exact hnames t hfound.mem _ shape.properties_eq

variable {shape : Shape s t} {e : PendingEntry}

theorem Apart.isKey_iff (h : Apart shape) {p : Property} (hp : p ∈ shape.properties) :
    (shape.context e).isKey p = true ↔ p ∈ shape.key := by
  rw [Shape.isKey_context]
  constructor
  · rintro ⟨q, hq, hname⟩
    rwa [← List.inj_on_of_nodup_map h.names (shape.key_subset q hq) hp hname]
  · intro hkey
    exact ⟨p, hkey, rfl⟩

theorem Apart.isKey_eq_false_iff (h : Apart shape) {p : Property} (hp : p ∈ shape.properties) :
    (shape.context e).isKey p = false ↔ p ∉ shape.key := by
  rw [← h.isKey_iff (e := e) hp, Bool.not_eq_true]

theorem Apart.discriminator_iff (h : Apart shape) {p : Property} (hp : p ∈ shape.properties) :
    (shape.context e).discriminator = some p.name ↔ shape.discriminator = some p := by
  rw [Shape.context, Option.map_eq_some_iff]
  constructor
  · rintro ⟨q, hq, hname⟩
    rw [hq, List.inj_on_of_nodup_map h.names (h.mem_discriminator q hq) hp hname]
  · intro hp
    exact ⟨p, hp, rfl⟩

/-! ### Which entries are accepted -/

theorem Apart.insertedValue_of_discriminator (h : Apart shape) (hconcrete : t.isAbstract = false)
    {p : Property} (hp : shape.discriminator = some p) (homitted : e.current.get? p.name = none) :
    ∃ v, t.discriminatorValue = some v ∧ (shape.context e).insertedValue p = v ∧ v ≠ .null ∧
      ∃ w, v.convert? p.type = some w := by
  obtain ⟨v, k, w, hv, hk, hw⟩ := h.valued p hp hconcrete
  refine ⟨v, hv, ?_, ?_, w, hw⟩
  · have hname := (h.discriminator_iff (e := e) (h.mem_discriminator p hp)).2 hp
    rw [Context.insertedValue_of_omitted homitted, if_pos hname, Shape.context, hv, Option.getD_some]
  · rintro rfl
    cases hk

theorem Apart.insertedValue_of_missing (h : Apart shape) {p : Property} (hp : p ∈ shape.properties)
    (hother : shape.discriminator ≠ some p) (homitted : e.current.get? p.name = none) :
    (shape.context e).insertedValue p = .null := by
  rw [Context.insertedValue_of_omitted homitted, if_neg]
  intro hname
  exact hother ((h.discriminator_iff hp).1 hname)

theorem Apart.exists_insertColumn_iff (h : Apart shape) (hconcrete : t.isAbstract = false) {p : Property}
    (hp : p ∈ shape.properties) :
    (∃ x, (shape.context e).insertColumn p = .ok x) ↔
      (∀ v, e.current.get? p.name = some v →
        (v = .null → p.nullable = true) ∧ ∃ w, v.convert? p.type = some w) ∧
      (e.current.get? p.name = none → shape.discriminator = some p ∨ p.nullable = true) := by
  rw [Context.exists_insertColumn_iff]
  cases hv : e.current.get? p.name with
  | some v =>
    rw [Context.insertedValue_of_supplied (c := shape.context e) hv]
    simp
  | none =>
    by_cases hd : shape.discriminator = some p
    · obtain ⟨v, -, hvalue, hnull, hconvert⟩ := h.insertedValue_of_discriminator hconcrete hd hv
      rw [hvalue]
      simp [hnull, hconvert, hd]
    · rw [h.insertedValue_of_missing hp hd hv]
      simp [hd, Value.convert?]

theorem Apart.exists_updateColumn_iff (h : Apart shape) {p : Property} (hp : p ∈ shape.properties) :
    (∃ o, (shape.context e).updateColumn p = .ok o) ↔
      (p ∈ shape.key → (∃ w, ((shape.context e).keyValue p).convert? p.type = some w) ∧
        ∀ v w, e.current.get? p.name = some v → e.loaded.get? p.name = some w → v.same w = true) ∧
      (p ∉ shape.key → ∀ v, e.current.get? p.name = some v →
        (v = .null → p.nullable = true) ∧ ∃ w, v.convert? p.type = some w) := by
  by_cases hkey : p ∈ shape.key
  · rw [Context.exists_updateColumn_of_isKey ((h.isKey_iff hp).2 hkey), Context.checkKeyUnchanged_eq_ok_iff]
    simp only [hkey, true_implies, not_true_eq_false, false_implies, and_true]
    exact and_comm
  · rw [Context.exists_updateColumn_of_not_isKey ((h.isKey_eq_false_iff hp).2 hkey)]
    simp only [hkey, false_implies, not_false_eq_true, true_implies, true_and]
    rfl

theorem Apart.exists_columns_of_added (h : Apart shape) (hconcrete : t.isAbstract = false)
    (hkeyed : Keyed e shape) (hstate : e.state = .added) :
    (∃ columns, (shape.context e).columns shape.properties = .ok columns) ↔ Fits e shape := by
  have hcurrent : ∀ p : Property, e.identifying? p.name = e.current.get? p.name := by
    intro p
    rw [PendingEntry.identifying?, hstate]
  rw [Context.exists_columns_of_added hstate]
  constructor
  · intro hall
    have hall := fun p hp => (h.exists_insertColumn_iff hconcrete hp).1 (hall p hp)
    constructor
    case identifying =>
      intro p hp v hv
      rw [hcurrent] at hv
      exact ((hall p (shape.key_subset p hp)).1 v hv).2
    case supplied => exact fun _ p hp _ => (hall p hp).1
    case omitted => exact fun _ p hp => (hall p hp).2
    case unchanged => exact fun hmodified => by cases hstate.symm.trans hmodified
  · intro hfits p hp
    rw [h.exists_insertColumn_iff hconcrete hp]
    refine ⟨?_, hfits.omitted hstate p hp⟩
    intro v hv
    by_cases hkey : p ∈ shape.key
    · obtain ⟨u, hu, hnull⟩ := hkeyed p hkey
      rw [hcurrent, hv] at hu
      cases hu
      exact ⟨fun h => absurd h hnull, hfits.identifying p hkey v ((hcurrent p).trans hv)⟩
    · exact hfits.supplied (by simp [hstate]) p hp hkey v hv

theorem keyValue_eq {p : Property} {v : Value} (hv : e.identifying? p.name = some v) :
    (shape.context e).keyValue p = v :=
  Context.keyValue_of_identifying? (c := shape.context e) hv

theorem Apart.exists_columns_of_modified (h : Apart shape) (hkeyed : Keyed e shape)
    (hstate : e.state = .modified) :
    (∃ columns, (shape.context e).columns shape.properties = .ok columns) ↔ Fits e shape := by
  rw [Context.exists_columns_of_modified hstate]
  constructor
  · intro hall
    have hall := fun p hp => (h.exists_updateColumn_iff hp).1 (hall p hp)
    constructor
    case identifying =>
      intro p hp v hv
      obtain ⟨hconvert, -⟩ := (hall p (shape.key_subset p hp)).1 hp
      rwa [keyValue_eq hv] at hconvert
    case supplied => exact fun _ p hp => (hall p hp).2
    case omitted => exact fun hadded => by cases hstate.symm.trans hadded
    case unchanged => exact fun _ p hp => ((hall p (shape.key_subset p hp)).1 hp).2
  · intro hfits p hp
    rw [h.exists_updateColumn_iff hp]
    refine ⟨?_, hfits.supplied (by simp [hstate]) p hp⟩
    intro hkey
    obtain ⟨v, hv, -⟩ := hkeyed p hkey
    rw [keyValue_eq hv]
    exact ⟨hfits.identifying p hkey v hv, hfits.unchanged hstate p hkey⟩

theorem Apart.exists_columns_of_deleted (h : Apart shape) (hkeyed : Keyed e shape)
    (hstate : e.state = .deleted) :
    (∃ columns, (shape.context e).columns shape.properties = .ok columns) ↔ Fits e shape := by
  rw [Context.exists_columns_of_deleted hstate]
  constructor
  · intro hall
    constructor
    case identifying =>
      intro p hp v hv
      have hmem := shape.key_subset p hp
      have hconvert := hall p hmem ((h.isKey_iff hmem).2 hp)
      rwa [keyValue_eq hv] at hconvert
    case supplied => exact fun hnot => absurd hstate hnot
    case omitted => exact fun hadded => by cases hstate.symm.trans hadded
    case unchanged => exact fun hmodified => by cases hstate.symm.trans hmodified
  · intro hfits p hp hkey
    have hkey := (h.isKey_iff hp).1 hkey
    obtain ⟨v, hv, -⟩ := hkeyed p hkey
    rw [keyValue_eq hv]
    exact hfits.identifying p hkey v hv

theorem Apart.exists_columns_iff (h : Apart shape) (hconcrete : t.isAbstract = false)
    (hkeyed : Keyed e shape) :
    (∃ columns, (shape.context e).columns shape.properties = .ok columns) ↔ Fits e shape := by
  cases hstate : e.state with
  | added => exact h.exists_columns_of_added hconcrete hkeyed hstate
  | modified => exact h.exists_columns_of_modified hkeyed hstate
  | deleted => exact h.exists_columns_of_deleted hkeyed hstate

theorem Keyed.exists_key (h : Keyed e shape) (hid : t.id = e.entityType) : ∃ key, keyOf s t e = .ok key := by
  refine ⟨shape.key.map (fun p => (e.identifying? p.name).getD .null), (keyOf_eq_ok_iff shape hid).2 ?_⟩
  rw [List.forall₂_map_right_iff, List.forall₂_same]
  intro p hp
  obtain ⟨v, hv, hnull⟩ := h p hp
  rw [hv]
  exact ⟨rfl, hnull⟩

theorem Accepted.keyed {c : Command} (h : Accepted s e c t shape) : Keyed e shape := by
  intro p hp
  obtain ⟨v, -, hv⟩ := exists_of_mem_left h.key_eq hp
  exact ⟨v, hv⟩

theorem Apart.exists_ofEntry_iff (h : Apart shape) (ht : typeOf s e = .ok t) (hid : t.id = e.entityType) :
    (∃ c, ofEntry s e = .ok c) ↔ Admissible e shape := by
  obtain ⟨htype, hconcrete⟩ := typeOf_eq_ok_iff.1 ht
  constructor
  · rintro ⟨c, hc⟩
    obtain ⟨haccepted, -, hnames⟩ := (ofEntry_eq_ok_iff ht hid shape).1 hc
    have hfits := (h.exists_columns_iff hconcrete haccepted.keyed).1 ⟨_, haccepted.columns⟩
    exact ⟨hfits, htype, hconcrete, haccepted.keyed, checkNames_eq_ok_iff.1 hnames⟩
  · intro hadmissible
    obtain ⟨key, hkey⟩ := hadmissible.keyed.exists_key hid
    obtain ⟨columns, hcolumns⟩ := (h.exists_columns_iff hconcrete hadmissible.keyed).2 hadmissible.toFits
    let c : Command :=
      { entityType := t.id, table := tableOf shape.root, state := e.state, key := key, columns := columns }
    have haccepted : Accepted s e c t shape := ⟨htype, hid, hkey, hcolumns, rfl, rfl⟩
    exact ⟨c, (ofEntry_eq_ok_iff ht hid shape).2
      ⟨haccepted, rfl, checkNames_eq_ok_iff.2 hadmissible.names⟩⟩

/-! ### What an accepted entry becomes -/

theorem Sets.columnOf {p : Property} {v : Value} {x : ColumnChange} (h : Sets p v x) : ColumnOf p x where
  property := h.property
  column := h.column
  typed := by
    obtain ⟨-, hnull⟩ | ⟨-, htype⟩ := Value.type?_of_convert? h.value
    · exact Or.inl hnull
    · exact Or.inr htype

theorem Apart.inserted (h : Apart shape) (hconcrete : t.isAbstract = false) {p : Property}
    (hp : p ∈ shape.properties) {x : ColumnChange} (hx : (shape.context e).insertColumn p = .ok x) :
    Inserted e shape p x := by
  obtain ⟨hnullable, hsets, hkey, hwrite⟩ := Context.insertColumn_eq_ok_iff.1 hx
  have hvalue := hsets.value
  constructor
  case toColumnOf => exact hsets.columnOf
  case nullable => exact fun hnull => hnullable ((Value.eq_null_of_convert? hvalue).1 hnull)
  case supplied =>
    intro v hv
    rwa [Context.insertedValue_of_supplied (c := shape.context e) hv] at hvalue
  case declared =>
    intro homitted hd
    obtain ⟨v, hv, hinserted, -⟩ := h.insertedValue_of_discriminator hconcrete hd homitted
    rw [hinserted] at hvalue
    exact ⟨v, hv, hvalue⟩
  case missing =>
    intro homitted hother
    rw [h.insertedValue_of_missing hp hother homitted] at hvalue
    exact (Value.eq_null_of_convert? hvalue).2 rfl
  case isKey => rw [hkey, h.isKey_iff hp]
  case isWrite => exact hwrite

theorem Apart.isKey_updates_iff (h : Apart shape) {p : Property} (hp : p ∈ shape.properties)
    {x : ColumnChange} (hx : (shape.context e).Updates p (some x)) : p ∈ shape.key ↔ x.isKey = true := by
  cases hx with
  | found hkey _ _ hx => exact iff_of_true ((h.isKey_iff hp).1 hkey) hx
  | supplied hkey _ _ _ hx =>
    rw [hx]
    exact iff_of_false ((h.isKey_eq_false_iff hp).1 hkey) Bool.false_ne_true

theorem Apart.supplies_iff (h : Apart shape) {p : Property} (hp : p ∈ shape.properties)
    {x : ColumnChange} (hx : (shape.context e).Updates p (some x)) :
    Supplies e shape p ↔ x.isKey = false := by
  rw [Supplies, h.isKey_updates_iff hp hx, Bool.not_eq_true]
  cases hx with
  | found _ _ _ hx => simp [hx]
  | supplied _ hv => exact and_iff_left ⟨_, hv⟩

theorem Apart.changes_iff (h : Apart shape) {p : Property} (hp : p ∈ shape.properties)
    {x : ColumnChange} (hx : (shape.context e).Updates p (some x)) :
    Changes e shape p ↔ x.isWrite = true := by
  rw [Changes, h.isKey_updates_iff hp hx, Bool.not_eq_true]
  cases hx with
  | found _ _ _ hx hwrite => simp [hx, hwrite]
  | @supplied v _ _ hv _ _ hx hwrite =>
    have hv : e.current.get? p.name = some v := hv
    rw [hwrite, Context.isChanged_eq_true_iff, hv]
    simp [hx, Shape.context]

theorem Apart.written_iff (h : Apart shape) {updated : List ColumnChange}
    (hupdated : List.Forall₂ (fun p x => p ∈ shape.properties ∧ (shape.context e).Updates p (some x))
      (shape.properties.filter (shape.context e).touches) updated)
    {p : Property} (hp : p ∈ shape.properties) {x : ColumnChange} (hx : x ∈ updated)
    (hpx : (shape.context e).Updates p (some x)) :
    Context.written updated x = true ↔ Writes e shape p := by
  have htouched : ∀ {P : Property → Prop}, (∀ q, P q → Supplies e shape q) →
      ((∀ q ∈ shape.properties, ¬ P q) ↔
        ∀ q ∈ shape.properties.filter (shape.context e).touches, ¬ P q) := by
    intro P hP
    simp only [List.mem_filter, and_imp]
    refine ⟨fun h q hq _ => h q hq, ?_⟩
    intro h q hq hPq
    obtain ⟨-, v, hv⟩ := hP q hPq
    refine h q hq ?_ hPq
    simp [Context.touches, Shape.context, OrderedMap.contains, hv]
  have hchanges : (∀ q ∈ shape.properties, ¬ Changes e shape q) ↔ ∀ y ∈ updated, y.isWrite = false := by
    rw [htouched (fun q hq => ⟨hq.1, hq.2.imp (fun _ hv => hv.1)⟩)]
    apply forall_mem_iff_of_forall₂ hupdated
    rintro q y ⟨hq, hqy⟩
    rw [h.changes_iff hq hqy, Bool.not_eq_true]
  have hsupplies : (∀ q ∈ shape.properties, ¬ Supplies e shape q) ↔ ∀ y ∈ updated, y.isKey = true := by
    rw [htouched (fun q hq => hq)]
    apply forall_mem_iff_of_forall₂ hupdated
    rintro q y ⟨hq, hqy⟩
    rw [h.supplies_iff hq hqy, Bool.not_eq_false]
  rw [Context.written_iff hx, Writes, h.changes_iff hp hpx, h.supplies_iff hp hpx, hchanges, hsupplies]

theorem Apart.updated_of_updates (h : Apart shape) (hkeyed : Keyed e shape) {p : Property}
    (hp : p ∈ shape.properties) {x : ColumnChange} (hx : (shape.context e).Updates p (some x)) {isWrite : Bool}
    (hwrite : isWrite = true ↔ Writes e shape p) : Updated e shape p { x with isWrite := isWrite } := by
  have hkey := h.isKey_updates_iff hp hx
  cases hx with
  | @found x hp' _ hsets =>
    have hp' := (h.isKey_iff hp).1 hp'
    obtain ⟨v, hv, -⟩ := hkeyed p hp'
    rw [keyValue_eq hv] at hsets
    exact ⟨(hsets.with_isWrite isWrite).columnOf, fun _ => ⟨v, hv, hsets.value⟩,
      fun hnot => absurd hp' hnot, fun hnot => absurd hp' hnot, hkey.symm, hwrite⟩
  | @supplied v x hp' hv hnullable hsets =>
    have hp' := (h.isKey_eq_false_iff hp).1 hp'
    exact ⟨(hsets.with_isWrite isWrite).columnOf, fun hkey' => absurd hkey' hp',
      fun _ => ⟨v, hv, hsets.value⟩,
      fun _ hnull => hnullable ((Value.eq_null_of_convert? hsets.value).1 hnull), hkey.symm, hwrite⟩

theorem Apart.updated (h : Apart shape) {columns : List ColumnChange}
    (hcolumns : (shape.context e).columns shape.properties = .ok columns) (hstate : e.state = .modified)
    (hkeyed : Keyed e shape) :
    List.Forall₂ (Updated e shape)
      (shape.properties.filter (fun p => decide (p ∈ shape.key) || e.current.contains p.name)) columns := by
  obtain ⟨updated, hupdated, rfl⟩ := Context.columns_of_modified hcolumns hstate
  have hfilter : shape.properties.filter (fun p => decide (p ∈ shape.key) || e.current.contains p.name) =
      shape.properties.filter (shape.context e).touches := by
    apply List.filter_congr
    intro p hp
    rw [Context.touches]
    congr 1
    rw [Bool.eq_iff_iff, decide_eq_true_iff, h.isKey_iff hp]
  have hmem : ∀ p ∈ shape.properties.filter (shape.context e).touches, p ∈ shape.properties :=
    fun p hp => List.mem_of_mem_filter hp
  have hall := (List.forall₂_and_left _ _).2 ⟨hmem, hupdated⟩
  rw [hfilter, List.forall₂_map_right_iff]
  apply (forall₂_and_right.2 ⟨hall, fun x hx => hx⟩).imp
  rintro p x ⟨⟨hp, hpx⟩, hx⟩
  exact h.updated_of_updates hkeyed hp hpx (h.written_iff hall hp hx hpx)

theorem Apart.deleted (h : Apart shape) {columns : List ColumnChange}
    (hcolumns : (shape.context e).columns shape.properties = .ok columns) (hstate : e.state = .deleted)
    (hkeyed : Keyed e shape) :
    List.Forall₂ (Deleted e) (shape.properties.filter (fun p => decide (p ∈ shape.key))) columns := by
  have hfilter : shape.properties.filter (fun p => decide (p ∈ shape.key)) =
      shape.properties.filter (shape.context e).isKey := by
    apply List.filter_congr
    intro p hp
    rw [Bool.eq_iff_iff, decide_eq_true_iff, h.isKey_iff hp]
  rw [hfilter]
  have hmem : ∀ p ∈ shape.properties.filter (shape.context e).isKey, p ∈ shape.key := by
    intro p hp
    obtain ⟨hp, hkey⟩ := List.mem_filter.1 hp
    exact (h.isKey_iff hp).1 hkey
  apply ((List.forall₂_and_left _ _).2 ⟨hmem, Context.columns_of_deleted hcolumns hstate⟩).imp
  rintro p x ⟨hp, -, hsets, hkey, hwrite⟩
  obtain ⟨v, hv, -⟩ := hkeyed p hp
  rw [keyValue_eq hv] at hsets
  exact ⟨hsets.columnOf, ⟨v, hv, hsets.value⟩, hkey, hwrite⟩

theorem Accepted.describes {c : Command} (h : Accepted s e c t shape) (hapart : Apart shape)
    (hconcrete : t.isAbstract = false) {p : Property} (hkey : p ∈ shape.key) (htype : c.entityType = t.id) :
    Describes e shape c where
  entityType := htype
  table := h.table
  state := h.state
  key := h.key_eq
  columns := by
    cases hstate : e.state with
    | added =>
      have hcolumns := Context.columns_of_added h.columns hstate
      have hall := (List.forall₂_and_left _ _).2 ⟨fun p hp => hp, hcolumns⟩
      exact .added hstate (hall.imp (fun p x hx => hapart.inserted hconcrete hx.1 hx.2))
    | modified => exact .modified hstate (hapart.updated h.columns hstate h.keyed)
    | deleted => exact .deleted hstate (hapart.deleted h.columns hstate h.keyed)
  keyColumns := fun _ hx => h.ne_null_of_mem_keyColumns hx
  writes := h.writeColumns_ne_nil hkey

end

/-- Validation is complete. An entry that is admissible becomes the command that describes it, and any
other is refused. -/
theorem validates_ofEntry {d : SchemaDef} {s : Schema} (hd : Schema.ofDef d = .ok s) (hnames : NamesApart s)
    (e : PendingEntry) :
    (∃ t, ∃ shape : Shape s t, Admissible e shape ∧ ∃ c, ofEntry s e = .ok c ∧ Describes e shape c) ∨
      (¬ ∃ t, ∃ shape : Shape s t, Admissible e shape) ∧
        ∃ reason, ofEntry s e = .error (.invalidArgument "entries" reason) := by
  have hs := valid_of_ofDef hd
  cases hc : ofEntry s e with
  | ok c =>
    left
    obtain ⟨t, ht, -⟩ := bind_eq_ok_iff.1 hc
    obtain ⟨htype, hconcrete⟩ := typeOf_eq_ok_iff.1 ht
    obtain ⟨hid, ⟨shape⟩⟩ := exists_shape hs htype
    have hapart := apart_of_ofDef hd hnames htype shape
    obtain ⟨haccepted, hentityType, -⟩ := (ofEntry_eq_ok_iff ht hid shape).1 hc
    obtain ⟨p, hp⟩ := shape.exists_mem_key hd
    exact ⟨t, shape, (hapart.exists_ofEntry_iff ht hid).1 ⟨c, hc⟩, c, rfl,
      haccepted.describes hapart hconcrete hp hentityType⟩
  | error cause =>
    right
    constructor
    · rintro ⟨t, shape, hadmissible⟩
      have ht := typeOf_eq_ok_iff.2 ⟨hadmissible.type, hadmissible.concrete⟩
      have hapart := apart_of_ofDef hd hnames hadmissible.type shape
      obtain ⟨c, hc'⟩ :=
        (hapart.exists_ofEntry_iff ht (hs.id_eq_of_entityType hadmissible.type)).2 hadmissible
      cases hc.symm.trans hc'
    · obtain ⟨reason, rfl⟩ := onlyRefuses_ofEntry hs e cause hc
      exact ⟨reason, rfl⟩

open Reading

def movedKiwi : PendingEntry where
  entityType := ⟨2⟩
  state := .modified
  current := .ofList [("CountryId", .integer 1), ("FoundOn", .integer 61)]
  loaded := .ofList [("Id", .integer 5), ("CountryId", .integer 1), ("FoundOn", .integer 60)]

def movedKiwiCommand : Command where
  entityType := ⟨2⟩
  table := "Animal"
  state := .modified
  key := [.integer 5]
  columns := [⟨"Id", "Id", .integer 5, true, false⟩, ⟨"CountryId", "CountryId", .integer 1, false, false⟩,
    ⟨"FoundOn", "FoundOn", .integer 61, false, true⟩]

theorem validates_ofEntry_kiwi :
    Schema.ofDef animalDef = .ok animals ∧ NamesApart animals ∧
      ofEntry animals movedKiwi = .ok movedKiwiCommand ∧
      ∃ kiwi, ∃ shape : Shape animals kiwi, Admissible movedKiwi shape ∧
        Describes movedKiwi shape movedKiwiCommand := by
  have hcommand : ofEntry animals movedKiwi = .ok movedKiwiCommand := rfl
  refine ⟨ofDef_animalDef, namesApart_animals, hcommand, ?_⟩
  obtain ⟨kiwi, shape, hadmissible, c, hc, hdescribes⟩ | ⟨-, reason, hrefused⟩ :=
    validates_ofEntry ofDef_animalDef namesApart_animals movedKiwi
  · cases hcommand.symm.trans hc
    exact ⟨kiwi, shape, hadmissible, hdescribes⟩
  · cases hcommand.symm.trans hrefused

end EntityStore.Command
