import Mathlib.Data.List.Nodup
import EntityStore.Proofs.Schema.Ancestry

/-!
# Schemas of accepted definitions

A definition that is accepted gives a schema whose bases are in order and in which every name of a
key, a discriminator or the principal's side of a foreign key is declared. On such a schema the
queries for keys, discriminators and tables succeed for every type that a number finds.
-/

namespace EntityStore.Schema

open Traversal

/-- Bases are in order, and the names in keys, discriminators and foreign keys are declared. -/
structure Valid (s : Schema) : Prop extends Ordered s where
  references : ∀ fk ∈ s.foreignKeys, ∀ name ∈ fk.principalProperties,
    ∃ p, s.property fk.principal name = .ok p
  keys : ∀ r ∈ s.roots, ∀ name ∈ r.key, ∃ p, s.property r.id name = .ok p
  discriminators : ∀ r ∈ s.roots, ∃ p, s.discriminator? r.id = .ok p

theorem upward_foreignKeys (s : Schema) (fks : List ForeignKey) (steps : Nat) (id : TypeId) :
    ({ s with foreignKeys := fks } : Schema).upward steps id = s.upward steps id := by
  induction steps generalizing id with
  | zero => rfl
  | succ steps ih =>
    have hid : ({ s with foreignKeys := fks } : Schema).entityType id = s.entityType id := rfl
    rw [upward, upward, hid]
    cases s.entityType id with
    | error e => rfl
    | ok t =>
      simp only [ok_bind]
      cases t.base with
      | none => rfl
      | some b => simp only [ih]

theorem property_foreignKeys (s : Schema) (fks : List ForeignKey) (id : TypeId) (name : String) :
    ({ s with foreignKeys := fks } : Schema).property id name = s.property id name := by
  simp only [property, properties, baseChain, upward_foreignKeys]
  rfl

/-- The types and the properties that a foreign key names are there. -/
structure Resolved (s : Schema) (fk : ForeignKey) : Prop where
  dependent : ∃ t ∈ s.types, t.id = fk.dependent
  principal : ∃ t ∈ s.types, t.id = fk.principal
  dependentProperties : ∀ name ∈ fk.dependentProperties, ∃ p, s.property fk.dependent name = .ok p
  principalProperties : ∀ name ∈ fk.principalProperties, ∃ p, s.property fk.principal name = .ok p

theorem Resolved.with_foreignKeys {s : Schema} {fk : ForeignKey} (h : s.Resolved fk)
    (fks : List ForeignKey) : ({ s with foreignKeys := fks } : Schema).Resolved fk where
  dependent := h.dependent
  principal := h.principal
  dependentProperties name hname := by
    rw [property_foreignKeys]
    exact h.dependentProperties name hname
  principalProperties name hname := by
    rw [property_foreignKeys]
    exact h.principalProperties name hname

theorem mem_of_entityTypeByName {s : Schema} {name : String} {t : EntityType}
    (h : s.entityTypeByName name = .ok t) : t ∈ s.types := by
  unfold entityTypeByName at h
  split at h
  · rename_i hfind
    cases h
    exact List.mem_of_find?_eq_some hfind
  · cases h

theorem addForeignKey_eq_ok {s s' : Schema} {d : ForeignKeyDef} (h : s.addForeignKey d = .ok s') :
    ∃ fk, s' = { s with foreignKeys := s.foreignKeys ++ [fk] } ∧ s.Resolved fk := by
  simp only [addForeignKey, bind_eq_ok_iff, pure_eq_ok, List.forM_eq_forM] at h
  obtain ⟨dependent, hdependent, principal, hprincipal, _, hnames, _, hnames', rfl⟩ := h
  refine ⟨_, rfl, ?_⟩
  constructor
  case dependent => exact ⟨dependent, mem_of_entityTypeByName hdependent, rfl⟩
  case principal => exact ⟨principal, mem_of_entityTypeByName hprincipal, rfl⟩
  case dependentProperties =>
    intro name hname
    exact discard_eq_ok_iff.mp (forM_eq_ok_iff.mp hnames name hname)
  case principalProperties =>
    intro name hname
    exact discard_eq_ok_iff.mp (forM_eq_ok_iff.mp hnames' name hname)

theorem addForeignKeys_eq_ok {s s' : Schema} {ds : List ForeignKeyDef}
    (h : s.addForeignKeys ds = .ok s') (hs : s.foreignKeys = []) :
    s'.types = s.types ∧ ∀ fk ∈ s'.foreignKeys, s'.Resolved fk := by
  refine foldlM_preserves (P := fun s' : Schema => s'.types = s.types ∧
    ∀ fk ∈ s'.foreignKeys, s'.Resolved fk) h ⟨rfl, by simp [hs]⟩ ?_
  rintro d _ s₁ s₂ ⟨htypes, hfks⟩ hadd
  obtain ⟨fk, rfl, hfk⟩ := addForeignKey_eq_ok hadd
  refine ⟨htypes, ?_⟩
  intro fk' hfk'
  rcases List.mem_append.mp hfk' with hmem | hmem
  · exact (hfks fk' hmem).with_foreignKeys _
  · obtain rfl := List.mem_singleton.mp hmem
    exact hfk.with_foreignKeys _

def concrete (types : List EntityType) : List EntityType := types.filter (fun t => !t.isAbstract)

theorem validateRoot_eq_ok_iff {s : Schema} {r : EntityType} :
    s.validateRoot r = .ok () ↔
      r.key ≠ [] ∧ (∀ name ∈ r.key, ∃ p, s.property r.id name = .ok p) ∧
        ∃ types d, s.hierarchy r.id = .ok types ∧ s.discriminator? r.id = .ok d ∧
          (d = none → types.length ≤ 1) ∧
          ∀ p, d = some p → canDiscriminate p.type = true ∧
            validateDiscriminators r p [] (concrete types) = .ok () := by
  unfold validateRoot
  simp only [List.isEmpty_iff]
  by_cases hkey : r.key = []
  · simp [hkey, throw, throwThe, MonadExceptOf.throw]
  · rw [if_neg hkey]
    simp only [bind_eq_ok_iff, List.forM_eq_forM]
    constructor
    · rintro ⟨_, hnames, types, htypes, d, hd, h⟩
      refine ⟨hkey, fun name hname => discard_eq_ok_iff.1 (forM_eq_ok_iff.1 hnames name hname), types, d,
        htypes, hd, ?_⟩
      cases d with
      | none =>
        simp only at h
        split at h
        · cases h
        · rename_i hlength
          constructor
          · intro _
            omega
          · intro p hp
            cases hp
      | some p =>
        simp only at h
        split at h
        · cases h
        · rename_i hkind
          constructor
          · intro hnone
            cases hnone
          · rintro p' hp
            cases hp
            exact ⟨by simpa using hkind, h⟩
    · rintro ⟨-, hnames, types, d, htypes, hd, hnone, hsome⟩
      refine ⟨(), forM_eq_ok_iff.2 (fun name hname => discard_eq_ok_iff.2 (hnames name hname)), types,
        htypes, d, hd, ?_⟩
      cases d with
      | none =>
        have hlength := hnone rfl
        simp only
        rw [if_neg (by omega)]
        rfl
      | some p =>
        obtain ⟨hkind, h⟩ := hsome p rfl
        simp only [hkind]
        exact h

theorem foreignKeys_addTypes {s s' : Schema} {ds : List EntityTypeDef} (h : s.addTypes ds = .ok s') :
    s'.foreignKeys = s.foreignKeys := by
  apply foldlM_preserves (P := fun s' : Schema => s'.foreignKeys = s.foreignKeys) h rfl
  intro d _ s₁ s₂ hs hd
  simp only [bind_eq_ok_iff, pure_eq_ok] at hd
  obtain ⟨⟨id, s₃⟩, hadd, rfl⟩ := hd
  obtain ⟨t, rfl, _⟩ := addType_eq_ok hadd
  exact hs

theorem valid_of_ofDef {d : SchemaDef} {s : Schema} (h : ofDef d = .ok s) : s.Valid := by
  simp only [ofDef, register, bind_eq_ok_iff, pure_eq_ok] at h
  obtain ⟨s', ⟨s₁, htypes, hfks⟩, _, hvalid, rfl⟩ := h
  have hordered := ordered_empty.addTypes htypes
  obtain ⟨hsame, hrefs⟩ := addForeignKeys_eq_ok hfks (foreignKeys_addTypes htypes)
  have hroots : ∀ r ∈ s'.roots, s'.validateRoot r = .ok () := by
    rw [validate, List.forM_eq_forM] at hvalid
    exact forM_eq_ok_iff.mp hvalid
  constructor
  · constructor
    · rw [hsame]
      exact hordered.id_eq
    · rw [hsame]
      exact hordered.base_lt
  · exact fun fk hfk => (hrefs fk hfk).principalProperties
  · exact fun r hr => (validateRoot_eq_ok_iff.1 (hroots r hr)).2.1
  · intro r hr
    obtain ⟨-, -, -, d, -, hd, -⟩ := validateRoot_eq_ok_iff.1 (hroots r hr)
    exact ⟨d, hd⟩

theorem key_ne_nil_of_ofDef {d : SchemaDef} {s : Schema} (h : ofDef d = .ok s) {r : EntityType}
    (hr : r ∈ s.roots) : r.key ≠ [] := by
  simp only [ofDef, bind_eq_ok_iff, pure_eq_ok] at h
  obtain ⟨s', -, _, hvalid, rfl⟩ := h
  rw [validate, List.forM_eq_forM] at hvalid
  exact (validateRoot_eq_ok_iff.1 (forM_eq_ok_iff.1 hvalid r hr)).1

theorem resolved_of_ofDef {d : SchemaDef} {s : Schema} (h : ofDef d = .ok s) {fk : ForeignKey}
    (hfk : fk ∈ s.foreignKeys) : s.Resolved fk := by
  simp only [ofDef, register, bind_eq_ok_iff, pure_eq_ok] at h
  obtain ⟨s', ⟨s₁, htypes, hfks⟩, _, -, rfl⟩ := h
  exact (addForeignKeys_eq_ok hfks (foreignKeys_addTypes htypes)).2 fk hfk

theorem nodup_names_addTypes {s s' : Schema} {ds : List EntityTypeDef} (hs : (s.types.map (·.name)).Nodup)
    (h : s.addTypes ds = .ok s') : (s'.types.map (·.name)).Nodup := by
  apply foldlM_preserves (P := fun s' : Schema => (s'.types.map (·.name)).Nodup) h hs
  intro d _ s₁ s₂ hs hd
  simp only [bind_eq_ok_iff, pure_eq_ok] at hd
  obtain ⟨⟨id, s₃⟩, hadd, rfl⟩ := hd
  obtain ⟨t, rfl, -, -, hnew⟩ := addType_eq_ok hadd
  rw [List.map_append, List.nodup_append]
  refine ⟨hs, List.nodup_singleton t.name, ?_⟩
  rintro name hname _ ht rfl
  rw [List.mem_singleton.1 ht] at hname
  exact hnew hname

theorem nodup_names_of_ofDef {d : SchemaDef} {s : Schema} (h : ofDef d = .ok s) :
    (s.types.map (·.name)).Nodup := by
  simp only [ofDef, register, bind_eq_ok_iff, pure_eq_ok] at h
  obtain ⟨s', ⟨s₁, htypes, hfks⟩, _, -, rfl⟩ := h
  rw [(addForeignKeys_eq_ok hfks (foreignKeys_addTypes htypes)).1]
  exact nodup_names_addTypes (s := empty) List.nodup_nil htypes

def blogDef : SchemaDef :=
  let number (name : String) (nullable : Bool) : Property :=
    { name := name, column := none, type := .integer, nullable := nullable }
  let type (name : String) (properties : List Property) : EntityTypeDef :=
    { name := name, base := none, isAbstract := false, properties := properties, key := ["Id"]
      table := none, discriminatorProperty := none, discriminatorValue := none }
  { entityTypes := [type "Blog" [number "Id" false],
      type "Post" [number "Id" false, number "BlogId" true]]
    foreignKeys := [⟨"Post", "Blog", ["BlogId"], ["Id"]⟩] }

def blogs : Schema :=
  let number (name : String) (nullable : Bool) : Property :=
    { name := name, column := none, type := .integer, nullable := nullable }
  let type (id : TypeId) (name : String) (properties : List Property) : EntityType :=
    { id := id, name := name, base := none, isAbstract := false, properties := properties
      key := ["Id"], table := none, discriminatorProperty := none, discriminatorValue := none }
  { types := [type ⟨0⟩ "Blog" [number "Id" false],
      type ⟨1⟩ "Post" [number "Id" false, number "BlogId" true]]
    foreignKeys := [⟨⟨1⟩, ⟨0⟩, ["BlogId"], ["Id"]⟩] }

theorem ofDef_blogDef : ofDef blogDef = .ok blogs := rfl

/-- The key of a valid schema: its properties are declared on the root, so they are among the
properties of every type of the hierarchy. -/
theorem Valid.exists_keyProperties {s : Schema} (hs : s.Valid) {id : TypeId} {t : EntityType}
    (ht : s.entityType id = .ok t) :
    ∃ r key all, s.root id = .ok r ∧ r ∈ s.roots ∧ s.entityType r.id = .ok r ∧
      s.keyProperties r.id = .ok key ∧ s.keyProperties id = .ok key ∧
      s.properties id = .ok all ∧ ∀ p ∈ key, p ∈ all := by
  obtain ⟨r, rest, hroot, hmem, hr, hall⟩ := hs.exists_properties ht
  obtain ⟨key, hkey⟩ := exists_mapM (hs.keys r hmem)
  have hkeyOf : ∀ i, s.root i = .ok r → s.keyProperties i = .ok key := by
    intro i hi
    rw [keyProperties, hi]
    exact hkey
  refine ⟨r, key, _, hroot, hmem, hr, hkeyOf _ (root_of_root hmem hr), hkeyOf _ hroot, hall, ?_⟩
  intro p hp
  obtain ⟨name, _, hname⟩ := exists_of_mem_right (mapM_eq_ok_iff.mp hkey) hp
  obtain ⟨declared, hdeclared, hfind⟩ := property_eq_ok_iff.mp hname
  rw [properties_of_root hmem hr] at hdeclared
  cases hdeclared
  exact List.mem_append_left _ (List.mem_of_find?_eq_some hfind)

theorem Valid.exists_discriminator {s : Schema} (hs : s.Valid) {id : TypeId} {t : EntityType}
    (ht : s.entityType id = .ok t) : ∃ p, s.discriminator? id = .ok p := by
  obtain ⟨r, _, hroot, hmem, hr, _⟩ := hs.exists_baseChain ht
  obtain ⟨p, hp⟩ := hs.discriminators r hmem
  refine ⟨p, ?_⟩
  rw [discriminator?, hroot]
  rwa [discriminator?, root_of_root hmem hr] at hp

/-- No type has two properties of one name. -/
def NamesApart (s : Schema) : Prop :=
  ∀ t ∈ s.types, ∀ all, s.properties t.id = .ok all → (all.map (·.name)).Nodup

/-- No type has two properties in one column. -/
def ColumnsApart (s : Schema) : Prop :=
  ∀ t ∈ s.types, ∀ all, s.properties t.id = .ok all → (all.map (·.columnName)).Nodup

/-- No two roots share a table. -/
def TablesApart (s : Schema) : Prop := ∀ r ∈ s.roots, ∀ r' ∈ s.roots, tableOf r = tableOf r' → r = r'

theorem tableName_of_root {s : Schema} {id : TypeId} {r : EntityType} (hr : s.root id = .ok r) :
    s.tableName id = .ok (tableOf r) := by
  rw [tableName, hr]
  rfl

end EntityStore.Schema
