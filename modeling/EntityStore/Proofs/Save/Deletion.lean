import EntityStore.Proofs.Save.Columns
import EntityStore.Proofs.Save.Stratification
import EntityStore.Proofs.Schema.Hierarchy

/-!
# Rows that go with their principals

A deleted row is found by its identifying values, the loaded ones or else the current ones, but the order
of a save is that of the loaded values alone. A row is deleted before a deleted principal that it refers to
if all values that say so are loaded ones, and otherwise this reference does not order the two.
-/

namespace EntityStore.Batches

open Command Schema Traversal

/-- The identifying value of an entry for a property, in a type; a null identifies nothing. -/
def identifiedAs? (e : PendingEntry) (x : String × ValueType) : Option Value := do
  let v ← e.identifying? x.1
  if v.isNull then none else v.convert? x.2

theorem identifiedAs?_eq_some_iff {e : PendingEntry} {x : String × ValueType} {w : Value} :
    identifiedAs? e x = some w ↔
      ∃ v, e.identifying? x.1 = some v ∧ v ≠ .null ∧ v.convert? x.2 = some w := by
  rw [identifiedAs?]
  cases e.identifying? x.1 with
  | none => simp
  | some v => by_cases hnull : v = .null <;> simp [Value.isNull_iff, hnull]

def identified? (e : PendingEntry) (properties : List String) (types : List ValueType) : Option EntityKey :=
  (properties.zip types).mapM (identifiedAs? e)

def LoadedAt (e : PendingEntry) (properties : List String) (types : List ValueType) : Prop :=
  ∀ x ∈ properties.zip types, e.loaded.contains x.1 = true

instance (e : PendingEntry) (properties : List String) (types : List ValueType) :
    Decidable (LoadedAt e properties types) :=
  inferInstanceAs (Decidable (∀ x ∈ properties.zip types, e.loaded.contains x.1 = true))

theorem references?_loaded_eq_some_iff {e : PendingEntry} (hstate : e.state = .deleted)
    {properties : List String} {types : List ValueType} {key : EntityKey} :
    references? e.loaded properties types = some key ↔
      LoadedAt e properties types ∧ identified? e properties types = some key := by
  rw [references?, identified?, mapM_eq_some_iff, mapM_eq_some_iff, LoadedAt, ← List.forall₂_and_left]
  have hstep : ∀ (x : String × ValueType) (w : Value),
      ((do let v ← e.loaded.get? x.1; if v.isNull then none else v.convert? x.2) : Option Value) = some w ↔
        e.loaded.contains x.1 = true ∧ identifiedAs? e x = some w := by
    intro x w
    rw [identifiedAs?, PendingEntry.identifying?, hstate, OrderedMap.contains]
    cases e.loaded.get? x.1 <;> simp
  exact ⟨fun h => h.imp (fun x w => (hstep x w).1), fun h => h.imp (fun x w => (hstep x w).2)⟩

end EntityStore.Batches

namespace EntityStore.Command

open Schema Traversal

def keyValue? (c : Command) (name : String) : Option Value :=
  (c.keyColumns.find? (·.property == name)).map (·.value)

section

variable {s : Schema} {e : PendingEntry} {c : Command} {t : EntityType} {shape : Shape s t}

theorem Shape.exists_property_of_mem_key (shape : Shape s t) {p : Property} (hp : p ∈ shape.key) :
    s.property shape.root.id p.name = .ok p := by
  have hkey := shape.keyProperties_eq
  rw [keyProperties, shape.root_eq, ok_bind] at hkey
  obtain ⟨name, -, hname⟩ := exists_of_mem_right (mapM_eq_ok_iff.1 hkey) hp
  obtain ⟨all, -, hfind⟩ := property_eq_ok_iff.1 hname
  have hsame : p.name = name := by simpa using List.find?_some hfind
  rwa [hsame]

theorem Shape.find?_property {name : String} {p : Property}
    (hp : (shape.properties.filter (shape.context e).isKey).find? (·.name == name) = some p) :
    shape.properties.find? (·.name == name) = some p := by
  have hname : p.name = name := by simpa using List.find?_some hp
  obtain ⟨-, hkey⟩ := List.mem_filter.1 (List.mem_of_find?_eq_some hp)
  rw [← hp, List.find?_filter]
  congr 1
  funext q
  by_cases hq : q.name = name
  · have hqkey : (shape.context e).isKey q = true := by
      rw [Context.isKey, hq, ← hname]
      exact hkey
    simp [hq, hqkey]
  · simp [hq]

theorem Accepted.keyValue?_eq_some (hs : s.Ordered) (h : Accepted s e c t shape) {name : String} {w : Value}
    (hw : c.keyValue? name = some w) :
    ∃ p, s.property shape.root.id name = .ok p ∧
      ∃ v, e.identifying? name = some v ∧ v ≠ .null ∧ v.convert? p.type = some w := by
  obtain ⟨x, hx, rfl⟩ := Option.map_eq_some_iff.1 hw
  have hproperty : ∀ (p : Property) (x : ColumnChange),
      (∃ v, e.identifying? p.name = some v ∧ v ≠ .null ∧ Sets p v x) →
        (x.property == name) = (p.name == name) := by
    rintro p x ⟨v, -, -, hsets⟩
    rw [hsets.property]
  obtain ⟨q, hq, v, hv, hnull, hsets⟩ := exists_find?_of_forall₂ h.keyColumns hproperty hx
  obtain rfl : q.name = name := by simpa using List.find?_some hq
  obtain ⟨-, hqkey⟩ := List.mem_filter.1 (List.mem_of_find?_eq_some hq)
  obtain ⟨k, hk, hkname⟩ := Shape.isKey_context.1 hqkey
  have hroot := shape.exists_property_of_mem_key hk
  rw [hkname] at hroot
  have ht : s.entityType t.id = .ok t := h.type_id ▸ h.type
  have hqproperty := property_eq_ok_iff.2 ⟨_, shape.properties_eq, Shape.find?_property hq⟩
  obtain rfl : q = k := Except.ok.inj (hqproperty.symm.trans (hs.property_of_root ht shape.root_eq hroot))
  exact ⟨q, hroot, v, hv, hnull, hsets.value⟩

end

end EntityStore.Command

namespace EntityStore.Batches

open Command Schema Traversal

/-- A deleted row refers to a deleted principal: its values for a foreign key, read as those of a key are, are
the values by which the principal is found. -/
structure RefersTo (s : Schema) (fk : ForeignKey) (types : List ValueType) (dependent principal : PendingEntry)
    (c : Command) : Prop where
  deleted : dependent.state = .deleted
  isDependent : s.isAssignable dependent.entityType fk.dependent = .ok true
  principalDeleted : principal.state = .deleted
  isPrincipal : s.isAssignable principal.entityType fk.principal = .ok true
  refers : ∃ key, identified? dependent fk.dependentProperties types = some key ∧
    fk.principalProperties.mapM c.keyValue? = some key

section

variable {s : Schema} {fk : ForeignKey} {types : List ValueType} {a b : PendingEntry} {c : Command}

theorem identified?_of_keyValue? (hs : s.Valid) (hc : ofEntry s b = .ok c) (htypes : PrincipalTypes s fk types)
    (hprincipal : s.isAssignable b.entityType fk.principal = .ok true) {key : EntityKey}
    (hkey : fk.principalProperties.mapM c.keyValue? = some key) :
    identified? b fk.principalProperties types = some key := by
  obtain ⟨t, shape, h⟩ := exists_accepted hs hc
  have ht : s.entityType t.id = .ok t := h.type_id ▸ h.type
  obtain ⟨u, hder, hu⟩ := (hs.isAssignable_iff ht fk.principal).1 (h.type_id ▸ hprincipal)
  have hfound := hs.found_of_derives ht hder
  have hroot : s.root u.id = .ok shape.root := (hs.root_eq_of_derives ht hder).trans shape.root_eq
  have hstep : ∀ (name : String) (type : ValueType) (w : Value), c.keyValue? name = some w →
      (∃ p, s.property fk.principal name = .ok p ∧ p.type = type) → identifiedAs? b (name, type) = some w := by
    rintro name type w hw ⟨p, hp, rfl⟩
    obtain ⟨q, hq, hidentified⟩ := h.keyValue?_eq_some hs.toOrdered hw
    rw [← hu] at hp
    obtain rfl : p = q := Except.ok.inj (hp.symm.trans (hs.property_of_root hfound hroot hq))
    exact identifiedAs?_eq_some_iff.2 hidentified
  rw [mapM_eq_some_iff] at hkey
  rw [identified?, mapM_eq_some_iff]
  unfold PrincipalTypes at htypes
  generalize fk.principalProperties = names at hkey htypes
  induction hkey generalizing types with
  | nil => exact List.Forall₂.nil
  | cons hw _ ih =>
    cases htypes with
    | cons htype htypes => exact .cons (hstep _ _ _ hw htype) (ih htypes)

/-- A reference orders two deletions exactly if both its sides are loaded. -/
theorem RefersTo.releasePrecedes_iff (h : RefersTo s fk types a b c) (hs : s.Valid) (hc : ofEntry s b = .ok c)
    (htypes : PrincipalTypes s fk types) :
    ReleasePrecedes s fk types a b ↔
      LoadedAt a fk.dependentProperties types ∧ LoadedAt b fk.principalProperties types := by
  obtain ⟨key, ha, hkey⟩ := h.refers
  have hb := identified?_of_keyValue? hs hc htypes h.isPrincipal hkey
  constructor
  · intro hrelease
    obtain ⟨key', ha', hb'⟩ := hrelease.refers
    exact ⟨((references?_loaded_eq_some_iff h.deleted).1 ha').1,
      ((references?_loaded_eq_some_iff h.principalDeleted).1 hb').1⟩
  · rintro ⟨hloaded, hloaded'⟩
    exact ⟨h.principalDeleted, h.isPrincipal, Or.inl h.deleted, h.isDependent, key,
      (references?_loaded_eq_some_iff h.deleted).2 ⟨hloaded, ha⟩,
      (references?_loaded_eq_some_iff h.principalDeleted).2 ⟨hloaded', hb⟩⟩

end

/-- How a plan orders deletions by the rows that they target: by a reference with loaded values on both sides
the row comes strictly before its principal, and a reference with a value that is not loaded orders nothing. -/
structure OrdersDeletions (s : Schema) (entries : List PendingEntry) (commands : List Command)
    (plan : List (List Nat)) : Prop where
  precedes_iff : ∀ fk types (j : Nat) a b c, PrincipalTypes s fk types → entries[j]? = some b →
    commands[j]? = some c → RefersTo s fk types a b c →
      (ReleasePrecedes s fk types a b ↔
        LoadedAt a fk.dependentProperties types ∧ LoadedAt b fk.principalProperties types)
  separated : ∀ fk ∈ s.foreignKeys, ∀ types (i j : Nat) a b c, PrincipalTypes s fk types → i ≠ j →
    entries[i]? = some a → entries[j]? = some b → commands[j]? = some c → RefersTo s fk types a b c →
      LoadedAt a fk.dependentProperties types → LoadedAt b fk.principalProperties types →
      ∃ (p q : Nat) (m n : List Nat), p < q ∧ plan[p]? = some m ∧ plan[q]? = some n ∧ i ∈ m ∧ j ∈ n

theorem deletions_ordered {d : SchemaDef} {s : Schema} (hd : Schema.ofDef d = .ok s) {options : StoreOptions}
    {entries : List PendingEntry} {batches : List Batch} (h : ofEntries s options entries = .ok batches) :
    ∃ commands plan, List.Forall₂ (fun e c => ofEntry s e = .ok c) entries commands ∧
      List.Forall₂ (List.Forall₂ (fun n c => commands[n]? = some c)) plan batches ∧
      plan.flatten.Perm (List.range entries.length) ∧ OrdersDeletions s entries commands plan := by
  have hs := valid_of_ofDef hd
  obtain ⟨commands, plan, hcommands, -, hplan, hstratified⟩ := exists_plan hs h
  have hiff : ∀ fk types (j : Nat) a b c, PrincipalTypes s fk types → entries[j]? = some b →
      commands[j]? = some c → RefersTo s fk types a b c →
        (ReleasePrecedes s fk types a b ↔
          LoadedAt a fk.dependentProperties types ∧ LoadedAt b fk.principalProperties types) := by
    intro fk types j a b c htypes hb hc hrefers
    obtain ⟨hjentries, hb'⟩ := List.getElem?_eq_some_iff.1 hb
    obtain ⟨hjcommands, hc'⟩ := List.getElem?_eq_some_iff.1 hc
    have hof : ofEntry s b = .ok c := hb' ▸ hc' ▸ hcommands.get hjentries hjcommands
    exact hrefers.releasePrecedes_iff hs hof htypes
  refine ⟨commands, plan, hcommands, hplan, hstratified.perm, hiff, ?_⟩
  intro fk hfk types i j a b c htypes hne ha hb hc hrefers hdependent hprincipal
  have hrelease := (hiff fk types j a b c htypes hb hc hrefers).2 ⟨hdependent, hprincipal⟩
  have hprecedes : MustPrecede s entries i j := ⟨hne, a, b, ha, hb, fk, hfk, types, htypes, Or.inr hrelease⟩
  exact hstratified.separated (fun i j hij => hij.lt_length) hprecedes

def loadedBlog : PendingEntry := ⟨⟨0⟩, .deleted, .empty, .ofList [("Id", .integer 1)]⟩

def loadedPost : PendingEntry := ⟨⟨1⟩, .deleted, .empty, .ofList [("Id", .integer 10), ("BlogId", .integer 1)]⟩

/-- The blog is listed first. -/
theorem deletions_ordered_blogs :
    ∃ batches fk types c, Schema.ofDef Schema.blogDef = .ok Schema.blogs ∧ fk ∈ Schema.blogs.foreignKeys ∧
      PrincipalTypes Schema.blogs fk types ∧ ofEntry Schema.blogs loadedBlog = .ok c ∧
      RefersTo Schema.blogs fk types loadedPost loadedBlog c ∧
      LoadedAt loadedPost fk.dependentProperties types ∧ LoadedAt loadedBlog fk.principalProperties types ∧
      ofEntries Schema.blogs .standard [loadedBlog, loadedPost] = .ok batches ∧
      batches.map (·.map (·.table)) = [["Post"], ["Blog"]] ∧
      ∃ commands plan,
        List.Forall₂ (fun e c => ofEntry Schema.blogs e = .ok c) [loadedBlog, loadedPost] commands ∧
        List.Forall₂ (List.Forall₂ (fun n c => commands[n]? = some c)) plan batches ∧
        plan.flatten.Perm (List.range 2) ∧
        OrdersDeletions Schema.blogs [loadedBlog, loadedPost] commands plan :=
  ⟨_, ⟨⟨1⟩, ⟨0⟩, ["BlogId"], ["Id"]⟩, [.integer], _, Schema.ofDef_blogDef, by decide, .cons ⟨_, rfl, rfl⟩ .nil, rfl,
    ⟨rfl, rfl, rfl, rfl, _, rfl, rfl⟩, by decide, by decide, rfl, rfl,
    deletions_ordered Schema.ofDef_blogDef rfl⟩

/-! ### Deletions side by side -/

def currentBlog : PendingEntry := ⟨⟨0⟩, .deleted, .ofList [("Id", .integer 1)], .empty⟩

/-- A post goes in one batch with the blog that it refers to, and after it, if the key of the blog is not
loaded. -/
theorem together_blogs :
    ∃ fk types key c c', Schema.ofDef Schema.blogDef = .ok Schema.blogs ∧ fk ∈ Schema.blogs.foreignKeys ∧
      PrincipalTypes Schema.blogs fk types ∧
      Schema.blogs.keyProperties fk.principal = .ok key ∧ fk.principalProperties = key.map (·.name) ∧
      ofEntry Schema.blogs currentBlog = .ok c ∧ ofEntry Schema.blogs loadedPost = .ok c' ∧
      RefersTo Schema.blogs fk types loadedPost currentBlog c ∧
      ofEntries Schema.blogs .standard [currentBlog, loadedPost] = .ok [[c, c']] :=
  ⟨⟨⟨1⟩, ⟨0⟩, ["BlogId"], ["Id"]⟩, [.integer], _, _, _, Schema.ofDef_blogDef, by decide, .cons ⟨_, rfl, rfl⟩ .nil, rfl,
    rfl, rfl, rfl, ⟨rfl, rfl, rfl, rfl, _, rfl, rfl⟩, rfl⟩

end EntityStore.Batches
