import EntityStore.Proofs.Precedence.Walk
import EntityStore.Proofs.Schema.Validity
import EntityStore.Save.Batches

/-!
# What must come before what

An entry must precede another one if a foreign key relates them: an inserted principal comes before
the rows that will refer to it, and a row that referred to a deleted principal comes before it. The
graph of a save has exactly these edges.
-/

namespace EntityStore.Batches

open Traversal Schema

def PrincipalTypes (s : Schema) (fk : ForeignKey) (types : List ValueType) : Prop :=
  List.Forall₂ (fun name type => ∃ p, s.property fk.principal name = .ok p ∧ p.type = type)
    fk.principalProperties types

/-- A principal is inserted that the dependent will refer to. -/
structure InsertPrecedes (s : Schema) (fk : ForeignKey) (types : List ValueType)
    (principal dependent : PendingEntry) : Prop where
  added : principal.state = .added
  isPrincipal : s.isAssignable principal.entityType fk.principal = .ok true
  stays : dependent.state = .added ∨ dependent.state = .modified
  isDependent : s.isAssignable dependent.entityType fk.dependent = .ok true
  refers : ∃ key, references? principal.current fk.principalProperties types = some key ∧
    references? (valuesAfter dependent) fk.dependentProperties types = some key

/-- A principal is deleted that the dependent referred to. -/
structure ReleasePrecedes (s : Schema) (fk : ForeignKey) (types : List ValueType)
    (dependent principal : PendingEntry) : Prop where
  deleted : principal.state = .deleted
  isPrincipal : s.isAssignable principal.entityType fk.principal = .ok true
  stood : dependent.state = .deleted ∨ dependent.state = .modified
  isDependent : s.isAssignable dependent.entityType fk.dependent = .ok true
  refers : ∃ key, references? dependent.loaded fk.dependentProperties types = some key ∧
    references? principal.loaded fk.principalProperties types = some key

/-- Entry `i` must precede entry `j`. -/
def MustPrecede (s : Schema) (entries : List PendingEntry) (i j : Nat) : Prop :=
  i ≠ j ∧ ∃ a b, entries[i]? = some a ∧ entries[j]? = some b ∧
    ∃ fk ∈ s.foreignKeys, ∃ types, PrincipalTypes s fk types ∧
      (InsertPrecedes s fk types a b ∨ ReleasePrecedes s fk types a b)

theorem MustPrecede.lt_length {s : Schema} {entries : List PendingEntry} {i j : Nat}
    (h : MustPrecede s entries i j) : i < entries.length ∧ j < entries.length := by
  obtain ⟨_, a, b, ha, hb, _⟩ := h
  exact ⟨(List.getElem?_eq_some_iff.mp ha).1, (List.getElem?_eq_some_iff.mp hb).1⟩

theorem PrincipalTypes.unique {s : Schema} {fk : ForeignKey} {types types' : List ValueType}
    (h : PrincipalTypes s fk types) (h' : PrincipalTypes s fk types') : types = types' := by
  unfold PrincipalTypes at h h'
  generalize fk.principalProperties = names at h h'
  induction h generalizing types' with
  | nil =>
    cases h'
    rfl
  | cons hp _ ih =>
    cases h' with
    | cons hp' htail =>
      obtain ⟨p, hp, rfl⟩ := hp
      obtain ⟨p', hp', rfl⟩ := hp'
      rw [hp] at hp'
      cases hp'
      rw [ih htail]

theorem mem_principals {entries : List (Nat × PendingEntry)} {state : EntryState}
    {values : PendingEntry → Values} {properties : List String} {types : List ValueType} {i : Nat}
    {key : EntityKey} :
    (i, key) ∈ principals entries state values properties types ↔
      ∃ e, (i, e) ∈ entries ∧ e.state = state ∧ references? (values e) properties types = some key := by
  unfold principals
  rw [List.mem_filterMap]
  constructor
  · rintro ⟨⟨j, e⟩, hmem, h⟩
    simp only at h
    split at h
    · rename_i hstate
      obtain ⟨key', hkey', heq⟩ := Option.map_eq_some_iff.mp h
      cases heq
      exact ⟨e, hmem, hstate, hkey'⟩
    · cases h
  · rintro ⟨e, hmem, hstate, hkey⟩
    exact ⟨(i, e), hmem, by simp [hstate, hkey]⟩

theorem mem_matching {candidates : List (Nat × EntityKey)} {key : Option EntityKey} {i n : Nat} :
    n ∈ matching candidates key i ↔ ∃ k, key = some k ∧ (n, k) ∈ candidates ∧ n ≠ i := by
  unfold matching
  cases key with
  | none => simp
  | some k =>
    simp only [List.mem_map, List.mem_filter, Bool.and_eq_true, decide_eq_true_eq, bne_iff_ne,
      Option.some.injEq]
    constructor
    · rintro ⟨⟨m, k'⟩, ⟨hmem, rfl, hne⟩, rfl⟩
      exact ⟨_, rfl, hmem, hne⟩
    · rintro ⟨_, rfl, hmem, hne⟩
      exact ⟨(n, k), ⟨hmem, rfl, hne⟩, rfl⟩

theorem mem_numbered {entries : List PendingEntry} {i : Nat} {e : PendingEntry} :
    (i, e) ∈ numbered entries ↔ entries[i]? = some e := by
  simp only [numbered, List.mem_map, Prod.exists]
  constructor
  · rintro ⟨_, _, hmem, heq⟩
    cases heq
    simpa [List.mem_zipIdx_iff_getElem?] using hmem
  · intro h
    exact ⟨e, i, by simpa [List.mem_zipIdx_iff_getElem?] using h, rfl⟩

theorem mem_edgesAt {fk : ForeignKey} {types : List ValueType} {added deleted : List (Nat × EntityKey)}
    {i a b : Nat} {e : PendingEntry} :
    (a, b) ∈ edgesAt fk types added deleted i e ↔
      ((e.state = .added ∨ e.state = .modified) ∧ b = i ∧
        a ∈ matching added (references? (valuesAfter e) fk.dependentProperties types) i) ∨
      ((e.state = .deleted ∨ e.state = .modified) ∧ a = i ∧
        b ∈ matching deleted (references? e.loaded fk.dependentProperties types) i) := by
  have hincoming : ∀ l : List Nat, (a, b) ∈ l.map (·, i) ↔ b = i ∧ a ∈ l := by
    intro l
    simp only [List.mem_map, Prod.mk.injEq]
    exact ⟨fun ⟨_, hmem, hx, hi⟩ => ⟨hi.symm, hx ▸ hmem⟩, fun ⟨hi, hmem⟩ => ⟨a, hmem, rfl, hi.symm⟩⟩
  have houtgoing : ∀ l : List Nat, (a, b) ∈ l.map (i, ·) ↔ a = i ∧ b ∈ l := by
    intro l
    simp only [List.mem_map, Prod.mk.injEq]
    exact ⟨fun ⟨_, hmem, hi, hx⟩ => ⟨hi.symm, hx ▸ hmem⟩, fun ⟨hi, hmem⟩ => ⟨b, hmem, hi.symm, rfl⟩⟩
  unfold edgesAt
  cases e.state with
  | added => simp only [hincoming]; simp
  | modified => simp only [List.mem_append, hincoming, houtgoing]; simp
  | deleted => simp only [houtgoing]; simp

theorem exists_filterAssignable {s : Schema} (hs : s.Valid) {entries : List PendingEntry}
    (htypes : ∀ e ∈ entries, ∃ t, s.entityType e.entityType = .ok t) (ancestor : TypeId) :
    ∃ r, filterAssignable s (numbered entries) ancestor = .ok r ∧
      ∀ i e, (i, e) ∈ r ↔ entries[i]? = some e ∧ s.isAssignable e.entityType ancestor = .ok true := by
  have hassignable : ∀ x ∈ numbered entries, ∃ b, s.isAssignable x.2.entityType ancestor = .ok b := by
    rintro ⟨i, e⟩ hie
    obtain ⟨t, ht⟩ := htypes e (List.mem_of_getElem? (mem_numbered.mp hie))
    exact hs.exists_isAssignable ht ancestor
  obtain ⟨r, hr, hmem⟩ := exists_filterM hassignable
  exact ⟨r, hr, fun i e => by rw [hmem, mem_numbered]⟩

theorem exists_edgesOf {s : Schema} (hs : s.Valid) {entries : List PendingEntry}
    (htypes : ∀ e ∈ entries, ∃ t, s.entityType e.entityType = .ok t) {fk : ForeignKey}
    (hfk : fk ∈ s.foreignKeys) :
    ∃ types edges, PrincipalTypes s fk types ∧ edgesOf s (numbered entries) fk = .ok edges ∧
      ∀ i j, (i, j) ∈ edges ↔ i ≠ j ∧ ∃ a b, entries[i]? = some a ∧ entries[j]? = some b ∧
        (InsertPrecedes s fk types a b ∨ ReleasePrecedes s fk types a b) := by
  obtain ⟨types, hmap⟩ : ∃ types, fk.principalProperties.mapM (fun name => do
      let p ← s.property fk.principal name
      return p.type) = .ok types := by
    apply exists_mapM
    intro name hname
    obtain ⟨p, hp⟩ := hs.references fk hfk name hname
    exact ⟨p.type, by rw [hp]; rfl⟩
  have hprincipal : PrincipalTypes s fk types := by
    refine (mapM_eq_ok_iff.mp hmap).imp ?_
    intro name type h
    simpa only [bind_eq_ok_iff, pure_eq_ok] using h
  obtain ⟨candidates, hcandidates, hcand⟩ := exists_filterAssignable hs htypes fk.principal
  obtain ⟨dependents, hdependents, hdep⟩ := exists_filterAssignable hs htypes fk.dependent
  have hedges : edgesOf s (numbered entries) fk = .ok (dependents.flatMap (fun x =>
      edgesAt fk types (principals candidates .added (·.current) fk.principalProperties types)
        (principals candidates .deleted (·.loaded) fk.principalProperties types) x.1 x.2)) := by
    rw [edgesOf, hmap, ok_bind, hcandidates, ok_bind, hdependents, ok_bind]
    rfl
  refine ⟨types, _, hprincipal, hedges, ?_⟩
  intro i j
  simp only [List.mem_flatMap, Prod.exists, mem_edgesAt, mem_matching, mem_principals, hcand, hdep]
  constructor
  · rintro ⟨n, e, ⟨he, hdependent⟩, h⟩
    rcases h with ⟨hstate, rfl, key, hkey, ⟨p, ⟨hp, hassign⟩, hadded, hpkey⟩, hne⟩ |
      ⟨hstate, rfl, key, hkey, ⟨p, ⟨hp, hassign⟩, hdeleted, hpkey⟩, hne⟩
    · exact ⟨hne, p, e, hp, he, .inl ⟨hadded, hassign, hstate, hdependent, key, hpkey, hkey⟩⟩
    · exact ⟨hne.symm, e, p, he, hp, .inr ⟨hdeleted, hassign, hstate, hdependent, key, hkey, hpkey⟩⟩
  · rintro ⟨hne, a, b, ha, hb, h⟩
    rcases h with ⟨hadded, hassign, hstate, hdependent, key, hpkey, hkey⟩ |
      ⟨hdeleted, hassign, hstate, hdependent, key, hkey, hpkey⟩
    · exact ⟨j, b, ⟨hb, hdependent⟩, .inl ⟨hstate, rfl, key, hkey, ⟨a, ⟨ha, hassign⟩, hadded, hpkey⟩,
        hne⟩⟩
    · exact ⟨i, a, ⟨ha, hdependent⟩, .inr ⟨hstate, rfl, key, hkey, ⟨b, ⟨hb, hassign⟩, hdeleted, hpkey⟩,
        hne.symm⟩⟩

/-- The graph of a save relates the entries that must precede one another. -/
theorem exists_precedence {s : Schema} (hs : s.Valid) {entries : List PendingEntry}
    (htypes : ∀ e ∈ entries, ∃ t, s.entityType e.entityType = .ok t) :
    ∃ g, precedence s entries = .ok g ∧ g.size = entries.length ∧
      ∀ i j, g.Edge i j ↔ MustPrecede s entries i j := by
  obtain ⟨parts, hparts⟩ : ∃ parts, s.foreignKeys.mapM (edgesOf s (numbered entries)) = .ok parts := by
    apply exists_mapM
    intro fk hfk
    obtain ⟨_, edges, _, hedges, _⟩ := exists_edgesOf hs htypes hfk
    exact ⟨edges, hedges⟩
  refine ⟨.ofEdges entries.length parts.flatten, ?_, rfl, ?_⟩
  · rw [precedence, hparts]
    rfl
  have hpart := mapM_eq_ok_iff.mp hparts
  intro i j
  rw [Precedence.edge_ofEdges, List.mem_flatten]
  constructor
  · rintro ⟨edges, hedges, hmem⟩
    obtain ⟨fk, hfk, hget⟩ := exists_of_mem_right hpart hedges
    obtain ⟨types, edges, htypes, hof, hiff⟩ := exists_edgesOf hs htypes hfk
    rw [hof] at hget
    cases hget
    obtain ⟨hne, a, b, ha, hb, h⟩ := (hiff i j).mp hmem
    exact ⟨hne, a, b, ha, hb, fk, hfk, types, htypes, h⟩
  · rintro ⟨hne, a, b, ha, hb, fk, hfk, types, htypes', h⟩
    obtain ⟨types', edges, hsame, hof, hiff⟩ := exists_edgesOf hs htypes hfk
    obtain rfl := htypes'.unique hsame
    obtain ⟨part, hmem, hget⟩ := exists_of_mem_left hpart hfk
    rw [hof] at hget
    cases hget
    exact ⟨_, hmem, (hiff i j).mpr ⟨hne, a, b, ha, hb, h⟩⟩

end EntityStore.Batches
