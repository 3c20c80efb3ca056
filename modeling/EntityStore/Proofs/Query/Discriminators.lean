import EntityStore.Proofs.Query.Columns
import EntityStore.Proofs.Query.Restriction

/-!
# Discriminators

The restriction of a source follows from its type: an equation on the discriminator column for each
concrete type. A materializer is assembled with this restriction, and a source that has none is
restricted in the same way.
-/

namespace EntityStore.Reading

open Traversal

def valueTest (source : SourceId) (p : Property) (v : Value) : SqlExpr :=
  .equals (Plan.columnExpr source p) (.literal v)

def restriction? (s : Schema) (id : TypeId) (source : SourceId) : Option SqlExpr :=
  (discriminators? s id).bind (fun d => SqlExpr.any? (d.2.map (valueTest source d.1)))

/-- Where there is a discriminator, it has values to be told by. -/
def Settled (s : Schema) (id : TypeId) : Prop :=
  ∀ (p : Property) (values : List Value), discriminators? s id = some (p, values) → values ≠ []

theorem holds_restriction? {s : Schema} {x : QuerySource} {e : SqlExpr}
    (h : restriction? s x.entityType x.id = some e) (parameters : Parameters) {c : Combination}
    (hx : x.id ∈ c.map Prod.fst) :
    e.holds parameters (bindingOf c) = .ok (isOfType s c x) := by
  obtain ⟨⟨p, values⟩, hd, hany⟩ := Option.bind_eq_some_iff.mp h
  rw [isOfType, hd]
  refine SqlExpr.holds_any? hany ?_
  intro v _
  exact holds_equals (eval_column hx p.columnName) rfl

theorem isOfType_of_restriction?_eq_none {s : Schema} {x : QuerySource}
    (hsettled : Settled s x.entityType) (h : restriction? s x.entityType x.id = none)
    (c : Combination) : isOfType s c x = true := by
  rw [isOfType]
  cases hd : discriminators? s x.entityType with
  | none => rfl
  | some d =>
    obtain ⟨p, values⟩ := d
    rw [restriction?, hd] at h
    cases values with
    | nil => exact absurd rfl (hsettled p [] hd)
    | cons v values => cases h

section

variable {s : Schema} {id : TypeId} {types : List EntityType} {root : EntityType}

theorem discriminators?_eq_none (htypes : s.concreteTypes id = .ok types) (hroot : s.root id = .ok root)
    (h : types.map (·.id) = [root.id]) : discriminators? s id = none := by
  rw [discriminators?, htypes, hroot]
  rcases s.discriminator? id with _ | _ | p
  · rfl
  · rfl
  · exact if_pos h

theorem discriminators?_eq_some (htypes : s.concreteTypes id = .ok types)
    (hroot : s.root id = .ok root) (h : types.map (·.id) ≠ [root.id]) {p : Property}
    (hp : s.discriminator? id = .ok (some p)) :
    discriminators? s id = some (p, types.filterMap (·.discriminatorValue)) := by
  rw [discriminators?, htypes, hroot, hp]
  exact if_neg h

end

theorem discriminatorValue_eq_ok {t : EntityType} {v : Value}
    (h : Materializer.discriminatorValue t = .ok v) : t.discriminatorValue = some v := by
  unfold Materializer.discriminatorValue at h
  split at h
  · rename_i heq
    cases h
    exact heq
  · cases h

theorem typeTests_eq {source : SourceId} {p : Property} {types : List EntityType}
    {tests : List SqlExpr}
    (h : List.Forall₂ (fun t test => Materializer.typeTest (Plan.columnExpr source p) t = .ok test)
      types tests) :
    tests = (types.filterMap (·.discriminatorValue)).map (valueTest source p) := by
  induction h with
  | nil => rfl
  | cons htest _ ih =>
    simp only [Materializer.typeTest, bind_eq_ok_iff, pure_eq_ok] at htest
    obtain ⟨v, hv, rfl⟩ := htest
    rw [List.filterMap_cons_some (discriminatorValue_eq_ok hv), List.map_cons, ← ih]
    rfl

theorem any?_typeTests {s : Schema} {id : TypeId} {types : List EntityType} {root : EntityType}
    (htypes : s.concreteTypes id = .ok types) (hroot : s.root id = .ok root)
    (hne : types.map (·.id) ≠ [root.id]) {p : Property} (hp : s.discriminator? id = .ok (some p))
    {source : SourceId} {tests : List SqlExpr}
    (htests : List.Forall₂
      (fun t test => Materializer.typeTest (Plan.columnExpr source p) t = .ok test) types tests)
    (hnonempty : tests ≠ []) :
    SqlExpr.any? tests = restriction? s id source ∧ Settled s id := by
  have hd := discriminators?_eq_some htypes hroot hne hp
  have heq := typeTests_eq htests
  refine ⟨by rw [restriction?, hd, heq]; rfl, ?_⟩
  intro p' values hd'
  rw [hd] at hd'
  cases hd'
  intro hempty
  rw [hempty] at heq
  exact hnonempty heq

theorem settled_of_eq_none {s : Schema} {id : TypeId} (h : discriminators? s id = none) :
    Settled s id := by
  intro p values hd
  rw [h] at hd
  cases hd

theorem restrictingProperty_eq_none {s : Schema} {id : TypeId}
    (h : Materializer.restrictingProperty s id = .ok none) : discriminators? s id = none := by
  simp only [Materializer.restrictingProperty, bind_eq_ok_iff] at h
  obtain ⟨types, htypes, root, hroot, h⟩ := h
  split at h
  · rename_i hone
    exact discriminators?_eq_none htypes hroot hone
  · simp only [bind_eq_ok_iff, pure_eq_ok] at h
    obtain ⟨d, hd, h⟩ := h
    rw [discriminators?, htypes, hroot, hd, Option.map_eq_none_iff.mp h]

theorem restriction_eq_ok {s : Schema} {id : TypeId} {p : Property} {types : List EntityType}
    (hproperty : Materializer.restrictingProperty s id = .ok (some (p, types))) {source : SourceId}
    {e : SqlExpr} (h : Materializer.restriction s id (Plan.columnExpr source p) types = .ok e) :
    restriction? s id source = some e ∧ Settled s id := by
  simp only [Materializer.restrictingProperty, bind_eq_ok_iff] at hproperty
  obtain ⟨types', htypes, root, hroot, hproperty⟩ := hproperty
  split at hproperty
  · cases hproperty
  · rename_i hne
    simp only [bind_eq_ok_iff, pure_eq_ok] at hproperty
    obtain ⟨d, hd, hmap⟩ := hproperty
    obtain ⟨p', rfl, hpair⟩ := Option.map_eq_some_iff.mp hmap
    cases hpair
    simp only [Materializer.restriction, bind_eq_ok_iff] at h
    obtain ⟨tests, htests, h⟩ := h
    split at h
    · rename_i e' hany
      cases h
      have hnonempty : tests ≠ [] := by
        rintro rfl
        cases hany
      obtain ⟨heq, hsettled⟩ := any?_typeTests htypes hroot hne hd (mapM_eq_ok_iff.mp htests) hnonempty
      exact ⟨heq.symm.trans hany, hsettled⟩
    · cases h

theorem discriminatorColumn_eq_ok {s : Schema} {id : TypeId} {select : Select} {source : SourceId}
    {known : List (SourceId × String)} (hknown : select.columns = known.map entryOf)
    {column : SqlExpr} {p : Property}
    (h : Materializer.discriminatorColumn s id select source = .ok (column, p)) :
    s.discriminator? id = .ok (some p) ∧ column = Plan.columnExpr source p := by
  simp only [Materializer.discriminatorColumn, bind_eq_ok_iff, liftM_eq_ok_iff] at h
  obtain ⟨_, _, d, hd, h⟩ := h
  split at h
  · cases h
  · rename_i p'
    split at h
    · cases h
    · rename_i entry hentry
      cases h
      refine ⟨hd, ?_⟩
      have hmem : entry ∈ select.columns.filter (Select.readsColumn p.columnName source) := by
        rw [Select.findColumn?] at hentry
        split at hentry
        · rename_i heq
          cases hentry
          rw [heq]
          exact List.mem_singleton_self _
        · cases hentry
      obtain ⟨hcolumn, hreads⟩ := List.mem_filter.mp hmem
      rw [hknown] at hcolumn
      obtain ⟨⟨source', name⟩, _, rfl⟩ := List.mem_map.mp hcolumn
      simp only [Select.readsColumn, entryOf, Bool.and_eq_true, beq_iff_eq, Option.some.injEq] at hreads
      obtain ⟨rfl, rfl⟩ := hreads
      rfl

theorem discriminatorIndex_eq_ok {select : Select} {source : SourceId} {p : Property}
    {known : List (SourceId × String)} (hknown : select.columns = known.map entryOf) {index : Nat}
    (h : Materializer.discriminatorIndex select (Plan.columnExpr source p) = .ok index) :
    known[index]? = some (source, p.columnName) := by
  rw [Materializer.discriminatorIndex, Select.projection, hknown, filter_projected, Plan.columnExpr,
    findIdx?_column known (source, p.columnName)] at h
  split at h
  · rename_i i hi
    cases h
    obtain ⟨hlt, hx, _⟩ := List.findIdx?_eq_some_iff_getElem.mp hi
    simpa [hlt] using hx
  · cases h

end EntityStore.Reading
