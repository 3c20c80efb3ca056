import EntityStore.Proofs.Query.Discriminators
import EntityStore.Proofs.Schema.Discriminators

/-!
# Building materializers

Building the materializer of a source adds the columns of its entities and notes the restriction of
the source; what is built reads the places of these columns.
-/

namespace EntityStore.Reading

open Traversal

/-- A materializer that finds what it reads from a source in the columns. -/
inductive ReadsSource (s : Schema) (columns : List (SourceId × String)) (source : SourceId)
    (id : TypeId) : Materializer → Prop
  | plain {t : EntityType × List Property} {shape : EntityShape}
      (types : Materializer.concreteProperties s id = .ok [t])
      (reads : ReadsEntity columns source t shape) :
      ReadsSource s columns source id (.plain shape)
  | dispatching {ts : List (EntityType × List Property)} {root : EntityType} {p : Property}
      {index : Nat} {entries : List (DiscriminatorKey × EntityShape)}
      (types : Materializer.concreteProperties s id = .ok ts)
      (root_eq : s.root id = .ok root)
      (discriminator : s.discriminator? id = .ok (some p))
      (place : columns[index]? = some (source, p.columnName))
      (reads : List.Forall₂ (fun t entry => Schema.keyOf? t.1 = some entry.1 ∧
        ReadsEntity columns source t entry.2) ts entries) :
      ReadsSource s columns source id (.dispatching root.name index p.type entries)

theorem ReadsSource.mono {s : Schema} {columns columns' : List (SourceId × String)}
    (h : columns <+: columns') {source : SourceId} {id : TypeId} {m : Materializer}
    (hm : ReadsSource s columns source id m) : ReadsSource s columns' source id m := by
  cases hm with
  | plain htypes hreads => exact .plain htypes (hreads.mono h)
  | dispatching htypes hroot hp hplace hreads =>
    exact .dispatching htypes hroot hp (getElem?_prefix_mono h hplace)
      (hreads.imp (fun _ _ hr => ⟨hr.1, hr.2.mono h⟩))

theorem concreteProperties_eq_ok {s : Schema} {id : TypeId} {ts : List (EntityType × List Property)}
    (h : Materializer.concreteProperties s id = .ok ts) :
    s.concreteTypes id = .ok (ts.map Prod.fst) ∧ ∀ t ∈ ts, s.properties t.1.id = .ok t.2 := by
  simp only [Materializer.concreteProperties, bind_eq_ok_iff] at h
  obtain ⟨types, htypes, h⟩ := h
  rw [htypes]
  rw [mapM_eq_ok_iff] at h
  clear htypes
  induction h with
  | nil => exact ⟨rfl, by simp⟩
  | @cons t pair types ts hpair _ ih =>
    obtain ⟨ih, hall⟩ := ih
    simp only [bind_eq_ok_iff, pure_eq_ok] at hpair
    obtain ⟨properties, hproperties, rfl⟩ := hpair
    cases ih
    exact ⟨rfl, List.forall_mem_cons.mpr ⟨hproperties, hall⟩⟩

theorem types_eq_of_concreteProperties {s : Schema} {id : TypeId} {types : List EntityType}
    (htypes : s.concreteTypes id = .ok types) {ts : List (EntityType × List Property)}
    (h : Materializer.concreteProperties s id = .ok ts) : types = ts.map Prod.fst :=
  Except.ok.inj (htypes.symm.trans (concreteProperties_eq_ok h).1)

theorem entityColumns_eq {s : Schema} {q : Query} {source : SourceId} {id : TypeId}
    {ts : List (EntityType × List Property)} (hid : sourceType? q source = some id)
    (h : Materializer.concreteProperties s id = .ok ts) :
    entityColumns s q source = typeColumns source ts := by
  obtain ⟨htypes, hproperties⟩ := concreteProperties_eq_ok h
  rw [entityColumns, hid, Option.map_some, htypes, typeColumns]
  dsimp only
  rw [List.flatMap_map]
  clear h htypes hid
  induction ts with
  | nil => rfl
  | cons t ts ih =>
    obtain ⟨hhead, htail⟩ := List.forall_mem_cons.mp hproperties
    have ih := ih htail
    simp only [List.flatMap_cons, hhead]
    exact congrArg (_ ++ ·) ih

theorem dispatchEntry_eq_ok {t : EntityType} {shape : EntityShape}
    {entry : DiscriminatorKey × EntityShape} (h : Materializer.dispatchEntry t shape = .ok entry) :
    Schema.keyOf? t = some entry.1 ∧ entry.2 = shape := by
  simp only [Materializer.dispatchEntry, bind_eq_ok_iff] at h
  obtain ⟨v, hv, h⟩ := h
  split at h
  · rename_i key hkey
    cases h
    exact ⟨by rw [Schema.keyOf?, discriminatorValue_eq_ok hv, Option.bind_some, hkey], rfl⟩
  · cases h

section

variable {s : Schema} {id : TypeId} {root : EntityType} {select : Select} {source : SourceId}
  {known : List (SourceId × String)} {ts : List (EntityType × List Property)}
  {shapes : List (EntityType × EntityShape)}

theorem map_fst_of_reads
    (hshapes : List.Forall₂ (fun t shape => shape.1 = t.1 ∧ ReadsEntity known source t shape.2) ts shapes) :
    shapes.map Prod.fst = ts.map Prod.fst := by
  induction hshapes with
  | nil => rfl
  | cons hshape _ ih => rw [List.map_cons, List.map_cons, hshape.1, ih]

theorem reads_dispatchEntries
    (hshapes : List.Forall₂ (fun t shape => shape.1 = t.1 ∧ ReadsEntity known source t shape.2) ts shapes)
    {entries : List (DiscriminatorKey × EntityShape)}
    (hentries : List.Forall₂ (fun shape entry => Materializer.dispatchEntry shape.1 shape.2 = .ok entry)
      shapes entries) :
    List.Forall₂ (fun t entry => Schema.keyOf? t.1 = some entry.1 ∧ ReadsEntity known source t entry.2)
      ts entries := by
  induction hshapes generalizing entries with
  | nil =>
    cases hentries
    exact .nil
  | cons hshape _ ih =>
    obtain _ | ⟨hentry, hentries⟩ := hentries
    obtain ⟨hkey, hentry⟩ := dispatchEntry_eq_ok hentry
    exact .cons ⟨hshape.1 ▸ hkey, hentry ▸ hshape.2⟩ (ih hentries)

theorem assemble_eq_ok (hknown : select.columns = known.map entryOf)
    (hts : Materializer.concreteProperties s id = .ok ts) (hroot : s.root id = .ok root)
    (hshapes : List.Forall₂ (fun t shape => shape.1 = t.1 ∧ ReadsEntity known source t shape.2) ts shapes)
    {m : Materializer} {r : Option SqlExpr}
    (h : Materializer.assemble s id root select source shapes = .ok (m, r)) :
    r = restriction? s id source ∧ Settled s id ∧ ReadsSource s known source id m := by
  have htypes := (concreteProperties_eq_ok hts).1
  have hfst := map_fst_of_reads hshapes
  unfold Materializer.assemble at h
  split at h
  · simp only [bind_eq_ok_iff] at h
    obtain ⟨_, _, h⟩ := h
    cases h
  · rename_i t shape
    obtain _ | ⟨⟨rfl, hreads⟩, hnil⟩ := hshapes
    obtain _ | _ := hnil
    split at h
    · rename_i ht
      cases h
      have hnone := discriminators?_eq_none htypes hroot (by simp [ht])
      exact ⟨by rw [restriction?, hnone]; rfl, settled_of_eq_none hnone, .plain hts hreads⟩
    · rename_i ht
      simp only [bind_eq_ok_iff, pure_eq_ok] at h
      obtain ⟨⟨column, p⟩, hcolumn, test, htest, heq⟩ := h
      cases heq
      obtain ⟨hp, rfl⟩ := discriminatorColumn_eq_ok hknown hcolumn
      obtain ⟨hany, hsettled⟩ := any?_typeTests htypes hroot (by simpa using ht) hp
        (.cons htest .nil) (List.cons_ne_nil test [])
      exact ⟨hany, hsettled, .plain hts hreads⟩
  · rename_i hnil hsingle
    simp only [bind_eq_ok_iff, pure_eq_ok] at h
    obtain ⟨⟨column, p⟩, hcolumn, index, hindex, entries, hentries, tests, htests, heq⟩ := h
    cases heq
    obtain ⟨hp, rfl⟩ := discriminatorColumn_eq_ok hknown hcolumn
    have hne : (ts.map Prod.fst).map (·.id) ≠ [root.id] := by
      intro hone
      rw [← hfst, List.map_map] at hone
      obtain ⟨shape, rfl, _⟩ := List.map_eq_singleton_iff.mp hone
      exact hsingle shape.1 shape.2 rfl
    rw [mapM_eq_ok_iff] at htests hentries
    have htests : List.Forall₂
        (fun t test => Materializer.typeTest (Plan.columnExpr source p) t = .ok test)
        (ts.map Prod.fst) tests := hfst ▸ List.forall₂_map_left_iff.mpr htests
    have hnonempty : tests ≠ [] := by
      rintro rfl
      cases List.map_eq_nil_iff.mp (hfst.trans (List.forall₂_nil_right_iff.mp htests))
      exact hnil rfl
    obtain ⟨hany, hsettled⟩ := any?_typeTests htypes hroot hne hp htests hnonempty
    exact ⟨hany, hsettled, .dispatching hts hroot hp (discriminatorIndex_eq_ok hknown hindex)
      (reads_dispatchEntries hshapes hentries)⟩

end

end EntityStore.Reading
