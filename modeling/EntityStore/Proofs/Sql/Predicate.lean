import Mathlib.Data.List.Induction
import EntityStore.Proofs.Sql.Holds
import EntityStore.Sql.Select

/-!
# Restrictions in a predicate

The restriction of a source is looked up and replaced by two searches through the predicate, which come
by the same nodes in the same order. So to restrict a source is to replace what is found for it, and
nothing that is found for another one. If all that is ever added to a predicate is free of restrictions,
the predicate is a conjunction of what has been added and of one restriction for each source, the last one.
-/

namespace EntityStore

namespace SqlExpr

variable {source other : SourceId} {p q e e' l l' r r' : SqlExpr} {node : SqlExpr → SqlExpr → SqlExpr}

/-! ### Looking up and replacing -/

theorem replaceDiscriminator?_and :
    replaceDiscriminator? source p (.and l r) =
      ((replaceDiscriminator? source p l).map (.and · r)).or ((replaceDiscriminator? source p r).map (.and l)) := by
  rw [replaceDiscriminator?]
  cases replaceDiscriminator? source p l <;> rfl

theorem replaceDiscriminator?_or :
    replaceDiscriminator? source p (.or l r) =
      ((replaceDiscriminator? source p l).map (.or · r)).or ((replaceDiscriminator? source p r).map (.or l)) := by
  rw [replaceDiscriminator?]
  cases replaceDiscriminator? source p l <;> rfl

theorem replaceDiscriminator?_eq_none_iff :
    replaceDiscriminator? source p e = none ↔ findDiscriminator? source e = none := by
  induction e with
  | and _ _ ihl ihr => simp [replaceDiscriminator?_and, findDiscriminator?, ihl, ihr]
  | or _ _ ihl ihr => simp [replaceDiscriminator?_or, findDiscriminator?, ihl, ihr]
  | not _ ih | isNull _ ih => simp [replaceDiscriminator?, findDiscriminator?, ih]
  | discriminator other q =>
    rw [replaceDiscriminator?, findDiscriminator?]
    split <;> simp
  | _ => simp [replaceDiscriminator?, findDiscriminator?]

/-- Of two expressions the second one has another restriction of a source, and that is all that look-ups
can tell. -/
structure Restricts (source : SourceId) (p e e' : SqlExpr) : Prop where
  found : findDiscriminator? source e' = some p
  others : ∀ other, other ≠ source → findDiscriminator? other e' = findDiscriminator? other e

def LooksLeft (node : SqlExpr → SqlExpr → SqlExpr) : Prop :=
  ∀ source l r, findDiscriminator? source (node l r) =
    (findDiscriminator? source l).or (findDiscriminator? source r)

theorem Restricts.left (h : Restricts source p l l') (hnode : LooksLeft node) (r : SqlExpr) :
    Restricts source p (node l r) (node l' r) where
  found := by rw [hnode, h.found, Option.some_or]
  others other hother := by rw [hnode, hnode, h.others other hother]

theorem Restricts.right (h : Restricts source p r r') (hnode : LooksLeft node)
    (hl : findDiscriminator? source l = none) : Restricts source p (node l r) (node l r') where
  found := by rw [hnode, hl, Option.none_or, h.found]
  others other hother := by rw [hnode, hnode, h.others other hother]

theorem replaced_or_replaced
    (h : ((replaceDiscriminator? source p l).map (node · r)).or
      ((replaceDiscriminator? source p r).map (node l)) = some e) :
    (∃ l', replaceDiscriminator? source p l = some l' ∧ e = node l' r) ∨
      findDiscriminator? source l = none ∧ ∃ r', replaceDiscriminator? source p r = some r' ∧ e = node l r' := by
  rw [← replaceDiscriminator?_eq_none_iff (p := p)]
  cases hl : replaceDiscriminator? source p l with
  | some l' =>
    rw [hl, Option.map_some, Option.some_or] at h
    exact .inl ⟨l', rfl, (Option.some.inj h).symm⟩
  | none =>
    rw [hl, Option.map_none, Option.none_or, Option.map_eq_some_iff] at h
    obtain ⟨r', hr, heq⟩ := h
    exact .inr ⟨rfl, r', hr, heq.symm⟩

theorem restricts_of_replaced
    (hl : ∀ l', replaceDiscriminator? source p l = some l' → Restricts source p l l')
    (hr : ∀ r', replaceDiscriminator? source p r = some r' → Restricts source p r r') (hnode : LooksLeft node)
    (h : ((replaceDiscriminator? source p l).map (node · r)).or
      ((replaceDiscriminator? source p r).map (node l)) = some e) :
    Restricts source p (node l r) e := by
  rcases replaced_or_replaced h with ⟨l', hl', rfl⟩ | ⟨hnone, r', hr', rfl⟩
  · exact (hl l' hl').left hnode r
  · exact (hr r' hr').right hnode hnone

theorem restricts_of_replaceDiscriminator? (h : replaceDiscriminator? source p e = some e') :
    Restricts source p e e' := by
  induction e generalizing e' with
  | and l r ihl ihr =>
    rw [replaceDiscriminator?_and] at h
    exact restricts_of_replaced (fun _ => ihl) (fun _ => ihr) (fun _ _ _ => rfl) h
  | or l r ihl ihr =>
    rw [replaceDiscriminator?_or] at h
    exact restricts_of_replaced (fun _ => ihl) (fun _ => ihr) (fun _ _ _ => rfl) h
  | not e ih | isNull e ih =>
    simp only [replaceDiscriminator?, Option.map_eq_some_iff] at h
    obtain ⟨e', he', rfl⟩ := h
    exact ⟨(ih he').found, (ih he').others⟩
  | discriminator s q =>
    rw [replaceDiscriminator?] at h
    split at h
    · rename_i hs
      cases h
      subst hs
      constructor
      case found => rw [findDiscriminator?, if_pos rfl]
      case others =>
        intro other hother
        rw [findDiscriminator?, findDiscriminator?, if_neg (Ne.symm hother), if_neg (Ne.symm hother)]
    · cases h
  | _ => cases h

def discriminatorFree : SqlExpr → Bool
  | .discriminator _ _ => false
  | .compare _ l r | .and l r | .or l r => discriminatorFree l && discriminatorFree r
  | .not e | .isNull e => discriminatorFree e
  | .column _ _ | .literal _ | .parameter _ => true

theorem findDiscriminator?_of_free (h : e.discriminatorFree = true) : findDiscriminator? source e = none := by
  induction e with
  | and l r ihl ihr | or l r ihl ihr =>
    rw [discriminatorFree, Bool.and_eq_true] at h
    rw [findDiscriminator?, ihl h.1, ihr h.2, Option.none_or]
  | not e ih | isNull e ih => exact ih h
  | discriminator _ _ => cases h
  | _ => rfl

/-! ### Conjunctions -/

/-- A conjunction of some expressions without restrictions and of restrictions of different sources. -/
inductive Gathers : List SqlExpr → SqlExpr → Prop
  | filter {e : SqlExpr} (h : e.discriminatorFree = true) : Gathers [e] e
  | restriction (source : SourceId) (p : SqlExpr) : Gathers [] (.discriminator source p)
  | and {fs gs : List SqlExpr} {l r : SqlExpr} (hl : Gathers fs l) (hr : Gathers gs r)
      (hapart : ∀ source, findDiscriminator? source l = none ∨ findDiscriminator? source r = none) :
      Gathers (fs ++ gs) (.and l r)

variable {fs : List SqlExpr}

theorem Restricts.apart (h : Restricts source p l l') (hfound : findDiscriminator? source l ≠ none)
    (hapart : ∀ other, findDiscriminator? other l = none ∨ findDiscriminator? other r = none)
    (other : SourceId) : findDiscriminator? other l' = none ∨ findDiscriminator? other r = none := by
  by_cases heq : other = source
  · rw [heq]
    exact .inr ((hapart source).resolve_left hfound)
  · rw [h.others other heq]
    exact hapart other

theorem Gathers.replace (h : Gathers fs e) (hreplace : replaceDiscriminator? source p e = some e') :
    Gathers fs e' := by
  -- a replacement keeps the shape, and it is made in the one part of a conjunction that restricts the source
  induction h generalizing e' with
  | filter hfree =>
    rw [replaceDiscriminator?_eq_none_iff.2 (findDiscriminator?_of_free hfree)] at hreplace
    cases hreplace
  | restriction s q =>
    rw [replaceDiscriminator?] at hreplace
    split at hreplace
    · cases hreplace
      exact .restriction source p
    · cases hreplace
  | @and fs gs l r hl hr hapart ihl ihr =>
    have hfound : ∀ {e e' : SqlExpr}, replaceDiscriminator? source p e = some e' →
        findDiscriminator? source e ≠ none := by
      intro e e' he hnone
      rw [replaceDiscriminator?_eq_none_iff.2 hnone] at he
      cases he
    rw [replaceDiscriminator?_and] at hreplace
    rcases replaced_or_replaced hreplace with ⟨l', hl', rfl⟩ | ⟨-, r', hr', rfl⟩
    · exact (ihl hl').and hr ((restricts_of_replaceDiscriminator? hl').apart (hfound hl') hapart)
    · refine hl.and (ihr hr') (fun other => Or.symm ?_)
      exact (restricts_of_replaceDiscriminator? hr').apart (hfound hr') (fun other => (hapart other).symm) other

theorem Gathers.holds {parameters : Parameters} {binding : Binding} (h : Gathers fs e)
    (hfilters : ∀ f ∈ fs, ∃ b, f.holds parameters binding = .ok b)
    (hfound : ∀ source p, findDiscriminator? source e = some p → ∃ b, p.holds parameters binding = .ok b) :
    ∃ b, e.holds parameters binding = .ok b ∧
      (b = true ↔ (∀ f ∈ fs, f.holds parameters binding = .ok true) ∧
        ∀ source p, findDiscriminator? source e = some p → p.holds parameters binding = .ok true) := by
  induction h with
  | @filter e hfree =>
    obtain ⟨b, hb⟩ := hfilters e List.mem_cons_self
    refine ⟨b, hb, ?_⟩
    simp [hb, findDiscriminator?_of_free hfree]
  | restriction source p =>
    obtain ⟨b, hb⟩ := hfound source p (by rw [findDiscriminator?, if_pos rfl])
    refine ⟨b, hb, ?_⟩
    simp [findDiscriminator?, hb]
  | @and fs gs l r _ _ hapart ihl ihr =>
    -- what is found in either part is found in the whole, since no source is restricted in both
    have hfind : ∀ source p, findDiscriminator? source (.and l r) = some p ↔
        findDiscriminator? source l = some p ∨ findDiscriminator? source r = some p := by
      intro source p
      rw [findDiscriminator?]
      rcases hapart source with hnone | hnone <;> simp [hnone]
    simp only [hfind] at hfound ⊢
    obtain ⟨hfs, hgs⟩ := List.forall_mem_append.1 hfilters
    obtain ⟨a, ha, haiff⟩ := ihl hfs (fun source p h => hfound source p (.inl h))
    obtain ⟨b, hb, hbiff⟩ := ihr hgs (fun source p h => hfound source p (.inr h))
    refine ⟨a && b, holds_and ha hb, ?_⟩
    rw [Bool.and_eq_true, haiff, hbiff, List.forall_mem_append]
    simp only [or_imp, forall_and]
    tauto

end SqlExpr

namespace Select

open SqlExpr

variable {s : Select} {source : SourceId} {p e : SqlExpr}

/-! ### One call -/

theorem setDiscriminator_cases (s : Select) (source : SourceId) (p : SqlExpr) :
    (∃ e e', s.predicate = some e ∧ replaceDiscriminator? source p e = some e' ∧
        s.setDiscriminator source p = { s with predicate := some e' }) ∨
      s.discriminator? source = none ∧ s.setDiscriminator source p = s.addPredicate (.discriminator source p) := by
  unfold setDiscriminator discriminator?
  cases s.predicate with
  | none => exact .inr ⟨rfl, rfl⟩
  | some e =>
    rw [Option.bind_some, Option.bind_some]
    cases hreplace : replaceDiscriminator? source p e with
    | none => exact .inr ⟨replaceDiscriminator?_eq_none_iff.1 hreplace, rfl⟩
    | some e' => exact .inl ⟨e, e', rfl, hreplace, rfl⟩

theorem discriminator?_addPredicate (s : Select) (e : SqlExpr) (source : SourceId) :
    (s.addPredicate e).discriminator? source = (s.discriminator? source).or (findDiscriminator? source e) := by
  unfold addPredicate discriminator?
  cases s.predicate <;> rfl

theorem discriminator?_setDiscriminator (s : Select) (source : SourceId) (p : SqlExpr) :
    (s.setDiscriminator source p).discriminator? source = some p ∧
      ∀ other, other ≠ source → (s.setDiscriminator source p).discriminator? other = s.discriminator? other := by
  rcases s.setDiscriminator_cases source p with ⟨e, e', he, hreplace, heq⟩ | ⟨hnone, heq⟩
  · have hrestricts := restricts_of_replaceDiscriminator? hreplace
    rw [heq]
    simp only [discriminator?, he, Option.bind_some]
    exact ⟨hrestricts.found, hrestricts.others⟩
  · rw [heq]
    constructor
    · rw [discriminator?_addPredicate, hnone, findDiscriminator?, if_pos rfl, Option.none_or]
    · intro other hother
      rw [discriminator?_addPredicate, findDiscriminator?, if_neg (Ne.symm hother), Option.or_none]

/-! ### Sequences of calls -/

inductive PredicateCall
  | add (e : SqlExpr)
  | restrict (source : SourceId) (p : SqlExpr)

namespace PredicateCall

def perform (s : Select) : PredicateCall → Select
  | .add e => s.addPredicate e
  | .restrict source p => s.setDiscriminator source p

def added? : PredicateCall → Option SqlExpr
  | .add e => some e
  | .restrict _ _ => none

def restriction? (source : SourceId) : PredicateCall → Option SqlExpr
  | .add _ => none
  | .restrict s p => if s = source then some p else none

end PredicateCall

def afterPredicates (s : Select) (calls : List PredicateCall) : Select := calls.foldl PredicateCall.perform s

def lastRestriction? (source : SourceId) (calls : List PredicateCall) : Option SqlExpr :=
  calls.reverse.findSome? (·.restriction? source)

variable {call : PredicateCall} {calls : List PredicateCall}

theorem afterPredicates_concat : s.afterPredicates (calls ++ [call]) = call.perform (s.afterPredicates calls) := by
  rw [afterPredicates, List.foldl_append]
  rfl

theorem lastRestriction?_concat :
    lastRestriction? source (calls ++ [call]) = (call.restriction? source).or (lastRestriction? source calls) := by
  rw [lastRestriction?, List.reverse_append, List.reverse_singleton, List.singleton_append, List.findSome?_cons]
  cases call.restriction? source <;> rfl

theorem discriminator?_perform (hfree : ∀ e, call = .add e → e.discriminatorFree = true) :
    (call.perform s).discriminator? source = (call.restriction? source).or (s.discriminator? source) := by
  cases call with
  | add e =>
    rw [PredicateCall.perform, discriminator?_addPredicate, findDiscriminator?_of_free (hfree e rfl), Option.or_none,
      PredicateCall.restriction?, Option.none_or]
  | restrict source' p =>
    obtain ⟨hset, hothers⟩ := s.discriminator?_setDiscriminator source' p
    rw [PredicateCall.perform, PredicateCall.restriction?]
    split
    · rename_i heq
      rw [← heq, hset, Option.some_or]
    · rename_i hne
      rw [hothers source (Ne.symm hne), Option.none_or]

theorem discriminator?_afterPredicates (hs : s.predicate = none)
    (hfree : ∀ e, .add e ∈ calls → e.discriminatorFree = true) :
    (s.afterPredicates calls).discriminator? source = lastRestriction? source calls := by
  induction calls using List.reverseRecOn with
  | nil =>
    rw [afterPredicates, List.foldl_nil, discriminator?, hs]
    rfl
  | append_singleton calls call ih =>
    have hcall : ∀ e, call = .add e → e.discriminatorFree = true := fun e he => hfree e (by simp [he])
    have hcalls : ∀ e, .add e ∈ calls → e.discriminatorFree = true :=
      fun e he => hfree e (List.mem_append_left _ he)
    rw [afterPredicates_concat, lastRestriction?_concat, discriminator?_perform hcall, ih hcalls]

/-- The predicate of a statement is a conjunction of some expressions and of restrictions, or of nothing. -/
def Collected (s : Select) (fs : List SqlExpr) : Prop :=
  s.predicate = none ∧ fs = [] ∨ ∃ e, s.predicate = some e ∧ Gathers fs e

theorem Collected.addPredicate {fs gs : List SqlExpr} (h : s.Collected fs) (he : Gathers gs e)
    (hapart : ∀ source, s.discriminator? source = none ∨ findDiscriminator? source e = none) :
    ∃ e', (s.addPredicate e).predicate = some e' ∧ Gathers (fs ++ gs) e' := by
  unfold Select.addPredicate
  rcases h with ⟨hnone, rfl⟩ | ⟨e', he', hgathers⟩
  · rw [hnone]
    exact ⟨e, rfl, he⟩
  · simp only [discriminator?, he', Option.bind_some] at hapart
    rw [he']
    exact ⟨_, rfl, hgathers.and he hapart⟩

theorem Collected.perform {fs : List SqlExpr} (h : s.Collected fs)
    (hfree : ∀ e, call = .add e → e.discriminatorFree = true) :
    ∃ e, (call.perform s).predicate = some e ∧ Gathers (fs ++ call.added?.toList) e := by
  cases call with
  | add e => exact h.addPredicate (.filter (hfree e rfl)) (fun _ => .inr (findDiscriminator?_of_free (hfree e rfl)))
  | restrict source p =>
    rw [PredicateCall.perform]
    rcases s.setDiscriminator_cases source p with ⟨e, e', he, hreplace, heq⟩ | ⟨hnone, heq⟩
    · rcases h with ⟨hempty, -⟩ | ⟨e₀, he₀, hgathers⟩
      · rw [he] at hempty
        cases hempty
      · rw [he] at he₀
        cases he₀
        rw [heq, PredicateCall.added?, Option.toList_none, List.append_nil]
        exact ⟨e', rfl, hgathers.replace hreplace⟩
    · rw [heq]
      refine h.addPredicate (.restriction source p) ?_
      intro other
      by_cases hother : other = source
      · rw [hother]
        exact .inl hnone
      · rw [findDiscriminator?, if_neg (Ne.symm hother)]
        exact .inr rfl

theorem collected_afterPredicates (hs : s.predicate = none)
    (hfree : ∀ e, .add e ∈ calls → e.discriminatorFree = true) :
    (s.afterPredicates calls).Collected (calls.filterMap (·.added?)) ∧
      (calls ≠ [] → (s.afterPredicates calls).predicate ≠ none) := by
  induction calls using List.reverseRecOn with
  | nil => exact ⟨.inl ⟨hs, rfl⟩, fun h => absurd rfl h⟩
  | append_singleton calls call ih =>
    have hcall : ∀ e, call = .add e → e.discriminatorFree = true := fun e he => hfree e (by simp [he])
    obtain ⟨hcollected, -⟩ := ih (fun e he => hfree e (List.mem_append_left _ he))
    obtain ⟨e, he, hgathers⟩ := hcollected.perform hcall
    rw [afterPredicates_concat, List.filterMap_append, he]
    constructor
    · refine .inr ⟨e, he, ?_⟩
      cases call with
      | add f => exact hgathers
      | restrict source p => exact hgathers
    · simp

theorem mem_added_iff : e ∈ calls.filterMap (·.added?) ↔ .add e ∈ calls := by
  rw [List.mem_filterMap]
  constructor
  · rintro ⟨call, hcall, hadded⟩
    cases call with
    | add f =>
      cases hadded
      exact hcall
    | restrict source p => cases hadded
  · intro h
    exact ⟨_, h, rfl⟩

/-- To restrict a source in any predicate is to set what is found for it and for no other one. And after any
calls that start without a predicate and add no restrictions otherwise, the predicate holds exactly where
all that has been added holds, and the last restriction of each source. -/
theorem restrictions_isolated :
    (∀ (s : Select) (source : SourceId) (p : SqlExpr),
      (s.setDiscriminator source p).discriminator? source = some p ∧
      ∀ other, other ≠ source → (s.setDiscriminator source p).discriminator? other = s.discriminator? other) ∧
    ∀ (s : Select) (calls : List PredicateCall), s.predicate = none → calls ≠ [] →
      (∀ e, .add e ∈ calls → e.discriminatorFree = true) →
      ∃ e, (s.afterPredicates calls).predicate = some e ∧
        ∀ (parameters : Parameters) (binding : Binding),
          (∀ f, .add f ∈ calls → ∃ b, f.holds parameters binding = .ok b) →
          (∀ source p, lastRestriction? source calls = some p → ∃ b, p.holds parameters binding = .ok b) →
          ∃ b, e.holds parameters binding = .ok b ∧
            (b = true ↔ (∀ f, .add f ∈ calls → f.holds parameters binding = .ok true) ∧
              ∀ source p, lastRestriction? source calls = some p → p.holds parameters binding = .ok true) := by
  refine ⟨discriminator?_setDiscriminator, ?_⟩
  intro s calls hs hcalls hfree
  obtain ⟨hcollected, hsome⟩ := collected_afterPredicates hs hfree
  rcases hcollected with ⟨hnone, -⟩ | ⟨e, he, hgathers⟩
  · exact absurd hnone (hsome hcalls)
  · refine ⟨e, he, ?_⟩
    have hfound : ∀ source, findDiscriminator? source e = lastRestriction? source calls := by
      intro source
      rw [← discriminator?_afterPredicates hs hfree, discriminator?, he, Option.bind_some]
    simp only [← hfound, ← mem_added_iff]
    exact fun parameters binding hfilters hrestrictions => hgathers.holds hfilters hrestrictions

def birds : Select := ofTable ⟨"Bird", "t0", ⟨0⟩⟩

def isKind (kind : String) : SqlExpr := .equals (.column "t0" "Kind") (.literal (.text kind))

def isGrounded : SqlExpr := .or (.isNull (.column "t0" "Wingspan")) (.not (.column "t0" "Flies"))

/-- Birds are restricted to eagles at first. -/
def birdCalls : List PredicateCall :=
  [.restrict ⟨0⟩ (isKind "Eagle"), .add isGrounded, .restrict ⟨1⟩ (.not (isKind "Egg")),
    .restrict ⟨0⟩ (isKind "Kiwi")]

def kiwi : Binding := [("t0", .ofList [("Kind", .text "Kiwi"), ("Wingspan", .null)])]

/-- A kiwi passes although it is not an eagle, and what is set under a negation is set for one source. -/
theorem restrictions_isolated_birds :
    (∃ e, (birds.afterPredicates birdCalls).predicate = some e ∧ e.holds .empty kiwi = .ok true) ∧
      ∃ s : Select, s.predicate =
          some (.not (.or (.discriminator ⟨1⟩ (isKind "Egg")) (.discriminator ⟨0⟩ (isKind "Eagle")))) ∧
        (s.setDiscriminator ⟨0⟩ (isKind "Kiwi")).discriminator? ⟨0⟩ = some (isKind "Kiwi") ∧
        (s.setDiscriminator ⟨0⟩ (isKind "Kiwi")).discriminator? ⟨1⟩ = some (isKind "Egg") := by
  obtain ⟨hframe, hrun⟩ := restrictions_isolated
  constructor
  · have hadded : ∀ e, .add e ∈ birdCalls → e = isGrounded := by
      intro e he
      simpa [birdCalls] using he
    have hlast : ∀ source p, lastRestriction? source birdCalls = some p → p.holds .empty kiwi = .ok true := by
      intro source p h
      by_cases hfirst : source = ⟨0⟩
      · cases hfirst
        cases h
        rfl
      · by_cases hsecond : source = ⟨1⟩
        · cases hsecond
          cases h
          rfl
        · simp [lastRestriction?, birdCalls, PredicateCall.restriction?, Ne.symm hfirst, Ne.symm hsecond] at h
    obtain ⟨e, he, hholds⟩ := hrun birds birdCalls rfl (List.cons_ne_nil _ _)
      (fun e he => by rw [hadded e he]; rfl)
    have hall : (∀ f, .add f ∈ birdCalls → f.holds .empty kiwi = .ok true) ∧
        ∀ source p, lastRestriction? source birdCalls = some p → p.holds .empty kiwi = .ok true :=
      ⟨fun f hf => by rw [hadded f hf]; rfl, hlast⟩
    obtain ⟨b, hb, hiff⟩ := hholds .empty kiwi (fun f hf => ⟨true, hall.1 f hf⟩)
      (fun source p hp => ⟨true, hlast source p hp⟩)
    exact ⟨e, he, by rw [hb, hiff.2 hall]⟩
  · refine ⟨{ birds with predicate := some (.not (.or (.discriminator ⟨1⟩ (isKind "Egg"))
      (.discriminator ⟨0⟩ (isKind "Eagle")))) }, rfl, (hframe _ _ _).1, ?_⟩
    rw [(hframe _ _ _).2 ⟨1⟩ (by decide)]
    rfl

end Select

end EntityStore
