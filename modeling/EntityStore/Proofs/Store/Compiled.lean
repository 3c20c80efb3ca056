import EntityStore.Memory.Store
import EntityStore.Proofs.Query.Fingerprint
import EntityStore.Proofs.Schema.Validity
import EntityStore.Proofs.Store.Cache

/-!
# Compiled queries of a store

Whatever queries have been looked up before, a compiled query comes from a query with the same
fingerprint. Where the hash tells texts apart this is a query of the same shape.
-/

namespace EntityStore

variable {σ γ : Type}

namespace Store

def afterQueries (s : Store σ γ) (queries : List Query) : Store σ γ :=
  queries.foldl (fun s q => (s.compiled q).2) s

/-- Everything in the cache is what one of the queries compiles to, under its fingerprint. -/
def HoldsOnly (s : Store σ γ) (queries : List Query) : Prop :=
  ∀ key c, s.cache.find? key = some c →
    ∃ p ∈ queries, p.fingerprint = key ∧ (s.backend.compile p).result = .ok c

theorem HoldsOnly.compiled {s : Store σ γ} {queries : List Query} (h : s.HoldsOnly queries) (q : Query) :
    (s.compiled q).2.HoldsOnly (queries ++ [q]) := by
  intro key c hc
  change (s.cache.getOrAdd q.fingerprint (s.backend.compile q)).2.find? key = some c at hc
  rw [QueryCache.find?_getOrAdd] at hc
  have hold : s.cache.find? key = some c →
      ∃ p ∈ queries ++ [q], p.fingerprint = key ∧ (s.backend.compile p).result = .ok c := by
    intro hfind
    obtain ⟨p, hp, hkey, hcompile⟩ := h key c hfind
    exact ⟨p, List.mem_append_left _ hp, hkey, hcompile⟩
  split_ifs at hc with hkey
  · rcases Option.or_eq_some_iff.1 hc with hfind | ⟨-, hresult⟩
    · exact hold hfind
    · exact ⟨q, List.mem_append_right _ List.mem_cons_self, hkey, Traversal.toOption_eq_some_iff.1 hresult⟩
  · exact hold hc

theorem HoldsOnly.afterQueries {s : Store σ γ} {queries : List Query} (h : s.HoldsOnly queries)
    (later : List Query) : (s.afterQueries later).HoldsOnly (queries ++ later) := by
  induction later generalizing s queries with
  | nil =>
    rw [List.append_nil]
    exact h
  | cons q later ih =>
    have hrest := ih (h.compiled q)
    rw [List.append_assoc] at hrest
    exact hrest

theorem backend_afterQueries (s : Store σ γ) (queries : List Query) :
    (s.afterQueries queries).backend = s.backend := by
  induction queries generalizing s with
  | nil => rfl
  | cons q queries ih => exact ih (s.compiled q).2

theorem holdsOnly_ofBackend (b : Backend σ γ) : (ofBackend b).HoldsOnly [] := by
  intro key c hc
  cases hc

theorem exists_compiled (b : Backend σ γ) (earlier : List Query) (q : Query) {c : γ}
    (h : (((ofBackend b).afterQueries earlier).compiled q).1.result = .ok c) :
    ∃ p ∈ q :: earlier, p.fingerprint = q.fingerprint ∧ (b.compile p).result = .ok c := by
  have hcache := (holdsOnly_ofBackend b).afterQueries earlier
  have hbackend := (ofBackend b).backend_afterQueries earlier
  generalize (ofBackend b).afterQueries earlier = s at h hcache hbackend
  change (s.cache.getOrAdd q.fingerprint (s.backend.compile q)).1.result = .ok c at h
  rw [QueryCache.getOrAdd_fst] at h
  cases hfind : s.cache.find? q.fingerprint with
  | some c' =>
    rw [hfind] at h
    cases h
    obtain ⟨p, hp, hkey, hcompile⟩ := hcache _ _ hfind
    rw [hbackend] at hcompile
    exact ⟨p, List.mem_cons_of_mem _ hp, hkey, hcompile⟩
  | none =>
    rw [hfind, hbackend] at h
    exact ⟨q, List.mem_cons_self, rfl, h⟩

end Store

namespace Query

theorem fingerprint_eq_iff {p q : Query} (h : p.shape.HashedApart q.shape) :
    p.fingerprint = q.fingerprint ↔
      p.shape.mapConstants Value.documented = q.shape.mapConstants Value.documented := by
  rw [fingerprint, fingerprint, QueryShape.fingerprint_eq_iff_text h, QueryShape.text_eq_iff]

end Query

/-- All reals among the constants of a shape are finite. -/
def QueryShape.FiniteConstants (s : QueryShape) : Prop := ∀ r, Value.real r ∈ s.constants → r.isFinite = true

theorem QueryShape.FiniteConstants.mapConstants_eq {s : QueryShape} (h : s.FiniteConstants) :
    s.mapConstants Value.documented = s := by
  apply QueryShape.mapConstants_eq_self
  intro v hv
  cases v with
  | real r => exact if_pos (h r hv)
  | _ => rfl

namespace Store

/-- Among queries whose texts the hash tells apart, the fingerprint is that of the shape, up to
constants that are not finite, and a store never answers a look-up with another shape. -/
theorem compiled_of_shape (b : Backend σ γ) (queries : List Query)
    (hapart : ∀ p ∈ queries, ∀ q ∈ queries, p.shape.HashedApart q.shape) :
    (∀ p ∈ queries, ∀ q ∈ queries,
      (p.fingerprint = q.fingerprint ↔
        p.shape.mapConstants Value.documented = q.shape.mapConstants Value.documented) ∧
      (p.shape.FiniteConstants → q.shape.FiniteConstants →
        (p.fingerprint = q.fingerprint ↔ p.shape = q.shape))) ∧
    ∀ earlier ⊆ queries, ∀ q ∈ queries, ∀ c,
      (((ofBackend b).afterQueries earlier).compiled q).1.result = .ok c →
        ∃ p ∈ q :: earlier, (b.compile p).result = .ok c ∧
          p.shape.mapConstants Value.documented = q.shape.mapConstants Value.documented := by
  constructor
  · intro p hp q hq
    have hiff := Query.fingerprint_eq_iff (hapart p hp q hq)
    refine ⟨hiff, fun hfinite hfinite' => ?_⟩
    rw [hiff, hfinite.mapConstants_eq, hfinite'.mapConstants_eq]
  · intro earlier hearlier q hq c hc
    obtain ⟨p, hp, hkey, hcompile⟩ := exists_compiled b earlier q hc
    have hmem : p ∈ queries := by
      rcases List.mem_cons.1 hp with rfl | hp
      · exact hq
      · exact hearlier hp
    exact ⟨p, hp, hcompile, (Query.fingerprint_eq_iff (hapart p hmem q hq)).1 hkey⟩

def blogsBut (v : Value) : Query :=
  (Query.entities ⟨0⟩).restrict (.compare .ne (.property ⟨0⟩ "Id") (.constant v))

/-- A number and a truth value that SQL writes in the same way. -/
theorem compiled_of_shape_blogs :
    let queries := [blogsBut (.integer 1), blogsBut (.bool true)]
    (∀ p ∈ queries, ∀ q ∈ queries, p.shape.HashedApart q.shape) ∧
    ∀ earlier ⊆ queries, ∀ q ∈ queries, ∀ c,
      (((ofBackend (Memory.backend "memory" Schema.blogs)).afterQueries earlier).compiled q).1.result = .ok c →
        ∃ p ∈ q :: earlier, ((Memory.backend "memory" Schema.blogs).compile p).result = .ok c ∧
          p.shape.mapConstants Value.documented = q.shape.mapConstants Value.documented := by
  have hhash : (blogsBut (.integer 1)).fingerprint ≠ (blogsBut (.bool true)).fingerprint := by decide +kernel
  have hapart : ∀ p ∈ [blogsBut (.integer 1), blogsBut (.bool true)],
      ∀ q ∈ [blogsBut (.integer 1), blogsBut (.bool true)], p.shape.HashedApart q.shape := by
    intro p hp q hq
    simp only [List.mem_cons, List.not_mem_nil, or_false] at hp hq
    rcases hp with rfl | rfl <;> rcases hq with rfl | rfl
    · exact fun _ => rfl
    · exact fun h => absurd (congrArg Fingerprint.mk h) hhash
    · exact fun h => absurd (congrArg Fingerprint.mk h.symm) hhash
    · exact fun _ => rfl
  exact ⟨hapart, (compiled_of_shape _ _ hapart).2⟩

/-- An infinite constant and null have one text and one fingerprint, in different shapes. -/
theorem fingerprint_infinity :
    (blogsBut (.real (.infinity false))).fingerprint = (blogsBut .null).fingerprint ∧
      (blogsBut (.real (.infinity false))).shape ≠ (blogsBut .null).shape := by
  have htext : (blogsBut (.real (.infinity false))).shape.text = (blogsBut .null).shape.text :=
    (QueryShape.text_eq_iff _ _).2 (by decide)
  refine ⟨?_, by decide⟩
  rw [Query.fingerprint, Query.fingerprint, QueryShape.fingerprint, QueryShape.fingerprint, htext]

end Store

end EntityStore
