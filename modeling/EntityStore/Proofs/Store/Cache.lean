import Mathlib.Data.List.Dedup
import Mathlib.Data.List.Induction
import EntityStore.Proofs.OrderedMap
import EntityStore.Proofs.Traversal
import EntityStore.Store.Basic

/-!
# The cache of a store

Whatever look-ups a store has answered, and however often compilations have failed, it holds the first
compilation of each shape that succeeded. Slots that were claimed for nothing do not show.
-/

namespace EntityStore

open Traversal

variable {σ γ : Type}

namespace QueryCache

variable (cache : QueryCache γ) (key : Fingerprint)

theorem find?_claim (key' : Fingerprint) : (cache.claim key).find? key' = cache.find? key' := by
  unfold claim
  split_ifs with hclaimed
  · rfl
  · rw [find?, find?, OrderedMap.get?_insert]
    split_ifs with hkey
    · rw [← hkey]
      have hnone : cache.slots.get? key = none := by
        simpa [OrderedMap.contains] using hclaimed
      rw [hnone]
      rfl
    · rfl

def found (c : γ) : Compilation γ := ⟨.ok c, [hitEvent key]⟩

def compiledNow (compile : Compilation γ) : Compilation γ :=
  { compile with events := missEvent key :: compile.events }

theorem getOrAdd_fst (compile : Compilation γ) :
    (cache.getOrAdd key compile).1 = ((cache.find? key).map (found key)).getD (compiledNow key compile) := by
  obtain ⟨result, events⟩ := compile
  rw [getOrAdd, find?_claim]
  cases cache.find? key with
  | some c => rfl
  | none => cases result <;> rfl

theorem find?_getOrAdd (compile : Compilation γ) (key' : Fingerprint) :
    (cache.getOrAdd key compile).2.find? key' =
      if key = key' then (cache.find? key').or compile.result.toOption else cache.find? key' := by
  rw [getOrAdd, find?_claim]
  split_ifs with hkey
  · subst hkey
    cases hfind : cache.find? key with
    | some c =>
      dsimp only
      rw [find?_claim, hfind]
      rfl
    | none =>
      cases compile.result with
      | ok c =>
        dsimp only
        rw [find?, OrderedMap.get?_insert, if_pos rfl]
        rfl
      | error e =>
        dsimp only
        rw [find?_claim, hfind]
        rfl
  · cases cache.find? key with
    | some c => exact cache.find?_claim key key'
    | none =>
      cases compile.result with
      | ok c =>
        dsimp only
        rw [find?, OrderedMap.get?_insert, if_neg hkey]
        exact cache.find?_claim key key'
      | error e => exact cache.find?_claim key key'

def held (cache : QueryCache γ) : List Fingerprint :=
  (cache.slots.entries.filter (·.2.isSome)).map Prod.fst

theorem size_eq_length_held : cache.size = cache.held.length := by
  rw [size, held, OrderedMap.values, List.filter_map, List.length_map, List.length_map]
  rfl

theorem nodup_held : cache.held.Nodup :=
  cache.slots.distinct.sublist (List.filter_sublist.map Prod.fst)

theorem mem_held {key : Fingerprint} : key ∈ cache.held ↔ cache.contains key = true := by
  rw [contains, Option.isSome_iff_exists, held, List.mem_map]
  constructor
  · rintro ⟨⟨_, slot⟩, hmem, rfl⟩
    obtain ⟨hmem, hfilled⟩ := List.mem_filter.1 hmem
    obtain ⟨c, rfl⟩ := Option.isSome_iff_exists.1 hfilled
    refine ⟨c, ?_⟩
    rw [find?, OrderedMap.mem_entries_iff.1 hmem]
    rfl
  · rintro ⟨c, hc⟩
    have hslot : cache.slots.get? key = some (some c) := Option.join_eq_some_iff.1 hc
    exact ⟨(key, some c), List.mem_filter.2 ⟨OrderedMap.mem_entries_iff.2 hslot, rfl⟩, rfl⟩

end QueryCache

/-- A call that looks up a query, with what compiling it would give at this time. -/
structure LookUp (γ : Type) where
  query : Query
  compilation : Compilation γ

namespace LookUp

def key (call : LookUp γ) : Fingerprint := call.query.fingerprint

def compiled? (call : LookUp γ) : Option γ := call.compilation.result.toOption

def ofKey (key : Fingerprint) (calls : List (LookUp γ)) : List (LookUp γ) :=
  calls.filter (fun call => call.key = key)

/-- What the first compilation of a shape that succeeds gives. -/
def firstCompiled? (key : Fingerprint) (calls : List (LookUp γ)) : Option γ :=
  (ofKey key calls).findSome? compiled?

def compiledKeys (calls : List (LookUp γ)) : List Fingerprint :=
  ((calls.filter (·.compiled?.isSome)).map key).dedup

def untilCompiled : List (LookUp γ) → List (LookUp γ)
  | [] => []
  | call :: rest => if call.compiled?.isSome then [call] else call :: untilCompiled rest

theorem ofKey_cons (key : Fingerprint) (call : LookUp γ) (calls : List (LookUp γ)) :
    ofKey key (call :: calls) = if call.key = key then call :: ofKey key calls else ofKey key calls := by
  simp only [ofKey, List.filter_cons, decide_eq_true_eq]

theorem firstCompiled?_ofKey (key : Fingerprint) (calls : List (LookUp γ)) :
    firstCompiled? key (ofKey key calls) = firstCompiled? key calls := by
  rw [firstCompiled?, firstCompiled?, ofKey, ofKey, List.filter_filter]
  simp only [Bool.and_self]

theorem compiledKeys_snoc {calls : List (LookUp γ)} {call : LookUp γ} (h : call.compiled? = none) :
    compiledKeys (calls ++ [call]) = compiledKeys calls := by
  rw [compiledKeys, List.filter_append, List.filter_cons_of_neg (by simp [h]), List.filter_nil,
    List.append_nil]
  rfl

theorem length_filter_untilCompiled_le (calls : List (LookUp γ)) :
    ((untilCompiled calls).filter (·.compiled?.isSome)).length ≤ 1 := by
  induction calls with
  | nil => exact Nat.zero_le 1
  | cons call calls ih =>
    rw [untilCompiled]
    split_ifs with hcompiled
    · exact List.length_filter_le _ _
    · have hcons : (call :: untilCompiled calls).filter (·.compiled?.isSome) =
          (untilCompiled calls).filter (·.compiled?.isSome) := List.filter_cons_of_neg hcompiled
      rw [hcons]
      exact ih

theorem firstCompiled?_snoc (key : Fingerprint) (calls : List (LookUp γ)) (call : LookUp γ) :
    firstCompiled? key (calls ++ [call]) =
      if call.key = key then (firstCompiled? key calls).or call.compiled? else firstCompiled? key calls := by
  rw [firstCompiled?, ofKey, List.filter_append, List.findSome?_append]
  split_ifs with hkey
  · rw [List.filter_cons_of_pos (by simpa using hkey), List.filter_nil, List.findSome?_singleton]
    rfl
  · rw [List.filter_cons_of_neg (by simpa using hkey), List.filter_nil, List.findSome?_nil, Option.or_none]
    rfl

theorem mem_compiledKeys {calls : List (LookUp γ)} {key : Fingerprint} :
    key ∈ compiledKeys calls ↔ (firstCompiled? key calls).isSome = true := by
  rw [compiledKeys, List.mem_dedup, List.mem_map, firstCompiled?, List.findSome?_isSome_iff]
  constructor
  · rintro ⟨call, hmem, rfl⟩
    obtain ⟨hmem, hsome⟩ := List.mem_filter.1 hmem
    exact ⟨call, List.mem_filter.2 ⟨hmem, decide_eq_true rfl⟩, hsome⟩
  · rintro ⟨call, hmem, hsome⟩
    obtain ⟨hmem, hkey⟩ := List.mem_filter.1 hmem
    exact ⟨call, List.mem_filter.2 ⟨hmem, hsome⟩, of_decide_eq_true hkey⟩

end LookUp

namespace Store

open LookUp

def answer (s : Store σ γ) (call : LookUp γ) : Compilation γ := (s.lookUp call.query call.compilation).1

def after (s : Store σ γ) (call : LookUp γ) : Store σ γ := (s.lookUp call.query call.compilation).2

def afterLookUps (s : Store σ γ) (calls : List (LookUp γ)) : Store σ γ := calls.foldl after s

def compiling (s : Store σ γ) : List (LookUp γ) → List (LookUp γ)
  | [] => []
  | call :: rest =>
    if s.cache.contains call.key then (s.after call).compiling rest
    else call :: (s.after call).compiling rest

theorem answer_eq (s : Store σ γ) (call : LookUp γ) :
    s.answer call = ((s.cache.find? call.key).map (QueryCache.found call.key)).getD
      (QueryCache.compiledNow call.key call.compilation) :=
  s.cache.getOrAdd_fst call.key call.compilation

theorem find?_after (s : Store σ γ) (call : LookUp γ) (key : Fingerprint) :
    (s.after call).cache.find? key =
      if call.key = key then (s.cache.find? key).or call.compiled? else s.cache.find? key :=
  s.cache.find?_getOrAdd call.key call.compilation key

theorem afterLookUps_snoc (s : Store σ γ) (calls : List (LookUp γ)) (call : LookUp γ) :
    s.afterLookUps (calls ++ [call]) = (s.afterLookUps calls).after call := by
  rw [afterLookUps, List.foldl_append]
  rfl

/-- After a run the cache holds the first compilation of each shape that succeeded. -/
theorem find?_afterLookUps (b : Backend σ γ) (calls : List (LookUp γ)) (key : Fingerprint) :
    ((ofBackend b).afterLookUps calls).cache.find? key = firstCompiled? key calls := by
  induction calls using List.reverseRecOn with
  | nil => rfl
  | append_singleton calls call ih =>
    rw [afterLookUps_snoc, find?_after, ih, firstCompiled?_snoc]

theorem size_afterLookUps (b : Backend σ γ) (calls : List (LookUp γ)) :
    ((ofBackend b).afterLookUps calls).cache.size = (compiledKeys calls).length := by
  rw [QueryCache.size_eq_length_held]
  apply List.Perm.length_eq
  apply (List.perm_ext_iff_of_nodup (QueryCache.nodup_held _) (List.nodup_dedup _)).2
  intro key
  rw [QueryCache.mem_held, QueryCache.contains, find?_afterLookUps]
  exact mem_compiledKeys.symm

theorem contains_after (s : Store σ γ) (call : LookUp γ) (key : Fingerprint) :
    (s.after call).cache.contains key =
      (s.cache.contains key || (decide (call.key = key) && call.compiled?.isSome)) := by
  rw [QueryCache.contains, find?_after, QueryCache.contains]
  split_ifs with hkey
  · rw [Option.isSome_or, decide_eq_true hkey, Bool.true_and]
  · rw [decide_eq_false hkey, Bool.false_and, Bool.or_false]

theorem ofKey_compiling (s : Store σ γ) (calls : List (LookUp γ)) (key : Fingerprint) :
    ofKey key (s.compiling calls) =
      if s.cache.contains key then [] else untilCompiled (ofKey key calls) := by
  induction calls generalizing s with
  | nil => exact (ite_self _).symm
  | cons call calls ih =>
    have hrest := ih (s.after call)
    rw [contains_after] at hrest
    rw [compiling, ofKey_cons]
    by_cases hkey : call.key = key
    · subst hkey
      rw [decide_eq_true rfl, Bool.true_and] at hrest
      rw [if_pos rfl]
      cases hthere : s.cache.contains call.key with
      | true =>
        rw [hthere, Bool.true_or] at hrest
        exact hrest
      | false =>
        rw [hthere, Bool.false_or] at hrest
        rw [if_neg Bool.false_ne_true, if_neg Bool.false_ne_true, ofKey_cons, if_pos rfl, untilCompiled, hrest]
        split_ifs <;> rfl
    · rw [decide_eq_false hkey, Bool.false_and, Bool.or_false] at hrest
      rw [if_neg hkey, ← hrest]
      split_ifs
      · rfl
      · rw [ofKey_cons, if_neg hkey]

/-- What holds of a store after some look-ups. -/
structure CompiledOnce (b : Backend σ γ) (calls : List (LookUp γ)) (s : Store σ γ) : Prop where
  contains : ∀ key, s.cache.contains key = (firstCompiled? key calls).isSome
  size : s.cache.size = (compiledKeys calls).length
  /-- The look-ups of a shape compile until this succeeds. -/
  compiling : ∀ key, ofKey key ((ofBackend b).compiling calls) = untilCompiled (ofKey key calls)
  once : ∀ key, ((ofKey key ((ofBackend b).compiling calls)).filter (·.compiled?.isSome)).length ≤ 1
  /-- A shape that no compilation has succeeded for is compiled, with whatever this gives. -/
  answer_compiling : ∀ call, firstCompiled? call.key calls = none →
    s.answer call = ⟨call.compilation.result, QueryCache.missEvent call.key :: call.compilation.events⟩
  /-- From then on the first success is found, whatever compiling would give. -/
  answer_found : ∀ call c, firstCompiled? call.key calls = some c →
    s.answer call = ⟨.ok c, [QueryCache.hitEvent call.key]⟩
  /-- A compilation that fails leaves no trace. -/
  failed : ∀ call e, (s.answer call).result = .error e →
    (∀ key, (s.after call).cache.contains key = s.cache.contains key) ∧
      (s.after call).cache.size = s.cache.size
  /-- The look-ups of other shapes might as well not have been. -/
  apart : ∀ call, s.answer call = ((ofBackend b).afterLookUps (ofKey call.key calls)).answer call

theorem compiledOnce_afterLookUps (b : Backend σ γ) (calls : List (LookUp γ)) :
    CompiledOnce b calls ((ofBackend b).afterLookUps calls) := by
  have hfind := find?_afterLookUps b calls
  have hcompiling : ∀ key, ofKey key ((ofBackend b).compiling calls) = untilCompiled (ofKey key calls) :=
    ofKey_compiling (ofBackend b) calls
  refine ⟨?_, size_afterLookUps b calls, hcompiling, ?_, ?_, ?_, ?_, ?_⟩
  · intro key
    rw [QueryCache.contains, hfind]
  · intro key
    rw [hcompiling]
    exact length_filter_untilCompiled_le _
  · intro call hnone
    rw [answer_eq, hfind, hnone]
    rfl
  · intro call c hsome
    rw [answer_eq, hfind, hsome]
    rfl
  · intro call e herror
    -- what fails is the compilation of this very call, for what is found has succeeded
    have hcompiled : call.compiled? = none := by
      rw [answer_eq] at herror
      cases hthere : ((ofBackend b).afterLookUps calls).cache.find? call.key with
      | some c =>
        rw [hthere] at herror
        cases herror
      | none =>
        rw [hthere] at herror
        exact congrArg Except.toOption herror
    constructor
    · intro key
      rw [contains_after, hcompiled, Option.isSome_none, Bool.and_false, Bool.or_false]
    · rw [← afterLookUps_snoc, size_afterLookUps, size_afterLookUps, compiledKeys_snoc hcompiled]
  · intro call
    rw [answer_eq, answer_eq, hfind, find?_afterLookUps, firstCompiled?_ofKey]

end Store

end EntityStore
