import Mathlib.Data.List.Nodup
import EntityStore.OrderedMap

/-!
# Laws of ordered maps

What is found under a key after each operation. The entries of a map are exactly what is found under
their keys.
-/

namespace EntityStore.OrderedMap

variable {κ α : Type} [DecidableEq κ]

attribute [grind =] lookup put

theorem lookup_put (k k' : κ) (a : α) (l : List (κ × α)) :
    lookup k' (put k a l) = if k = k' then some a else lookup k' l := by
  induction l with
  | nil => simp [put, lookup]
  | cons e l ih =>
    obtain ⟨k₁, a₁⟩ := e
    by_cases hk : k₁ = k
    · subst hk
      by_cases hk' : k₁ = k'
      · simp [put, lookup, hk']
      · simp [put, lookup, hk']
    · by_cases hk' : k₁ = k'
      · subst hk'
        simp [put, lookup, hk, Ne.symm hk]
      · simp [put, lookup, hk, hk', ih]

@[simp] theorem get?_empty (k : κ) : (empty : OrderedMap κ α).get? k = none := rfl

theorem get?_insert (m : OrderedMap κ α) (k k' : κ) (a : α) :
    (m.insert k a).get? k' = if k = k' then some a else m.get? k' := lookup_put k k' a m.entries

theorem get?_insert_of_ne (m : OrderedMap κ α) {k k' : κ} (a : α) (h : k ≠ k') :
    (m.insert k a).get? k' = m.get? k' := by
  rw [get?_insert, if_neg h]

theorem lookup_filter (k k' : κ) (l : List (κ × α)) :
    lookup k' (l.filter (fun e => !decide (e.1 = k))) = if k = k' then none else lookup k' l := by
  induction l with
  | nil => simp [lookup]
  | cons e l ih =>
    obtain ⟨k₁, a₁⟩ := e
    by_cases hk : k₁ = k
    · subst hk
      by_cases hk' : k₁ = k'
      · simpa [lookup, hk'] using ih
      · simpa [lookup, hk'] using ih
    · by_cases hk' : k₁ = k'
      · subst hk'
        simp [lookup, hk, Ne.symm hk]
      · simpa [lookup, hk, hk'] using ih

theorem get?_erase (m : OrderedMap κ α) (k k' : κ) :
    (m.erase k).get? k' = if k = k' then none else m.get? k' := lookup_filter k k' m.entries

theorem lookup_of_mem {l : List (κ × α)} (hl : (l.map Prod.fst).Nodup) {k : κ} {a : α}
    (h : (k, a) ∈ l) : lookup k l = some a := by
  induction l with
  | nil => cases h
  | cons e l ih =>
    obtain ⟨k₁, a₁⟩ := e
    obtain ⟨hnew, hl⟩ := List.nodup_cons.mp hl
    rcases List.mem_cons.mp h with heq | h
    · cases heq
      simp [lookup]
    · have hne : k₁ ≠ k := by
        rintro rfl
        exact hnew (List.mem_map.mpr ⟨_, h, rfl⟩)
      simp [lookup, hne, ih hl h]

theorem mem_of_lookup {l : List (κ × α)} {k : κ} {a : α} (h : lookup k l = some a) : (k, a) ∈ l := by
  induction l with
  | nil => cases h
  | cons e l ih =>
    obtain ⟨k₁, a₁⟩ := e
    rw [lookup] at h
    split at h
    · rename_i hk
      cases h
      subst hk
      exact List.mem_cons_self
    · exact List.mem_cons_of_mem _ (ih h)

theorem exists_lookup_iff {l : List (κ × α)} {k : κ} :
    (∃ a, lookup k l = some a) ↔ k ∈ l.map Prod.fst := by
  induction l with
  | nil => simp [lookup]
  | cons e l ih =>
    obtain ⟨k₁, a₁⟩ := e
    by_cases hk : k₁ = k
    · simp [lookup, hk]
    · simpa [lookup, hk, Ne.symm hk] using ih

theorem lookup_append {l r : List (κ × α)} {k : κ} (h : k ∈ l.map Prod.fst) :
    lookup k (l ++ r) = lookup k l := by
  induction l with
  | nil => cases h
  | cons e l ih =>
    obtain ⟨k₁, a₁⟩ := e
    by_cases hk : k₁ = k
    · simp [lookup, hk]
    · have h := (List.mem_cons.mp h).resolve_left (Ne.symm hk)
      simp [lookup, hk, ih h]

theorem mem_entries_iff {m : OrderedMap κ α} {k : κ} {a : α} :
    (k, a) ∈ m.entries ↔ m.get? k = some a := ⟨lookup_of_mem m.distinct, mem_of_lookup⟩

theorem keys_insert (m : OrderedMap κ α) (k : κ) (a : α) :
    (m.insert k a).keys = if k ∈ m.keys then m.keys else m.keys ++ [k] := keys_put k a m.entries

/-- After some insertions a key has the value of one of them, or what it had before, if no
insertion is under it. -/
theorem get?_foldl_insert {β : Type} (key : β → κ) (value : β → α) (l : List β) (m : OrderedMap κ α)
    (k : κ) :
    (∃ x ∈ l, key x = k ∧
      (l.foldl (fun m x => m.insert (key x) (value x)) m).get? k = some (value x)) ∨
    (∀ x ∈ l, key x ≠ k) ∧
      (l.foldl (fun m x => m.insert (key x) (value x)) m).get? k = m.get? k := by
  induction l generalizing m with
  | nil => exact Or.inr ⟨by simp, rfl⟩
  | cons x l ih =>
    rw [List.foldl_cons]
    rcases ih (m.insert (key x) (value x)) with ⟨y, hy, hk, hget⟩ | ⟨hnone, hget⟩
    · exact Or.inl ⟨y, List.mem_cons_of_mem x hy, hk, hget⟩
    · by_cases hk : key x = k
      · exact Or.inl ⟨x, List.mem_cons_self, hk, by rw [hget, get?_insert, if_pos hk]⟩
      · refine Or.inr ⟨?_, by rw [hget, get?_insert_of_ne _ _ hk]⟩
        intro y hy
        rcases List.mem_cons.mp hy with rfl | hy
        · exact hk
        · exact hnone y hy

theorem put_of_lookup_eq_none {k : κ} {l : List (κ × α)} (h : lookup k l = none) (a : α) :
    put k a l = l ++ [(k, a)] := by
  induction l with
  | nil => rfl
  | cons e l ih =>
    obtain ⟨k', a'⟩ := e
    rw [lookup] at h
    split at h
    · cases h
    · rename_i hk
      rw [put, if_neg hk, ih h, List.cons_append]

theorem values_insert_of_get?_eq_none {m : OrderedMap κ α} {k : κ} (h : m.get? k = none) (a : α) :
    (m.insert k a).values = m.values ++ [a] := by
  have hentries : (m.insert k a).entries = m.entries ++ [(k, a)] := put_of_lookup_eq_none h a
  rw [values, hentries, List.map_append]
  rfl

theorem mem_values_put {k : κ} {a x : α} {l : List (κ × α)} (h : x ∈ (put k a l).map Prod.snd) :
    x = a ∨ x ∈ l.map Prod.snd := by
  induction l with
  | nil => exact Or.inl (List.mem_singleton.1 h)
  | cons e l ih =>
    rw [put] at h
    split at h
    · exact (List.mem_cons.1 h).imp_right (List.mem_cons_of_mem e.2)
    · rcases List.mem_cons.1 h with heq | h
      · exact Or.inr (heq ▸ List.mem_cons_self)
      · exact (ih h).imp_right (List.mem_cons_of_mem e.2)

theorem mem_values_insert {m : OrderedMap κ α} {k : κ} {a x : α} (h : x ∈ (m.insert k a).values) :
    x = a ∨ x ∈ m.values := mem_values_put h

theorem mem_values_erase {m : OrderedMap κ α} {k : κ} {x : α} (h : x ∈ (m.erase k).values) :
    x ∈ m.values := (List.filter_sublist.map _).subset h

theorem lookup_eq_none_iff {k : κ} {l : List (κ × α)} : lookup k l = none ↔ k ∉ l.map Prod.fst := by
  rw [← exists_lookup_iff, ← Option.ne_none_iff_exists', not_not]

theorem entries_ofList {pairs : List (κ × α)} (h : (pairs.map Prod.fst).Nodup) :
    (ofList pairs).entries = pairs := by
  have hfold : ∀ (rest : List (κ × α)) (m : OrderedMap κ α), ((m.entries ++ rest).map Prod.fst).Nodup →
      (rest.foldl (fun m p => m.insert p.1 p.2) m).entries = m.entries ++ rest := by
    intro rest
    induction rest with
    | nil =>
      intro m _
      rw [List.foldl_nil, List.append_nil]
    | cons p rest ih =>
      intro m hm
      have hnew : lookup p.1 m.entries = none := by
        rw [lookup_eq_none_iff]
        rw [List.map_append, List.nodup_append] at hm
        intro hmem
        exact hm.2.2 _ hmem _ List.mem_cons_self rfl
      have hentries : (m.insert p.1 p.2).entries = m.entries ++ [p] := put_of_lookup_eq_none hnew p.2
      have hsplit : m.entries ++ p :: rest = (m.insert p.1 p.2).entries ++ rest := by
        rw [hentries, List.append_assoc, List.singleton_append]
      rw [List.foldl_cons, hsplit]
      apply ih
      rw [← hsplit]
      exact hm
  exact hfold pairs empty h

theorem get?_ofList_of_mem {pairs : List (κ × α)} (h : (pairs.map Prod.fst).Nodup) {k : κ} {a : α}
    (hmem : (k, a) ∈ pairs) : (ofList pairs).get? k = some a := by
  rw [get?, entries_ofList h]
  exact lookup_of_mem h hmem

theorem put_put (k : κ) (a b : α) (l : List (κ × α)) : put k b (put k a l) = put k b l := by
  induction l with
  | nil => simp [put]
  | cons e l ih =>
    obtain ⟨k', a'⟩ := e
    by_cases hk : k' = k
    · simp [put, hk]
    · simp [put, hk, ih]

theorem put_comm {k k' : κ} (hne : k ≠ k') (a a' : α) {l : List (κ × α)} (hk : k ∈ l.map Prod.fst) :
    put k a (put k' a' l) = put k' a' (put k a l) := by
  induction l with
  | nil => cases hk
  | cons e l ih =>
    obtain ⟨k₁, a₁⟩ := e
    by_cases hk₁ : k₁ = k
    · simp [put, hk₁, hne]
    · have ih := ih ((List.mem_cons.mp hk).resolve_left (Ne.symm hk₁))
      by_cases hk₁' : k₁ = k'
      · simp [put, hk₁', Ne.symm hne]
      · simp [put, hk₁, hk₁', ih]

theorem mem_keys_insert {m : OrderedMap κ α} {k k' : κ} {a : α} :
    k' ∈ (m.insert k a).keys ↔ k' ∈ m.keys ∨ k' = k := by
  rw [keys_insert]
  split
  · rename_i hk
    exact ⟨Or.inl, fun h => h.elim id (fun heq => heq ▸ hk)⟩
  · simp

theorem insert_foldl_insert {k : κ} {l : List (κ × α)} (hl : k ∉ l.map Prod.fst)
    {m : OrderedMap κ α} (hk : k ∈ m.keys) (a : α) :
    (l.foldl (fun m p => m.insert p.1 p.2) m).insert k a =
      l.foldl (fun m p => m.insert p.1 p.2) (m.insert k a) := by
  induction l generalizing m with
  | nil => rfl
  | cons p l ih =>
    obtain ⟨hne, hl⟩ := not_or.mp (fun h => hl (List.mem_cons.mpr h))
    have hcomm : (m.insert p.1 p.2).insert k a = (m.insert k a).insert p.1 p.2 :=
      OrderedMap.ext (put_comm hne a p.2 hk)
    rw [List.foldl_cons, List.foldl_cons, ih hl (mem_keys_insert.mpr (.inl hk)), hcomm]

theorem override_insert (m n : OrderedMap κ α) (k : κ) (a : α) :
    m.override (n.insert k a) = (m.override n).insert k a := by
  obtain ⟨l, hl⟩ := n
  change (put k a l).foldl (fun m p => m.insert p.1 p.2) m =
    (l.foldl (fun m p => m.insert p.1 p.2) m).insert k a
  induction l generalizing m with
  | nil => rfl
  | cons e l ih =>
    obtain ⟨k', a'⟩ := e
    obtain ⟨hnew, hl⟩ := List.nodup_cons.mp hl
    by_cases hk : k' = k
    · subst hk
      have hreplace : (m.insert k' a').insert k' a = m.insert k' a :=
        OrderedMap.ext (put_put k' a' a m.entries)
      rw [put, if_pos rfl, List.foldl_cons, List.foldl_cons,
        insert_foldl_insert hnew (mem_keys_insert.mpr (.inr rfl)), hreplace]
    · rw [put, if_neg hk, List.foldl_cons, List.foldl_cons]
      exact ih (m.insert k' a') hl

theorem get?_override (m n : OrderedMap κ α) (k : κ) :
    (m.override n).get? k = (n.get? k).or (m.get? k) := by
  obtain ⟨l, hl⟩ := n
  induction l generalizing m with
  | nil => rfl
  | cons e l ih =>
    obtain ⟨k', a'⟩ := e
    obtain ⟨hnew, hl⟩ := List.nodup_cons.mp hl
    change ((m.insert k' a').override ⟨l, hl⟩).get? k = (lookup k ((k', a') :: l)).or (m.get? k)
    rw [ih (m.insert k' a') hl, get?_insert, lookup]
    split
    · rename_i hk
      have hnone : get? ⟨l, hl⟩ k = none := lookup_eq_none_iff.mpr (hk ▸ hnew)
      rw [hnone]
      rfl
    · rfl

theorem exists_split_of_lookup {k : κ} {a : α} {l : List (κ × α)} (h : lookup k l = some a) :
    ∃ before after, l = before ++ (k, a) :: after ∧ k ∉ before.map Prod.fst ∧
      ∀ b, put k b l = before ++ (k, b) :: after := by
  induction l with
  | nil => cases h
  | cons e l ih =>
    obtain ⟨k', a'⟩ := e
    rw [lookup] at h
    split at h
    · rename_i hk
      cases h
      subst hk
      exact ⟨[], l, rfl, List.not_mem_nil, fun b => if_pos rfl⟩
    · rename_i hk
      obtain ⟨before, after, rfl, hnew, hput⟩ := ih h
      refine ⟨(k', a') :: before, after, rfl, ?_, ?_⟩
      · exact fun hmem => (List.mem_cons.mp hmem).elim (Ne.symm hk) hnew
      · intro b
        rw [put, if_neg hk, hput b, List.cons_append]

end EntityStore.OrderedMap
