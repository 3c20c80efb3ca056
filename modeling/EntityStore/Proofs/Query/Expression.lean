import EntityStore.Proofs.Query.Failures

/-!
# Expressions over combinations

A combination binds the label of each source to its record. Labels tell sources apart, so a column
expression over the labels reads what the property expression that it was made of reads.
-/

namespace EntityStore.Reading

open Traversal

theorem tableLabel_injective {a b : SourceId} (h : a.tableLabel = b.tableLabel) : a = b := by
  have hrepr : a.toNat.repr = b.toNat.repr := (String.append_right_inj _).mp h
  have hdigits := congrArg String.toList hrepr
  rw [Nat.toList_repr, Nat.toList_repr] at hdigits
  have hvalue := congrArg (Nat.ofDigitChars 10 · 0) hdigits
  rw [Nat.ofDigitChars_ten_toDigits, Nat.ofDigitChars_ten_toDigits] at hvalue
  cases a
  cases b
  exact congrArg SourceId.mk (UInt32.toNat_inj.mp hvalue)

def bindingOf (c : Combination) : Binding := c.map (fun (source, r) => (source.tableLabel, r))

theorem lookup_bindingOf (c : Combination) (source : SourceId) :
    OrderedMap.lookup source.tableLabel (bindingOf c) = OrderedMap.lookup source c := by
  induction c with
  | nil => rfl
  | cons e c ih =>
    obtain ⟨source', r⟩ := e
    by_cases h : source' = source
    · simp [bindingOf, OrderedMap.lookup, h]
    · have hlabel : source'.tableLabel ≠ source.tableLabel := fun heq => h (tableLabel_injective heq)
      simpa [bindingOf, OrderedMap.lookup, h, hlabel] using ih

theorem eval_column {parameters : Parameters} {c : Combination} {source : SourceId}
    (h : source ∈ c.map Prod.fst) (column : String) :
    (SqlExpr.column source.tableLabel column).eval parameters (bindingOf c) =
      .ok (read c source column) := by
  obtain ⟨r, hr⟩ := OrderedMap.exists_lookup_iff.mpr h
  simp [SqlExpr.eval, lookup_bindingOf, hr, read]

def scope (q : Query) : Plan.Scope := q.sources.map (fun x => (x.id, x.entityType))

theorem typeOf_scope {q : Query} {source : SourceId} {id : TypeId} :
    Plan.typeOf (scope q) source = .ok id ↔ sourceType? q source = some id := by
  have hlookup : OrderedMap.lookup source (scope q) = sourceType? q source := by
    unfold scope sourceType?
    induction q.sources with
    | nil => rfl
    | cons x xs ih =>
      by_cases h : x.id = source
      · simp [OrderedMap.lookup, h]
      · simpa [OrderedMap.lookup, h] using ih
  rw [Plan.typeOf, hlookup]
  cases sourceType? q source <;> simp

theorem mem_sources_of_sourceType? {q : Query} {source : SourceId} {id : TypeId}
    (h : sourceType? q source = some id) : ⟨source, id⟩ ∈ q.sources := by
  obtain ⟨x, hx, rfl⟩ := Option.map_eq_some_iff.mp h
  obtain rfl : x.id = source := by simpa using List.find?_some hx
  exact List.mem_of_find?_eq_some hx

theorem mem_sources_of_expr {s : Schema} {q : Query} {e : Expr} {e' : SqlExpr}
    (h : Plan.expr s (scope q) e = .ok e') :
    ∀ source ∈ sourcesOf e, source ∈ q.sources.map (·.id) := by
  induction e generalizing e' with
  | property source name =>
    simp only [Plan.expr, bind_eq_ok_iff] at h
    obtain ⟨id, hid, _⟩ := h
    intro source' hsource'
    rw [List.mem_singleton.mp hsource']
    exact List.mem_map.mpr ⟨_, mem_sources_of_sourceType? (typeOf_scope.mp hid), rfl⟩
  | constant v => simp [sourcesOf]
  | parameter name => simp [sourcesOf]
  | compare op l r ihl ihr =>
    simp only [Plan.expr, bind_eq_ok_iff] at h
    obtain ⟨l', hl, r', hr, _⟩ := h
    exact List.forall_mem_append.mpr ⟨ihl hl, ihr hr⟩
  | and l r ihl ihr =>
    simp only [Plan.expr, bind_eq_ok_iff] at h
    obtain ⟨l', hl, r', hr, _⟩ := h
    exact List.forall_mem_append.mpr ⟨ihl hl, ihr hr⟩
  | or l r ihl ihr =>
    simp only [Plan.expr, bind_eq_ok_iff] at h
    obtain ⟨l', hl, r', hr, _⟩ := h
    exact List.forall_mem_append.mpr ⟨ihl hl, ihr hr⟩
  | not e ih =>
    simp only [Plan.expr, bind_eq_ok_iff] at h
    obtain ⟨e', he, _⟩ := h
    exact ih he
  | isNull e ih =>
    simp only [Plan.expr, bind_eq_ok_iff] at h
    obtain ⟨e', he, _⟩ := h
    exact ih he

theorem property?_of_typeOf {s : Schema} {q : Query} {source : SourceId} {name : String} {id : TypeId}
    {p : Property} (hid : Plan.typeOf (scope q) source = .ok id) (hp : s.property id name = .ok p) :
    property? s q source name = some p := by
  rw [property?, typeOf_scope.mp hid]
  simp [hp, Except.toOption]

/-- An expression of a plan has the value that the reading gives it, or fails as it does. -/
theorem eval_expr {s : Schema} {q : Query} {e : Expr} {e' : SqlExpr}
    (h : Plan.expr s (scope q) e = .ok e') (c : Combination) :
    e'.eval q.parameters (bindingOf c) = guarded (failure? s q c e) (value s q c e) := by
  induction e generalizing e' with
  | property source name =>
    simp only [Plan.expr, bind_eq_ok_iff, pure_eq_ok, liftM_eq_ok_iff] at h
    obtain ⟨id, hid, p, hp, rfl⟩ := h
    rw [Plan.columnExpr, failure?]
    split
    · rename_i hsource
      rw [eval_column hsource, value, property?_of_typeOf hid hp]
      rfl
    · rename_i hsource
      have hnone := OrderedMap.lookup_eq_none_iff.2 hsource
      rw [SqlExpr.eval, lookup_bindingOf, hnone]
      rfl
  | constant v =>
    cases h
    rfl
  | parameter name =>
    cases h
    exact value_eq q.parameters name
  | compare op l r ihl ihr =>
    simp only [Plan.expr, bind_eq_ok_iff, pure_eq_ok] at h
    obtain ⟨l', hl, r', hr, rfl⟩ := h
    rw [SqlExpr.eval, ihl hl]
    apply guarded_bind
    intro _
    rw [ihr hr]
    cases failure? s q c r <;> rfl
  | and l r ihl ihr =>
    simp only [Plan.expr, bind_eq_ok_iff, pure_eq_ok] at h
    obtain ⟨l', hl, r', hr, rfl⟩ := h
    rw [SqlExpr.eval, ihl hl]
    apply guarded_bind
    intro _
    split
    · rename_i hfalse
      rw [value, hfalse, andTruth_false_left]
      rfl
    · rw [ihr hr]
      cases failure? s q c r <;> rfl
  | or l r ihl ihr =>
    simp only [Plan.expr, bind_eq_ok_iff, pure_eq_ok] at h
    obtain ⟨l', hl, r', hr, rfl⟩ := h
    rw [SqlExpr.eval, ihl hl]
    apply guarded_bind
    intro _
    split
    · rename_i htrue
      rw [value, htrue, orTruth_true_left]
      rfl
    · rw [ihr hr]
      cases failure? s q c r <;> rfl
  | not e ih =>
    simp only [Plan.expr, bind_eq_ok_iff, pure_eq_ok] at h
    obtain ⟨e', he, rfl⟩ := h
    rw [SqlExpr.eval, ih he, failure?]
    cases failure? s q c e <;> rfl
  | isNull e ih =>
    simp only [Plan.expr, bind_eq_ok_iff, pure_eq_ok] at h
    obtain ⟨e', he, rfl⟩ := h
    rw [SqlExpr.eval, ih he, failure?]
    cases failure? s q c e <;> rfl

end EntityStore.Reading
