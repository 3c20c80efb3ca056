import EntityStore.Proofs.OrderedMap
import EntityStore.Proofs.Traversal
import EntityStore.Sql.Evaluation

/-!
# Unknown values

Where a record has a null or lacks a column, an expression without null tests takes the value for
unknown. What it is known to evaluate to all the same, it evaluates to whatever the unknown values
are, so a row is neither kept nor turned down because of them.
-/

namespace EntityStore

open Traversal

/-- Every column that has a value keeps it; those that are null or missing may be anything. -/
def Record.FilledBy (r r' : Record) : Prop :=
  ∀ c v, r.get? c = some v → v ≠ .null → r'.get? c = some v

theorem Record.filledBy_insert {r : Record} {c : String} (h : (r.get? c).getD .null = .null) (v : Value) :
    r.FilledBy (r.insert c v) := by
  intro c' w hw hknown
  have hne : c ≠ c' := by
    rintro rfl
    rw [hw] at h
    exact hknown h
  rw [OrderedMap.get?_insert_of_ne r v hne, hw]

theorem Record.FilledBy.trans {r r' r'' : Record} (h : r.FilledBy r') (h' : r'.FilledBy r'') : r.FilledBy r'' :=
  fun c v hv hknown => h' c v (h c v hv hknown) hknown

/-- The same tables are bound, to records with some unknown values filled in. -/
def Binding.FilledBy (binding binding' : Binding) : Prop :=
  List.Forall₂ (fun x y => x.1 = y.1 ∧ x.2.FilledBy y.2) binding binding'

theorem Binding.FilledBy.lookup {binding binding' : Binding} (h : binding.FilledBy binding') {label : String}
    {r : Record} (hr : OrderedMap.lookup label binding = some r) :
    ∃ r', OrderedMap.lookup label binding' = some r' ∧ r.FilledBy r' := by
  induction h with
  | nil => cases hr
  | @cons x y _ _ hxy _ ih =>
    obtain ⟨hlabel, hfilled⟩ := hxy
    rw [OrderedMap.lookup] at hr ⊢
    rw [← hlabel]
    split at hr
    · rename_i hhere
      cases hr
      exact ⟨y.2, if_pos hhere, hfilled⟩
    · rename_i hhere
      rw [if_neg hhere]
      exact ih hr

def Known (x y : Except StoreError Value) : Prop :=
  ∀ v, x = .ok v → ∃ w, y = .ok w ∧ (v ≠ .null → w = v)

namespace Value

theorem truth_of_known {v w : Value} (h : v ≠ .null → w = v) {t : Bool} (ht : v.truth = some t) :
    w.truth = some t := by
  have hv : v ≠ .null := by
    rintro rfl
    cases ht
  rw [h hv, ht]

theorem ofTruth_of_known {x y : Option Bool} (h : ∀ t, x = some t → y = some t) (hx : ofTruth x ≠ .null) :
    ofTruth y = ofTruth x := by
  cases x with
  | none => exact absurd rfl hx
  | some t => rw [h t rfl]

theorem compare?_of_known {v w v' w' : Value} (hv : v ≠ .null → v' = v) (hw : w ≠ .null → w' = w)
    {o : Ordering} (h : v.compare? w = some o) : v'.compare? w' = some o := by
  have hnull : v ≠ .null ∧ w ≠ .null := by
    constructor
    · rintro rfl
      cases h
    · rintro rfl
      simp [compare?, isNull] at h
  rw [hv hnull.1, hw hnull.2, h]

end Value

/-! ### Connectives -/

/-- A connective that is settled by one value on either side, or else by the other value on both. -/
def SettledBy (d : Bool) (connect : Option Bool → Option Bool → Option Bool) : Prop :=
  ∀ x y t, connect x y = some t ↔
    t = d ∧ (x = some d ∨ y = some d) ∨ t = (!d) ∧ x = some (!d) ∧ y = some (!d)

theorem settledBy_andTruth : SettledBy false andTruth := by
  intro x y t
  rcases x with _ | _ | _ <;> rcases y with _ | _ | _ <;> simp [andTruth, eq_comm]

theorem settledBy_orTruth : SettledBy true orTruth := by
  intro x y t
  rcases x with _ | _ | _ <;> rcases y with _ | _ | _ <;> simp [orTruth, eq_comm]

theorem SettledBy.of_known {d : Bool} {connect : Option Bool → Option Bool → Option Bool}
    (h : SettledBy d connect) {x y x' y' : Option Bool} (hx : ∀ t, x = some t → x' = some t)
    (hy : ∀ t, y = some t → y' = some t) {t : Bool} (ht : connect x y = some t) : connect x' y' = some t := by
  rw [h] at ht ⊢
  rcases ht with ⟨ht, hd⟩ | ⟨ht, hxd, hyd⟩
  · exact .inl ⟨ht, hd.imp (hx d) (hy d)⟩
  · exact .inr ⟨ht, hx _ hxd, hy _ hyd⟩

theorem SettledBy.eq_of_left {d : Bool} {connect : Option Bool → Option Bool → Option Bool}
    (h : SettledBy d connect) (y : Option Bool) : connect (some d) y = some d :=
  (h _ _ _).2 (.inl ⟨rfl, .inl rfl⟩)

/-- A connective that does not evaluate its right side if the left one settles it. -/
def shortCircuit (d : Bool) (connect : Option Bool → Option Bool → Option Bool) (l r : Except StoreError Value) :
    Except StoreError Value := do
  let v ← l
  if v.truth = some d then return .bool d
  let w ← r
  return .ofTruth (connect v.truth w.truth)

namespace Known

theorem refl (x : Except StoreError Value) : Known x x := fun v hv => ⟨v, hv, fun _ => rfl⟩

theorem compare (op : CompareOp) {l r l' r' : Except StoreError Value} (hl : Known l l') (hr : Known r r') :
    Known (do let v ← l; let w ← r; return .ofTruth ((v.compare? w).map op.holds))
      (do let v ← l'; let w ← r'; return .ofTruth ((v.compare? w).map op.holds)) := by
  intro u hu
  simp only [bind_eq_ok_iff, pure_eq_ok] at hu
  obtain ⟨v, hv, w, hw, rfl⟩ := hu
  obtain ⟨v', hv', hknown⟩ := hl v hv
  obtain ⟨w', hw', hknown'⟩ := hr w hw
  rw [hv', hw']
  refine ⟨_, rfl, Value.ofTruth_of_known ?_⟩
  intro t ht
  obtain ⟨o, ho, rfl⟩ := Option.map_eq_some_iff.1 ht
  rw [Value.compare?_of_known hknown hknown' ho, Option.map_some]

theorem shortCircuit {d : Bool} {connect : Option Bool → Option Bool → Option Bool} (h : SettledBy d connect)
    {l r l' r' : Except StoreError Value} (hl : Known l l') (hr : Known r r') :
    Known (shortCircuit d connect l r) (shortCircuit d connect l' r') := by
  intro u hu
  obtain ⟨v, hv, hu⟩ := bind_eq_ok_iff.1 hu
  obtain ⟨v', hv', hknown⟩ := hl v hv
  rw [EntityStore.shortCircuit, hv', ok_bind]
  split at hu
  · rename_i hleft
    rw [if_pos (Value.truth_of_known hknown hleft)]
    exact ⟨u, hu, fun _ => rfl⟩
  · simp only [bind_eq_ok_iff, pure_eq_ok] at hu
    obtain ⟨w, hw, rfl⟩ := hu
    obtain ⟨w', hw', hknown'⟩ := hr w hw
    have hconnect := Value.ofTruth_of_known fun t => h.of_known (t := t)
      (fun _ => Value.truth_of_known hknown) (fun _ => Value.truth_of_known hknown')
    split
    · -- the left side settles it now, and then to the same value
      rename_i hleft
      rw [hleft, h.eq_of_left] at hconnect
      exact ⟨_, rfl, hconnect⟩
    · rw [hw']
      exact ⟨_, rfl, hconnect⟩

theorem not {x y : Except StoreError Value} (h : Known x y) :
    Known (do let v ← x; return .ofTruth (v.truth.map (!·))) (do let v ← y; return .ofTruth (v.truth.map (!·))) := by
  intro u hu
  simp only [bind_eq_ok_iff, pure_eq_ok] at hu
  obtain ⟨v, hv, rfl⟩ := hu
  obtain ⟨v', hv', hknown⟩ := h v hv
  rw [hv']
  refine ⟨_, rfl, Value.ofTruth_of_known ?_⟩
  intro t ht
  obtain ⟨b, hb, rfl⟩ := Option.map_eq_some_iff.1 ht
  rw [Value.truth_of_known hknown hb, Option.map_some]

end Known

/-! ### Expressions -/

namespace SqlExpr

def NullTestFree : SqlExpr → Prop
  | .column _ _ | .literal _ | .parameter _ => True
  | .compare _ l r | .and l r | .or l r => l.NullTestFree ∧ r.NullTestFree
  | .not e | .discriminator _ e => e.NullTestFree
  | .isNull _ => False

variable {parameters : Parameters} {binding binding' : Binding} {e : SqlExpr}

theorem known_column (h : binding.FilledBy binding') (t c : String) :
    Known ((column t c).eval parameters binding) ((column t c).eval parameters binding') := by
  intro v hv
  rw [eval] at hv ⊢
  cases hr : OrderedMap.lookup t binding with
  | none =>
    rw [hr] at hv
    cases hv
  | some r =>
    obtain ⟨r', hr', hfilled⟩ := h.lookup hr
    rw [hr] at hv
    cases hv
    rw [hr']
    refine ⟨_, rfl, ?_⟩
    intro hknown
    cases hc : r.get? c with
    | none =>
      rw [hc] at hknown
      exact absurd rfl hknown
    | some v =>
      rw [hc] at hknown
      rw [hfilled c v hc hknown]

/-- What is known of an expression stays so when unknown values are filled in. -/
theorem known_eval (he : e.NullTestFree) (h : binding.FilledBy binding') :
    Known (e.eval parameters binding) (e.eval parameters binding') := by
  induction e with
  | column t c => exact known_column h t c
  | literal v => exact Known.refl _
  | parameter name => exact Known.refl _
  | compare op l r ihl ihr => exact (ihl he.1).compare op (ihr he.2)
  | and l r ihl ihr => exact (ihl he.1).shortCircuit settledBy_andTruth (ihr he.2)
  | or l r ihl ihr => exact (ihl he.1).shortCircuit settledBy_orTruth (ihr he.2)
  | not e ih => exact (ih he).not
  | isNull e => exact he.elim
  | discriminator source e ih => exact ih he

/-- A value other than null does not depend on what is unknown. Nor does the decision about a row: one
that is kept is kept, and one that is known to fail is turned down, whatever the unknown values are. -/
theorem eval_of_filledBy (he : e.NullTestFree) (h : binding.FilledBy binding') :
    (∀ v, e.eval parameters binding = .ok v → v ≠ .null → e.eval parameters binding' = .ok v) ∧
      ∀ b, (e.eval parameters binding).map Value.truth = .ok (some b) →
        (e.eval parameters binding').map Value.truth = .ok (some b) ∧ e.holds parameters binding' = .ok b := by
  have hknown : Known (e.eval parameters binding) (e.eval parameters binding') := known_eval he h
  constructor
  · intro v hv hnull
    obtain ⟨w, hw, heq⟩ := hknown v hv
    rw [hw, heq hnull]
  · intro b hb
    obtain ⟨v, hv, htruth⟩ := map_eq_ok_iff.1 hb
    obtain ⟨w, hw, heq⟩ := hknown v hv
    have htruth' := Value.truth_of_known heq htruth
    refine ⟨map_eq_ok_iff.2 ⟨w, hw, htruth'⟩, ?_⟩
    rw [holds, hw, ok_bind, htruth']
    cases b <;> rfl

def worthReading : SqlExpr :=
  .and (.or (.compare .gt (.column "p" "rating") (.literal (.integer 4)))
      (.not (.equals (.column "p" "title") (.parameter "draft"))))
    (.or (.equals (.column "p" "views") (.column "p" "rating"))
      (.discriminator ⟨0⟩ (.equals (.column "p" "kind") (.literal (.text "Post")))))

def unrated : Record :=
  .ofList [("title", .text "second"), ("rating", .null), ("kind", .text "Post")]

def rated : Record := (unrated.insert "rating" (.integer 2)).insert "views" (.text "many")

theorem eval_of_filledBy_worthReading :
    worthReading.NullTestFree ∧ Binding.FilledBy [("p", unrated)] [("p", rated)] ∧
      worthReading.eval (.ofList [("draft", .text "first")]) [("p", unrated)] = .ok (.bool true) ∧
      worthReading.eval (.ofList [("draft", .text "first")]) [("p", rated)] = .ok (.bool true) ∧
      worthReading.holds (.ofList [("draft", .text "first")]) [("p", rated)] = .ok true := by
  have hfree : worthReading.NullTestFree := by simp [worthReading, NullTestFree, equals]
  have hrecord : unrated.FilledBy rated :=
    (Record.filledBy_insert rfl (.integer 2)).trans (Record.filledBy_insert rfl (.text "many"))
  have hfilled : Binding.FilledBy [("p", unrated)] [("p", rated)] := .cons ⟨rfl, hrecord⟩ .nil
  exact ⟨hfree, hfilled, rfl, (eval_of_filledBy hfree hfilled).1 _ rfl (by decide),
    ((eval_of_filledBy hfree hfilled).2 true rfl).2⟩

end SqlExpr

end EntityStore
