import EntityStore.Proofs.Result.Sequence

/-!
# Pulls

What a caller gets who pulls a sequence any number of times: the rows one after the other, up to the
first that fails, and nothing from then on.
-/

namespace EntityStore.Results

variable {α : Type} {r : Results} {rows : List Row} {shape : ResultShape} {convert : Conversion α}

def afterPulls (r : Results) (convert : Conversion α) : Nat → Results
  | 0 => r
  | n + 1 => (r.next convert).rest.afterPulls convert n

def Succeeds (shape : ResultShape) (convert : Conversion α) (row : Row) : Prop :=
  ∃ a, itemOf shape convert row = .ok a

/-- A sequence of rows from which `i` pulls have been made. -/
structure PulledFrom (rows : List Row) (shape : ResultShape) (convert : Conversion α) (i : Nat)
    (r : Results) : Prop where
  row_next : (∀ row ∈ rows.take i, Succeeds shape convert row) →
    (r.next convert).item = rows[i]?.map (itemOf shape convert) ∧ r.remaining = rows.length - i
  ended : (∃ row ∈ rows.take i, ¬Succeeds shape convert row) →
    (r.next convert).item = none ∧ r.remaining = 0
  hint : r.sizeHint = (0, some r.remaining)
  announced : (r.items convert).length ≤ r.remaining

theorem rest_eq_of_item_eq_none (h : (r.next convert).item = none) : (r.next convert).rest = r := by
  cases hfailed : r.failed with
  | true => rw [next_of_failed hfailed]
  | false =>
    cases hrows : r.rows with
    | nil => rw [next_nil hfailed hrows]
    | cons row rows =>
      cases hitem : itemOf r.shape convert row with
      | ok a =>
        rw [next_cons_ok hfailed hrows hitem] at h
        cases h
      | error e =>
        rw [next_cons_error hfailed hrows hitem] at h
        cases h

theorem items_of_item_eq_none (h : (r.next convert).item = none) : r.items convert = [] := by
  rw [items, h]

theorem items_of_item_eq_some {item : Except StoreError α} (h : (r.next convert).item = some item) :
    r.items convert = item :: (r.next convert).rest.items convert := by
  rw [items, h]

theorem item_afterPulls (r : Results) (convert : Conversion α) (i : Nat) :
    ((r.afterPulls convert i).next convert).item = (r.items convert)[i]? := by
  induction i generalizing r with
  | zero =>
    cases h : (r.next convert).item with
    | none => rw [items_of_item_eq_none h, afterPulls, h]; rfl
    | some item => rw [items_of_item_eq_some h, afterPulls, h]; rfl
  | succ i ih =>
    rw [afterPulls, ih]
    cases h : (r.next convert).item with
    | none => rw [rest_eq_of_item_eq_none h, items_of_item_eq_none h, List.getElem?_nil, List.getElem?_nil]
    | some item => rw [items_of_item_eq_some h, List.getElem?_cons_succ]

theorem length_items_le (r : Results) (convert : Conversion α) : (r.items convert).length ≤ r.remaining := by
  induction r using items.induct convert with
  | case1 r h => rw [items_of_item_eq_none h]; exact Nat.zero_le _
  | case2 r item h ih =>
    have hless := remaining_next_lt h
    rw [items_of_item_eq_some h, List.length_cons]
    omega

theorem afterPulls_of_failed (h : r.failed = true) (convert : Conversion α) (i : Nat) :
    r.afterPulls convert i = r := by
  induction i with
  | zero => rfl
  | succ i ih => rw [afterPulls, next_of_failed h, ih]

theorem afterPulls_of_succeeds (h : r.failed = false) (i : Nat)
    (hrows : ∀ row ∈ r.rows.take i, Succeeds r.shape convert row) :
    r.afterPulls convert i = { r with rows := r.rows.drop i } := by
  induction i generalizing r with
  | zero => rfl
  | succ i ih =>
    cases hall : r.rows with
    | nil =>
      rw [afterPulls, next_nil h hall, ih h (by simp [hall]), hall, List.drop_nil, List.drop_nil]
    | cons row rest =>
      rw [hall, List.take_succ_cons, List.forall_mem_cons] at hrows
      obtain ⟨⟨a, hitem⟩, hrest⟩ := hrows
      rw [afterPulls, next_cons_ok h hall hitem, List.drop_succ_cons]
      exact ih (r := { r with rows := rest }) h hrest

theorem failed_afterPulls (h : r.failed = false) (i : Nat)
    (hrows : ∃ row ∈ r.rows.take i, ¬Succeeds r.shape convert row) :
    (r.afterPulls convert i).failed = true := by
  induction i generalizing r with
  | zero =>
    obtain ⟨row, hrow, -⟩ := hrows
    cases hrow
  | succ i ih =>
    cases hall : r.rows with
    | nil =>
      obtain ⟨row, hrow, -⟩ := hrows
      rw [hall] at hrow
      cases hrow
    | cons row rest =>
      rw [hall, List.take_succ_cons] at hrows
      cases hitem : itemOf r.shape convert row with
      | error e =>
        rw [afterPulls, next_cons_error h hall hitem]
        exact congrArg Results.failed (afterPulls_of_failed
          (r := { r with rows := rest, failed := true }) rfl convert i)
      | ok a =>
        obtain ⟨row', hrow, hfails⟩ := hrows
        rw [afterPulls, next_cons_ok h hall hitem]
        refine ih (r := { r with rows := rest }) h ⟨row', ?_, hfails⟩
        rcases List.mem_cons.1 hrow with rfl | hrow
        · exact absurd ⟨a, hitem⟩ hfails
        · exact hrow

theorem item_next (h : r.failed = false) :
    (r.next convert).item = r.rows.head?.map (itemOf r.shape convert) := by
  cases hrows : r.rows with
  | nil => rw [next_nil h hrows]; rfl
  | cons row rows =>
    cases hitem : itemOf r.shape convert row with
    | ok a => rw [next_cons_ok h hrows hitem, List.head?_cons, Option.map_some, hitem]
    | error e =>
      rw [next_cons_error h hrows hitem, List.head?_cons, Option.map_some, hitem]
      rfl

theorem pulledFrom_afterPulls (h : r.failed = false) (i : Nat) :
    PulledFrom r.rows r.shape convert i (r.afterPulls convert i) where
  row_next hrows := by
    rw [afterPulls_of_succeeds h i hrows]
    constructor
    · rw [item_next (r := { r with rows := r.rows.drop i }) h, List.head?_drop]
    · rw [remaining, if_neg (by simp [h]), List.length_drop]
  ended hrows := by
    have hfailed := failed_afterPulls h i hrows
    rw [next_of_failed hfailed, remaining, if_pos hfailed]
    exact ⟨rfl, rfl⟩
  hint := rfl
  announced := length_items_le _ _

theorem items_append_cons (h : r.failed = false) {before after : List Row} {row : Row} {e : StoreError}
    (hrows : r.rows = before ++ row :: after)
    (hbefore : ∀ row ∈ before, Succeeds r.shape convert row)
    (hrow : itemOf r.shape convert row = .error e) :
    r.items convert = (ofRows before r.shape).items convert ++ [.error e] := by
  have hsucceed : ∀ x ∈ before.map (itemOf r.shape convert), ∃ a, x = .ok a :=
    List.forall_mem_map.2 hbefore
  have halone : upToFailure (before.map (itemOf r.shape convert)) =
      before.map (itemOf r.shape convert) := by
    simpa [upToFailure] using upToFailure_append hsucceed []
  rw [items_eq h, items_eq (r := ofRows before r.shape) rfl, hrows, List.map_append,
    upToFailure_append hsucceed, List.map_cons, hrow, upToFailure]
  exact congrArg (· ++ _) halone.symm

/-- A sequence of rows whose pulls give one row after the other, and nothing after one that fails. -/
structure PulledInOrder (rows : List Row) (shape : ResultShape) (convert : Conversion α) (r : Results) :
    Prop where
  pulled : ∀ i, PulledFrom rows shape convert i (r.afterPulls convert i)
  items : ∀ i, ((r.afterPulls convert i).next convert).item = (r.items convert)[i]?
  items_append_cons : ∀ before row after e, rows = before ++ row :: after →
    (∀ row ∈ before, Succeeds shape convert row) → itemOf shape convert row = .error e →
    r.items convert = (ofRows before shape).items convert ++ [.error e]

theorem pulledInOrder (h : r.failed = false) : PulledInOrder r.rows r.shape convert r where
  pulled := pulledFrom_afterPulls h
  items := item_afterPulls r convert
  items_append_cons _ _ _ _ := items_append_cons h

theorem pulledInOrder_ofRows (rows : List Row) (shape : ResultShape) (convert : Conversion α)
    (origin : Option Origin) :
    PulledInOrder rows shape convert { ofRows rows shape with origin := origin } :=
  pulledInOrder (r := { rows := rows, shape := shape, failed := false, origin := origin }) rfl

end EntityStore.Results
