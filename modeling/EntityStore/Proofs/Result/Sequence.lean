import EntityStore.Result.Shaper

/-!
# Items of result sequences

A caller who pulls a sequence to its end gets the results of the rows one by one, up to the first
failure.
-/

namespace EntityStore.Results

variable {α ε : Type}

theorem next_of_failed {r : Results} (h : r.failed = true) (convert : Conversion α) :
    r.next convert = { item := none, rest := r, events := [] } := by
  rw [next, if_pos h]

theorem next_nil {r : Results} (h : r.failed = false) (hrows : r.rows = []) (convert : Conversion α) :
    r.next convert = { item := none, rest := r, events := [] } := by
  simp [next, h, hrows]

theorem next_cons_ok {r : Results} (h : r.failed = false) {row : Row} {rows : List Row}
    (hrows : r.rows = row :: rows) {convert : Conversion α} {a : α}
    (hitem : itemOf r.shape convert row = .ok a) :
    r.next convert = { item := some (.ok a), rest := { r with rows := rows }, events := [] } := by
  simp [next, h, hrows, hitem]

theorem next_cons_error {r : Results} (h : r.failed = false) {row : Row} {rows : List Row}
    (hrows : r.rows = row :: rows) {convert : Conversion α} {e : StoreError}
    (hitem : itemOf r.shape convert row = .error e) :
    r.next convert = ({ r with rows := rows } : Results).fail e := by
  simp [next, h, hrows, hitem]

theorem remaining_next_lt {r : Results} {convert : Conversion α} {item : Except StoreError α}
    (h : (r.next convert).item = some item) : (r.next convert).rest.remaining < r.remaining := by
  cases hfailed : r.failed with
  | true =>
    rw [next_of_failed hfailed] at h
    cases h
  | false =>
    cases hrows : r.rows with
    | nil =>
      rw [next_nil hfailed hrows] at h
      cases h
    | cons row rows =>
      cases hitem : itemOf r.shape convert row with
      | ok a =>
        rw [next_cons_ok hfailed hrows hitem]
        simp [remaining, hfailed, hrows]
      | error e =>
        rw [next_cons_error hfailed hrows hitem]
        simp [remaining, fail, hfailed, hrows]

def items (r : Results) (convert : Conversion α) : List (Except StoreError α) :=
  match _h : (r.next convert).item with
  | none => []
  | some item => item :: items (r.next convert).rest convert
termination_by r.remaining
decreasing_by exact remaining_next_lt _h

/-- A list up to its first failure, which is kept. -/
def upToFailure : List (Except ε α) → List (Except ε α)
  | [] => []
  | .ok a :: rest => .ok a :: upToFailure rest
  | .error e :: _ => [.error e]

theorem items_of_failed {r : Results} (h : r.failed = true) (convert : Conversion α) :
    r.items convert = [] := by
  rw [items, next_of_failed h]

theorem items_eq {r : Results} (h : r.failed = false) (convert : Conversion α) :
    r.items convert = upToFailure (r.rows.map (itemOf r.shape convert)) := by
  generalize hrows : r.rows = rows
  induction rows generalizing r with
  | nil =>
    rw [items, next_nil h hrows]
    rfl
  | cons row rows ih =>
    rw [items, List.map_cons]
    cases hitem : itemOf r.shape convert row with
    | ok a =>
      rw [next_cons_ok h hrows hitem, upToFailure]
      have hrest := ih (r := { r with rows := rows }) h rfl
      exact congrArg (.ok a :: ·) hrest
    | error e =>
      rw [next_cons_error h hrows hitem, upToFailure]
      have hrest := items_of_failed (r := { r with rows := rows, failed := true }) rfl convert
      exact congrArg (.error e :: ·) hrest

theorem nextUnless_false (r : Results) (convert : Conversion α) :
    r.nextUnless false convert = r.next convert := by
  cases hfailed : r.failed with
  | true => simp [nextUnless, next_of_failed hfailed, hfailed]
  | false => simp [nextUnless, hfailed]

/-- A bound on the items that are still to come. A caller who gives up gets one even if there are no
rows left. -/
def pending (r : Results) : Nat := if r.failed then 0 else r.rows.length + 1

theorem pending_nextUnless_lt {r : Results} {cancelled : Bool} {convert : Conversion α}
    {item : Except StoreError α} (h : (r.nextUnless cancelled convert).item = some item) :
    (r.nextUnless cancelled convert).rest.pending < r.pending := by
  cases hfailed : r.failed with
  | true => simp [nextUnless, hfailed] at h
  | false =>
    cases cancelled with
    | true => simp [nextUnless, fail, pending, hfailed]
    | false =>
      rw [nextUnless_false] at h ⊢
      have hless := remaining_next_lt h
      simp only [remaining, pending, hfailed, Bool.false_eq_true, if_false] at hless ⊢
      split at hless <;> simp_all

/-- The items of a stream that is pulled until there are no more, by a caller who has given up or
has not. -/
def streamed (r : Results) (cancelled : Bool) (convert : Conversion α) : List (Except StoreError α) :=
  match _h : (r.nextUnless cancelled convert).item with
  | none => []
  | some item => item :: streamed (r.nextUnless cancelled convert).rest cancelled convert
termination_by r.pending
decreasing_by exact pending_nextUnless_lt _h

def pullEvents (r : Results) (cancelled : Bool) (convert : Conversion α) : List LogEvent :=
  match _h : (r.nextUnless cancelled convert).item with
  | none => []
  | some _ => (r.nextUnless cancelled convert).events ++
      pullEvents (r.nextUnless cancelled convert).rest cancelled convert
termination_by r.pending
decreasing_by exact pending_nextUnless_lt _h

theorem streamed_false (r : Results) (convert : Conversion α) :
    r.streamed false convert = r.items convert := by
  induction r using items.induct convert with
  | case1 r h =>
    rw [streamed, items, nextUnless_false, h]
  | case2 r item h ih =>
    rw [streamed, items, nextUnless_false, h, ih]

/-- Sequences that differ at most in where their failures are logged. -/
structure Alike (r r' : Results) : Prop where
  rows : r.rows = r'.rows
  shape : r.shape = r'.shape
  failed : r.failed = r'.failed

theorem Alike.items_eq {r r' : Results} (h : r.Alike r') (convert : Conversion α) :
    r.items convert = r'.items convert := by
  cases hfailed : r'.failed with
  | true => rw [items_of_failed hfailed, items_of_failed (h.failed.trans hfailed)]
  | false =>
    rw [Results.items_eq hfailed, Results.items_eq (h.failed.trans hfailed), h.rows, h.shape]

theorem upToFailure_append {l : List (Except ε α)} (h : ∀ x ∈ l, ∃ a, x = .ok a)
    (l' : List (Except ε α)) : upToFailure (l ++ l') = l ++ upToFailure l' := by
  induction l with
  | nil => rfl
  | cons x l ih =>
    obtain ⟨a, rfl⟩ := h x List.mem_cons_self
    rw [List.cons_append, upToFailure, ih (fun y hy => h y (List.mem_cons_of_mem _ hy)),
      List.cons_append]

theorem upToFailure_eq_self {l : List (Except ε α)} (h : ∀ x ∈ upToFailure l, ∃ a, x = .ok a) :
    upToFailure l = l := by
  induction l with
  | nil => rfl
  | cons x l ih =>
    cases x with
    | error e =>
      obtain ⟨a, ha⟩ := h (.error e) List.mem_cons_self
      cases ha
    | ok a =>
      rw [upToFailure, ih (fun y hy => h y (List.mem_cons_of_mem _ hy))]

theorem upToFailure_map_ok (as : List α) : upToFailure (as.map (Except.ok : α → Except ε α)) = as.map .ok := by
  induction as with
  | nil => rfl
  | cons a as ih => rw [List.map_cons, upToFailure, ih]

theorem upToFailure_eq_map_ok_iff {l : List (Except ε α)} {as : List α} :
    upToFailure l = as.map .ok ↔ l = as.map .ok := by
  constructor
  · intro h
    rw [← h]
    refine (upToFailure_eq_self ?_).symm
    intro x hx
    rw [h] at hx
    obtain ⟨a, -, ha⟩ := List.mem_map.1 hx
    exact ⟨a, ha.symm⟩
  · rintro rfl
    exact upToFailure_map_ok as

end EntityStore.Results
