import EntityStore.Value.Basic
import EntityStore.Sorting

/-!
# Orders on values

`Value.compare?` is comparison in a query, where nothing compares with null. `Value.sortOrder`
is the order of sorted results, where null comes first.
-/

namespace EntityStore.Value

/-- Values of unrelated types are ordered by rank: numbers, text, blobs. -/
def rank : Value → Nat
  | .null => 0
  | .bool _ | .integer _ | .real _ => 1
  | .text _ => 2
  | .blob _ => 3

/-- Comparison of two values that are not null. Whole numbers compare exactly, a whole number and
a real as reals. -/
def compareNonNull? (v w : Value) : Option Ordering :=
  match v.toReal?, w.toReal? with
  | some x, some y =>
    match v.toInt64?, w.toInt64? with
    | some i, some j => some (compare i.toInt j.toInt)
    | _, _ => x.compare? y
  | _, _ =>
    match v, w with
    | .text a, .text b => some (compare a b)
    | .blob a, .blob b => some (List.compareLex compare a b)
    | _, _ => some (compare v.rank w.rank)

def compare? (v w : Value) : Option Ordering :=
  if v.isNull || w.isNull then none else compareNonNull? v w

def sortOrder (v w : Value) : Ordering :=
  match v.isNull, w.isNull with
  | true, true => .eq
  | true, false => .lt
  | false, true => .gt
  | false, false => (v.compare? w).getD .eq

/-- Sorts by `sortOrder`; values that are equal in it keep their places. -/
def sort (values : List Value) : List Value :=
  Sorting.sort (fun v w => v.sortOrder w == .lt) values

end EntityStore.Value
