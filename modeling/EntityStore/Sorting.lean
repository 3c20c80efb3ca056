/-!
# Stable sorting

Insertion sort by a strict comparison. An element passes the greater ones before it and stops at
the first that is not greater, so elements that compare equal keep their order. A comparison that is no
weak order leaves open what a stable sort makes of a list; this one then gives one of the possible results.
-/

namespace EntityStore.Sorting

/-- Inserts into a list whose order is reversed. -/
def insertReversed (less : α → α → Bool) (x : α) : List α → List α
  | [] => [x]
  | y :: rest => if less x y then y :: insertReversed less x rest else x :: y :: rest

def sort (less : α → α → Bool) (xs : List α) : List α :=
  (xs.foldl (fun sorted x => insertReversed less x sorted) []).reverse

end EntityStore.Sorting
