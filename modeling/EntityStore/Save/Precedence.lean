/-!
# Precedence graphs

Nodes are numbers below a bound, edges say what comes first. `Precedence.order?` lists the nodes so
that every edge points forward, or names a node on a cycle; `Precedence.levels` gives each node the
length of the longest chain before it.
-/

namespace EntityStore

/-- The edges in the order in which they were added, each once. -/
structure Precedence where
  size : Nat
  edges : List (Nat × Nat)

namespace Precedence

def addEdge (edges : List (Nat × Nat)) (e : Nat × Nat) : List (Nat × Nat) :=
  if edges.contains e then edges else edges ++ [e]

def ofEdges (size : Nat) (edges : List (Nat × Nat)) : Precedence :=
  { size := size, edges := edges.foldl addEdge [] }

def successors (g : Precedence) (n : Nat) : List Nat :=
  (g.edges.filter (fun e => e.1 == n)).map (·.2)

def predecessors (g : Precedence) (n : Nat) : List Nat :=
  (g.edges.filter (fun e => e.2 == n)).map (·.1)

/-- A depth-first walk: the nodes seen so far, and the finished ones, the latest first. -/
structure Walk where
  seen : List Nat
  finished : List Nat

/-- Walks through everything that comes after a node and finishes the node. The first argument
bounds the depth. -/
def visit (g : Precedence) : Nat → Walk → Nat → Walk
  | 0, w, _ => w
  | depth + 1, w, n =>
    if w.seen.contains n then w
    else
      let w := (g.successors n).foldl (g.visit depth) { w with seen := n :: w.seen }
      { w with finished := n :: w.finished }

/-- All nodes, each before the nodes that were reached from it and were not finished by then. -/
def finishOrder (g : Precedence) : List Nat :=
  ((List.range g.size).foldl (g.visit (g.size + 1)) ⟨[], []⟩).finished

/-- A predecessor that does not come before its node in a list, for the first node that has one;
the one whose edge was added first. The nodes passed so far are passed along. -/
def backEdge? (g : Precedence) : List Nat → List Nat → Option Nat
  | _, [] => none
  | before, n :: rest =>
    match (g.predecessors n).find? (fun p => !before.contains p && p != n) with
    | some p => some p
    | none => g.backEdge? (n :: before) rest

/-- The nodes in an order of precedence, or a node on a cycle. -/
def order? (g : Precedence) : Except Nat (List Nat) :=
  match g.backEdge? [] g.finishOrder with
  | some n => .error n
  | none => .ok g.finishOrder

def levelAfter (g : Precedence) (known : List (Nat × Nat)) (n : Nat) : Nat :=
  (g.predecessors n).foldl (fun level p => max level ((known.lookup p).getD 0 + 1)) 0

def levels (g : Precedence) (order : List Nat) : List (Nat × Nat) :=
  order.foldl (fun known n => (n, g.levelAfter known n) :: known) []

end Precedence

end EntityStore
