import EntityStore.Json.Basic

/-!
# Reading typed documents

A record is an object, whose unknown fields are ignored and whose known fields occur at most once,
or a list of its fields in order. A variant is the name of its case, or an object with that name
as its one field.
-/

namespace EntityStore.Json

def bool? : Json → Option Bool
  | .bool b => some b
  | _ => none

def str? : Json → Option String
  | .str s => some s
  | _ => none

def nat? (bound : Nat) : Json → Option Nat
  | .int i => if 0 ≤ i ∧ i.toNat < bound then some i.toNat else none
  | _ => none

def uint32? (j : Json) : Option UInt32 := (j.nat? UInt32.size).map UInt32.ofNat

def uint64? (j : Json) : Option UInt64 := (j.nat? UInt64.size).map UInt64.ofNat

def list? (read : Json → Option α) : Json → Option (List α)
  | .arr items => items.mapM read
  | _ => none

def nullable? (read : Json → Option α) : Json → Option (Option α)
  | .null => some none
  | j => (read j).map some

/-- The one value under a name; `some none` if there is none, refused if there are two. -/
def field? (fields : List (String × Json)) (name : String) : Option (Option Json) :=
  match fields.filter (·.1 == name) with
  | [] => some none
  | [(_, v)] => some (some v)
  | _ => none

/-- The fields of a record under the given names. -/
def record? (names : List String) : Json → Option (List (Option Json))
  | .obj fields => names.mapM (field? fields)
  | .arr items =>
    if items.length ≤ names.length then
      some (items.map some ++ List.replicate (names.length - items.length) none)
    else none
  | _ => none

def required (read : Json → Option α) (field : Option Json) : Option α := field.bind read

/-- A field that stands for `default` when absent. -/
def orDefault (default : α) (read : Json → Option α) : Option Json → Option α
  | none => some default
  | some j => read j

/-- A field that may be absent or null. -/
def optional (read : Json → Option α) (field : Option Json) : Option (Option α) :=
  orDefault none (nullable? read) field

/-- The name of a case and its content, if it has one. -/
def variant? : Json → Option (String × Option Json)
  | .str name => some (name, none)
  | .obj [(name, content)] => some (name, some content)
  | _ => none

/-- A case without content; null counts as none. -/
def unit? : Option Json → Option Unit
  | none | some .null => some ()
  | _ => none

/-- The last value written under each name, at the place of the first. -/
def lastWins (fields : List (String × Json)) : List (String × Json) :=
  fields.foldl (fun kept f =>
    if kept.any (·.1 == f.1) then kept.map (fun k => if k.1 == f.1 then f else k)
    else kept ++ [f]) []

mutual

/-- A document in which every name occurs once in an object. -/
def settle : Json → Json
  | .obj fields => .obj (lastWins (settleFields fields))
  | .arr items => .arr (settleItems items)
  | j => j

def settleItems : List Json → List Json
  | [] => []
  | j :: rest => j.settle :: settleItems rest

def settleFields : List (String × Json) → List (String × Json)
  | [] => []
  | (name, j) :: rest => (name, j.settle) :: settleFields rest

end

def ofOption (write : α → Json) : Option α → Json
  | none => .null
  | some a => write a

end EntityStore.Json
