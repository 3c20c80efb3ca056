import EntityStore.Json.Token

/-!
# Reading JSON text

A document is one value with nothing after it. Lists and objects nest at most as deep as the given
limit.
-/

namespace EntityStore.Json

mutual

/-- A value at the front of the tokens, with what follows it. The first argument bounds the
recursion, the second the nesting. -/
def value? : Nat → Nat → List Token → Option (Json × List Token)
  | 0, _, _ => none
  | fuel + 1, depth, tokens =>
    match tokens with
    | .null :: rest => some (.null, rest)
    | .bool b :: rest => some (.bool b, rest)
    | .int i :: rest => some (.int i, rest)
    | .real x :: rest => some (.real x, rest)
    | .str s :: rest => some (.str s, rest)
    | .openList :: rest =>
      match depth with
      | 0 => none
      | depth + 1 =>
        match rest with
        | .closeList :: rest => some (.arr [], rest)
        | rest => do
          let (items, rest) ← items? fuel depth rest
          return (.arr items, rest)
    | .openObject :: rest =>
      match depth with
      | 0 => none
      | depth + 1 =>
        match rest with
        | .closeObject :: rest => some (.obj [], rest)
        | rest => do
          let (fields, rest) ← fields? fuel depth rest
          return (.obj fields, rest)
    | _ => none

def items? : Nat → Nat → List Token → Option (List Json × List Token)
  | 0, _, _ => none
  | fuel + 1, depth, tokens => do
    let (v, rest) ← value? fuel depth tokens
    match rest with
    | .closeList :: rest => return ([v], rest)
    | .comma :: rest =>
      let (items, rest) ← items? fuel depth rest
      return (v :: items, rest)
    | _ => none

def fields? : Nat → Nat → List Token → Option (List (String × Json) × List Token)
  | 0, _, _ => none
  | fuel + 1, depth, tokens =>
    match tokens with
    | .str name :: .colon :: rest => do
      let (v, rest) ← value? fuel depth rest
      match rest with
      | .closeObject :: rest => return ([(name, v)], rest)
      | .comma :: rest =>
        let (fields, rest) ← fields? fuel depth rest
        return ((name, v) :: fields, rest)
      | _ => none
    | _ => none

end

/-- Reads one document whose nesting stays within `limit`. -/
def parse? (limit : Nat) (text : String) : Option Json := do
  let tokens ← Token.scan text.toList
  let (v, rest) ← value? (2 * tokens.length + 1) limit tokens
  match rest with
  | [] => return v
  | _ => none

def nestingLimit : Nat := 127

end EntityStore.Json
