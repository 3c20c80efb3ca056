import EntityStore.Json.Basic
import EntityStore.Json.Real

/-!
# JSON tokens

The lexical half of reading JSON: white space between tokens is dropped, escapes are resolved and
number literals are classified. Text that is no sequence of tokens is refused.
-/

namespace EntityStore.Json

inductive Token where
  | openList
  | closeList
  | openObject
  | closeObject
  | comma
  | colon
  | null
  | bool (b : Bool)
  | int (i : Int)
  | real (x : Binary64)
  | str (s : String)

namespace Token

def isBlank (c : Char) : Bool := c == ' ' || c == '\n' || c == '\t' || c == '\r'

def hexValue? (c : Char) : Option Nat :=
  if '0' ≤ c ∧ c ≤ '9' then some (c.toNat - '0'.toNat)
  else if 'a' ≤ c ∧ c ≤ 'f' then some (c.toNat - 'a'.toNat + 10)
  else if 'A' ≤ c ∧ c ≤ 'F' then some (c.toNat - 'A'.toNat + 10)
  else none

def hexValue4? (a b c d : Char) : Option Nat := do
  let a ← hexValue? a
  let b ← hexValue? b
  let c ← hexValue? c
  let d ← hexValue? d
  return a * 4096 + b * 256 + c * 16 + d

def simpleEscape? (c : Char) : Option Char :=
  if c = '"' then some '"'
  else if c = '\\' then some '\\'
  else if c = '/' then some '/'
  else if c = 'n' then some '\n'
  else if c = 'r' then some '\r'
  else if c = 't' then some '\t'
  else if c = 'b' then some '\x08'
  else if c = 'f' then some '\x0c'
  else none

/-- One character of a string body, with what follows it. Code points above the basic plane are
written as a pair of surrogates; half a pair is refused, as are bare control characters. -/
def bodyChar? : List Char → Option (Char × List Char)
  | '\\' :: 'u' :: a :: b :: c :: d :: rest => do
    let high ← hexValue4? a b c d
    if 0xD800 ≤ high ∧ high < 0xDC00 then
      match rest with
      | '\\' :: 'u' :: a :: b :: c :: d :: rest => do
        let low ← hexValue4? a b c d
        if 0xDC00 ≤ low ∧ low < 0xE000 then
          some (Char.ofNat (0x10000 + (high - 0xD800) * 0x400 + (low - 0xDC00)), rest)
        else none
      | _ => none
    else if 0xDC00 ≤ high ∧ high < 0xE000 then none
    else some (Char.ofNat high, rest)
  | '\\' :: c :: rest => (simpleEscape? c).map (·, rest)
  | c :: rest => if c.toNat < 0x20 then none else some (c, rest)
  | [] => none

def stringBody? : Nat → List Char → Option (List Char × List Char)
  | 0, _ => none
  | _ + 1, '"' :: rest => some ([], rest)
  | fuel + 1, cs => do
    let (c, rest) ← bodyChar? cs
    let (body, rest) ← stringBody? fuel rest
    return (c :: body, rest)

def digitsValue (digits : List Char) : Nat :=
  digits.foldl (fun n c => n * 10 + (c.toNat - '0'.toNat)) 0

def digitRun (cs : List Char) : List Char × List Char := cs.span Char.isDigit

/-- The exponent part of a number; absent is zero. -/
def exponentPart? (cs : List Char) : Option (Option Int × List Char) :=
  let unsigned (negative : Bool) (cs : List Char) : Option (Option Int × List Char) :=
    match digitRun cs with
    | ([], _) => none
    | (digits, rest) =>
      let n : Int := digitsValue digits
      some (some (if negative then -n else n), rest)
  match cs with
  | c :: rest =>
    if c = 'e' ∨ c = 'E' then
      match rest with
      | '+' :: rest => unsigned false rest
      | '-' :: rest => unsigned true rest
      | rest => unsigned false rest
    else some (none, cs)
  | [] => some (none, [])

/-- The digits after the decimal mark; absent is `none`, present and empty is refused. -/
def fractionPart? : List Char → Option (Option (List Char) × List Char)
  | '.' :: rest =>
    match digitRun rest with
    | ([], _) => none
    | (digits, rest) => some (some digits, rest)
  | cs => some (none, cs)

/-- An integer literal is kept as an integer when it fits into 64 bits, signed if negative. Minus
zero is the real one. -/
def wholeNumber (negative : Bool) (digits : List Char) : Token :=
  let n : Int := digitsValue digits
  let isInt :=
    if negative then n != 0 && decide (Int64.minValue.toInt ≤ -n)
    else decide (n < UInt64.size)
  if isInt then .int (if negative then -n else n) else .real (realOf negative digits [] 0)

/-- A number without its sign. A literal too large for a real becomes an infinity, which no
reader of numbers accepts. -/
def unsignedNumber? (negative : Bool) (cs : List Char) : Option (Token × List Char) := do
  let (digits, rest) := digitRun cs
  match digits with
  | [] => none
  | '0' :: _ :: _ => none
  | digits =>
    let (fraction, rest) ← fractionPart? rest
    let (exponent, rest) ← exponentPart? rest
    match fraction, exponent with
    | none, none => some (wholeNumber negative digits, rest)
    | _, _ =>
      some (.real (realOf negative digits (fraction.getD []) (exponent.getD 0)), rest)

def next? : List Char → Option (Token × List Char)
  | '[' :: rest => some (.openList, rest)
  | ']' :: rest => some (.closeList, rest)
  | '\x7b' :: rest => some (.openObject, rest)
  | '\x7d' :: rest => some (.closeObject, rest)
  | ',' :: rest => some (.comma, rest)
  | ':' :: rest => some (.colon, rest)
  | 'n' :: 'u' :: 'l' :: 'l' :: rest => some (.null, rest)
  | 't' :: 'r' :: 'u' :: 'e' :: rest => some (.bool true, rest)
  | 'f' :: 'a' :: 'l' :: 's' :: 'e' :: rest => some (.bool false, rest)
  | '"' :: rest => do
    let (body, rest) ← stringBody? (rest.length + 1) rest
    return (.str (String.ofList body), rest)
  | '-' :: rest => unsignedNumber? true rest
  | cs => unsignedNumber? false cs

def scanWith : Nat → List Char → Option (List Token)
  | 0, _ => none
  | fuel + 1, cs =>
    match cs with
    | [] => some []
    | c :: rest =>
      if isBlank c then scanWith fuel rest
      else do
        let (token, rest) ← next? cs
        let tokens ← scanWith fuel rest
        return token :: tokens

/-- The tokens of a text; every step takes at least one character. -/
def scan (cs : List Char) : Option (List Token) := scanWith (cs.length + 1) cs

end Token

end EntityStore.Json
