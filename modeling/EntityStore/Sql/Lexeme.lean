import EntityStore.Json.Token
import EntityStore.Value.Basic

/-!
# Lexemes of SQL

The lexical half of reading SQL text: quoted identifiers and strings lose their quotes, numbers and
blobs become values, words and symbols stay as they are.
-/

namespace EntityStore.Sql

inductive Lexeme
  | word (s : String)
  | name (s : String)
  | value (v : Value)
  | placeholder (n : Nat)
  | symbol (s : String)
deriving DecidableEq

namespace Lexeme

/-- The text up to the closing quote; a doubled quote stands for itself. -/
def quoted? (quote : Char) : List Char → Option (List Char × List Char)
  | [] => none
  | [c] => if c = quote then some ([], []) else none
  | c :: d :: rest =>
    if c = quote then
      if d = quote then (quoted? quote rest).map (fun (s, rest) => (quote :: s, rest))
      else some ([], d :: rest)
    else (quoted? quote (d :: rest)).map (fun (s, rest) => (c :: s, rest))

def hexBytes? : List Char → Option (List UInt8 × List Char)
  | '\'' :: rest => some ([], rest)
  | a :: b :: rest => do
    let high ← Json.Token.hexValue? a
    let low ← Json.Token.hexValue? b
    let (bytes, rest) ← hexBytes? rest
    return (UInt8.ofNat (high * 16 + low) :: bytes, rest)
  | _ => none

/-- A number without sign: an integer if it is written as one and fits, else a real. -/
def number? (cs : List Char) : Option (Value × List Char) := do
  let (digits, rest) := Json.Token.digitRun cs
  if digits.isEmpty then none
  else
    let (fraction, rest) ← Json.Token.fractionPart? rest
    let (exponent, rest) ← Json.Token.exponentPart? rest
    let whole := Json.Token.digitsValue digits
    if fraction.isNone && exponent.isNone && (whole : Int) ≤ Int64.maxValue.toInt then
      return (.integer (Int64.ofNat whole), rest)
    else
      let fraction := fraction.getD []
      let exponent := exponent.getD 0 - (fraction.length : Int)
      return (.real (Binary64.ofDecimal false (Json.Token.digitsValue (digits ++ fraction))
        exponent), rest)

def isWordChar (c : Char) : Bool := c.isAlphanum || c == '_'

def next? : List Char → Option (Lexeme × List Char)
  | '"' :: rest => (quoted? '"' rest).map (fun (s, rest) => (.name (String.ofList s), rest))
  | '\'' :: rest =>
    (quoted? '\'' rest).map (fun (s, rest) => (.value (.text (String.ofList s)), rest))
  | 'X' :: '\'' :: rest => (hexBytes? rest).map (fun (b, rest) => (.value (.blob b), rest))
  | '?' :: rest =>
    match Json.Token.digitRun rest with
    | ([], _) => none
    | (digits, rest) => some (.placeholder (Json.Token.digitsValue digits), rest)
  | '<' :: '=' :: rest => some (.symbol "<=", rest)
  | '>' :: '=' :: rest => some (.symbol ">=", rest)
  | '<' :: '>' :: rest => some (.symbol "<>", rest)
  | c :: rest =>
    if c.isDigit then (number? (c :: rest)).map (fun (v, rest) => (.value v, rest))
    else if isWordChar c then
      let (letters, rest) := (c :: rest).span isWordChar
      some (.word (String.ofList letters), rest)
    else some (.symbol (String.singleton c), rest)
  | [] => none

def scanWith : Nat → List Char → Option (List Lexeme)
  | 0, _ => none
  | _ + 1, [] => some []
  | fuel + 1, c :: rest =>
    if c.isWhitespace then scanWith fuel rest
    else do
      let (lexeme, rest) ← next? (c :: rest)
      let lexemes ← scanWith fuel rest
      return lexeme :: lexemes

/-- The lexemes of a text; every step takes at least one character. -/
def scan (text : String) : Option (List Lexeme) :=
  scanWith (text.length + 1) text.toList

end Lexeme

end EntityStore.Sql
