import EntityStore.Text.Printable

/-!
# Quoted text

Text in double quotes with escapes for the quote, the escape character and everything that is not
printable.
-/

namespace EntityStore.Text

def quoteChar (c : Char) : List Char :=
  if c = '"' then ['\\', '"']
  else if c = '\\' then ['\\', '\\']
  else if c = '\n' then ['\\', 'n']
  else if c = '\r' then ['\\', 'r']
  else if c = '\t' then ['\\', 't']
  else if c = '\x00' then ['\\', '0']
  else if isPrintable c then [c]
  else ['\\', 'u', '\x7b'] ++ Nat.toDigits 16 c.toNat ++ ['\x7d']

def quote (s : String) : String :=
  String.ofList ('"' :: (s.toList.flatMap quoteChar ++ ['"']))

def bracketed (items : List String) : String :=
  "[" ++ ", ".intercalate items ++ "]"

end EntityStore.Text
