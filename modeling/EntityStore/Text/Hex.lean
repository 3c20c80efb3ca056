import EntityStore.Json.Token

/-!
# Hexadecimal text

Two lower-case digits per byte.
-/

namespace EntityStore.Hex

def byte (b : UInt8) : List Char :=
  [Nat.digitChar (b.toNat / 16), Nat.digitChar (b.toNat % 16)]

def encode (bytes : List UInt8) : String := String.ofList (bytes.flatMap byte)

/-- The bytes that pairs of digits stand for; upper-case digits are read too. -/
def decode? : List Char → Option (List UInt8)
  | [] => some []
  | a :: b :: rest => do
    let high ← Json.Token.hexValue? a
    let low ← Json.Token.hexValue? b
    let bytes ← decode? rest
    return UInt8.ofNat (high * 16 + low) :: bytes
  | _ => none

end EntityStore.Hex
