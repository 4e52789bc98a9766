import Courier.Bytes

/-!
Notations of bytes: two hexadecimal digits a byte, one character a byte, and the 32-bit
FNV-1a digest.
-/

namespace Courier

namespace Text

def hexDigit? (c : Char) : Option Nat :=
  if '0' ≤ c ∧ c ≤ '9' then some (c.toNat - '0'.toNat)
  else if 'a' ≤ c ∧ c ≤ 'f' then some (c.toNat - 'a'.toNat + 10)
  else if 'A' ≤ c ∧ c ≤ 'F' then some (c.toNat - 'A'.toNat + 10)
  else none

/-- The bytes written as pairs of hexadecimal digits, up to the first pair that is none. -/
def unhex : List Char → Bytes
  | a :: b :: rest =>
    match hexDigit? a, hexDigit? b with
    | some x, some y => UInt8.ofNat (16 * x + y) :: unhex rest
    | _, _ => []
  | _ => []

def hexByte (b : UInt8) : List Char :=
  [Nat.digitChar (b.toNat / 16), Nat.digitChar (b.toNat % 16)]

def hex (bs : Bytes) : String := String.ofList (bs.flatMap hexByte)

/-- A text with one character for each byte. -/
def latin1 (bs : Bytes) : String := String.ofList (bs.map fun b => Char.ofNat b.toNat)

/-- The 32-bit FNV-1a digest. -/
def fnv1a (bs : Bytes) : UInt32 :=
  bs.foldl (fun h b => (h ^^^ b.toUInt32) * 16777619) 2166136261

/-- The digest as eight hexadecimal digits. -/
def fnvHex (bs : Bytes) : String :=
  let digits := Nat.toDigits 16 (fnv1a bs).toNat
  String.ofList (List.replicate (8 - digits.length) '0' ++ digits)

end Text
end Courier
