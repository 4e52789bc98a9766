import Courier.Text.Hex
import Courier.Text.Utf8

/-!
Percent encoding. Each part of an address has its own set of characters that are written as the
percent signs of their UTF-8 bytes; every set holds the control characters and all of non-ASCII.
-/

namespace Courier.Url

def isControl (c : Char) : Bool := c.toNat < 0x20 || 0x7e < c.toNat

def isOneOf (s : String) (c : Char) : Bool := s.toList.contains c

/-- Characters encoded in a fragment. -/
def inFragment (c : Char) : Bool := isControl c || isOneOf " \"<>`" c

/-- Characters encoded in a query. -/
def inQuery (c : Char) : Bool := isControl c || isOneOf " \"#<>" c

/-- Characters encoded in the query of an address of a special scheme. -/
def inSpecialQuery (c : Char) : Bool := inQuery c || c = '\''

/-- Characters encoded in a path. -/
def inPath (c : Char) : Bool := inQuery c || isOneOf "?`\x7b\x7d" c

/-- Characters encoded in a user name or password. -/
def inUserInfo (c : Char) : Bool := inPath c || isOneOf "/:;=@[\\]^|" c

def upperHex (n : Nat) : Char := (Nat.digitChar n).toUpper

def encodeByte (b : UInt8) : List Char :=
  ['%', upperHex (b.toNat / 16), upperHex (b.toNat % 16)]

/-- Encodes the characters of a set. -/
def encode (set : Char → Bool) (cs : List Char) : List Char :=
  cs.flatMap fun c => if set c then (Text.utf8 c.toString).flatMap encodeByte else [c]

/-- The bytes of a text with each percent sign and its two digits read as one byte. -/
def decodeBytes : List Char → Bytes
  | [] => []
  | '%' :: a :: b :: rest =>
    match Text.hexDigit? a, Text.hexDigit? b with
    | some x, some y => UInt8.ofNat (16 * x + y) :: decodeBytes rest
    | _, _ => '%'.toUInt8 :: decodeBytes (a :: b :: rest)
  | c :: rest => Text.utf8 c.toString ++ decodeBytes rest

/-- Whether the percent signs of a text stand for UTF-8. -/
def isDecodable (s : String) : Bool :=
  escapesEnd s.toList && (Text.ofUtf8? (decodeBytes s.toList)).isSome
where
  escapesEnd : List Char → Bool
    | [] => true
    | '%' :: a :: b :: rest =>
      (Text.hexDigit? a).isSome && (Text.hexDigit? b).isSome && escapesEnd rest
    | c :: rest => c ≠ '%' && escapesEnd rest

end Courier.Url
