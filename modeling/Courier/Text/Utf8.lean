import Courier.Bytes

/-!
UTF-8: the bytes of a text, and the text that bytes are. Damaged bytes read as replacement
characters, one for each longest start of a sequence.
-/

namespace Courier.Text

/-- The bytes of a text in UTF-8. -/
def utf8 (s : String) : Bytes := s.toUTF8.toList

/-- The text that the bytes are in UTF-8, none if they are damaged. -/
def ofUtf8? (bs : Bytes) : Option String := String.fromUTF8? ⟨bs.toArray⟩

/-- The character that stands for damaged bytes. -/
def replacement : Char := Char.ofNat 0xFFFD

/-- A sequence that has begun: how many bytes it lacks, its value so far, and the range of its next
byte. -/
structure Sequence where
  lacks : Nat
  value : Nat
  least : Nat
  most : Nat

/-- A byte outside of any sequence: what it reads as, or the sequence that it begins. -/
def firstByte (b : Nat) : List Char × Option Sequence :=
  if b < 0x80 then ([Char.ofNat b], none)
  else if b < 0xC2 then ([replacement], none)
  else if b < 0xE0 then ([], some ⟨1, b - 0xC0, 0x80, 0xBF⟩)
  else if b < 0xF0 then
    ([], some ⟨2, b - 0xE0, if b = 0xE0 then 0xA0 else 0x80, if b = 0xED then 0x9F else 0xBF⟩)
  else if b < 0xF5 then
    ([], some ⟨3, b - 0xF0, if b = 0xF0 then 0x90 else 0x80, if b = 0xF4 then 0x8F else 0xBF⟩)
  else ([replacement], none)

/-- The characters of bytes that follow the start of a sequence, if there is one. -/
def characters : Option Sequence → Bytes → List Char
  | none, [] => []
  | some _, [] => [replacement]
  | none, b :: rest =>
    let (read, begun) := firstByte b.toNat
    read ++ characters begun rest
  | some s, b :: rest =>
    if s.least ≤ b.toNat ∧ b.toNat ≤ s.most then
      let value := s.value * 64 + (b.toNat - 0x80)
      if s.lacks = 1 then Char.ofNat value :: characters none rest
      else characters (some ⟨s.lacks - 1, value, 0x80, 0xBF⟩) rest
    else
      let (read, begun) := firstByte b.toNat
      replacement :: (read ++ characters begun rest)

/-- The text that bytes read as. -/
def ofUtf8 (bs : Bytes) : String := String.ofList (characters none bs)

end Courier.Text
