/-!
Text as a sequence of UTF-16 units: the order of texts by unit, and capital letters.
-/

namespace Courier.Text

/-- The units of one character: itself, or a surrogate pair above `U+FFFF`. -/
def unitsOf (c : Char) : List Nat :=
  let n := c.toNat
  if n < 0x10000 then [n] else [0xD800 + (n - 0x10000) / 0x400, 0xDC00 + (n - 0x10000) % 0x400]

def units (s : String) : List Nat := s.toList.flatMap unitsOf

/-- A text that is cut behind so many units: the whole characters before the cut, the first half of
a surrogate pair that the cut goes through, and how many units are left. -/
structure Cut where
  shown : String
  half : Option Nat
  left : Nat
  deriving DecidableEq, Repr

/-- The characters that fit into so many units, in order, and the first half of the pair behind them
if one more unit fits. -/
def cutChars : Nat → List Char → List Char × Option Nat
  | _, [] => ([], none)
  | limit, c :: rest =>
    let us := unitsOf c
    if us.length ≤ limit then
      let (shown, half) := cutChars (limit - us.length) rest
      (c :: shown, half)
    else ([], if limit = 0 then none else us.head?)

def cut (limit : Nat) (s : String) : Cut :=
  let (shown, half) := cutChars limit s.toList
  ⟨String.ofList shown, half, (units s).length - limit⟩

/-- The order of texts unit by unit; a proper start of a text comes before it. -/
def unitsLe : List Nat → List Nat → Bool
  | [], _ => true
  | _ :: _, [] => false
  | a :: as, b :: bs => a < b || (a == b && unitsLe as bs)

/-- Texts in unit order, equal ones in their given order. -/
def sortBy {α : Type} (key : α → String) (xs : List α) : List α :=
  let keyed := xs.map fun x => (units (key x), x)
  (keyed.mergeSort fun a b => unitsLe a.1 b.1).map (·.2)

end Courier.Text
