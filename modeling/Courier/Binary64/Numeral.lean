import Courier.Binary64
import Courier.Text.Blank
import Courier.Text.Hex

/-!
Numerals: a text between blanks that is a number. A numeral is decimal, with a point and an exponent
at most, or it is whole and written in base 16, 8 or 2 behind a mark. No text at all is zero, and
any other text is not a number.
-/

namespace Courier.Binary64

def valueOf (base : Nat) (digits : List Nat) : Nat := digits.foldl (fun n d => base * n + d) 0

/-- The digits of a text that has nothing else. -/
def digits? (base : Nat) (cs : List Char) : Option (List Nat) :=
  cs.mapM fun c => (Text.hexDigit? c).filter (· < base)

/-- The exponent at the end of a decimal numeral, zero if there is none. -/
def exponent? (cs : List Char) : Option Int :=
  match cs with
  | [] => some 0
  | c :: rest =>
    let (sign, cs) := match rest with
      | '-' :: cs => ((-1 : Int), cs)
      | '+' :: cs => (1, cs)
      | cs => (1, cs)
    if (c ≠ 'e' ∧ c ≠ 'E') ∨ cs.isEmpty then none
    else (digits? 10 cs).map fun ds => sign * valueOf 10 ds

/-- A decimal numeral without its sign. -/
def ofDecimalNumeral (negative : Bool) (cs : List Char) : Binary64 :=
  let whole := cs.takeWhile Char.isDigit
  let (fraction, rest) := match cs.dropWhile Char.isDigit with
    | '.' :: rest => (rest.takeWhile Char.isDigit, rest.dropWhile Char.isDigit)
    | rest => ([], rest)
  if String.ofList cs = "Infinity" then .infinite negative
  else
    match digits? 10 (whole ++ fraction), exponent? rest with
    | some (d :: ds), some e => ofDecimal negative (valueOf 10 (d :: ds)) (e - fraction.length)
    | _, _ => .nan

/-- A whole numeral in a base. -/
def ofWholeNumeral (base : Nat) (cs : List Char) : Binary64 :=
  match digits? base cs with
  | some (d :: ds) => ofNat (valueOf base (d :: ds))
  | _ => .nan

/-- The number that a text spells. -/
def ofNumeral (s : String) : Binary64 :=
  match Text.trim s.toList with
  | [] => zero
  | '0' :: 'x' :: cs | '0' :: 'X' :: cs => ofWholeNumeral 16 cs
  | '0' :: 'o' :: cs | '0' :: 'O' :: cs => ofWholeNumeral 8 cs
  | '0' :: 'b' :: cs | '0' :: 'B' :: cs => ofWholeNumeral 2 cs
  | '-' :: cs => ofDecimalNumeral true cs
  | '+' :: cs => ofDecimalNumeral false cs
  | cs => ofDecimalNumeral false cs

end Courier.Binary64
