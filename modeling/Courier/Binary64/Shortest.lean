import Courier.Binary64

/-!
The shortest decimal that reads back as a given number. A decimal reads back exactly when it lies
in the interval of reals that round to the number; the interval holds its ends when the
significand is even. The grids of 1, 2, ... digits are tried in turn: on each, the interval holds
a point only if it holds one of the value's two neighbours.
-/

namespace Courier.Binary64

/-- The reals that round to `significand * 2 ^ scale` units, as a pair of bounds in quarter
units. -/
def readsBack (significand scale : Nat) : Nat × Nat :=
  let below :=
    if significand = Nat.pow 2 52 ∧ scale ≠ 0 then 4 * significand - 1 else 4 * significand - 2
  (below * Nat.pow 2 scale, (4 * significand + 2) * Nat.pow 2 scale)

/-- A decimal `digits * 10 ^ exponent`. -/
structure Decimal where
  digits : Nat
  exponent : Int
  deriving DecidableEq, Repr

/-- `num / den` as a fraction of the grid step `10 ^ exponent`. -/
def onGrid (num den : Nat) (exponent : Int) : Nat × Nat :=
  if 0 ≤ exponent then (num, den * Nat.pow 10 exponent.toNat)
  else (num * Nat.pow 10 (-exponent).toNat, den)

/-- The number of decimal digits of a positive natural number. -/
def digitCount (n : Nat) : Nat := (Nat.toDigits 10 n).length

/-- The exponent `e` with `10 ^ (e - 1) ≤ num / den < 10 ^ e`. -/
def magnitude (num den : Nat) : Int :=
  if den ≤ num then digitCount (num / den)
  else
    let guess : Int := digitCount num - digitCount den
    let (n, d) := onGrid num den (guess - 1)
    if n < d then guess - 1
    else
      let (n, d) := onGrid num den guess
      if n < d then guess else guess + 1

/-- The point of one grid that reads back and is nearest to the value, if any. -/
def pick? (significand scale : Nat) (exponent : Int) : Option Decimal :=
  let (low, high) := readsBack significand scale
  let (value, step) := onGrid (4 * significand * Nat.pow 2 scale) (4 * unit) exponent
  let (low, _) := onGrid low (4 * unit) exponent
  let (high, _) := onGrid high (4 * unit) exponent
  let inside (d : Nat) : Bool :=
    if significand % 2 = 0 then low ≤ d * step && d * step ≤ high
    else low < d * step && d * step < high
  let down := value / step
  let rest := value % step
  match inside down, inside (down + 1) with
  | true, true =>
    if 2 * rest < step ∨ (2 * rest = step ∧ down % 2 = 0) then some ⟨down, exponent⟩
    else some ⟨down + 1, exponent⟩
  | true, false => some ⟨down, exponent⟩
  | false, true => some ⟨down + 1, exponent⟩
  | false, false => none

/-- The first grid with a hit, from `digits` digits on. -/
def searchGrids (significand scale : Nat) (point : Int) (digits : Nat) : Nat → Decimal
  | 0 => ⟨0, 0⟩
  | fuel + 1 =>
    (pick? significand scale (point - digits)).getD
      (searchGrids significand scale point (digits + 1) fuel)

/-- The shortest decimal that reads back as `significand * 2 ^ scale` units, for a positive
significand. Seventeen digits always suffice. -/
def shortest (significand scale : Nat) : Decimal :=
  searchGrids significand scale (magnitude (significand * Nat.pow 2 scale) unit) 1 17

end Courier.Binary64
