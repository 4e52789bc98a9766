/-!
Numbers of the binary64 format with exact arithmetic: a magnitude is a natural number of units of
`2 ^ -1074`, and every operation rounds the exact result to the nearest number, a tie to the even
significand.
-/

namespace Courier

/-- A finite number is `significand * 2 ^ scale` units of `2 ^ -1074`. In a canonical one the
significand is below `2 ^ 53`, and it is at least `2 ^ 52` unless the scale is 0. -/
inductive Binary64 where
  | nan
  | infinite (negative : Bool)
  | finite (negative : Bool) (significand scale : Nat)
  deriving DecidableEq, Repr, Inhabited

namespace Binary64

/-- The number of units of `2 ^ -1074` in one. -/
def unit : Nat := Nat.pow 2 1074

def zero : Binary64 := .finite false 0 0

/-- The number nearest to `num / den` units. -/
def round (negative : Bool) (num den : Nat) : Binary64 :=
  let scale := Nat.log2 (num / den) - 52
  let step := den * Nat.pow 2 scale
  let down := num / step
  let rest := num % step
  let nearest :=
    if 2 * rest < step ∨ (2 * rest = step ∧ down % 2 = 0) then down else down + 1
  let (significand, scale) :=
    if nearest = Nat.pow 2 53 then (Nat.pow 2 52, scale + 1) else (nearest, scale)
  if scale ≤ 2045 then .finite negative significand scale else .infinite negative

/-- The number nearest to an integer. -/
def ofInt (n : Int) : Binary64 := round (decide (n < 0)) (n.natAbs * unit) 1

def ofNat (n : Nat) : Binary64 := ofInt n

instance (n : Nat) : OfNat Binary64 n := ⟨ofNat n⟩

/-- The number nearest to `digits * 10 ^ exponent`. Whatever is written with a magnitude out of all
range is infinite or zero. -/
def ofDecimal (negative : Bool) (digits : Nat) (exponent : Int) : Binary64 :=
  let magnitude := (Nat.toDigits 10 digits).length + exponent
  if digits = 0 ∨ magnitude < -340 then .finite negative 0 0
  else if 400 < magnitude then .infinite negative
  else if 0 ≤ exponent then round negative (digits * Nat.pow 10 exponent.toNat * unit) 1
  else round negative (digits * unit) (Nat.pow 10 (-exponent).toNat)

/-- A finite number as a whole number of units; the other numbers have none. -/
def units? : Binary64 → Option Int
  | .finite true m p => some (-((m * Nat.pow 2 p : Nat) : Int))
  | .finite false m p => some ((m * Nat.pow 2 p : Nat) : Int)
  | _ => none

/-- The next number of a counter: one more, rounded. -/
def addOne (x : Binary64) : Binary64 :=
  match x.units? with
  | some a => let sum := a + unit; round (decide (sum < 0)) sum.natAbs 1
  | none => x

/-- The sum, rounded. Zeros and exact cancellations give a positive zero. -/
def add (x y : Binary64) : Binary64 :=
  match x.units?, y.units? with
  | some a, some b => round (decide (a + b < 0)) (a + b).natAbs 1
  | none, some _ => x
  | some _, none => y
  | none, none => if x = y then x else .nan

def isNaN : Binary64 → Bool
  | .nan => true
  | _ => false

def isFinite : Binary64 → Bool
  | .finite .. => true
  | _ => false

/-- Zero of either sign. -/
def isZero : Binary64 → Bool
  | .finite _ 0 _ => true
  | _ => false

def isPositive : Binary64 → Bool
  | .infinite negative => !negative
  | .finite negative m _ => !negative && m != 0
  | .nan => false

def isNegative : Binary64 → Bool
  | .infinite negative => negative
  | .finite negative m _ => negative && m != 0
  | .nan => false

/-- Numeric equality: a NaN equals nothing and the two zeros are equal. -/
def same (x y : Binary64) : Bool :=
  !x.isNaN && !y.isNaN && (x == y || (x.isZero && y.isZero))

/-- The part of a finite number before the point, cut toward zero. -/
def toInt? (x : Binary64) : Option Int := x.units?.map (Int.tdiv · unit)

/-- Whether a finite number has nothing behind the point. -/
def isWhole (x : Binary64) : Bool := x.units?.any fun a => a % (unit : Int) = 0

/-- The part before the point, counted modulo `size`. -/
def wrapped (x : Binary64) (size : Nat) : Nat := ((x.toInt?.getD 0).emod size).toNat

end Binary64
end Courier
