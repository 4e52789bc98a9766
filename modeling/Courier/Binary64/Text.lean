import Courier.Binary64.Shortest

/-!
The written form of a number: the digits of its shortest decimal, with a point where the value is
at least `1e-6` and below `1e21`, and with an exponent elsewhere.
-/

namespace Courier.Binary64

/-- Which magnitudes are written without an exponent: the point falls after more than
`-leading` and at most `whole` digits. -/
structure Layout where
  leading : Nat
  whole : Nat

/-- Up to five zeros after the point and up to 21 digits before it. -/
def layout : Layout := ⟨6, 21⟩

/-- Digits `ds` whose value is `0.ds * 10 ^ point`. -/
def Layout.write (l : Layout) (ds : List Char) (point : Int) : String :=
  let size : Int := ds.length
  if size ≤ point ∧ point ≤ l.whole then
    String.ofList (ds ++ List.replicate (point - size).toNat '0')
  else if 0 < point ∧ point ≤ l.whole then
    String.ofList (ds.take point.toNat ++ '.' :: ds.drop point.toNat)
  else if -l.leading < point ∧ point ≤ 0 then
    String.ofList ('0' :: '.' :: List.replicate (-point).toNat '0' ++ ds)
  else
    let e := point - 1
    let sign := if e < 0 then "-" else "+"
    let fraction := match ds with
      | d :: d' :: rest => d :: '.' :: d' :: rest
      | ds => ds
    String.ofList fraction ++ "e" ++ sign ++ toString e.natAbs

/-- The digits of a decimal without trailing zeros, and the place of its point. -/
def Decimal.spread (d : Decimal) : List Char × Int :=
  let ds := Nat.toDigits 10 d.digits
  ((ds.reverse.dropWhile (· == '0')).reverse, ds.length + d.exponent)

/-- The text of a number. Both zeros are written `0`. -/
def toText : Binary64 → String
  | .nan => "NaN"
  | .infinite negative => if negative then "-Infinity" else "Infinity"
  | .finite _ 0 _ => "0"
  | .finite negative m p =>
    let (ds, point) := (shortest m p).spread
    (if negative then "-" else "") ++ layout.write ds point

end Courier.Binary64
