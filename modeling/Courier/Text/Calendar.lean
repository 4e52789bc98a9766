/-!
Instants in milliseconds since the start of 1970, written as a date and a time of day of the
proleptic Gregorian calendar at Greenwich.
-/

namespace Courier.Text

structure Instant where
  year : Int
  month : Nat
  day : Nat
  weekday : Nat
  millisecond : Nat

/-- The calendar date of an instant. Years start in March for the count of days. -/
def Instant.ofMilliseconds (ms : Int) : Instant :=
  let days := ms.fdiv 86400000
  let shifted := days + 719468
  let era := shifted.fdiv 146097
  let dayOfEra := (shifted.fmod 146097).toNat
  let yearOfEra := (dayOfEra - dayOfEra / 1460 + dayOfEra / 36524 - dayOfEra / 146096) / 365
  let dayOfYear := dayOfEra - (365 * yearOfEra + yearOfEra / 4 - yearOfEra / 100)
  let m := (5 * dayOfYear + 2) / 153
  let month := if m < 10 then m + 3 else m - 9
  let year : Int := yearOfEra + era * 400 + if month ≤ 2 then 1 else 0
  ⟨year, month, dayOfYear - (153 * m + 2) / 5 + 1, ((days + 4).fmod 7).toNat,
    (ms.fmod 86400000).toNat⟩

def padded (width n : Nat) : String :=
  let digits := toString n
  String.ofList (List.replicate (width - digits.length) '0') ++ digits

/-- Hours, minutes and seconds. -/
def Instant.clock (i : Instant) : String :=
  let s := i.millisecond / 1000
  padded 2 (s / 3600) ++ ":" ++ padded 2 (s / 60 % 60) ++ ":" ++ padded 2 (s % 60)

/-- Instants beyond 100,000,000 days have no date. -/
def validInstant (ms : Int) : Bool := ms.natAbs ≤ 8640000000000000

/-- The date and time in the form `1970-01-01T00:00:00.000Z`. -/
def isoText? (ms : Option Int) : Option String := do
  let ms ← ms
  if !validInstant ms then none
  let i := Instant.ofMilliseconds ms
  let year :=
    if 0 ≤ i.year ∧ i.year ≤ 9999 then padded 4 i.year.toNat
    else (if i.year < 0 then "-" else "+") ++ padded 6 i.year.natAbs
  some (year ++ "-" ++ padded 2 i.month ++ "-" ++ padded 2 i.day ++ "T" ++ i.clock ++ "."
    ++ padded 3 (i.millisecond % 1000) ++ "Z")

/-- The date and time in words, at Greenwich. -/
def dateText (ms : Option Int) : String :=
  match ms with
  | none => "Invalid Date"
  | some ms =>
    if !validInstant ms then "Invalid Date"
    else
      let i := Instant.ofMilliseconds ms
      let weekday := (["Sun", "Mon", "Tue", "Wed", "Thu", "Fri", "Sat"][i.weekday]?).getD ""
      let month := (["Jan", "Feb", "Mar", "Apr", "May", "Jun", "Jul", "Aug", "Sep", "Oct", "Nov",
        "Dec"][i.month - 1]?).getD ""
      weekday ++ " " ++ month ++ " " ++ padded 2 i.day ++ " "
        ++ (if i.year < 0 then "-" else "") ++ padded 4 i.year.natAbs ++ " " ++ i.clock
        ++ " GMT+0000 (Coordinated Universal Time)"

end Courier.Text
