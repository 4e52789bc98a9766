import Courier.Fault
import Courier.Text.Calendar
import Courier.Value.Number

/-!
Values made from parts. The parts are brought into the form that such a value keeps: a date counts
whole milliseconds, a word has 16 bits, a map has one entry for a key, and a message is a text.
-/

namespace Courier.Value

/-- A date. Fractions of a millisecond are cut off, and beyond the last date there is none. -/
def ofInstant (x : Binary64) : Value :=
  match x.toInt? with
  | some ms => .date (if Text.validInstant ms then .ofInt ms else .nan)
  | none => .date .nan

/-- An unbounded integer from its numeral: decimal with a sign at most, or in base 16, 8 or 2 behind
a mark. No text at all is zero. -/
def ofWholeNumeral? (s : String) : Option Value :=
  let whole (base : Nat) (cs : List Char) : Option Int := do
    let digits ← Binary64.digits? base cs
    if digits.isEmpty then none else some (Binary64.valueOf base digits)
  match Text.trim s.toList with
  | [] => some (.bigint 0)
  | '0' :: 'x' :: cs | '0' :: 'X' :: cs => (whole 16 cs).map .bigint
  | '0' :: 'o' :: cs | '0' :: 'O' :: cs => (whole 8 cs).map .bigint
  | '0' :: 'b' :: cs | '0' :: 'B' :: cs => (whole 2 cs).map .bigint
  | '-' :: cs => (whole 10 cs).map fun n => .bigint (-n)
  | '+' :: cs => (whole 10 cs).map .bigint
  | cs => (whole 10 cs).map .bigint

/-- A list of 16-bit words from the numbers of values, each counted modulo `2 ^ 16`. -/
def ofWords (items : List Value) : Attempt Value := do
  return .words (← items.mapM fun v => do return (← v.toNumber).wrapped (Nat.pow 2 16))

/-- Whether two keys of a map are one. Zeros of either sign are, and not-a-number is one key. -/
def sameKey : Value → Value → Bool
  | .undefined, .undefined | .null, .null => true
  | .bool a, .bool b => a == b
  | .number x, .number y => x.same y || (x.isNaN && y.isNaN)
  | .string s, .string t => s == t
  | .bigint m, .bigint n => m == n
  | _, _ => false

/-- An entry takes the place of an older one with its key. -/
def setEntry (entries : List (Value × Value)) (key v : Value) : List (Value × Value) :=
  let key := match key with
    | .number x => if x.isZero then .number 0 else key
    | _ => key
  if entries.any fun e => sameKey e.1 key then
    entries.map fun e => if sameKey e.1 key then (e.1, v) else e
  else entries ++ [(key, v)]

/-- A map of entries in the order of their first keys. -/
def ofEntries (entries : List (Value × Value)) : Value :=
  .map (entries.foldl (fun entries (key, v) => setEntry entries key v) [])

/-- The names of errors that are the classes of those errors as well. -/
def errorClasses : List String := ["TypeError"]

/-- An error with a message, a name of its own if there is one that is no class, and a cause. -/
def ofError (name : Option String) (message cause : Value) : Attempt Value := do
  let fault ← Fault.make .undefined message .undefined cause
  match name.bind fun name => errorClasses.find? (· = name) with
  | some family => return .error family fault.message cause
  | none => return .error ⟨"Error", name, none⟩ fault.message cause

end Courier.Value
