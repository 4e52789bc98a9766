import Courier.Binary64.Numeral
import Courier.Value.Text

/-!
The number of a value. A value with fields is first brought down to a plain one: by its `valueOf`,
else by its text.
-/

namespace Courier.Value

/-- The plain value of a record: what its own `valueOf` or `toString` returns, which is nothing, or
the text that it has unless that is replaced. -/
def primitiveOf (fields : List (String × Value)) (inherited : Option String) : Attempt Value :=
  match own? fields "valueOf", own? fields "toString", inherited with
  | some .function, _, _ | _, some .function, _ => .ok .undefined
  | _, none, some text => .ok (.string text)
  | _, _, _ => .error noText

/-- The plain value that stands for a value in a sum. -/
def primitive : Value → Attempt Value
  | .undefined => .ok .undefined
  | .null => .ok .null
  | .bool b => .ok (.bool b)
  | .number x => .ok (.number x)
  | .string s => .ok (.string s)
  | .bigint n => .ok (.bigint n)
  | .symbol s => .ok (.symbol s)
  | .record fields => primitiveOf fields (some plainText)
  | .bare fields => primitiveOf fields none
  | v => v.innerText.map .string

def symbolAsNumber : Value := typeError "Cannot convert a Symbol value to a number"

/-- The plain value that stands for a value as a number, which for a date is its instant. -/
def measured : Value → Attempt Value
  | .date ms => .ok (.number ms)
  | v => v.primitive

/-- The number of a value. -/
def toNumber (v : Value) : Attempt Binary64 := do
  match ← v.measured with
  | .null | .bool false => return 0
  | .bool true => return 1
  | .number x => return x
  | .string s => return .ofNumeral s
  | .bigint _ => throw (typeError "Cannot convert a BigInt value to a number")
  | .symbol _ => throw symbolAsNumber
  | _ => return .nan

/-- The sum of two values: a text if one of them is a text, else a number. -/
def sum (v w : Value) : Attempt Value := do
  match ← v.primitive, ← w.primitive with
  | .string s, w => return .string (s ++ (← w.innerText))
  | v, .string s => return .string ((← v.innerText) ++ s)
  | .bigint m, .bigint n => return .bigint (m + n)
  | .bigint _, _ | _, .bigint _ =>
    throw (typeError "Cannot mix BigInt and other types, use explicit conversions")
  | v, w => return .number ((← v.toNumber).add (← w.toNumber))

end Courier.Value
