import Courier.Value.Inspect

/-!
What a complaint about a value of the wrong kind says that it is: its class where it has one, else
its type with the value.
-/

namespace Courier.Value

/-- The name of the class of an error, whatever name it was given. -/
def className : Value → String
  | .array _ => "Array"
  | .bytes _ => "Uint8Array"
  | .buffer _ => "Buffer"
  | .words _ => "Uint16Array"
  | .block _ => "ArrayBuffer"
  | .date _ => "Date"
  | .map _ => "Map"
  | .port => "MessagePort"
  | .object family => family
  | .error name _ _ => name.family
  | .coded _ none _ => "DOMException"
  | .coded name _ _ => name
  | .fault .. => "HttpTransportError"
  | .custom .. => "Custom"
  | _ => "Object"

/-- The display of a value without any of its parts. -/
def outline (v : Value) : Attempt String :=
  match v with
  | .record (_ :: _) => .ok "[Object]"
  | .bare (_ :: _) => .ok "[Object: null prototype]"
  | v => displayAt display 0 0 v

def notSearchable (v : String) : Value :=
  typeError ("Cannot use 'in' operator to search for 'name' in " ++ v)

/-- The name that a value has as the class of another, if it has one. Plain values cannot be
asked. -/
def classNameIn (maker : Value) : Attempt (Option Value) :=
  match maker with
  | .record fields | .bare fields => .ok (own? fields "name")
  | .function => .ok (some "")
  | .error .. | .coded .. | .fault .. => .ok (some (maker.field "name"))
  | .bool _ | .number _ | .string _ | .bigint _ | .symbol _ => do
    throw (notSearchable (← maker.text))
  | _ => .ok none

/-- What a record is: an instance of its `constructor`, if it has one of its own. -/
def recordReceived (v : Value) (maker : Option Value) (inherited : Option String) :
    Attempt String :=
  match maker, inherited with
  | some maker, _ =>
    if !maker.truthy then v.outline
    else do
      match ← classNameIn maker with
      | some name => return "an instance of " ++ (← name.innerText)
      | none => v.outline
  | none, some family => .ok ("an instance of " ++ family)
  | none, none => v.outline

/-- A text as a complaint quotes it: whole if it has at most 28 units, else cut behind 25. Half of a
surrogate pair at the cut is no character, and is spelled out where the text is escaped. -/
def shortText (s : String) : String :=
  let c := if Text.length s ≤ 28 then ⟨s, none, 0⟩ else Text.cut 25 s
  let dots := if c.left = 0 then "" else "..."
  if c.shown.toList.contains '\'' then
    let half := c.half.elim "" fun n => "\\u" ++ String.ofList (Nat.toDigits 16 n)
    "\"" ++ Json.escapeAll c.shown ++ half ++ dots ++ "\""
  else
    let half := c.half.elim "" fun _ => Text.replacement.toString
    "'" ++ c.shown ++ half ++ dots ++ "'"

/-- What a complaint says that a value is. -/
def received (v : Value) : Attempt String :=
  match v with
  | .undefined => .ok "undefined"
  | .null => .ok "null"
  | .function => .ok "function "
  | .string s => .ok ("type string (" ++ shortText s ++ ")")
  | .bool _ => do return "type boolean (" ++ (← inspect v) ++ ")"
  | .number _ => do return "type number (" ++ (← inspect v) ++ ")"
  | .bigint _ => do return "type bigint (" ++ (← inspect v) ++ ")"
  | .symbol _ => do return "type symbol (" ++ (← inspect v) ++ ")"
  | .record fields => recordReceived v (own? fields "constructor") (some "Object")
  | .bare fields => recordReceived v (own? fields "constructor") none
  | v => .ok ("an instance of " ++ className v)

/-- The complaint about an argument of the wrong kind. -/
def invalidArgument (what : String) (v : Value) : Attempt Value := do
  return systemError "TypeError" "ERR_INVALID_ARG_TYPE" (what ++ ". Received " ++ (← v.received))

end Courier.Value
