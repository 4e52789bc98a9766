import Courier.Value.Text

/-!
Copies of values for another thread. Functions and symbols cannot be copied; errors arrive as plain
errors whose message is a text, bytes that read as text arrive as bytes alone, a record that has no
text arrives as one that has, and what an object does of its own stays behind. A port is handed
over, once, with the message that a worker is started with, and cannot be copied otherwise.
-/

namespace Courier.Value

/-- The names that an error keeps in a copy. -/
def keptErrorNames : List String :=
  ["Error", "EvalError", "RangeError", "ReferenceError", "SyntaxError", "TypeError", "URIError"]

def keptName (name : String) : String := if keptErrorNames.contains name then name else "Error"

/-- The name of a copied error. Its display still starts as that of the error did. -/
def copiedName (name : ErrorName) (message : String) : ErrorName :=
  ⟨keptName name.text, none, some (name.heading.getD (errorText name.text message))⟩

def cannotClone (what : String) : Value := cloneError (what ++ " could not be cloned.")

/-- A port is handed over on purpose only. -/
def notHandedOver : Value :=
  cloneError "Object that needs transfer was found in message but not listed in transferList"

mutual
/-- The copy of a value that arrives on another thread. -/
def clone : Value → Attempt Value
  | .undefined => .ok .undefined
  | .null => .ok .null
  | .bool b => .ok (.bool b)
  | .number x => .ok (.number x)
  | .string s => .ok (.string s)
  | .bigint n => .ok (.bigint n)
  | .symbol s => .error (cannotClone ("Symbol(" ++ s ++ ")"))
  | .function => .error (cannotClone "() => \x7b\x7d")
  | .array items => do return .array (← cloneItems items)
  | .record fields | .bare fields => do return .record (← cloneFields fields)
  | .bytes content | .buffer content => .ok (.bytes content)
  | .words content => .ok (.words content)
  | .block content => .ok (.block content)
  | .date ms => .ok (.date ms)
  | .map entries => do return .map (← cloneEntries entries)
  | .port => .error notHandedOver
  | .object _ => .ok (.record [])
  | .error name message cause => do
    let text ← message.innerText
    return .error (copiedName name text) (.string text) (← cause.clone)
  | .coded name code message => do
    let text ← message.innerText
    return .error ⟨keptName name, none, some (errorText (codedName name code) text)⟩
      (.string text) .undefined
  | .fault _ message _ cause => do
    let text ← message.innerText
    return .error (copiedName "HttpTransportError" text) (.string text) (← cause.clone)
  | .custom .. => .ok (.record [])

def cloneItems : List Value → Attempt (List Value)
  | [] => .ok []
  | v :: rest => do return (← v.clone) :: (← cloneItems rest)

def cloneFields : List (String × Value) → Attempt (List (String × Value))
  | [] => .ok []
  | (name, v) :: rest => do return (name, ← v.clone) :: (← cloneFields rest)

def cloneEntries : List (Value × Value) → Attempt (List (Value × Value))
  | [] => .ok []
  | (k, v) :: rest => do return (← k.clone, ← v.clone) :: (← cloneEntries rest)
end

end Courier.Value
