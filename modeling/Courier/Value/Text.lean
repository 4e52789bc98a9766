import Courier.Binary64.Text
import Courier.Text.Calendar
import Courier.Text.Utf8
import Courier.Value

/-!
The text of a value, as messages show it. A symbol has a text of its own but none inside a larger
text, and a bare record has none at all: asking for it throws. An object may have code that is asked
instead, and throws what it likes.
-/

namespace Courier.Value

def noText : Value := typeError "Cannot convert object to primitive value"

def symbolInText : Value := typeError "Cannot convert a Symbol value to a string"

/-- The text of an error as a whole. -/
def errorText (name message : String) : String :=
  if message.isEmpty then name else if name.isEmpty then message else name ++ ": " ++ message

/-- The name that a system error shows with its code. -/
def codedName (name : String) (code : Option String) : String :=
  code.elim name fun c => name ++ " [" ++ c ++ "]"

def joinTexts (texts : List String) : String := ",".intercalate texts

/-- The text of a record that says nothing else. -/
def plainText : String := "[object Object]"

/-- The text of a record: what its own `toString` or `valueOf` returns, which is nothing, or the
text that it has unless that is replaced. -/
def textOf (fields : List (String × Value)) (inherited : Option String) : Attempt String :=
  match own? fields "toString", inherited, own? fields "valueOf" with
  | some .function, _, _ => .ok "undefined"
  | none, some text, _ => .ok text
  | _, _, some .function => .ok "undefined"
  | _, _, _ => .error noText

mutual
/-- The text of a value inside a larger text. -/
def innerText : Value → Attempt String
  | .undefined => .ok "undefined"
  | .null => .ok "null"
  | .bool b => .ok (if b then "true" else "false")
  | .number x => .ok x.toText
  | .string s => .ok s
  | .bigint n => .ok (toString n)
  | .symbol _ => .error symbolInText
  | .function => .ok "() => \x7b\x7d"
  | .array items => do return joinTexts (← itemTexts items)
  | .record fields => textOf fields (some plainText)
  | .bare fields => textOf fields none
  | .bytes content => .ok (joinTexts (content.map fun b => toString b.toNat))
  | .buffer content => .ok (Text.ofUtf8 content)
  | .words content => .ok (joinTexts (content.map toString))
  | .block _ => .ok "[object ArrayBuffer]"
  | .date ms => .ok (Text.dateText ms.toInt?)
  | .map _ => .ok "[object Map]"
  | .port => .ok "[object EventTarget]"
  | .object _ => .ok plainText
  | .error name message _ => do
    return errorText name.text (← if message.isUndefined then pure "" else innerText message)
  | .coded name code message => do
    return errorText (codedName name code)
      (← if message.isUndefined then pure "" else innerText message)
  | .fault _ message _ _ => do
    return errorText "HttpTransportError"
      (← if message.isUndefined then pure "" else innerText message)
  | .custom text _ _ => text

/-- The texts of the items of a list; an absent item has an empty one. -/
def itemTexts : List Value → Attempt (List String)
  | [] => .ok []
  | .undefined :: rest | .null :: rest => do return "" :: (← itemTexts rest)
  | v :: rest => do return (← innerText v) :: (← itemTexts rest)
end

/-- The text of a value by itself. -/
def text : Value → Attempt String
  | .symbol description => .ok ("Symbol(" ++ description ++ ")")
  | v => innerText v

/-- What stands for a failure: an error's message as it is, else the text of the value. -/
def describe : Value → Attempt Value
  | .error _ message _ | .coded _ _ message | .fault _ message _ _ => .ok message
  | v => v.text.map .string

/-- What a message says about a failure. -/
def wording (v : Value) : Attempt String := do (← v.describe).innerText

end Courier.Value
