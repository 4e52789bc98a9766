import Courier.Json
import Courier.Text.Hex

/-!
The values that callers, clients and threads hand to each other. A value may come from anywhere,
so a failure can be any value at all: `Attempt` is a computation that yields a result or throws a
value.
-/

namespace Courier

/-- The name of an error is that of its class unless it was given one. -/
structure ErrorName where
  family : String
  given : Option String
  /-- The line that its display starts with, kept from the thread where it was made. -/
  heading : Option String
  deriving DecidableEq, Repr, Inhabited

namespace ErrorName

/-- An error is known by its class. -/
instance : Coe String ErrorName := ⟨fun family => ⟨family, none, none⟩⟩

def text (n : ErrorName) : String := n.given.getD n.family

end ErrorName

/-- In `error` and `fault` an undefined cause or status stands for an absent one. The message of an
error is a text unless somebody put another value in its place. -/
inductive Value where
  | undefined
  | null
  | bool (b : Bool)
  | number (x : Binary64)
  | string (s : String)
  | bigint (n : Int)
  | symbol (description : String)
  | function
  | array (items : List Value)
  | record (fields : List (String × Value))
  /-- A record that has no text. -/
  | bare (fields : List (String × Value))
  | bytes (content : Bytes)
  /-- Bytes that read as text. -/
  | buffer (content : Bytes)
  /-- A list of 16-bit words. -/
  | words (content : List Nat)
  /-- A block of memory that is no list of bytes itself. -/
  | block (content : Bytes)
  | date (milliseconds : Binary64)
  | map (entries : List (Value × Value))
  | port
  /-- An object that shows nothing but its class. -/
  | object (family : String)
  | error (name : ErrorName) (message cause : Value)
  /-- An error of the system, known by its code; its message is for people. -/
  | coded (name : String) (code : Option String) (message : Value)
  /-- A transport failure. Its kind is a text unless a caller made it otherwise. -/
  | fault (kind message status cause : Value)
  /-- An object that runs code of its own where it is put into words: as a text, as a document, on
  a console. The code returns, or throws a value. -/
  | custom (text : Except Value String) (document : Except Value Json) (shown : Except Value String)
  deriving Repr, Inhabited

/-- A result, or a value that was thrown instead. -/
abbrev Attempt := Except Value

namespace Value

instance : Coe String Value := ⟨.string⟩
instance : Coe Bool Value := ⟨.bool⟩

def nat (n : Nat) : Value := .number (.ofNat n)

def typeError (message : String) : Value := .error "TypeError" (.string message) .undefined

def plainError (message : String) : Value := .error "Error" (.string message) .undefined

/-- A system error with its code; the text reads as one of the given name. -/
def systemError (name code text : String) : Value := .coded name (some code) (.string text)

/-- The value could not be copied to another thread. -/
def cloneError (text : String) : Value := .coded "DataCloneError" none (.string text)

/-- The reason of an abort that gave none. -/
def abortReason : Value :=
  .error "AbortError" (.string "This operation was aborted") .undefined

def isUndefined : Value → Bool
  | .undefined => true
  | _ => false

def isFunction : Value → Bool
  | .function => true
  | _ => false

def isString : Value → Bool
  | .string _ => true
  | _ => false

def isNumber : Value → Bool
  | .number _ => true
  | _ => false

def isBool : Value → Bool
  | .bool _ => true
  | _ => false

/-- The content of a list of bytes. -/
def bytes? : Value → Option Bytes
  | .bytes content | .buffer content => some content
  | _ => none

def isBytes (v : Value) : Bool := v.bytes?.isSome

/-- Undefined and null have no fields at all. -/
def isNothing : Value → Bool
  | .undefined | .null => true
  | _ => false

/-- A value with fields that is no list. -/
def isRecord : Value → Bool
  | .undefined | .null | .bool _ | .number _ | .string _ | .bigint _ | .symbol _ | .function
  | .array _ => false
  | _ => true

/-- A field that a record has of its own. -/
def own? (fields : List (String × Value)) (name : String) : Option Value :=
  (fields.find? (·.1 = name)).map (·.2)

def lookup (fields : List (String × Value)) (name : String) : Value :=
  (own? fields name).getD .undefined

/-- The field of that name, undefined where there is none. -/
def field (v : Value) (name : String) : Value :=
  match v with
  | .record fields | .bare fields => lookup fields name
  | .error errorName message cause =>
    lookup [("name", .string errorName.text), ("message", message), ("cause", cause)] name
  | .coded errorName code message =>
    lookup [("name", .string errorName), ("code", code.elim .undefined .string),
      ("message", message)] name
  | .fault kind message status cause =>
    lookup [("name", .string "HttpTransportError"), ("kind", kind), ("message", message),
      ("status", status), ("cause", cause)] name
  | .port => lookup [("close", .function)] name
  | _ => .undefined

/-- The complaint about a field of a value that has no fields. -/
def unreadable (v : Value) (name : String) : Value :=
  let text := match v with
    | .null => "null"
    | _ => "undefined"
  typeError ("Cannot read properties of " ++ text ++ " (reading '" ++ name ++ "')")

/-- Reads a field; one of undefined or null cannot be read. -/
def read (v : Value) (name : String) : Attempt Value :=
  if v.isNothing then .error (unreadable v name) else .ok (v.field name)

def notAFunction (what : String) : Value := typeError (what ++ " is not a function")

/-- Calls a method of a value, whose functions do nothing and return nothing. The value and the
method are named as complaints name them. -/
def call (v : Value) (owner method : String) : Attempt Unit := do
  if (← v.read method).isFunction then return ()
  throw (notAFunction (owner ++ "." ++ method))

/-- A value that is waited for when it is handed on: its `then` is called, and never answers. -/
def isPromise (v : Value) : Bool := (v.field "then").isFunction

def listEntries (items : List Value) : List (String × Value) :=
  items.zipIdx.map fun (v, i) => (toString i, v)

/-- The fields of its own that a value lists, in order. -/
def entries : Value → List (String × Value)
  | .record fields | .bare fields => fields
  | .array items => listEntries items
  | .string s => listEntries (s.toList.map fun c => .string c.toString)
  | .bytes content | .buffer content => listEntries (content.map fun b => nat b.toNat)
  | .words content => listEntries (content.map nat)
  | .error ⟨_, some given, _⟩ _ _ => [("name", .string given)]
  | .coded _ (some code) _ => [("code", .string code)]
  | .fault kind _ status _ =>
    [("kind", kind), ("status", status), ("name", .string "HttpTransportError")]
  | _ => []

/-- The values of the fields that a value lists. -/
def fieldValues (v : Value) : List Value := v.entries.map (·.2)

/-- What an absent or null setting falls back to. -/
def orElse (v fallback : Value) : Value :=
  match v with
  | .undefined | .null => fallback
  | v => v

/-- Whether a condition on the value holds. -/
def truthy : Value → Bool
  | .undefined | .null | .bool false | .string "" | .bigint 0 => false
  | .number x => !x.isNaN && !x.isZero
  | _ => true

end Value
end Courier
