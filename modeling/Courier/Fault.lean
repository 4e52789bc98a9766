import Courier.Value.Text

/-!
Transport failures. A failure has a kind, a message, and where it applies a status and a cause.
For another thread it is written as a record, whose cause is meant to be a text; what is read back
has the same kind, message and status, and that text for a cause.
-/

namespace Courier

/-- The kinds of failure a transport reports: the first two when it is built, `invalidUri` when a
handle is made, the rest for one call. -/
inductive FaultKind where
  | clientBuilder
  | reactor
  | invalidUri
  | http
  | network
  | notListening
  | diedWithoutResponse
  | aborted
  deriving DecidableEq, Repr

namespace FaultKind

def all : List FaultKind :=
  [.clientBuilder, .reactor, .invalidUri, .http, .network, .notListening, .diedWithoutResponse,
    .aborted]

def name : FaultKind → String
  | .clientBuilder => "ClientBuilderError"
  | .reactor => "ReactorError"
  | .invalidUri => "InvalidUri"
  | .http => "HttpError"
  | .network => "NetworkError"
  | .notListening => "NotListening"
  | .diedWithoutResponse => "DiedWithoutResponse"
  | .aborted => "Aborted"

/-- The kind that a value names. -/
def ofValue? : Value → Option FaultKind
  | .string s => all.find? (·.name = s)
  | _ => none

end FaultKind

/-- The kind is a value: a caller may make a failure of a kind that is none, and may put another
value in place of the message. An undefined status or cause is an absent one. -/
structure Fault where
  kind : Value
  message : Value
  status : Value
  cause : Value
  deriving Repr, Inhabited

namespace Fault

def toValue (f : Fault) : Value := .fault f.kind f.message f.status f.cause

def ofFault? : Value → Option Fault
  | .fault kind message status cause => some ⟨kind, message, status, cause⟩
  | _ => none

/-- A failure from arbitrary parts: the message is turned into text, an undefined one into the
empty text. -/
def make (kind message status cause : Value) : Attempt Fault := do
  let text ← match message with
    | .undefined => pure ""
    | v => v.innerText
  return ⟨kind, .string text, status, cause⟩

def ofKind (kind : FaultKind) (message : String) (status cause : Value) : Fault :=
  ⟨.string kind.name, .string message, status, cause⟩

/-- The client could not be made; its message shows the cause, so a cause that cannot be put into
words throws. -/
def clientBuilder (cause : Value) : Attempt Fault := do
  return ofKind .clientBuilder ("Failed to create the HTTP client: " ++ (← cause.wording))
    .undefined cause

def reactor (message : String) (cause : Value) : Fault :=
  ofKind .reactor ("Error with the event loop: " ++ message) .undefined cause

def invalidUri (uri : String) (cause : Value) : Fault :=
  ofKind .invalidUri ("Invalid URI: " ++ uri) .undefined cause

/-- The server answered with a status other than 200. -/
def http (status : Value) : Attempt Fault := do
  return ofKind .http ("Http error. Status code " ++ (← status.innerText)) status .undefined

/-- The request or its response stream failed. -/
def network (cause : Value) : Attempt Fault := do
  return ofKind .network ("Network error: " ++ (← cause.wording)) .undefined cause

def notListening : Fault :=
  ofKind .notListening "Not listening for requests" .undefined .undefined

def diedWithoutResponse : Fault :=
  ofKind .diedWithoutResponse "Died without returning response" .undefined .undefined

def aborted (reason : Value) : Fault :=
  ofKind .aborted "Request aborted" .undefined reason

/-- The failure as text. -/
def text (f : Fault) : Attempt String := f.toValue.text

/-- A field of a record, left out when its value is undefined. -/
def optionalField (name : String) : Value → List (String × Value)
  | .undefined => []
  | v => [(name, v)]

/-- The record of a failure for another thread. In place of the cause stands the message of an error
as it is, and else a text, so a cause that has none throws. -/
def post (f : Fault) : Attempt Value := do
  let cause ← match f.cause with
    | .undefined => pure []
    | v => do pure [("cause", ← v.describe)]
  return .record ([("kind", f.kind), ("message", f.message)]
    ++ optionalField "status" f.status ++ cause)

/-- Rebuilds a failure from the fields of a value. -/
def rebuild (data : Value) : Attempt Fault := do
  make (← data.read "kind") (data.field "message") (data.field "status") (data.field "cause")

/-- Whether the value is a well-formed record of a failure. -/
def isPosted (v : Value) : Bool :=
  v.isRecord && (FaultKind.ofValue? (v.field "kind")).isSome && (v.field "message").isString
    && ((v.field "status").isUndefined || (v.field "status").isNumber)
    && ((v.field "cause").isUndefined || (v.field "cause").isString)

end Fault
end Courier
