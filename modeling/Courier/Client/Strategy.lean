import Courier.Client.Options
import Courier.Fault

/-!
How a client is made: by a factory function, or by an export of a module. The export has to be a
function. What a function makes is taken as it is; what a module makes has to be a client. Whatever
goes wrong is a failure to make the client.
-/

namespace Courier.Client

/-- A factory function, or a module with the name of an export. -/
inductive Strategy (F : Type) where
  | function (factory : F)
  | exported (module : String) (exportName : Option String)
  deriving Inhabited

def defaultExport : String := "default"

/-- The name of the export that a reference names. Undefined and null stand for the default one,
anything else for its text. -/
def exportNameOf : Value → Attempt String
  | .undefined | .null => .ok defaultExport
  | v => v.innerText

def noExport (module exportName : String) : Value :=
  Value.plainError
    ("Module " ++ module ++ " has no client factory export '" ++ exportName ++ "'")

def notAClient (exportName : String) : Value :=
  Value.plainError ("Client factory '" ++ exportName ++ "' did not return an HttpClient")

/-- What a module's factory made, if it is a client. -/
def checked (exportName : String) (made : Attempt Value) : Attempt Value := do
  let client ← made
  if isClient client then return client
  throw (notAClient exportName)

namespace Strategy

variable {F : Type}

/-- The factory of a strategy, given what importing a module comes to: its exports, of which those
that are no functions are left out. -/
def factory (s : Strategy F) (imports : String → Attempt (List (String × F))) : Attempt F :=
  match s with
  | .function factory => .ok factory
  | .exported module exportName => do
    let exports ← imports module
    let name := exportName.getD defaultExport
    match exports.find? (·.1 = name) with
    | some (_, factory) => return factory
    | none => throw (noExport module name)

/-- What the factory of a strategy comes to, given what the function made. -/
def accept (s : Strategy F) (made : Attempt Value) : Attempt Value :=
  match s with
  | .function _ => made
  | .exported _ exportName => checked (exportName.getD defaultExport) made

end Strategy

/-- The failure of a build; a cause that has no text fails differently, with the value thrown. -/
def buildFault (cause : Value) : Value :=
  match Fault.clientBuilder cause with
  | .ok fault => fault.toValue
  | .error v => v

/-- The client that a build comes to, or what it rejects with. -/
def built (made : Attempt Value) : Attempt Value :=
  match made with
  | .ok client => .ok client
  | .error v => .error (buildFault v)

end Courier.Client
