import Courier.Client.Strategy
import Courier.Exchange

/-!
Scripted clients and tasks: what they do, step by step, when a scenario runs.
-/

namespace Courier.Scenario

inductive Action where
  | wait (gate : String)
  | opens (gate : String)
  | throws (v : Value)
  | returns (v : Value)
  | hang
  | log (text : String)
  | spawn (task : List Action) (reactor : String)
  /-- Posts a value on the transport's port. -/
  | post (v : Value)
  | hearMessage
  | exit (code : Int)
  | exitLater (code : Int)
  /-- Throws where nothing catches it. -/
  | uncaught (v : Value)
  /-- Sends a broadcast later on, to every thread. -/
  | ringLater (channel : String)
  deriving Inhabited

/-- The gate that opens with a broadcast. -/
def broadcastGate (channel : String) : String := "broadcast " ++ channel

inductive Chunk where
  | bytes (content : Bytes)
  | requestBody
  | requestUrl
  | requestHeaders
  | threadName
  | raw (v : Value)
  | wait (gate : String)
  | throws (v : Value)

structure Reply where
  syncThrow : Option Value
  before : List Action
  status : Value
  chunks : List Chunk
  discard : Discard
  /-- The status that the response takes when its body is discarded, if it takes another one. -/
  later : Option Value

instance : Inhabited Reply := ⟨none, [], .number 200, [.requestBody], .returns, none⟩

structure Script where
  /-- What the factory throws at once. -/
  buildThrow : Option Value
  /-- What the factory does before it yields the client. -/
  build : Option (List Action)
  reply : Reply
  /-- Replies to the requests for certain paths. -/
  paths : Option (List (String × Reply))
  /-- What closing the client does, none if it cannot be closed. -/
  close : Option (List Action)
  /-- Whether its factory makes the logger of its reactor throw on warnings and errors. -/
  breaksLogger : Bool
  /-- Whether it puts up with rejections that nobody handles. -/
  catchesRejections : Bool
  deriving Inhabited

/-- A reference to a client module as a scenario gives it: the export may be named by any value.
Options stand in for the script. -/
structure Reference where
  module : String
  exportName : Value
  options : Value
  deriving Inhabited

namespace Reference

def toValue (r : Reference) : Value :=
  .record ([("module", Value.string r.module)] ++ Fault.optionalField "exportName" r.exportName
    ++ Fault.optionalField "options" r.options)

/-- The reference as a strategy. -/
def strategy (r : Reference) {F : Type} : Attempt (Client.Strategy F) := do
  return .exported r.module (some (← Client.exportNameOf r.exportName))

/-- What the factory of the export comes to, given what it made. -/
def accept (r : Reference) (made : Attempt Value) : Attempt Value := do
  let client ← made
  let strategy ← r.strategy (F := Unit)
  strategy.accept (.ok client)

end Reference

/-- The client that a script stands for, as a value. -/
def Script.toValue (s : Script) : Value :=
  .record ([("request", .function)] ++ if s.close.isSome then [("close", .function)] else [])

end Courier.Scenario
