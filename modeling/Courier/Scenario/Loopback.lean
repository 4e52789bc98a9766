import Courier.Client.Network

/-!
A session of the default client with a server on the same machine. The client has no way to reach
it, so whatever the server would answer, it sees nothing.
-/

namespace Courier.Scenario

/-- Where a request of a session goes: to a path of the server, or to an address of its own. -/
inductive Visit where
  | path (scheme target : String)
  | address (url : String)

/-- What a session came to: an outcome for each request, what the server has seen of them, and how
many connections it has accepted. -/
structure Session where
  outcomes : List Outcome
  seen : List Value
  connections : Nat

/-- The port of the server. -/
def serverPort : Nat := 40000

def Visit.url : Visit → String
  | .path scheme target => scheme ++ "://127.0.0.1:" ++ toString serverPort ++ target
  | .address url => url

/-- Makes a client and sends every request. -/
def Session.run (options : Value) (visits : List Visit) : Attempt Session := do
  let client ← Client.Network.ofOptions options
  let outcomes ← visits.mapM fun e => client.exchange e.url
  return ⟨outcomes, [], 0⟩

end Courier.Scenario
