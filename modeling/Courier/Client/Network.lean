import Courier.Client.Options
import Courier.Exchange
import Courier.Target

/-!
The default network client. The text of an address decides by which of two schemes a request is
sent, and an address that reads as another scheme is refused. No connection is ever made here: the
library opens no sockets, so a request that is sent fails for want of a route.
-/

namespace Courier.Client

/-- The settings of a default client that its requests depend on. -/
structure Network where
  /-- The limit of idle time, in milliseconds. -/
  timeout : Option Binary64
  deriving Inhabited

namespace Network

def invalidOptions : Value := Value.plainError "Invalid NodeHttpClientOptions"

/-- A client with the given settings; undefined ones are empty. -/
def ofOptions (options : Value) : Attempt Network :=
  let options := match options with
    | .undefined => .record []
    | v => v
  if areOptions options then
    .ok ⟨match options.field "timeout" with
      | .number x => some x
      | _ => none⟩
  else .error invalidOptions

/-- The client as a value. -/
def toValue (_ : Network) : Value := .record [("request", .function), ("close", .function)]

/-! What a request fails with -/

def malformedEscape : Value := .error "URIError" (.string "URI malformed") .undefined

def unescapedPath : Value :=
  Value.systemError "TypeError" "ERR_UNESCAPED_CHARACTERS"
    "Request path contains unescaped characters"

def wrongProtocol (protocol expected : String) : Value :=
  Value.systemError "TypeError" "ERR_INVALID_PROTOCOL"
    ("Protocol \"" ++ protocol ++ "\" not supported. Expected \"" ++ expected ++ "\"")

def timeoutOutOfRange (timeout : Binary64) : Value :=
  Value.systemError "RangeError" "ERR_OUT_OF_RANGE"
    ("The value of \"timeout\" is out of range. It must be a non-negative finite number. Received "
      ++ timeout.toText)

/-- No route leads to an address; an unbound address of the same family stands for this side. -/
def unreachable (address : String) (port : Nat) (unbound : String) : Value :=
  Value.plainError
    ("connect ENETUNREACH " ++ address ++ ":" ++ toString port ++ " - Local (" ++ unbound ++ ":0)")

def unknownHost (name : String) : Value := Value.plainError ("getaddrinfo EAI_AGAIN " ++ name)

/-! Sending -/

/-- The protocol that an address is sent by. Only an address that starts so in lower case is sent
securely. -/
def protocolFor (url : String) : String := if url.startsWith "https:" then "https:" else "http:"

/-- What connecting to the host of an address fails with. -/
def connect (url : Url) : Value :=
  let port := match url.port with
    | none | some 0 => (Url.defaultPort? url.scheme).getD 80
    | some port => port
  match url.host with
  | some (.v4 address) => unreachable (Url.v4Text address) port "0.0.0.0"
  | some (.v6 pieces) => unreachable (Url.v6Text pieces) port "::"
  | host => unknownHost (host.elim "" Url.Host.text)

/-- What a request to an address is refused with before it is sent. The address is looked at first,
then the scheme, then the settings. -/
def check (client : Network) (url : String) : Attempt Url :=
  match Url.parse? url with
  | none => .error invalidUrl
  | some place =>
    if !(Url.isDecodable place.username && Url.isDecodable place.password) then
      .error malformedEscape
    else if place.path.text.toList.contains ' ' then .error unescapedPath
    else if place.protocol ≠ protocolFor url then
      .error (wrongProtocol place.protocol (protocolFor url))
    else
      match client.timeout with
      | some (.infinite sign) => .error (timeoutOutOfRange (.infinite sign))
      | _ => .ok place

/-- The address that a request, which may be any value, is sent to. -/
def place (client : Network) (request : Value) : Attempt Url := do
  let _ ← request.read "method"
  match request.field "url" with
  | .string url => client.check url
  | url =>
    let _ ← url.read "startsWith"
    throw (Value.notAFunction "request.url.startsWith")

/-- What a request to an address fails with. -/
def request (client : Network) (url : String) : Value :=
  match client.check url with
  | .ok place => connect place
  | .error v => v

/-- The outcome of one exchange with the client. -/
def exchange (client : Network) (url : String) : Attempt Outcome := do
  return .failure (← Fault.network (client.request url))

end Network
end Courier.Client
