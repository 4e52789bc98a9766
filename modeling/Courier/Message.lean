import Courier.Log.Level
import Courier.Outcome

/-!
The messages between the thread that owns a transport and its worker. Anything may arrive on a
port; `ofValue?` reads the values that are well formed and refuses the rest.
-/

namespace Courier

/-- A request as the worker receives it. -/
structure PostedRequest where
  url : String
  headers : Value
  body : Bytes
  deriving Inhabited

namespace PostedRequest

def ofValue? (v : Value) : Option PostedRequest :=
  match v.isRecord, v.field "url", (v.field "body").bytes? with
  | true, .string url, some body =>
    let headers := v.field "headers"
    if headers.isRecord && headers.fieldValues.all Value.isString then
      some ⟨url, headers, body⟩
    else none
  | _, _, _ => none

def toValue (r : PostedRequest) : Value :=
  .record [("url", .string r.url), ("headers", r.headers), ("body", .bytes r.body)]

end PostedRequest

/-- Messages to the worker. A sequence number is any number. -/
inductive ToWorker where
  | request (seq : Binary64) (posted : PostedRequest)
  | close

namespace ToWorker

/-- A request message with any value for the request. -/
def carry (seq : Binary64) (request : Value) : Value :=
  .record [("type", .string "request"), ("seq", .number seq), ("request", request)]

def toValue : ToWorker → Value
  | .request seq posted => carry seq posted.toValue
  | .close => .record [("type", .string "close")]

def ofValue? (v : Value) : Option ToWorker :=
  match v.isRecord, v.field "type" with
  | true, .string "close" => some .close
  | true, .string "request" =>
    match v.field "seq", PostedRequest.ofValue? (v.field "request") with
    | .number seq, some posted => some (.request seq posted)
    | _, _ => none
  | _, _ => none

end ToWorker

/-- Messages from the worker. Failures and outcomes stay as they were posted. -/
inductive FromWorker where
  | ready
  | buildError (fault : Value)
  | response (seq : Binary64) (outcome : Value)

namespace FromWorker

def toValue : FromWorker → Value
  | .ready => .record [("type", .string "ready")]
  | .buildError fault => .record [("type", .string "build-error"), ("error", fault)]
  | .response seq outcome =>
    .record [("type", .string "response"), ("seq", .number seq), ("outcome", outcome)]

def ofValue? (v : Value) : Option FromWorker :=
  match v.isRecord, v.field "type" with
  | true, .string "ready" => some .ready
  | true, .string "build-error" =>
    if Fault.isPosted (v.field "error") then some (.buildError (v.field "error")) else none
  | true, .string "response" =>
    match v.field "seq" with
    | .number seq =>
      if Outcome.isPosted (v.field "outcome") then some (.response seq (v.field "outcome"))
      else none
    | _ => none
  | _, _ => none

end FromWorker

/-- A client named by the module that makes it, so that any thread can load it. -/
structure ClientModule where
  module : String
  exportName : Option String
  options : Value
  deriving Inhabited

namespace ClientModule

def ofValue? (v : Value) : Option ClientModule :=
  match v.isRecord, v.field "module", v.field "exportName" with
  | true, .string module, .undefined => some ⟨module, none, v.field "options"⟩
  | true, .string module, .string name => some ⟨module, some name, v.field "options"⟩
  | _, _, _ => none

end ClientModule

/-- What a worker is started with. Without a level it logs nothing. -/
structure WorkerInit where
  client : ClientModule
  logLevel : Option Log.Level

namespace WorkerInit

def ofValue? (v : Value) : Option WorkerInit :=
  match v.isRecord, v.field "port", ClientModule.ofValue? (v.field "client") with
  | true, .port, some client =>
    match v.field "logLevel" with
    | .null => some ⟨client, none⟩
    | level => (Log.Level.ofValue? level).map fun l => ⟨client, some l⟩
  | _, _, _ => none

end WorkerInit
end Courier
