import Courier.Channel
import Courier.Outcome
import Courier.Signals
import Courier.Slot

/-!
The callers' side of a transport: a channel of calls, and for every call what was handed over and
its response slot. A call is known by its number. `Progress` is what the dispatch side keeps about
a call.
-/

namespace Courier

/-- A request as a client gets it. -/
structure Request where
  method : String
  url : String
  headers : List (String × Value)
  body : Bytes
  deriving Inhabited

namespace Request

/-- A post of JSON. -/
def post (url : String) (payload : Bytes) : Request :=
  { method := "POST"
    url := url
    headers := [("Content-Type", .string "application/json"),
      ("Content-Length", .string (toString payload.length))]
    body := payload }

def toValue (r : Request) : Value :=
  .record [("method", .string r.method), ("url", .string r.url), ("headers", .record r.headers),
    ("body", .buffer r.body)]

end Request

/-- What a call hands over: a request with the writer of its slot, or any other value instead. -/
inductive Parcel where
  | request (content : Value)
  | foreign (v : Value)
  deriving Inhabited

namespace Parcel

def toValue : Parcel → Value
  | .request content => .record [("request", content), ("slot", .object "SlotWriter")]
  | .foreign v => v

/-- The request in a parcel; undefined and null hold none. -/
def content : Parcel → Attempt Value
  | .request content => .ok content
  | .foreign v => v.read "request"

/-- The address of the request in a parcel. -/
def url (p : Parcel) : Attempt Value := do (← p.content).read "url"

/-- What stands in the place of the slot in a parcel that has none. -/
def stranger? : Parcel → Option Value
  | .request _ => none
  | .foreign v => some (v.field "slot")

/-- The complaint that dropping a stranger comes to, if it cannot be dropped. -/
def dropComplaint? (p : Parcel) : Option Value := do
  match (← p.stranger?).call "pending.slot" "drop" with
  | .error v => some v
  | .ok () => none

end Parcel

/-- Calls accepted from handles, outcomes received by their callers, and outcomes whose callers
had given up. -/
structure Stats where
  submitted : Nat
  delivered : Nat
  undelivered : Nat
  deriving DecidableEq, Repr, Inhabited

namespace Stats

def zero : Stats := ⟨0, 0, 0⟩

/-- Counts one delivery, received or not. -/
def countDelivery (s : Stats) (received : Bool) : Stats :=
  if received then { s with delivered := s.delivered + 1 }
  else { s with undelivered := s.undelivered + 1 }

def add (a b : Stats) : Stats :=
  ⟨a.submitted + b.submitted, a.delivered + b.delivered, a.undelivered + b.undelivered⟩

end Stats

structure Call (Progress : Type) where
  parcel : Parcel
  slot : Slot Outcome
  /-- The signal that its reader listens to. -/
  signal : Option Nat
  progress : Progress
  deriving Inhabited

structure Intake (Progress : Type) where
  channel : Channel Nat
  calls : Array (Call Progress)
  stats : Stats
  /-- The signals that have fired, each with its reason. -/
  fired : List (Nat × Value)
  deriving Inhabited

/-- The caller of a call learns how its receive ended. -/
structure Settled where
  call : Nat
  reading : Slot.Reading Outcome

namespace Intake

variable {P : Type}

def new (fired : List (Nat × Value)) : Intake P := ⟨Channel.new, #[], Stats.zero, fired⟩

/-- The reason of a signal that has fired. -/
def reason? (i : Intake P) (signal : Option Nat) : Option Value := Signals.reason? i.fired signal

/-- Offers a parcel on a sender; the new call has the next number. -/
def offer (i : Intake P) (sender : Nat) (parcel : Parcel) (start : P) :
    Intake P × Bool × Option (Channel.Handoff Nat) :=
  let (channel, accepted, handoff) := i.channel.send sender i.calls.size
  ({ i with channel := channel, calls := i.calls.push ⟨parcel, Slot.new, none, start⟩ },
    accepted, handoff)

/-- The caller of a call starts to wait for its outcome. -/
def receive (i : Intake P) (k : Nat) (signal : Option Nat) :
    Intake P × Option (Slot.Reading Outcome) :=
  match i.calls[k]? with
  | none => (i, none)
  | some call =>
    let (slot, reading) := call.slot.receive (i.reason? signal)
    let call := { call with slot := slot, signal := signal }
    ({ i with calls := i.calls.setIfInBounds k call }, reading)

/-- A call of `send`: the request is posted on a sender and its caller starts to wait. Nothing is
counted if it is refused. -/
def send (i : Intake P) (sender : Nat) (request : Request) (signal : Option Nat) (start : P) :
    Intake P × Bool × Option (Slot.Reading Outcome) × Option (Channel.Handoff Nat) :=
  let k := i.calls.size
  let (i, accepted, handoff) := i.offer sender (.request request.toValue) start
  if accepted then
    let i := { i with stats := { i.stats with submitted := i.stats.submitted + 1 } }
    let (i, reading) := i.receive k signal
    (i, true, reading, handoff)
  else (i, false, none, none)

/-- Replaces the slot of a call, and tells what that settled. -/
def withSlot (i : Intake P) (k : Nat) (slot : Slot Outcome) : Intake P × List Settled :=
  match i.calls[k]? with
  | none => (i, [])
  | some call =>
    ({ i with calls := i.calls.setIfInBounds k { call with slot := slot } },
      ((Slot.settledSince call.slot slot).map fun r => ⟨k, r⟩).toList)

/-- What stands in the place of the slot of a call that has none. -/
def stranger? (i : Intake P) (k : Nat) : Option Value := (i.calls[k]?).bind (·.parcel.stranger?)

/-- Counts an outcome that nobody received. -/
def countRefusal (i : Intake P) : Intake P := { i with stats := i.stats.countDelivery false }

/-- Offers an outcome to the caller of a call; true if the caller received it. -/
def deliver (i : Intake P) (k : Nat) (outcome : Outcome) : Intake P × Bool × List Settled :=
  match i.calls[k]? with
  | none => (i, false, [])
  | some call =>
    let (slot, received) := call.slot.send outcome
    let (i, settled) := i.withSlot k slot
    ({ i with stats := i.stats.countDelivery received }, received, settled)

/-- Drops the slot of a call. -/
def drop (i : Intake P) (k : Nat) : Intake P × List Settled :=
  match i.calls[k]? with
  | none => (i, [])
  | some call => i.withSlot k call.slot.drop

/-- Drops the slots of several calls. -/
def dropAll (i : Intake P) (ks : List Nat) : Intake P × List Settled :=
  ks.foldl (fun (i, settled) k =>
    let (i, more) := i.drop k
    (i, settled ++ more)) (i, [])

/-- A signal fires: every call that waits with it is given up. -/
def abort (i : Intake P) (signal : Nat) (reason : Value) : Intake P × List Settled :=
  match Signals.fire? i.fired signal reason with
  | none => (i, [])
  | some fired =>
    (List.range i.calls.size).foldl (fun (i, settled) k =>
      match i.calls[k]? with
      | some call =>
        if call.signal = some signal then
          let (i, more) := i.withSlot k (call.slot.abort reason)
          (i, settled ++ more)
        else (i, settled)
      | none => (i, settled)) ({ i with fired := fired }, [])

/-- Changes what the dispatch side keeps about a call. -/
def setProgress (i : Intake P) (k : Nat) (p : P) : Intake P :=
  { i with calls := i.calls.modify k fun call => { call with progress := p } }

def progress? (i : Intake P) (k : Nat) : Option P := (i.calls[k]?).map (·.progress)

end Intake
end Courier
