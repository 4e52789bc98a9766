import Courier.Intake
import Courier.Log.Level
import Courier.Startup
import Courier.Value.Clone

/-!
The owner's side of a standalone transport. Accepted requests are forwarded to the worker in
order, each under the next sequence number, and wait there for the response with that number. When
the worker is gone, whatever it still owed is dropped. A call that holds no request ends the
forwarding. Whether worker and port keep the process of the owner alive is not told here.
-/

namespace Courier

inductive Forwarding where
  | waiting
  | handed (call : Option Nat)
  | ended
  deriving Inhabited

structure Bridge where
  intake : Intake Unit
  forwarding : Forwarding
  /-- Sequence numbers of the requests that wait for a response, with their calls. -/
  pending : List (Nat × Nat)
  /-- The last sequence number used. -/
  seq : Nat
  alive : Bool
  deriving Inhabited

namespace Bridge

inductive Effect where
  | settle (settled : Settled)
  | log (entry : Log.Entry)
  /-- Forwarding goes on. -/
  | wake
  | post (message : Value)
  /-- A failure that nobody waits for. -/
  | unhandled (v : Value)
  | closePort

/-- Hands the answer of the waiting `next` call to the forwarding. -/
def take (b : Bridge) (handoff : Option (Channel.Handoff Nat)) : Bridge × List Effect :=
  match handoff, b.forwarding with
  | some h, .waiting => ({ b with forwarding := .handed h.value }, [.wake])
  | _, _ => (b, [])

/-- Forwarding asks for the next request. -/
def takeNext (b : Bridge) : Bridge × List Effect :=
  let (channel, answer) := b.intake.channel.next
  let b := { b with intake := { b.intake with channel := channel } }
  match answer with
  | .value k => ({ b with forwarding := .handed (some k) }, [.wake])
  | .done => ({ b with forwarding := .handed none }, [.wake])
  | .waits _ => ({ b with forwarding := .waiting }, [])

/-- A bridge that waits for its first request. -/
def start (fired : List (Nat × Value)) : Bridge :=
  (Bridge.mk (Intake.new fired) .ended [] 0 true).takeNext.1

def settledEffects (settled : List Settled) : List Effect := settled.map .settle

/-- Offers a parcel on a sender. -/
def offer (b : Bridge) (sender : Nat) (parcel : Parcel) : Bridge × Bool × List Effect :=
  let (intake, accepted, handoff) := b.intake.offer sender parcel ()
  let (b, effects) := { b with intake := intake }.take handoff
  (b, accepted, effects)

/-- A call of `send` on a sender. -/
def send (b : Bridge) (sender : Nat) (request : Request) (signal : Option Nat) :
    Bridge × Bool × Option (Slot.Reading Outcome) × List Effect :=
  let (intake, accepted, reading, handoff) := b.intake.send sender request signal ()
  let (b, effects) := { b with intake := intake }.take handoff
  (b, accepted, reading, effects)

/-- Releases a sender. -/
def release (b : Bridge) (sender : Nat) : Bridge × List Effect :=
  let (channel, handoff) := b.intake.channel.release sender
  { b with intake := { b.intake with channel := channel } }.take handoff

/-- A signal fires. -/
def abort (b : Bridge) (signal : Nat) (reason : Value) : Bridge × List Effect :=
  let (intake, settled) := b.intake.abort signal reason
  ({ b with intake := intake }, settledEffects settled)

/-- The complaint about a value that no request can be taken from. -/
def notDivisible (v : Value) : Value :=
  let text := match v with
    | .null => "null"
    | _ => "undefined"
  Value.typeError ("Cannot destructure property 'request' of '.for' as it is " ++ text ++ ".")

/-- A request in the form in which it is posted. -/
def posted (request : Value) : Attempt Value := do
  return .record [("url", ← request.read "url"), ("headers", ← request.read "headers"),
    ("body", ← request.read "body")]

/-- The message of a request, if it can be copied. -/
def message? (seq : Nat) (request : Value) : Attempt Value := do
  let message := ToWorker.carry (.ofNat seq) (← posted request)
  let _ ← message.clone
  return message

/-- Forwarding ends with a failure: the channel closes and nobody is told about the calls in it. -/
def breakOff (b : Bridge) (v : Value) : Bridge × List Effect :=
  let (channel, _, _) := b.intake.channel.close
  ({ b with intake := { b.intake with channel := channel }, forwarding := .ended },
    [.log ⟨.error, "Forwarding to standalone worker failed:", [v]⟩])

/-- Posts the request of one call. One that cannot be copied ends the forwarding. -/
def forward (b : Bridge) (k : Nat) (parcel : Parcel) : Bridge × List Effect :=
  match parcel.content with
  | .error _ => b.breakOff (notDivisible parcel.toValue)
  | .ok request =>
    let seq := b.seq + 1
    let b := { b with seq := seq, pending := b.pending ++ [(seq, k)] }
    match message? seq request with
    | .ok message =>
      let (b, effects) := b.takeNext
      (b, .post message :: effects)
    | .error v => b.breakOff v

/-- Forwarding runs until it has to wait again. At the end of the channel the worker is told to
close, unless it is gone. -/
def turn (b : Bridge) : Bridge × List Effect :=
  match b.forwarding with
  | .handed (some k) =>
    match b.intake.calls[k]? with
    | some call => b.forward k call.parcel
    | none => ({ b with forwarding := .ended }, [])
  | .handed none =>
    ({ b with forwarding := .ended },
      if b.alive then
        [.log ⟨.debug, "Request channel closed, stopping standalone worker", []⟩,
          .post ToWorker.close.toValue]
      else [])
  | .waiting | .ended => (b, [])

/-- The call that waits under a sequence number. One that has nothing for a slot does not wait. -/
def waitingFor? (b : Bridge) (seq : Binary64) : Option (Nat × Nat) :=
  b.pending.find? fun (n, k) =>
    (Binary64.ofNat n).same seq && (b.intake.stranger? k).all Value.truthy

def undelivered : Effect := .log ⟨.warn, "Unable to send response back to caller", []⟩

/-- Hands an outcome to a call that waits no longer. -/
def deliver (b : Bridge) (k : Nat) (outcome : Outcome) : Bridge × List Effect :=
  match b.intake.stranger? k with
  | some slot =>
    match slot.call "slot" "send" with
    | .error v => (b, [.unhandled v])
    | .ok () => ({ b with intake := b.intake.countRefusal }, [undelivered])
  | none =>
    let (intake, received, settled) := b.intake.deliver k outcome
    ({ b with intake := intake },
      settledEffects settled ++ if received then [] else [undelivered])

/-- A value arrives on the port. Only a well-formed response to a waiting request has an effect
beyond the log. -/
def message (b : Bridge) (v : Value) : Bridge × List Effect :=
  match FromWorker.ofValue? v with
  | some (.response seq posted) =>
    match b.waitingFor? seq, Outcome.ofPosted posted with
    | some (n, k), .ok outcome =>
      { b with pending := b.pending.filter (·.1 ≠ n) }.deliver k outcome
    | _, _ =>
      (b, [.log ⟨.warn, "Received response for unknown request:", [.number seq]⟩])
  | _ => (b, [.log ⟨.warn, "Unexpected message from standalone worker:", [v]⟩])

/-- The calls of a list that can be dropped, and the complaint of the first that cannot. -/
def droppable (b : Bridge) : List Nat → List Nat × Option Value
  | [] => ([], none)
  | k :: rest =>
    match (b.intake.calls[k]?).bind (·.parcel.dropComplaint?) with
    | some v => ([], some v)
    | none => let (ks, complaint) := b.droppable rest; (k :: ks, complaint)

/-- What is logged when the worker is gone. -/
def stopped (reason : String) : Log.Entry :=
  ⟨.debug, "Standalone worker stopped:", [.string reason]⟩

/-- The worker is gone: requests in the channel and requests that wait for a response are
dropped, and further ones are refused. A call that cannot be dropped breaks that off. -/
def shutdown (b : Bridge) (reason : String) : Bridge × List Effect :=
  if !b.alive then (b, [])
  else
    let (channel, buffered, handoff) := b.intake.channel.close
    let (b, woken) := { b with alive := false, intake := { b.intake with channel := channel } }.take
      handoff
    let (dropped, complaint) := b.droppable (buffered ++ b.pending.map (·.2))
    let (intake, settled) := b.intake.dropAll dropped
    let effects := .log (stopped reason) :: woken ++ settledEffects settled
    match complaint with
    | some v => ({ b with intake := intake }, effects ++ [.unhandled v])
    | none => ({ b with intake := intake, pending := [] }, effects ++ [.closePort])

/-- The worker reports an uncaught error. One that has no fields cannot be told. -/
def complaint (error : Value) : Effect :=
  match error.read "message" with
  | .ok message => .log ⟨.error, "Standalone worker failed:", [message]⟩
  | .error v => .unhandled v

/-- The owner hears something of a worker that was ready. -/
def hear (b : Bridge) : Startup.Event → Bridge × List Effect
  | .message v => b.message v
  | .error v => (b, [complaint v])
  | .exit code => b.shutdown ("worker exited with code " ++ toString code)

end Bridge
end Courier
