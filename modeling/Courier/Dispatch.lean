import Courier.Exchange
import Courier.Intake
import Courier.Log.Level

/-!
The dispatch loop: it takes calls off the channel and starts a unit for each without waiting for
earlier ones; when the channel has ended it waits for the units that are still in flight. A unit
is one exchange whose outcome is delivered into the call's slot; whatever happens, its slot is
not left empty. A call that holds no request with an address breaks the loop off.

Every step is a function of the state and of one thing that happened, in any order. The effects
of a step are what others have to do: ask the client, read on, run the loop or the unit again.
-/

namespace Courier

/-- How far the unit of a call has come. -/
inductive Stage where
  | waiting
  | running (e : Exchange)
  /-- Its slot is settled; the value is what broke out of the unit. -/
  | ended (failure : Option Value)
  /-- The loop no longer counts it. -/
  | retired (failure : Option Value)
  deriving Inhabited

inductive Loop where
  | unstarted
  /-- Its `next` call waits. -/
  | waiting
  /-- Its `next` call was answered, at the end of the channel with none. -/
  | handed (call : Option Nat)
  /-- The channel has ended; the value is what a unit failed with meanwhile. -/
  | draining (failure : Option Value)
  | ended (result : Attempt Unit)
  deriving Inhabited

inductive Effect where
  | settle (settled : Settled)
  | log (entry : Log.Entry)
  /-- The loop runs on. -/
  | wake
  /-- No unit is left that the loop waits for, or one has failed. -/
  | drained
  | ask (call : Nat) (request : Value)
  /-- The next chunk of the body is wanted. -/
  | pull (call : Nat)
  | discard (call : Nat)
  /-- The exchange is over, the unit runs on. -/
  | conclude (call : Nat)
  | retire (call : Nat)
  | loopEnded (result : Attempt Unit)
  /-- A failure that nobody waits for. -/
  | unhandled (v : Value)
  | closeClient
  | finished (result : Attempt Unit)

structure Dispatch where
  intake : Intake Stage
  loop : Loop
  /-- The number of log calls so far. -/
  said : Nat
  deriving Inhabited

namespace Dispatch

def new (fired : List (Nat × Value)) : Dispatch := ⟨Intake.new fired, .unstarted, 0⟩

/-- Calls the logger; the value is what it threw. -/
def say (react : Log.Reaction) (d : Dispatch) (entry : Log.Entry) :
    Dispatch × List Effect × Option Value :=
  ({ d with said := d.said + 1 }, [.log entry], react d.said entry)

/-- The loop's waiting `next` call is answered. -/
def take (d : Dispatch) (handoff : Option (Channel.Handoff Nat)) : Dispatch × List Effect :=
  match handoff, d.loop with
  | some h, .waiting => ({ d with loop := .handed h.value }, [.wake])
  | _, _ => (d, [])

def settledEffects (settled : List Settled) : List Effect := settled.map .settle

/-- Offers a parcel on a sender. -/
def offer (d : Dispatch) (sender : Nat) (parcel : Parcel) : Dispatch × Bool × List Effect :=
  let (intake, accepted, handoff) := d.intake.offer sender parcel .waiting
  let (d, effects) := { d with intake := intake }.take handoff
  (d, accepted, effects)

/-- A call of `send` on a sender. -/
def send (d : Dispatch) (sender : Nat) (request : Request) (signal : Option Nat) :
    Dispatch × Bool × Option (Slot.Reading Outcome) × List Effect :=
  let (intake, accepted, reading, handoff) := d.intake.send sender request signal .waiting
  let (d, effects) := { d with intake := intake }.take handoff
  (d, accepted, reading, effects)

/-- Releases a sender. -/
def release (d : Dispatch) (sender : Nat) : Dispatch × List Effect :=
  let (channel, handoff) := d.intake.channel.release sender
  { d with intake := { d.intake with channel := channel } }.take handoff

/-- Closes the channel from the receiver's side; the dropped calls are given back. -/
def closeChannel (d : Dispatch) : Dispatch × List Nat × List Effect :=
  let (channel, dropped, handoff) := d.intake.channel.close
  let (d, effects) := { d with intake := { d.intake with channel := channel } }.take handoff
  (d, dropped, effects)

/-- A signal fires. -/
def abort (d : Dispatch) (signal : Nat) (reason : Value) : Dispatch × List Effect :=
  let (intake, settled) := d.intake.abort signal reason
  ({ d with intake := intake }, settledEffects settled)

/-- The loop asks for the next call. -/
def takeNext (d : Dispatch) : Dispatch × List Effect :=
  let (channel, answer) := d.intake.channel.next
  let d := { d with intake := { d.intake with channel := channel } }
  match answer with
  | .value k => ({ d with loop := .handed (some k) }, [.wake])
  | .done => ({ d with loop := .handed none }, [.wake])
  | .waits _ => ({ d with loop := .waiting }, [])

def isInFlight : Stage → Bool
  | .running _ | .ended _ => true
  | _ => false

/-- The number of units that the loop counts. -/
def inFlight (d : Dispatch) : Nat := (d.intake.calls.filter fun c => isInFlight c.progress).size

/-- The loop ends with a result. -/
def finish (d : Dispatch) (result : Attempt Unit) : Dispatch × List Effect :=
  ({ d with loop := .ended result }, [.loopEnded result])

/-- The loop breaks off: the channel closes and nobody is told about the calls in it. -/
def breakOff (d : Dispatch) (v : Value) : Dispatch × List Effect :=
  let (d, _, _) := d.closeChannel
  d.finish (.error v)

/-- Starts the unit of a call. -/
def start (react : Log.Reaction) (d : Dispatch) (k : Nat) (parcel : Parcel) :
    Dispatch × List Effect :=
  match parcel.content, parcel.url with
  | .error v, _ | .ok _, .error v => d.breakOff v
  | .ok request, .ok url =>
    let (d, said, thrown) := d.say react ⟨.debug, "Dispatching request:", [.record [("url", url)]]⟩
    match thrown with
    | some v =>
      let (d, effects) := d.breakOff v
      (d, said ++ effects)
    | none =>
      let d := { d with intake := d.intake.setProgress k (.running .asking) }
      let (d, effects) := d.takeNext
      (d, said ++ [.ask k request] ++ effects)

/-- The loop runs until it has to wait again. -/
def turn (react : Log.Reaction) (d : Dispatch) : Dispatch × List Effect :=
  match d.loop with
  | .unstarted => d.takeNext
  | .handed (some k) =>
    match d.intake.calls[k]? with
    | some call => d.start react k call.parcel
    | none => d.breakOff (Value.unreadable .undefined "request")
  | .handed none =>
    let (d, said, thrown) := d.say react
      ⟨.debug, "Request channel closed, in-flight requests:", [Value.nat d.inFlight]⟩
    match thrown with
    | some v =>
      let (d, effects) := d.finish (.error v)
      (d, said ++ effects)
    | none => ({ d with loop := .draining none }, said ++ if d.inFlight = 0 then [.wake] else [])
  | .draining (some v) => d.finish (.error v)
  | .draining none => if d.inFlight = 0 then d.finish (.ok ()) else (d, [])
  | .waiting | .ended _ => (d, [])

/-- The effects of an exchange that moved. -/
def follow (k : Nat) : Exchange → List Effect
  | .asking => []
  | .reading _ => [.pull k]
  | .over _ => [.conclude k]

/-- Moves the exchange of a running unit. -/
def progress (d : Dispatch) (k : Nat) (move : Exchange → Exchange × List Effect) :
    Dispatch × List Effect :=
  match d.intake.progress? k with
  | some (.running e) =>
    let (e, effects) := move e
    ({ d with intake := d.intake.setProgress k (.running e) }, effects ++ follow k e)
  | _ => (d, [])

/-- The client has answered the request of a unit, or failed it. -/
def answered (d : Dispatch) (k : Nat) (r : Attempt (Option Response)) : Dispatch × List Effect :=
  d.progress k fun e =>
    match e with
    | .asking =>
      let (e, discards) := Exchange.answered r
      (e, if discards then [.discard k] else [])
    | e => (e, [])

/-- The body of a unit's response yields a chunk. -/
def chunk (d : Dispatch) (k : Nat) (v : Value) : Dispatch × List Effect :=
  d.progress k fun e => (e.chunk v, [])

/-- The body of a unit's response ends or fails. -/
def bodyEnded (d : Dispatch) (k : Nat) (r : Attempt Memory) : Dispatch × List Effect :=
  d.progress k fun e => (e.bodyEnded r, [])

/-- An outcome found nobody to receive it. -/
def undelivered (react : Log.Reaction) (d : Dispatch) : Dispatch × List Effect × Option Value :=
  d.say react ⟨.warn, "Unable to send response back to caller", []⟩

/-- Hands an outcome to the caller of a call. A caller that has given up cannot receive it, which
is counted and logged; a stranger in the place of its slot never does. -/
def deliver (react : Log.Reaction) (d : Dispatch) (k : Nat) (outcome : Outcome) :
    Dispatch × List Effect × Option Value :=
  match d.intake.stranger? k with
  | some slot =>
    match slot.call "slot" "send" with
    | .error v => (d, [], some v)
    | .ok () => { d with intake := d.intake.countRefusal }.undelivered react
  | none =>
    let (intake, received, settled) := d.intake.deliver k outcome
    let d := { d with intake := intake }
    if received then (d, settledEffects settled, none)
    else
      let (d, said, thrown) := d.undelivered react
      (d, settledEffects settled ++ said, thrown)

/-- Reports and delivers the outcome of a unit; the value is what was thrown meanwhile. -/
def complete (react : Log.Reaction) (d : Dispatch) (k : Nat) (parcel : Parcel)
    (result : Attempt Outcome) : Dispatch × List Effect × Option Value :=
  match result, parcel.url with
  | .error v, _ | .ok _, .error v => (d, [], some v)
  | .ok outcome, .ok url =>
    let (d, said, thrown) := d.say react ⟨.debug, "Request completed:",
      [.record [("url", url), ("ok", .bool outcome.isSuccess)]]⟩
    match thrown with
    | some v => (d, said, some v)
    | none =>
      let (d, effects, thrown) := d.deliver react k outcome
      (d, said ++ effects, thrown)

/-- Ends a unit whose exchange is over. What is thrown is logged, and the slot is dropped if it is
still empty. The unit fails with what the logger throws, or with the complaint of a stranger that
cannot be dropped. -/
def conclude (react : Log.Reaction) (d : Dispatch) (k : Nat) : Dispatch × List Effect :=
  match d.intake.calls[k]? with
  | none => (d, [])
  | some call =>
    match call.progress with
    | .running (.over result) =>
      let (d, effects, thrown) := d.complete react k call.parcel result
      let (d, said, failure) := match thrown with
        | some v => d.say react ⟨.error, "Request processing failed:", [v]⟩
        | none => (d, [], none)
      let (intake, settled) := d.intake.drop k
      let failure := call.parcel.dropComplaint?.or failure
      ({ d with intake := intake.setProgress k (.ended failure) },
        effects ++ said ++ settledEffects settled ++ [.retire k])
    | _ => (d, [])

/-- The loop stops counting a unit. A unit that failed fails the loop that waits for it. -/
def retire (d : Dispatch) (k : Nat) : Dispatch × List Effect :=
  match d.intake.progress? k with
  | some (.ended failure) =>
    let d := { d with intake := d.intake.setProgress k (.retired failure) }
    match d.loop, failure with
    | .draining none, some v => ({ d with loop := .draining (some v) }, [.drained])
    | .draining none, none => (d, if d.inFlight = 0 then [.drained] else [])
    | .draining (some _), _ => (d, [])
    | _, some v => (d, [.unhandled v])
    | _, none => (d, [])
  | _ => (d, [])

end Dispatch
end Courier
