import Courier.Message
import Courier.Pipeline
import Courier.Value.Clone

/-!
The worker's side of a standalone transport. It listens from the start, makes its client, says
that it is ready, and answers every request with one response. It closes its port when the
dispatch pipeline is done and every response has been posted.
-/

namespace Courier

inductive Worker.Phase where
  | building
  | running
  /-- The client could not be made. -/
  | failed
  | closed
  deriving Inhabited

structure Worker where
  pipeline : Pipeline
  phase : Worker.Phase
  /-- Calls that wait for their outcome, with the sequence numbers to answer under. -/
  replies : List (Nat × Binary64)
  deriving Inhabited

namespace Worker

inductive Effect where
  | inner (effect : Courier.Effect)
  | log (entry : Log.Entry)
  | post (message : Value)
  /-- Posts the answer to a call whose receive has ended. -/
  | reply (message : Value)
  /-- What copying a response has thrown. Nothing catches it, and it ends the thread. -/
  | crash (v : Value)
  /-- The worker itself has failed; it says so, and its exit will tell of a failure. -/
  | fail (v : Value)
  | closePort

/-- The sender that the worker keeps for its owner. -/
def sender : Nat := 0

def new : Worker := ⟨Pipeline.new [], .building, []⟩

/-- Posts a response in some way; one that cannot be copied is an uncaught failure. -/
def respond (post : Value → Effect) (seq : Binary64) (outcome : Attempt Value) : Effect :=
  match outcome with
  | .error v => .crash v
  | .ok posted =>
    match (FromWorker.response seq posted).toValue.clone with
    | .ok message => post message
    | .error v => .crash v

/-- The outcome to post when a receive has ended. -/
def outcomeOf : Slot.Reading Outcome → Attempt Value
  | .got (some outcome) => outcome.post
  | _ => (Outcome.failure Fault.diedWithoutResponse).post

/-- The end of the worker: everything is done and answered. -/
def wrapUp (w : Worker) : Worker × List Effect :=
  match w.phase, w.pipeline.closing, w.replies with
  | .running, .done _, [] =>
    ({ w with phase := .closed },
      [.log ⟨.debug, "Standalone worker exiting, undelivered responses:",
        [Value.nat w.pipeline.dispatch.intake.stats.undelivered]⟩, .closePort])
  | _, _, _ => (w, [])

/-- Passes the effects of the pipeline on, and posts the responses among them. -/
def absorb (w : Worker) (effects : List Courier.Effect) : Worker × List Effect :=
  effects.foldl (fun (w, out) e =>
    match e with
    | .settle s =>
      match w.replies.find? (·.1 = s.call) with
      | some (k, seq) =>
        ({ w with replies := w.replies.filter (·.1 ≠ k) },
          out ++ [respond .reply seq (outcomeOf s.reading)])
      | none => (w, out)
    | .log entry => (w, out ++ [.log entry])
    | e => (w, out ++ [.inner e])) (w, [])

/-- A step of the pipeline. -/
def lift (w : Worker) (step : Pipeline × List Courier.Effect) : Worker × List Effect :=
  let (w, effects) := { w with pipeline := step.1 }.absorb step.2
  let (w, more) := w.wrapUp
  (w, effects ++ more)

/-- A step of the dispatch. -/
def liftDispatch (w : Worker) (step : Dispatch × List Courier.Effect) : Worker × List Effect :=
  w.lift (w.pipeline.lift Log.calm step)

/-- A request in the form in which the client gets it. -/
def received (r : PostedRequest) : Value :=
  .record [("method", "POST"), ("url", .string r.url), ("headers", r.headers),
    ("body", .buffer r.body)]

/-- Accepts a request, or answers at once that none is listened for. -/
def request (w : Worker) (seq : Binary64) (r : PostedRequest) : Worker × List Effect :=
  let refuse : Worker × List Effect :=
    (w, [respond .post seq (Outcome.failure Fault.notListening).post])
  match w.phase with
  | .running =>
    let k := w.pipeline.dispatch.intake.calls.size
    let (d, accepted, effects) := w.pipeline.dispatch.offer sender (.request (received r))
    if accepted then
      let (intake, _) := d.intake.receive k none
      let w := { w with replies := w.replies ++ [(k, seq)] }
      w.liftDispatch ({ d with intake := intake }, effects)
    else refuse
  | _ => refuse

/-- The owner releases the transport. -/
def release (w : Worker) : Worker × List Effect :=
  let log : List Effect := [.log ⟨.debug, "Owner released the transport", []⟩]
  match w.phase with
  | .running =>
    let (w, effects) := w.liftDispatch (w.pipeline.dispatch.release sender)
    (w, log ++ effects)
  | _ => (w, log)

/-- A value arrives on the port; none arrives on a closed one. -/
def message (w : Worker) (v : Value) : Worker × List Effect :=
  match w.phase, ToWorker.ofValue? v with
  | .closed, _ => (w, [])
  | _, none => (w, [.log ⟨.warn, "Ignoring unexpected message:", [v]⟩])
  | _, some .close => w.release
  | _, some (.request seq r) => w.request seq r

/-- The client has been made. -/
def built (w : Worker) : Worker × List Effect :=
  ({ w with phase := .running },
    [.post FromWorker.ready.toValue, .log ⟨.debug, "Standalone worker ready", []⟩])

/-- The message that reports a failure, if it can be put into one and copied. -/
def report (fault : Fault) : Attempt Value := do
  (FromWorker.buildError (← fault.post)).toValue.clone

/-- The client could not be made; a failure that is none of the transport's own is wrapped. One that
cannot be reported ends the worker. -/
def buildFailed (w : Worker) (v : Value) : Worker × List Effect :=
  let fault := (Fault.ofFault? v).getD (Fault.reactor "Worker setup failed" v)
  let said : Effect := .log ⟨.debug, "Client construction failed:", [fault.message]⟩
  match report fault with
  | .ok message => ({ w with phase := .failed }, [said, .post message])
  | .error v => ({ w with phase := .closed }, [said, .fail v, .closePort])

/-- The factory of the client has come to its end. A pipeline runs as a task of the worker's own
reactor. -/
def start (w : Worker) (reactor : Reactor) (made : Attempt Value) :
    Worker × Reactor × Option Nat × List Effect :=
  match Pipeline.build reactor [] made with
  | (reactor, .ok (task, pipeline)) =>
    let (w, effects) := { w with pipeline := pipeline }.built
    (w, reactor, some task, effects)
  | (reactor, .error v) =>
    let (w, effects) := w.buildFailed v
    (w, reactor, none, effects)

end Worker
end Courier
