import Courier.Message

/-!
How a standalone transport starts. The worker is started and the first thing heard of it decides:
a ready message, a report that the client could not be made, or anything else. Whatever went
wrong, the owner waits for the worker to exit before it reports the failure.
-/

namespace Courier

inductive Startup where
  /-- The worker has been started and nothing was heard of it. -/
  | listening
  | ready
  /-- The worker is stopping, by itself or because it was told to. -/
  | stopping (fault : Attempt Fault)
  | failed (fault : Attempt Fault)

namespace Startup

/-- What the owner hears of a worker that starts. -/
inductive Event where
  | message (v : Value)
  | error (v : Value)
  | exit (code : Int)

inductive Effect where
  | closePort
  /-- The worker is told to stop at once. -/
  | terminate
  | resolve
  | reject (fault : Attempt Fault)
  | log (entry : Log.Entry)
  /-- An error of the worker for which nobody listens. -/
  | uncaught (v : Value)

/-- The failure of a worker that could not be started at all. -/
def notStarted (cause : Value) : Fault := Fault.reactor "Unable to start worker thread" cause

def unexpectedMessage : Fault :=
  Fault.reactor "Unexpected message from worker during setup" .undefined

def exitedDuring (code : Int) : Fault :=
  Fault.reactor ("Worker exited during setup with code " ++ toString code) .undefined

/-- Whether the owner listens for errors of the worker: from the start until the first event, and
from the moment the transport is ready. -/
def listensForErrors : Startup → Bool
  | .listening | .ready => true
  | .stopping _ | .failed _ => false

/-- The owner starts a worker, which comes to the number of a thread unless it throws. -/
def start (spawned : Attempt Value) : Startup × List Effect :=
  match spawned with
  | .error v => (.failed (.ok (notStarted v)), [.closePort, .reject (.ok (notStarted v))])
  | .ok thread =>
    (.listening,
      [.log ⟨.debug, "Standalone worker started:", [.record [("threadId", thread)]]⟩])

/-- The first event decides; later ones only show when the worker has exited. -/
def step (s : Startup) (e : Event) : Startup × List Effect :=
  match s, e with
  | .listening, .message v =>
    match FromWorker.ofValue? v with
    | some .ready => (.ready, [.resolve])
    | some (.buildError posted) => (.stopping (Fault.rebuild posted), [.closePort])
    | _ => (.stopping (.ok unexpectedMessage), [.closePort, .terminate])
  | .listening, .error v =>
    (.stopping (.ok (Fault.reactor "Worker failed during setup" v)), [.closePort, .terminate])
  | .listening, .exit code =>
    (.failed (.ok (exitedDuring code)), [.closePort, .reject (.ok (exitedDuring code))])
  | .stopping fault, .exit _ => (.failed fault, [.reject fault])
  | s, .error v => (s, if s.listensForErrors then [] else [.uncaught v])
  | s, _ => (s, [])

end Startup
end Courier
