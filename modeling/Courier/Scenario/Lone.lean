import Courier.Scenario.Masking
import Courier.Scenario.Threads

/-!
A worker thread by itself, with a scenario that plays its owner: it posts messages, waits for
messages, and may close the port. Of what the worker says on the console, the lines that start as
its log entries do are kept.
-/

namespace Courier.Scenario

/-- A step of the owner. -/
inductive OwnerStep where
  | post (v : Value)
  /-- Waits until so many messages have come. -/
  | receive (count : Nat)
  | closePort

/-- What there is to say about a worker when it has exited. -/
structure WorkerReport where
  messages : List Value
  error : Option Value
  exit : Option Int
  out : List String
  err : List String

/-- What a worker is started with: a value, or fields beside the port that is handed over. -/
inductive StartData where
  | value (v : Value)
  | withPort (fields : List (String × Value))

/-- The data as it arrives on the worker thread. -/
def StartData.arrived : StartData → Attempt Value
  | .value v => v.clone
  | .withPort fields => do
    let fields ← Value.cloneFields fields
    return .record (if fields.any (·.1 = "port") then fields else ("port", .port) :: fields)

/-- A worker, and the messages that its owner has received. The owner receives messages only while
it waits. -/
structure Lone where
  thread : Thread
  heard : List Value

namespace Lone

/-- Lets the worker move until it has nothing to do. -/
def runs : Nat → Thread → Thread
  | 0, t => t
  | fuel + 1, t =>
    match t.move? with
    | some t => runs fuel t
    | none => t

/-- The owner receives what is there, unless it has closed the port. -/
def hear (l : Lone) : Lone :=
  { thread := { l.thread with toOwner := [] }
    heard := if l.thread.ownerClosed then l.heard else l.heard ++ l.thread.toOwner }

/-- Lets the worker move, and time pass, until enough has been heard or the worker has exited. -/
def waits (enough : List Value → Bool) : Nat → Lone → Lone
  | 0, l => l
  | fuel + 1, l =>
    let l := { l with thread := runs World.patience l.thread }.hear
    if enough l.heard || !l.thread.isRunning then l
    else
      match l.thread.exitNow? with
      | some t => waits enough fuel { l with thread := t }
      | none => l

/-- Plays a step of the owner. -/
def play (l : Lone) : OwnerStep → Attempt Lone
  | .post v => do
    let copy ← v.clone
    let t := l.thread
    if t.isRunning && !t.ownerClosed then
      return { l with thread := { t with toWorker := t.toWorker ++ [copy] } }
    return l
  | .receive count =>
    .ok (waits (fun heard => decide (count ≤ heard.length)) World.patience l)
  | .closePort => .ok { l with thread := { l.thread with ownerClosed := true } }

def isError (r : Record) : Bool := r.level = "warn" || r.level = "error"

/-- The lines that arguments take on the console. -/
def consoleLines (args : List Value) : List String :=
  (" ".intercalate (args.map fun v => v.inspect.toOption.getD "")).splitOn "\n"

/-- How every log entry of the library starts. -/
def lineStart : String := "[TS] [HTTP"

/-- The lines on a stream of the console that start as log entries do. -/
def logLines (records : List Record) : List String :=
  (records.flatMap fun r => (consoleLines r.args).map Masking.mask).filter
    fun line => line.startsWith lineStart

/-- Starts a worker and plays the steps; then waits for its exit. -/
def rehearse (data : StartData) (script : Script) (steps : List OwnerStep) :
    Attempt WorkerReport := do
  let init := WorkerInit.ofValue? (← data.arrived)
  let sink := match init.bind (·.logLevel) with
    | some level => Sink.console (Log.Config.pretty level "[HTTP-TRANSPORT:worker]")
    | none => .silent
  let start : Lone := ⟨Thread.start default script .undefined init sink, []⟩
  let l := waits (fun _ => false) World.patience (← steps.foldlM play start)
  let t := l.thread
  return {
    messages := l.heard
    error := t.error
    exit := t.exit
    out := logLines (t.world.records.filter fun r => !isError r)
    err := logLines (t.world.records.filter isError) }

end Lone
end Courier.Scenario
