import Courier.Bridge
import Courier.Client.Network
import Courier.Handle
import Courier.Log.Format
import Courier.Pipeline
import Courier.Reactor
import Courier.Scenario.Script
import Courier.Worker

/-!
The state of a scenario on one thread: the library's objects under the names that steps use, the
scripts that wait at gates, and a queue of jobs that are ready to run, in order.
-/

namespace Courier.Scenario

/-- Where the entries of a logger go. -/
inductive Sink where
  | silent
  /-- The entries of certain levels, under the logger's name. -/
  | recorded (name : String) (levels : List Log.Level)
  | console (config : Log.Config)
  deriving Inhabited

/-- An entry that was recorded, or the call of a console method. -/
structure Record where
  logger : String
  level : String
  message : Option String
  args : List Value

structure ClientState where
  /-- The module that its factory comes from, if it is no function of this thread. -/
  reference : Option Reference
  script : Script
  built : Nat
  requests : Nat
  discarded : Nat
  closed : Nat
  seen : Array Value
  deriving Inhabited

/-- The client that a pipeline uses. -/
inductive Instance where
  | scripted (client : Nat)
  /-- The default client. -/
  | network (client : Client.Network)
  | other (v : Value)
  deriving Inhabited

/-- What a channel is used for. -/
inductive Body where
  /-- Nobody takes calls off it but iterations. -/
  | plain (intake : Intake Stage)
  | loop (dispatch : Dispatch)
  | pipeline (pipeline : Pipeline)
  | bridge (bridge : Bridge)
  | worker (worker : Worker)
  deriving Inhabited

/-- What waits for the end of a receive. -/
inductive Goal where
  | none
  | submit (event : String)
  | send (event : String) (uri : String) (sink : Sink)
  deriving Inhabited

/-- What waits for a `next` call. -/
inductive Wanted where
  | next (event : String)
  /-- The values so far, the last one first. -/
  | take (event : String) (left : Nat) (values : List Value)
  /-- The values so far, the last one first. -/
  | collect (event : String) (limit : Option Nat) (values : List Value)

structure Line where
  body : Body
  client : Instance
  sink : Sink
  /-- The options that its deliveries count for. -/
  options : Option Nat
  goals : List (Nat × Goal)
  wanted : List (Nat × Wanted)
  /-- The event of the end of its loop. -/
  ended : Option String
  /-- The event of the end of its pipeline. -/
  done : Option String
  /-- The reactor and the task that run it. -/
  task : Option (Nat × Nat)
  deriving Inhabited

/-- Who makes an exchange. -/
inductive Caller where
  | unit (line call : Nat)
  | direct (n : Nat)
  deriving Inhabited

/-- An exchange outside of any pipeline. -/
structure Direct where
  event : String
  client : Instance
  request : Value
  exchange : Exchange
  deriving Inhabited

/-- What a client is made for. -/
inductive Purpose where
  | resolve (event : String)
  | exchange (event : String) (request : Value)
  | loop (event : String) (line options : Nat)
  | pipeline (event : String) (reactor options : Nat) (tx done : String)
  | transport (event name : String) (reactor : Nat) (reactorName : String) (sink : Sink)
  /-- The pipeline of a worker thread. -/
  | worker
  deriving Inhabited

/-- What the end of a script leads to. -/
inductive After where
  /-- A task is fresh until it has had to wait. -/
  | task (reactor task : Nat) (fresh : Bool)
  | built (client : Nat) (purpose : Purpose)
  | reply (caller : Caller) (reply : Reply)
  | closed (line : Nat)
  deriving Inhabited

inductive Job where
  /-- The loop or the forwarding of a line runs. -/
  | turn (line : Nat)
  | conclude (line call : Nat)
  | retire (line call : Nat)
  | concludeDirect (n : Nat)
  | act (actions : List Action) (after : After)
  | respond (caller : Caller) (reply : Reply)
  | body (caller : Caller) (chunks : List Chunk)
  | chunk (caller : Caller) (v : Value) (rest : List Chunk)
  | bodyEnded (caller : Caller) (result : Attempt Memory)
  | answer (caller : Caller) (result : Attempt (Option Response))
  /-- The factory of a client runs. -/
  | make (client : Nat) (purpose : Purpose)
  | made (client : Nat) (purpose : Purpose) (made : Attempt (Value × Instance))
  | clientClosed (line : Nat) (result : Attempt Unit)
  | taskSettled (reactor task : Nat) (result : Attempt Unit)
  | taskRetired (reactor task : Nat)
  | look (reactor idler : Nat)
  /-- A `next` call has been answered. -/
  | serve (line : Nat) (wanted : Wanted) (v : Option Value)
  | post (line : Nat) (v : Value)
  /-- A value that nothing catches. -/
  | crash (v : Value)
  deriving Inhabited

structure Gate where
  name : String
  opened : Bool
  waiting : List Job

/-- A builder of transports. -/
structure Builder where
  client : Option Nat
  reactor : Option Nat
  sink : Option Sink
  debug : Bool
  deriving Inhabited

/-- Counters and logger for deliveries outside of a transport. -/
structure Options where
  sink : Sink
  stats : Stats
  deriving Inhabited

/-- A family of handles: those of a transport, or one made by itself. -/
structure Family where
  line : Nat
  transport : Transport
  /-- Where its handles log. -/
  sink : Sink
  /-- The options that its handles count for, if they are not the transport's own. -/
  options : Option Nat
  deriving Inhabited

/-- A slot by itself, or the slot of a call. -/
inductive SlotRef where
  | free (n : Nat)
  | call (line call : Nat)
  deriving Inhabited

/-- A slot by itself, with the events of its receives and the signal of the first. -/
structure FreeSlot where
  slot : Slot Outcome
  event : String
  signal : Option Nat
  deriving Inhabited

/-- How a thread came to its end. -/
inductive End where
  | exited (code : Int)
  | crashed (v : Value)

structure World where
  /-- Whether this is a worker thread. -/
  worker : Bool
  ready : List (Nat × Job)
  /-- Jobs that became ready later, the last one first. -/
  later : List (Nat × Job)
  /-- Jobs that run when no other is ready, in order. -/
  deferred : List Job
  gates : List Gate
  sinks : List (String × Sink)
  /-- For every signal made so far, the reason that it has fired with. -/
  signals : Array (Option Value)
  signalNames : List (String × Nat)
  reactors : Array Reactor
  reactorNames : List (String × Nat)
  reactorSinks : Array Sink
  clients : Array ClientState
  clientNames : List (String × Nat)
  options : Array Options
  optionNames : List (String × Nat)
  lines : Array Line
  senders : List (String × Nat × Nat)
  receivers : List (String × Nat)
  iterators : List (String × Nat)
  slots : Array FreeSlot
  writers : List (String × SlotRef)
  readers : List (String × SlotRef)
  directs : Array Direct
  builders : List (String × Builder)
  families : Array Family
  transports : List (String × Nat)
  handles : List (String × Nat × Nat)
  /-- Events that settled since the last report. -/
  events : List (String × Attempt Value)
  trace : List String
  records : List Record
  /-- The events of `idle` calls, by reactor and call. -/
  idle : List (Nat × Nat × String)
  /-- Values posted on the ports of lines, in order. -/
  outbox : List (Nat × Value)
  /-- The lines that have closed their port. -/
  closedPorts : List Nat
  /-- Scripts that wait for a message. -/
  listeners : List Job
  /-- The codes of exits to come. -/
  exits : List Int
  /-- The broadcasts to come. -/
  rings : List String
  /-- The code of the exit when nothing is left to do. -/
  exitCode : Int
  /-- The loggers that throw on warnings and errors. -/
  broken : List String
  /-- Whether rejections that nobody handles are put up with. -/
  forgiving : Bool
  ended : Option End
  deriving Inhabited

/-- What a step does to the world. -/
abbrev Play := StateM World

/-- A logger that throws on warnings and errors. -/
def brokenLog : Log.Reaction := fun _ entry =>
  match entry.level with
  | .warn | .error => some (Value.plainError "no log")
  | _ => none

namespace ClientState

def new (reference : Option Reference) (script : Script) : ClientState :=
  ⟨reference, script, 0, 0, 0, 0, #[]⟩

/-- What the factory comes to, given what it made. -/
def accept (c : ClientState) (made : Attempt Value) : Attempt Value :=
  match c.reference with
  | none => (Client.Strategy.function ()).accept made
  | some r => r.accept made

end ClientState

/-- The memory that there is for a body. -/
def memory : Memory := ⟨Nat.pow 2 36, by decide⟩

/-- A number that no object of a world has. -/
def nowhere : Nat := 1000000000

namespace World

def empty (worker : Bool) : World :=
  { (default : World) with worker := worker }

/-- Jobs are taken in the order in which they became ready. A job with hops steps back behind the
others that often before it runs. -/
def push (job : Job) (hops : Nat) : Play Unit :=
  modify fun w => { w with later := (hops, job) :: w.later }

/-- A job waits until no other is ready. -/
def defer (job : Job) : Play Unit :=
  modify fun w => { w with deferred := w.deferred ++ [job] }

def pop? : Play (Option (Nat × Job)) := do
  let w ← get
  match w.ready with
  | job :: rest =>
    set { w with ready := rest }
    return some job
  | [] =>
    match w.later.reverse with
    | job :: rest =>
      set { w with ready := rest, later := [] }
      return some job
    | [] =>
      match w.deferred with
      | job :: rest =>
        set { w with deferred := rest }
        return some (0, job)
      | [] => return none

def find? {α : Type} (table : List (String × α)) (name : String) : Option α :=
  (table.find? (·.1 = name)).map (·.2)

/-- Adds a name, in place of an older one. -/
def put {α : Type} (table : List (String × α)) (name : String) (a : α) : List (String × α) :=
  if table.any (·.1 = name) then table.map fun e => if e.1 = name then (name, a) else e
  else table ++ [(name, a)]

/-- An event settles. -/
def settle (event : String) (result : Attempt Value) : Play Unit :=
  modify fun w => { w with events := w.events ++ [(event, result)] }

/-- An entry reaches a logger. -/
def record (sink : Sink) (entry : Log.Entry) : Play Unit :=
  match sink with
  | .silent => pure ()
  | .recorded name levels => do
    let lost := (← get).broken.contains name && (brokenLog 0 entry).isSome
    if levels.contains entry.level && !lost then
      modify fun w => { w with
        records := w.records ++ [⟨name, entry.level.name, some entry.message, entry.args⟩] }
  | .console config =>
    match config.write "TS" entry with
    | .ok (some line) =>
      modify fun w => { w with
        records := w.records ++ [⟨"console", line.stream.name, none, line.args⟩] }
    | _ => pure ()

/-- The signals that have fired, by number. -/
def fired (w : World) : List (Nat × Value) :=
  w.signals.toList.zipIdx.filterMap fun (reason, n) => reason.map (n, ·)

def signal? (w : World) (name : Option String) : Option Nat := do
  find? w.signalNames (← name)

/-! Gates -/

/-- A job waits until a gate is open; behind an open one it only steps back. -/
def waitAt (gate : String) (job : Job) : Play Unit := do
  match (← get).gates.find? (·.name = gate) with
  | some g =>
    if g.opened then push job 0
    else
      modify fun w => { w with gates := w.gates.map fun g =>
        if g.name = gate then { g with waiting := g.waiting ++ [job] } else g }
  | none => modify fun w => { w with gates := w.gates ++ [⟨gate, false, [job]⟩] }

/-- Opens a gate for good; the jobs that wait there become ready in order. -/
def openGate (gate : String) : Play Unit := do
  match (← get).gates.find? (·.name = gate) with
  | some g =>
    modify fun w => { w with gates := w.gates.map fun g =>
      if g.name = gate then { g with opened := true, waiting := [] } else g }
    for job in g.waiting do
      push job 0
  | none => modify fun w => { w with gates := w.gates ++ [⟨gate, true, []⟩] }

end World

/-! Lines -/

namespace Body

/-- The callers' side. -/
def intake {α : Type} (b : Body) (f : {P : Type} → Intake P → α) : α :=
  match b with
  | .plain intake => f intake
  | .loop d => f d.intake
  | .pipeline p => f p.dispatch.intake
  | .bridge b => f b.intake
  | .worker w => f w.pipeline.dispatch.intake

/-- A change of the callers' side. -/
def mapIntake {α : Type} (b : Body) (f : {P : Type} → Intake P → Intake P × α) : Body × α :=
  match b with
  | .plain intake => let (i, a) := f intake; (.plain i, a)
  | .loop d => let (i, a) := f d.intake; (.loop { d with intake := i }, a)
  | .pipeline p =>
    let (i, a) := f p.dispatch.intake
    (.pipeline { p with dispatch.intake := i }, a)
  | .bridge b => let (i, a) := f b.intake; (.bridge { b with intake := i }, a)
  | .worker w =>
    let (i, a) := f w.pipeline.dispatch.intake
    (.worker { w with pipeline.dispatch.intake := i }, a)

def channel (b : Body) : Channel Nat := b.intake fun i => i.channel

def dispatch? : Body → Option Dispatch
  | .loop d => some d
  | .pipeline p => some p.dispatch
  | .worker w => some w.pipeline.dispatch
  | .plain _ | .bridge _ => none

/-- Whether the loop has come to the end of the channel. -/
def isDraining (b : Body) : Bool :=
  match b.dispatch? with
  | some ⟨_, .draining _, _⟩ => true
  | _ => false

def isClosed (b : Body) (sender : Nat) : Bool := b.channel.isClosed sender

/-- A change of the channel that serves nobody. -/
def mapChannel {α : Type} (b : Body) (f : Channel Nat → Channel Nat × α) : Body × α :=
  b.mapIntake fun i => let (c, a) := f i.channel; ({ i with channel := c }, a)

/-- The same line with a dispatch loop that takes its calls. -/
def dispatched : Body → Body
  | .plain intake => .loop { intake := intake, loop := .unstarted, said := 0 }
  | b => b

/-- What a call hands over. -/
def parcel (b : Body) (k : Nat) : Parcel :=
  b.intake fun i => (i.calls[k]?.map (·.parcel)).getD default

/-- The slot of a call. -/
def slot (b : Body) (k : Nat) : Slot Outcome :=
  b.intake fun i => (i.calls[k]?.map (·.slot)).getD Slot.new

end Body
end Courier.Scenario
