import Courier.Scenario.Step
import Courier.Startup
import Courier.Value.Uncaught

/-!
Scenarios with worker threads. Each thread has a world of its own; the threads hear of each other
by messages in order, and by the end of a thread. One thing happens at a time: a message or an end
is taken note of, and everything that it causes on that thread runs before the next one.
-/

namespace Courier.Scenario

/-- What a worker thread was started for. -/
inductive Errand where
  | transport (event name : String) (sink : Sink)
  | channel (event tx exited : String) (options : Nat)
  deriving Inhabited

structure Thread where
  world : World
  startup : Startup
  errand : Errand
  /-- The owner's line, once the worker is ready. -/
  line : Option Nat
  /-- Values on their way to the worker and to its owner. -/
  toWorker : List Value
  toOwner : List Value
  ownerClosed : Bool
  workerClosed : Bool
  /-- What the worker failed with and its exit code, not yet heard of by the owner. -/
  error : Option Value
  exit : Option Int
  /-- The exit code that the owner has heard of. -/
  gone : Option Int
  /-- The events that wait for the exit. -/
  watchers : List String

instance : Inhabited Thread :=
  ⟨⟨default, .listening, default, none, [], [], false, false, none, none, none, []⟩⟩

namespace Thread

/-- The value that a worker with no proper data fails with. -/
def invalidData : Value :=
  Value.plainError "Standalone worker started without valid worker data"

/-- The end of a worker thread. Nothing runs there any more. -/
def finish (t : Thread) (error : Option Value) (code : Int) : Thread :=
  { t with error := error, exit := some code, toWorker := [], workerClosed := true }

/-- Takes note of what the worker's world has done. -/
def collect (t : Thread) : Thread :=
  let w := t.world
  let t := { t with
    world := { w with outbox := [], closedPorts := [] }
    toOwner := if t.workerClosed then t.toOwner else t.toOwner ++ w.outbox.map (·.2)
    workerClosed := t.workerClosed || !w.closedPorts.isEmpty }
  match w.ended with
  | some (.exited code) => t.finish none code
  | some (.crashed v) => t.finish (some v.surfaced) 1
  | none => t

/-- Runs the worker's world. -/
def runs (t : Thread) (play : Play Unit) : Thread :=
  let (_, w) := (do play; World.quiesce : Play Unit) t.world
  collect { t with world := w }

/-- A worker that starts with its data. -/
def start (errand : Errand) (script : Script) (options : Value) (init : Option WorkerInit)
    (sink : Sink) : Thread :=
  let t : Thread := { (default : Thread) with errand := errand }
  match init with
  | none => t.finish (some invalidData.surfaced) 1
  | some init =>
    let exportName := init.client.exportName.elim .undefined Value.string
    let world := { World.empty true with
      reactors := #[Reactor.new]
      reactorSinks := #[sink]
      clients := #[ClientState.new (some ⟨init.client.module, exportName, options⟩) script]
      lines := #[{ (default : Line) with body := .worker Worker.new, sink := sink }] }
    { t with world := world }.runs (World.push (.make 0 .worker) 0)

def isRunning (t : Thread) : Bool := t.exit.isNone && t.gone.isNone

/-- A worker whose port is closed has nothing to stay for, unless it is about to exit anyway or has
a broadcast to send. -/
def mayLeave (t : Thread) : Bool :=
  t.isRunning && (t.workerClosed || t.ownerClosed) && t.world.exits.isEmpty
    && t.world.rings.isEmpty

/-- A message reaches the worker, which handles it before the scripts that wait for one. -/
def hear (t : Thread) (v : Value) : Thread :=
  t.runs do
    match (← World.line 0).body with
    | .worker w =>
      let (w, effects) := w.message v
      World.setBody 0 (.worker w)
      World.performAll 0 effects
    | _ => pure ()
    let listeners := (← get).listeners
    modify fun w => { w with listeners := [] }
    for job in listeners do
      World.push job 0

/-- The worker's next step, if it has one: to hear a message or to leave. -/
def move? (t : Thread) : Option Thread :=
  if !t.isRunning then none
  else
    match t.toWorker with
    | v :: rest =>
      if t.workerClosed then some { t with toWorker := [] }
      else some ({ t with toWorker := rest }.hear v)
    | [] => if t.mayLeave then some (t.finish none t.world.exitCode) else none

/-- The next broadcast that the worker has announced. -/
def ring? (t : Thread) : Option (String × Thread) :=
  if !t.isRunning then none
  else
    match t.world.rings with
    | channel :: rest => some (channel, { t with world := { t.world with rings := rest } })
    | [] => none

/-- The exit that the worker has announced comes about. -/
def exitNow? (t : Thread) : Option Thread :=
  if !t.isRunning then none
  else t.world.exits.head?.map fun code => t.finish none code

end Thread

/-- The main thread and the worker threads of a scenario. -/
structure Site where
  main : World
  threads : Array Thread
  deriving Inhabited

abbrev Stage := StateM Site

namespace Site

def onMain {α : Type} (play : Play α) : Stage α := do
  let s ← get
  let (a, main) := play s.main
  set { s with main := main }
  return a

/-- The logger of the owner of a worker. -/
def sinkOf (s : Site) : Errand → Sink
  | .transport _ _ sink => sink
  | .channel _ _ _ o => (s.main.options[o]?.map Options.sink).getD .silent

def thread (n : Nat) : Stage Thread := do return (← get).threads[n]?.getD default

def setThread (n : Nat) (t : Thread) : Stage Unit :=
  modify fun s => { s with threads := s.threads.setIfInBounds n t }

/-- Runs the main thread and sends off what it has posted. -/
def runMain : Stage Unit := do
  onMain World.quiesce
  let main := (← get).main
  onMain (modify fun w => { w with outbox := [], closedPorts := [] })
  modify fun s => { s with
    threads := s.threads.map fun t =>
      match t.line with
      | none => t
      | some i =>
        let posted := (main.outbox.filter (·.1 = i)).map (·.2)
        { t with
          toWorker := t.toWorker ++ if t.ownerClosed || !t.isRunning then [] else posted
          ownerClosed := t.ownerClosed || main.closedPorts.contains i } }

/-! What the owner does -/

/-- The worker is ready: a bridge to it is set up. -/
def connect (n : Nat) : Stage Unit := do
  let t ← thread n
  let s ← get
  let options := match t.errand with
    | .transport .. => none
    | .channel _ _ _ o => some o
  let i ← onMain (World.addLine { (default : Line) with
    body := .bridge (Bridge.start s.main.fired)
    sink := s.sinkOf t.errand
    options := options })
  setThread n { t with line := some i }
  match t.errand with
  | .transport event name sink =>
    onMain do
      modify fun w => { w with
        transports := World.put w.transports name w.families.size
        families := w.families.push ⟨i, Transport.new 0, sink, none⟩ }
      World.settle event
        (.ok (.record [("kind", "standalone"), ("ownThread", .bool true)]))
  | .channel event tx exited _ =>
    setThread n { t with line := some i, watchers := t.watchers ++ [exited] }
    onMain do
      modify fun w => { w with senders := World.put w.senders tx (i, 0) }
      World.settle event (.ok (.bool true))

def eventOf : Errand → String
  | .transport event _ _ | .channel event _ _ _ => event

/-- What the owner of a worker that starts does. -/
def startupDoes (n : Nat) (errand : Errand) (effects : List Startup.Effect) : Stage Unit := do
  for effect in effects do
    match effect with
    | .closePort => setThread n { ← thread n with ownerClosed := true }
    | .terminate =>
      let t ← thread n
      if t.isRunning then
        setThread n (t.finish none 1)
    | .resolve => connect n
    | .reject fault =>
      onMain (World.settle (eventOf errand) (.error (match fault with
        | .ok fault => fault.toValue
        | .error v => v)))
    | .log entry =>
      let sink := (← get).sinkOf errand
      onMain (World.record sink entry)
    | .uncaught _ => pure ()

def bridgeDoes (n : Nat) (f : Bridge → Bridge × List Bridge.Effect) : Stage Unit := do
  match (← thread n).line with
  | none => pure ()
  | some i =>
    onMain do
      match (← World.line i).body with
      | .bridge b =>
        let (b, effects) := f b
        World.setBody i (.bridge b)
        World.performBridge i effects
      | _ => pure ()

/-- The owner hears something of a worker. -/
def ownerHears (n : Nat) (e : Startup.Event) : Stage Unit := do
  let t ← thread n
  if t.line.isSome then
    bridgeDoes n fun b => b.hear e
  else
    let (startup, effects) := t.startup.step e
    setThread n { t with startup := startup }
    startupDoes n t.errand effects

/-- The worker has exited, which its owner hears after those who wait for it. -/
def ownerHearsExit (n : Nat) (code : Int) : Stage Unit := do
  let t ← thread n
  setThread n { t with gone := some code, exit := none, watchers := [] }
  for event in t.watchers do
    onMain (World.settle event (.ok (.number (.ofInt code))))
  ownerHears n (.exit code)

/-- What the owner hears next of a thread: messages first, then an error, then the exit. -/
def ownerMoves (n : Nat) : Stage Bool := do
  let t ← thread n
  match t.toOwner with
  | v :: rest =>
    setThread n { t with toOwner := rest }
    if !t.ownerClosed then
      ownerHears n (.message v)
    return true
  | [] =>
    match t.error, t.exit with
    | some v, _ =>
      setThread n { t with error := none }
      ownerHears n (.error v)
      return true
    | none, some code =>
      ownerHearsExit n code
      return true
    | none, none => return false

/-- One thing happens on some thread. -/
def anyMove : List Nat → Stage Bool
  | [] => return false
  | n :: rest => do
    let t ← thread n
    match t.move? with
    | some t =>
      setThread n t
      return true
    | none =>
      if ← ownerMoves n then
        return true
      anyMove rest

/-- Everything happens that can happen without waiting. -/
def quiesce : Nat → Stage Unit
  | 0 => pure ()
  | fuel + 1 => do
    runMain
    if ← anyMove (List.range (← get).threads.size) then
      quiesce fuel
    else
      pure ()

def settleAll : Stage Unit := quiesce World.patience

/-- A broadcast reaches every thread. -/
def broadcast (channel : String) : Stage Unit := do
  let opens := World.openGate (broadcastGate channel)
  onMain opens
  modify fun s => { s with threads := s.threads.map fun t => t.runs opens }

/-- An announced broadcast or exit comes about; false if there is none. -/
def timePasses : List Nat → Stage Bool
  | [] => return false
  | n :: rest => do
    let t ← thread n
    match t.ring?, t.exitNow? with
    | some (channel, t), _ =>
      setThread n t
      broadcast channel
      return true
    | none, some t =>
      setThread n t
      return true
    | none, none => timePasses rest

/-- Everything happens until a condition holds or nothing is left to wait for. -/
def waitFor (met : Site → Bool) : Nat → Stage Unit
  | 0 => pure ()
  | fuel + 1 => do
    settleAll
    if met (← get) then
      return
    if ← timePasses (List.range (← get).threads.size) then
      waitFor met fuel
    else
      pure ()

/-! Steps -/

/-- What a worker is started with, if that can be copied. -/
def initValue (c : ClientState) (level : Value) : Attempt (Option WorkerInit) := do
  let client ← (c.reference.elim Value.function Reference.toValue).clone
  let level ← level.clone
  return WorkerInit.ofValue? (.record [("port", .port), ("client", client), ("logLevel", level)])

/-- Starts a worker thread. -/
def startThread (errand : Errand) (c : ClientState) (level : Value) : Stage Unit := do
  let n := (← get).threads.size
  let init := initValue c level
  let (startup, effects) := Startup.start (init.map fun _ => "ID")
  match init with
  | .error _ => pure ()
  | .ok init =>
    let options := c.reference.elim Value.undefined (·.options)
    let t := { Thread.start errand c.script options init .silent with startup := startup }
    modify fun s => { s with threads := s.threads.push t }
  startupDoes n errand effects

/-- The level of a worker of a built transport. -/
def workerLevel (b : Builder) : Value :=
  match b.sink with
  | some .silent => .null
  | _ => if b.debug then "debug" else "warn"

/-- The thread that a transport runs on. -/
def threadOf? (s : Site) (name : String) : Option Nat := do
  let f ← World.find? s.main.transports name
  let family ← s.main.families[f]?
  (List.range s.threads.size).find? fun n =>
    ((s.threads[n]?).bind (·.line)) = some family.line

/-- The counters of a transport or of options. -/
def countersOf (s : Site) (name : String) : Stats :=
  match World.find? s.main.transports name, s.main.options? name with
  | some f, _ =>
    match s.main.families[f]? with
    | some family => World.lineStats ((s.main.lines[family.line]?).getD default)
    | none => Stats.zero
  | none, some o => World.optionStats s.main o
  | none, none => Stats.zero

def meets (counters : List (String × Value)) (s : Stats) : Bool :=
  counters.all fun (name, v) =>
    match (World.statsValue s).field name, v with
    | .number x, .number y => x.same y
    | _, _ => false

/-- Plays a step; nothing runs unless the step waits. -/
def play : Step → Stage Answer
  | .build name id transport => do
    let main := (← get).main
    let b := (World.find? main.builders name).getD default
    let c := (b.client.bind fun c => main.clients[c]?)
    match b.reactor, c with
    | none, some ⟨some reference, script, _, _, _, _, _⟩ =>
      let sink := World.builderSink b
      startThread (.transport id transport sink) (ClientState.new (some reference) script)
        (workerLevel b)
      return World.silence
    | none, none =>
      let n ← onMain (World.builderClient b)
      let sink := World.builderSink b
      startThread (.transport id transport sink) ((← get).main.clients[n]?.getD default)
        (workerLevel b)
      return World.silence
    | _, _ => onMain (World.play (.build name id transport))
  | .standalone name id options tx exited level => do
    let c ← onMain (World.clientOf name)
    let main := (← get).main
    let o := (main.options? options).getD 0
    startThread (.channel id tx exited o) (main.clients[c]?.getD default) (level.orElse .null)
    return World.silence
  | .exited name id => do
    match threadOf? (← get) name with
    | none => pure ()
    | some n =>
      let t ← thread n
      match t.gone with
      | some code => onMain (World.settle id (.ok (.number (.ofInt code))))
      | none => setThread n { t with watchers := t.watchers ++ [id] }
    return World.silence
  | .until name counters => do
    waitFor (fun s => meets counters (countersOf s name)) World.patience
    return .value (World.statsValue (countersOf (← get) name))
  | .batch steps => do return .many (← playAll steps)
  | s => onMain (World.play s)
where
  playAll : List Step → Stage (List Answer)
    | [] => return []
    | s :: rest => do return (← play s) :: (← playAll rest)

def hasSettled (ids : List String) (s : Site) : Bool :=
  ids.all fun id => s.main.events.any (·.1 = id)

/-- Plays a step and waits for the events that it names. -/
def advance (s : Step) (ids : List String) : Stage (Answer × List (String × Attempt Value)) := do
  let answer ← play s
  if ids.isEmpty then
    return (answer, [])
  waitFor (hasSettled ids) World.patience
  let events := (← get).main.events.filter fun e => ids.contains e.1
  return (answer, Text.sortBy (·.1) events)

/-- Plays the steps of a scenario with threads. After the last one only the main thread runs. -/
def rehearse (steps : List (Step × List String)) :
    List (Answer × List (String × Attempt Value)) × List Record :=
  let start : Site := ⟨World.empty false, #[]⟩
  let play : Stage (List (Answer × List (String × Attempt Value))) := do
    let answers ← steps.mapM fun (s, ids) => advance s ids
    runMain
    return answers
  let (answers, site) := play start
  (answers, site.main.records)

end Site
end Courier.Scenario
