import Courier.Scenario.Run
import Courier.Text.Units

/-!
The steps of a scenario. A step acts on named objects and answers at once; what it starts is an
event that settles later.
-/

namespace Courier.Scenario

inductive Step where
  | openGate (gate : String)
  | signal (id : String)
  | abort (on : String) (reason : Option Value)
  | logger (id : String) (levels : List Log.Level)
  | channel (tx rx : String)
  | sendValue (on : String) (v : Value)
  | sendRange (on : String) (first : Value) (count : Nat)
  | cloneSender (on id : String)
  | closeSender (on : String)
  | isSenderClosed (on : String)
  | isReceiverClosed (on : String)
  | size (on : String)
  /-- Closes a receiver: without a callback, or with one that records the dropped values, throws
  when it has recorded `throwAt` of them, sends each again on a sender, and drops the slots of
  calls. It may tell only how many it has recorded. -/
  | closeReceiver (on : String) (plain : Bool) (throwAt : Option Nat) (resend : Option String)
      (counted : Bool)
  | iterate (on id : String)
  | next (on id : String)
  | take (on id : String) (count : Nat)
  | endIteration (on id : String)
  | collect (on id : String) (limit : Option Nat)
  | slot (writer reader : String)
  | sendOutcome (on : String) (outcome : Value)
  | dropWriter (on : String)
  | isWriterOpen (on : String)
  | receive (on id : String) (signal : Option String)
  | abandon (on : String)
  | reactor (id : String) (logger : Option String)
  | spawn (on : String) (task : List Action)
  | idle (on id : String)
  /-- A client strategy: a module reference, or a factory function if there is none. -/
  | client (id : String) (reference : Option Reference) (script : Script)
  | options (id : String) (logger : Option String)
  | resolve (on id : String)
  | exchange (on id : String) (request : Value)
  | deliver (on options : String) (outcome : Value)
  | loop (on id client options : String)
  | pipeline (on id client options tx done : String)
  | standalone (on id options tx exited : String) (level : Value)
  | submit (on id : String) (request : Value) (signal : Option String)
  | requests (client : String)
  | builder (id : String) (source client reactor logger : Option String) (debug : Option Bool)
  | build (on id transport : String)
  | handle (on id uri : String)
  | bareHandle (on id uri options : String)
  | clone (on id : String)
  | uri (on : String)
  | nextId (on : String) (count : Option Nat)
  | close (on : String)
  | isClosed (on : String)
  | stats (on : String)
  /-- Changes a copy of the counters. -/
  | editStats (on : String)
  | send (on id : String) (payload : Bytes) (signal : Option String)
  | exited (on id : String)
  /-- Waits until counters have certain values. -/
  | until (on : String) (counters : List (String × Value))
  | batch (steps : List Step)
  deriving Inhabited

/-- What a step answers: a value, what it threw, or the answers of a batch. -/
inductive Answer where
  | value (v : Value)
  /-- A value that reports show as it is, with its port if it has one. -/
  | exact (v : Value)
  | threw (v : Value)
  | many (answers : List Answer)
  deriving Inhabited

namespace World

/-- The answer of a step that says nothing. -/
def silence : Answer := .value .null

def sink? (w : World) (name : String) : Sink :=
  if name = "noop" then .silent else (find? w.sinks name).getD .silent

def reactor? (w : World) (name : String) : Option Nat := find? w.reactorNames name

def options? (w : World) (name : String) : Option Nat := find? w.optionNames name

/-! Channels -/

/-- Releases a sender of a line. -/
def releaseSender (i sender : Nat) : Play Unit := do
  match (← line i).body with
  | .plain intake =>
    let (channel, handoff) := intake.channel.release sender
    setBody i (.plain { intake with channel := channel })
    handOff i handoff
  | .bridge b =>
    let (b, effects) := b.release sender
    setBody i (.bridge b)
    performBridge i effects
  | _ => step i fun d => d.release sender

def cloneOf (i sender : Nat) : Play (Nat × Bool) := do
  let (body, copy) := (← line i).body.mapChannel fun c => c.clone sender
  setBody i body
  return (copy, body.isClosed copy)

/-- The sender of that name, on an open channel of its own if there is none. -/
def senderOf (name : String) : Play (Nat × Nat) := do
  return (find? (← get).senders name).getD (0, nowhere)

/-- Sends a parcel on a sender of a line; the new call has the next number. -/
def enter (i sender : Nat) (parcel : Parcel) : Play Bool := do
  match ← takeBody i with
  | .plain intake =>
    let (intake, accepted, handoff) := intake.offer sender parcel .waiting
    setBody i (.plain intake)
    handOff i handoff
    return accepted
  | .bridge b =>
    let (b, accepted, effects) := b.offer sender parcel
    setBody i (.bridge b)
    performBridge i effects
    return accepted
  | body =>
    let accepted := !body.isClosed sender
    setBody i body
    step i fun d =>
      let (d, _, effects) := d.offer sender parcel
      (d, effects)
    return accepted

/-- Sends consecutive numbers and counts the accepted ones. -/
def sendMany (i sender : Nat) (first : Binary64) (count : Nat) : Play Nat := do
  let accepted ← (List.range count).mapM fun n =>
    enter i sender (.foreign (.number (first.add (.ofNat n))))
  return accepted.count true

def callCount (i : Nat) : Play Nat := do
  return (← line i).body.intake fun intake => intake.calls.size

/-- Changes the slot of a call. -/
def setCallSlot (i k : Nat) (slot : Slot Outcome) : Play Unit := do
  let (body, settled) := (← line i).body.mapIntake fun intake => intake.withSlot k slot
  setBody i body
  for s in settled do
    settleCall i s

def freeSlot (n : Nat) : Play FreeSlot := do return (← get).slots[n]?.getD default

/-- Changes a slot by itself, and settles the event of its reader. -/
def setFreeSlot (n : Nat) (slot : Slot Outcome) : Play Unit := do
  let free ← freeSlot n
  modify fun w => { w with slots := w.slots.modify n fun f => { f with slot := slot } }
  match Slot.settledSince free.slot slot with
  | some reading => settleReceive free.event reading
  | none => pure ()

def slotOf (ref : SlotRef) : Play (Slot Outcome) := do
  match ref with
  | .free n => return (← freeSlot n).slot
  | .call i k => return (← line i).body.slot k

def setSlot (ref : SlotRef) (slot : Slot Outcome) : Play Unit :=
  match ref with
  | .free n => setFreeSlot n slot
  | .call i k => setCallSlot i k slot

/-- A writer or reader of that name. -/
def refOf (table : List (String × SlotRef)) (name : String) : SlotRef :=
  (find? table name).getD (.free nowhere)

/-- An outcome that a step names. -/
def outcomeOf (v : Value) : Outcome := .foreign v

/-- Sends a dropped call again, with its slot as it is. -/
def resendCall (i k : Nat) (parcel : Parcel) (name : String) : Play Unit := do
  let slot := (← line i).body.slot k
  let (j, sender) ← senderOf name
  let moved ← callCount j
  let _ ← enter j sender parcel
  setCallSlot j moved slot

/-- What happens to the calls that a closing receiver drops, given the number and the values of
those that it has recorded, the last one first. -/
def tellDropped (i : Nat) (throwAt : Option Nat) (resend : Option String) (count : Nat)
    (recorded : List Value) : List Nat → Play (List Value × Option Value)
  | [] => return (recorded, none)
  | k :: rest => do
    if throwAt = some count then
      return (recorded, some (Value.plainError "drop failed"))
    let parcel := (← line i).body.parcel k
    match parcel with
    | .request _ => setCallSlot i k ((← line i).body.slot k).drop
    | .foreign _ => pure ()
    match resend with
    | some name => resendCall i k parcel name
    | none => pure ()
    tellDropped i throwAt resend (count + 1) (parcel.toValue :: recorded) rest

/-- Closes the receiver of a channel. -/
def closeReceiver (i : Nat) (plain counted : Bool) (throwAt : Option Nat)
    (resend : Option String) : Play Answer := do
  let (dropped, effects, handoff) ← closeChannel i
  let (recorded, threw) ←
    if plain then pure ([], none) else tellDropped i throwAt resend 0 [] dropped
  handOff i handoff
  performAll i (effects.map .inner)
  if plain then
    return silence
  let told := if counted then Value.nat recorded.length else listing recorded.reverse
  return .value (.record ([("dropped", told)] ++ threw.toList.map fun v => ("threw", v)))

/-! Signals -/

/-- A signal fires, once. -/
def abortSignal (name : String) (reason : Value) : Play Unit := do
  match (← get).signal? (some name) with
  | none => pure ()
  | some n =>
    if ((← get).signals[n]?.join).isSome then
      return
    modify fun w => { w with signals := w.signals.setIfInBounds n (some reason) }
    for i in List.range (← get).lines.size do
      let (body, settled) := (← line i).body.mapIntake fun intake => intake.abort n reason
      setBody i body
      for s in settled do
        settleCall i s
    for f in List.range (← get).slots.size do
      let free ← freeSlot f
      if free.signal = some n then
        setFreeSlot f (free.slot.abort reason)

/-! Calls -/

/-- Remembers what waits for the end of a receive, or tells it at once. -/
def expect (i k : Nat) (goal : Goal) (reading : Option (Slot.Reading Outcome)) : Play Unit :=
  match reading with
  | some reading => read goal reading
  | none => modifyLine i fun l => { l with goals := l.goals ++ [(k, goal)] }

/-- Starts to receive the outcome of a call. -/
def receive (i k : Nat) (signal : Option Nat) (goal : Goal) : Play Unit := do
  let (body, reading) := (← line i).body.mapIntake fun intake => intake.receive k signal
  setBody i body
  expect i k goal reading

/-- Offers a request on a sender and starts to receive its outcome. -/
def submit (i sender : Nat) (id : String) (request : Value) (signal : Option Nat) :
    Play Bool := do
  let k ← callCount i
  let accepted ← enter i sender (.request request)
  modify fun w => { w with
    writers := put w.writers (id ++ ".w") (.call i k)
    readers := put w.readers (id ++ ".r") (.call i k) }
  receive i k signal (.submit id)
  return accepted

def modifyOptions (o : Nat) (f : Stats → Stats) : Play Unit :=
  modify fun w => { w with options := w.options.modify o fun opts =>
    { opts with stats := f opts.stats } }

/-- A call of `send` of a handle that counts for options. -/
def sendCounted (i sender o : Nat) (uri event : String) (payload : Bytes) (signal : Option Nat)
    (sink : Sink) : Play Unit := do
  let k ← callCount i
  if ← enter i sender (.request (Request.post uri payload).toValue) then
    modifyOptions o fun s => { s with submitted := s.submitted + 1 }
    receive i k signal (.send event uri sink)
  else
    settle event (.error Fault.notListening.toValue)

/-- A call of `send` of a handle of a transport. -/
def sendFrom (i sender : Nat) (uri event : String) (payload : Bytes) (signal : Option Nat)
    (sink : Sink) : Play Unit := do
  let k ← callCount i
  let request := Request.post uri payload
  let goal := Goal.send event uri sink
  let sent ← match (← line i).body with
    | .bridge b =>
      let (b, accepted, reading, effects) := b.send sender request signal
      setBody i (.bridge b)
      performBridge i effects
      pure (accepted, reading)
    | .pipeline p =>
      let (d, accepted, reading, effects) := p.dispatch.send sender request signal
      setBody i (.pipeline { p with dispatch := d })
      performAll i (effects.map .inner)
      pure (accepted, reading)
    | _ => pure (false, none)
  match sent with
  | (true, reading) => expect i k goal reading
  | (false, _) => settle event (.error Fault.notListening.toValue)

/-! Transports and handles -/

def familyOf (f : Nat) : Play Family := do return (← get).families[f]?.getD default

def setTransport (f : Nat) (t : Transport) : Play Unit :=
  modify fun w => { w with families := w.families.modify f fun m => { m with transport := t } }

/-- The family and place of a handle. -/
def handleOf? (name : String) : Play (Option (Family × Nat × Nat × Handle)) := do
  match find? (← get).handles name with
  | none => return none
  | some (f, place) =>
    let family ← familyOf f
    return (family.transport.handles.members[place]?).map fun h => (family, f, place, h)

def transportOf? (name : String) : Play (Option (Family × Nat)) := do
  match find? (← get).transports name with
  | none => return none
  | some f => return some (← familyOf f, f)

/-- A handle of a transport. -/
def newHandle (f : Nat) (id uri : String) : Play Answer := do
  let family ← familyOf f
  let body := (← line family.line).body
  let made : Except Fault (Body × Transport × Nat) :=
    let (body, made) := body.mapChannel fun c =>
      match family.transport.handle c uri with
      | .ok (t, c, place) => (c, Except.ok (t, place))
      | .error fault => (c, .error fault)
    made.map fun (t, place) => (body, t, place)
  match made with
  | .error fault => return .threw fault.toValue
  | .ok (body, t, place) =>
    setBody family.line body
    setTransport f t
    modify fun w => { w with handles := put w.handles id (f, place) }
    return .exact ((t.handles.members[place]?).elim .null (.string ·.uri))

def cloneHandle (name id : String) : Play Answer := do
  match ← handleOf? name with
  | none => return silence
  | some (family, f, _, h) =>
    let body := (← line family.line).body
    let (body, handles, place) := body.mapChannel fun c =>
      let (handles, c, place) := family.transport.handles.clone c h
      (c, handles, place)
    setBody family.line body
    setTransport f { family.transport with handles := handles }
    modify fun w => { w with handles := put w.handles id (f, place) }
    let sender := ((handles.members[place]?).map (·.sender)).getD 0
    return .exact (.record [("uri", .string h.uri), ("closed", .bool (body.isClosed sender))])

def drawIds (f : Nat) : Nat → Play (List Value)
  | 0 => return []
  | count + 1 => do
    let family ← familyOf f
    let (handles, id) := family.transport.handles.nextId
    setTransport f { family.transport with handles := handles }
    return id :: (← drawIds f count)

/-! Counters -/

def statsValue (s : Stats) : Value :=
  .record [("submitted", Value.nat s.submitted), ("delivered", Value.nat s.delivered),
    ("undelivered", Value.nat s.undelivered)]

def lineStats (l : Line) : Stats := l.body.intake fun intake => intake.stats

/-- The counters of options: their own and those of the lines that count for them. -/
def optionStats (w : World) (o : Nat) : Stats :=
  w.lines.foldl (fun s l => if l.options = some o then s.add (lineStats l) else s)
    ((w.options[o]?.map (·.stats)).getD Stats.zero)

def transportStats (family : Family) : Play Stats := do return lineStats (← line family.line)

/-! Steps -/

/-- A new client, under a name if it has one. -/
def addClient (name : Option String) (reference : Option Reference) (script : Script) :
    Play Nat := do
  let c := (← get).clients.size
  modify fun w => { w with
    clientNames := name.elim w.clientNames fun name => put w.clientNames name c
    clients := w.clients.push (ClientState.new reference script) }
  return c

def clientOf (name : String) : Play Nat := do
  return (find? (← get).clientNames name).getD nowhere

def noFactoryFunction : Value :=
  Client.buildFault (Value.plainError
    ("A client factory function cannot run on the standalone worker; "
      ++ "pass a ClientModule or supply a reactor"))

/-- The fields of a request that a client has seen. -/
def requestFields (request : Value) : Attempt Value := do
  return .record [("method", ← request.read "method"), ("url", request.field "url"),
    ("headers", request.field "headers"), ("body", request.field "body")]

/-- Where the entries of a built transport go. -/
def builderSink (b : Builder) : Sink :=
  b.sink.getD
    (.console (if b.debug then Log.Config.pretty .debug "[HTTP-TRANSPORT]" else .standard))

/-- The client of a builder, the default one if none was set. -/
def builderClient (b : Builder) : Play Nat :=
  match b.client with
  | some c => pure c
  | none =>
    addClient none (some ⟨libraryModule, "createDefaultClient", .undefined⟩) default

def buildEmbedded (b : Builder) (reactor : Nat) (id name : String) : Play Unit := do
  let c ← builderClient b
  let reactorName := ((← get).reactorNames.find? (·.2 = reactor)).elim "" (·.1)
  push (.make c (.transport id name reactor reactorName (builderSink b))) 0

/-- Plays a step that needs no other thread. -/
def play : Step → Play Answer
  | .openGate gate => do
    openGate gate
    return silence
  | .signal id => do
    modify fun w => { w with
      signals := w.signals.push none
      signalNames := put w.signalNames id w.signals.size }
    return silence
  | .abort name reason => do
    abortSignal name (match reason with
      | none | some .undefined => Value.abortReason
      | some reason => reason)
    return silence
  | .logger id levels => do
    modify fun w => { w with sinks := put w.sinks id (.recorded id levels) }
    return silence
  | .channel tx rx => do
    let i ← addLine { (default : Line) with body := .plain (Intake.new (← get).fired) }
    modify fun w => { w with
      senders := put w.senders tx (i, 0)
      receivers := put w.receivers rx i }
    return silence
  | .sendValue name v => do
    let (i, sender) ← senderOf name
    return .value (.bool (← enter i sender (.foreign v)))
  | .sendRange name first count => do
    let (i, sender) ← senderOf name
    let start := match first with
      | .number x => x
      | _ => 0
    return .value (Value.nat (← sendMany i sender start count))
  | .cloneSender name id => do
    let (i, sender) ← senderOf name
    let (copy, closed) ← cloneOf i sender
    modify fun w => { w with senders := put w.senders id (i, copy) }
    return .value (.bool closed)
  | .closeSender name => do
    let (i, sender) ← senderOf name
    releaseSender i sender
    return silence
  | .isSenderClosed name => do
    let (i, sender) ← senderOf name
    return .value (.bool ((← line i).body.isClosed sender))
  | .isReceiverClosed name => do
    let i := (find? (← get).receivers name).getD 0
    return .value (.bool ((← line i).body.channel.closed))
  | .size name => do
    let i := (find? (← get).receivers name).getD 0
    return .value (Value.nat ((← line i).body.channel.size))
  | .closeReceiver name plain throwAt resend counted => do
    closeReceiver ((find? (← get).receivers name).getD 0) plain counted throwAt resend
  | .iterate name id => do
    let i := (find? (← get).receivers name).getD 0
    if ← iterate i then
      modify fun w => { w with iterators := put w.iterators id i }
      return silence
    else
      return .threw iteratedOnce
  | .next name id => do
    want ((find? (← get).iterators name).getD 0) (.next id)
    return silence
  | .take name id count => do
    let i := (find? (← get).iterators name).getD 0
    if count = 0 then
      settle id (.ok (.record [("values", .array []), ("done", .bool false)]))
    else
      want i (.take id count [])
    return silence
  | .endIteration name id => do
    let i := (find? (← get).iterators name).getD 0
    let (_, effects, handoff) ← closeChannel i
    handOff i handoff
    performAll i (effects.map .inner)
    settle id (.ok (nextValue none))
    return silence
  | .collect name id limit => do
    let i := (find? (← get).receivers name).getD 0
    if ← iterate i then
      want i (.collect id limit [])
    else
      settle id (.error iteratedOnce)
    return silence
  | .slot writer reader => do
    let n := (← get).slots.size
    modify fun w => { w with
      slots := w.slots.push ⟨Slot.new, "", none⟩
      writers := put w.writers writer (.free n)
      readers := put w.readers reader (.free n) }
    return silence
  | .sendOutcome name outcome => do
    let ref := refOf (← get).writers name
    let (slot, sent) := (← slotOf ref).send (outcomeOf outcome)
    setSlot ref slot
    return .value (.bool sent)
  | .dropWriter name => do
    let ref := refOf (← get).writers name
    setSlot ref (← slotOf ref).drop
    return silence
  | .isWriterOpen name => do
    return .value (.bool (← slotOf (refOf (← get).writers name)).isOpen)
  | .receive name id signal => do
    let ref := refOf (← get).readers name
    let w ← get
    let n := w.signal? signal
    let (slot, reading) := (← slotOf ref).receive (Signals.reason? w.fired n)
    match ref, reading with
    | _, some reading =>
      setSlot ref slot
      settleReceive id reading
    | .free f, none =>
      modify fun w => { w with slots := w.slots.setIfInBounds f ⟨slot, id, n⟩ }
    | .call i k, none =>
      setCallSlot i k slot
      modifyLine i fun l => { l with goals := l.goals ++ [(k, .submit id)] }
    return silence
  | .abandon name => do
    let ref := refOf (← get).readers name
    setSlot ref (← slotOf ref).abandon
    return silence
  | .reactor id logger => do
    let sink := (logger.map (← get).sink?).getD .silent
    modify fun w => { w with
      reactors := w.reactors.push Reactor.new
      reactorNames := put w.reactorNames id w.reactors.size
      reactorSinks := w.reactorSinks.push sink }
    return .value (Value.nat 0)
  | .spawn name task => do
    match (← get).reactor? name with
    | some r => spawnTask r task
    | none => pure ()
    return silence
  | .idle name id => do
    match (← get).reactor? name with
    | some r =>
      let (reactor, idler, ended) := ((← get).reactors[r]?.getD default).idle
      modify fun w => { w with
        reactors := w.reactors.setIfInBounds r reactor
        idle := w.idle ++ [(r, idler, id)] }
      if ended then
        settle id (.ok .undefined)
    | none => pure ()
    return silence
  | .client id reference script => do
    let _ ← addClient (some id) reference script
    return silence
  | .options id logger => do
    let sink := (logger.map (← get).sink?).getD .silent
    modify fun w => { w with
      options := w.options.push ⟨sink, Stats.zero⟩
      optionNames := put w.optionNames id w.options.size }
    return silence
  | .resolve name id => do
    push (.make (← clientOf name) (.resolve id)) 0
    return silence
  | .exchange name id request => do
    push (.make (← clientOf name) (.exchange id request)) 0
    return silence
  | .deliver name options outcome => do
    let ref := refOf (← get).writers name
    let (slot, received) := (← slotOf ref).send (outcomeOf outcome)
    setSlot ref slot
    match (← get).options? options with
    | some o =>
      modifyOptions o fun s => s.countDelivery received
      if !received then
        record (((← get).options[o]?.map (·.sink)).getD .silent)
          ⟨.warn, "Unable to send response back to caller", []⟩
    | none => pure ()
    return .value (.bool received)
  | .loop name id client options => do
    let i := (find? (← get).receivers name).getD 0
    let o := ((← get).options? options).getD 0
    push (.make (← clientOf client) (.loop id i o)) 0
    return silence
  | .pipeline name id client options tx done => do
    let r := ((← get).reactor? name).getD 0
    let o := ((← get).options? options).getD 0
    push (.make (← clientOf client) (.pipeline id r o tx done)) 0
    return silence
  | .submit name id request signal => do
    let (i, sender) ← senderOf name
    return .value (.bool (← submit i sender id request ((← get).signal? signal)))
  | .requests client => do
    let c ← clientOf client
    match (((← get).clients[c]?.map (·.seen)).getD #[]).toList.mapM requestFields with
    | .ok requests => return .value (.array requests)
    | .error v => return .threw v
  | .builder id source client reactor logger debug => do
    let w ← get
    let b : Builder := (source.bind fun name => find? w.builders name).getD default
    let client ← match client with
      | some c => do pure (some (← clientOf c))
      | none => pure none
    let changed := client.isSome || reactor.isSome || logger.isSome || debug.isSome
    let b : Builder :=
      { client := client.or b.client
        reactor := (reactor.bind w.reactor?).or b.reactor
        sink := (logger.map w.sink?).or b.sink
        debug := debug.getD b.debug }
    modify fun w => { w with builders := put w.builders id b }
    return .value (.bool changed)
  | .build name id transport => do
    let b := (find? (← get).builders name).getD default
    match b.reactor with
    | some r => buildEmbedded b r id transport
    | none => settle id (.error noFactoryFunction)
    return silence
  | .handle name id uri => do
    match ← transportOf? name with
    | some (_, f) => newHandle f id uri
    | none => return silence
  | .bareHandle name id uri options => do
    let (i, sender) ← senderOf name
    let o := ((← get).options? options).getD 0
    let sink := ((← get).options[o]?.map (·.sink)).getD .silent
    let f := (← get).families.size
    let handles : Handles := ⟨CallId.first, #[⟨sender, uri⟩]⟩
    modify fun w => { w with
      families := w.families.push ⟨i, ⟨sender, false, handles⟩, sink, some o⟩
      handles := put w.handles id (f, 0) }
    return .exact (.string uri)
  | .clone name id => cloneHandle name id
  | .uri name => do
    match ← handleOf? name with
    | some (_, _, _, h) => return .exact (.string h.uri)
    | none => return silence
  | .nextId name count => do
    match ← handleOf? name with
    | some (_, f, _, _) =>
      let ids ← drawIds f (count.getD 1)
      return .value (if count.isSome then .array ids else ids.head?.getD .undefined)
    | none => return silence
  | .close name => do
    match ← handleOf? name, ← transportOf? name with
    | some (family, _, _, h), _ => releaseSender family.line h.sender
    | none, some (family, f) =>
      let (t, sender) := family.transport.close
      setTransport f t
      match sender with
      | some s => releaseSender family.line s
      | none => pure ()
    | none, none => pure ()
    return silence
  | .isClosed name => do
    match ← handleOf? name, ← transportOf? name with
    | some (family, _, _, h), _ =>
      return .value (.bool ((← line family.line).body.isClosed h.sender))
    | none, some (family, _) =>
      return .value (.bool ((← line family.line).body.isClosed family.transport.sender))
    | none, none => return silence
  | .stats name => do
    match ← transportOf? name with
    | some (family, _) => return .value (statsValue (← transportStats family))
    | none => return silence
  | .editStats name => do
    match ← transportOf? name with
    | some (family, _) =>
      let now ← transportStats family
      let copy := { now with submitted := now.submitted + 100 }
      return .value (.record [("copy", statsValue copy), ("now", statsValue now)])
    | none => return silence
  | .send name id payload signal => do
    match ← handleOf? name with
    | some (family, _, _, h) =>
      let signal := (← get).signal? signal
      match family.options with
      | some o => sendCounted family.line h.sender o h.uri id payload signal family.sink
      | none => sendFrom family.line h.sender h.uri id payload signal family.sink
    | none => pure ()
    return silence
  | .standalone .. | .exited .. | .until .. => return silence
  | .batch steps => do return .many (← playAll steps)
where
  playAll : List Step → Play (List Answer)
    | [] => return []
    | s :: rest => do return (← play s) :: (← playAll rest)

/-! Reports -/

/-- The state of the named objects, in groups; empty groups are left out. -/
def snapshot (w : World) : Value :=
  let group (name : String) (members : List (String × Value)) : List (String × Value) :=
    if members.isEmpty then [] else [(name, .record members)]
  let lineOf (i : Nat) : Line := w.lines[i]?.getD default
  let body (i : Nat) : Body := (lineOf i).body
  let family (f : Nat) : Family := w.families[f]?.getD default
  let slot (ref : SlotRef) : Slot Outcome :=
    match ref with
    | .free n => (w.slots[n]?.map (·.slot)).getD Slot.new
    | .call i k => (body i).slot k
  let reactors := w.reactorNames.map fun (name, r) =>
    (name, Value.nat ((w.reactors[r]?.getD default).active.length))
  let transports := w.transports.map fun (name, f) =>
    let s := lineStats (lineOf (family f).line)
    (name, Value.record [("submitted", Value.nat s.submitted), ("delivered", Value.nat s.delivered),
      ("undelivered", Value.nat s.undelivered),
      ("closed", .bool ((body (family f).line).isClosed (family f).transport.sender))])
  let handles := w.handles.map fun (name, f, place) =>
    let sender := ((family f).transport.handles.members[place]?.map (·.sender)).getD 0
    (name, Value.bool ((body (family f).line).isClosed sender))
  let senders := w.senders.map fun (name, i, s) => (name, Value.bool ((body i).isClosed s))
  let receivers := w.receivers.map fun (name, i) =>
    (name, Value.record [("size", Value.nat (body i).channel.size),
      ("closed", .bool (body i).channel.closed)])
  let writers := w.writers.map fun (name, ref) => (name, Value.bool (slot ref).isOpen)
  let options := w.optionNames.map fun (name, o) => (name, statsValue (optionStats w o))
  let clients := w.clientNames.filterMap fun (name, n) =>
    let c := w.clients[n]?.getD default
    if c.built = 0 then none
    else some (name, Value.record [("built", Value.nat c.built), ("requests", Value.nat c.requests),
      ("discarded", Value.nat c.discarded), ("closed", Value.nat c.closed)])
  .record (group "reactors" reactors ++ group "transports" transports ++ group "handles" handles
    ++ group "senders" senders ++ group "receivers" receivers ++ group "writers" writers
    ++ group "options" options ++ group "clients" clients)

end World

/-- What there is to say after a step. -/
structure Report where
  answer : Answer
  events : List (String × Attempt Value)
  trace : List String
  records : List Record
  state : Value

namespace World

/-- Plays a step and lets everything run until nothing can move without a further step. -/
def advance (s : Step) : Play Report := do
  let answer ← play s
  quiesce
  let w ← get
  set { w with events := [], trace := [], records := [] }
  return ⟨answer, Text.sortBy (·.1) w.events, w.trace, w.records, w.snapshot⟩

/-- Plays the steps of a scenario on one thread. -/
def rehearse (steps : List Step) : List Report := (steps.mapM advance (World.empty false)).1

end World
end Courier.Scenario
