import Courier.Scenario.Module
import Courier.Scenario.World
import Courier.Value.Octets

/-!
Running the jobs of a thread: the library's machines take their steps, scripts act, and what one
of them causes becomes a job for the others. Jobs run in the order in which they became ready.
-/

namespace Courier.Scenario

namespace World

def line (i : Nat) : Play Line := do return (← get).lines[i]?.getD default

def setBody (i : Nat) (body : Body) : Play Unit :=
  modify fun w => { w with lines := w.lines.modify i fun l => { l with body := body } }

/-- Takes the body of a line out to put another in its place. -/
def takeBody (i : Nat) : Play Body :=
  modifyGet fun w =>
    let lines := w.lines
    let w := { w with lines := #[] }
    if h : i < lines.size then
      let (l, lines) := lines.swapAt i default h
      (l.body, { w with lines := lines.setIfInBounds i { l with body := default } })
    else (default, { w with lines := lines })

def modifyLine (i : Nat) (f : Line → Line) : Play Unit :=
  modify fun w => { w with lines := w.lines.modify i f }

def modifyClient (i : Nat) (f : ClientState → ClientState) : Play Unit :=
  modify fun w => { w with clients := w.clients.modify i f }

/-! Values of scripts -/

mutual
def holdsFault : Value → Bool
  | .fault .. => true
  | .array items => anyFault items
  | .record fields | .bare fields => fieldFault fields
  | .map entries => entryFault entries
  | .error _ _ cause => holdsFault cause
  | _ => false

def anyFault : List Value → Bool
  | [] => false
  | v :: rest => holdsFault v || anyFault rest

def fieldFault : List (String × Value) → Bool
  | [] => false
  | (_, v) :: rest => holdsFault v || fieldFault rest

def entryFault : List (Value × Value) → Bool
  | [] => false
  | (k, v) :: rest => holdsFault k || holdsFault v || entryFault rest
end

/-- A value that a script names. Scripts on worker threads cannot name transport failures. -/
def named (v : Value) : Play (Attempt Value) := do
  if (← get).worker && holdsFault v then return .error (Value.plainError "bad tag $hterror")
  return .ok v

/-- The value that a script throws. -/
def thrownBy (v : Value) : Play Value := do
  match ← named v with
  | .ok v => return v
  | .error v => return v

/-! Ends of receives -/

def outcomeValue : Slot.Reading Outcome → Attempt Value
  | .got (some outcome) => .ok outcome.toValue
  | .got none => .ok .undefined
  | .refused reason => .error reason

/-- The event of a receive settles. An outcome that is waited for itself never answers. -/
def settleReceive (event : String) (reading : Slot.Reading Outcome) : Play Unit := do
  match outcomeValue reading with
  | .ok v => if v.isPromise then pure () else settle event (.ok v)
  | .error v => settle event (.error v)

/-- The receive of a call has ended. -/
def read (goal : Goal) (reading : Slot.Reading Outcome) : Play Unit :=
  match goal with
  | .none => pure ()
  | .submit event => settleReceive event reading
  | .send event uri sink => do
    match Handle.remark uri reading with
    | some entry => record sink entry
    | none => pure ()
    settle event (Handle.result reading)

def settleCall (i : Nat) (s : Settled) : Play Unit := do
  let l ← line i
  match l.goals.find? (·.1 = s.call) with
  | some (_, goal) =>
    modifyLine i fun l => { l with goals := l.goals.filter (·.1 ≠ s.call) }
    read goal s.reading
  | none => pure ()

/-! Effects -/

/-- The end of a thread. -/
def endThread (e : End) : Play Unit :=
  modify fun w => if w.ended.isSome then w else { w with ended := some e }

/-- A value that nothing catches ends a worker thread; the main thread goes on. -/
def crash (v : Value) : Play Unit := do
  if (← get).worker then
    endThread (.crashed v)

/-- A rejection that nobody handles. -/
def reject (v : Value) : Play Unit := do
  if !(← get).forgiving then
    defer (.crash v)

/-- A new task of a reactor. -/
def spawnTask (reactor : Nat) (task : List Action) : Play Unit := do
  let (r, t) := ((← get).reactors[reactor]?.getD default).spawn
  modify fun w => { w with reactors := w.reactors.setIfInBounds reactor r }
  push (.act task (.task reactor t true)) 0

/-- Posts a value on the port of a line. -/
def post (i : Nat) (v : Value) : Play Unit :=
  modify fun w => { w with outbox := w.outbox ++ [(i, v)] }

/-- The end of a script. What asked for it hears of the end a hop later than of what is there at
once, and a reactor hears of the end of a fresh task yet a hop later. -/
def finish (after : After) (result : Attempt (Option Value)) : Play Unit := do
  match after with
  | .task reactor task fresh =>
    push (.taskSettled reactor task (result.map fun _ => ())) (if fresh then 2 else 1)
  | .built client purpose =>
    match result with
    | .error v => push (.made client purpose (.error v)) 1
    | .ok (some v) => if !v.isPromise then push (.made client purpose (.ok (v, .other v))) 1
    | .ok none =>
      let script := ((← get).clients[client]?.getD default).script
      push (.made client purpose (.ok (script.toValue, .scripted client))) 1
  | .reply caller reply =>
    match result with
    | .error v => push (.answer caller (.error v)) 1
    | .ok _ => push (.respond caller reply) 1
  | .closed i => push (.clientClosed i (result.map fun _ => ())) 1

/-- What the end of a script leads to once it has had to wait. -/
def waited : After → After
  | .task reactor task _ => .task reactor task false
  | after => after

/-- A script runs until it ends or has to wait. -/
def act (after : After) : List Action → Play Unit
  | [] => finish after (.ok none)
  | a :: rest => do
    match a with
    | .wait gate => waitAt gate (.act rest (waited after))
    | .opens gate =>
      openGate gate
      act after rest
    | .throws v => finish after (.error (← thrownBy v))
    | .returns v =>
      match ← named v with
      | .ok v => finish after (.ok (some v))
      | .error v => finish after (.error v)
    | .hang => pure ()
    | .log text =>
      modify fun w => { w with trace := w.trace ++ [text] }
      act after rest
    | .spawn task reactor =>
      match find? (← get).reactorNames reactor with
      | some r => spawnTask r task
      | none => pure ()
      act after rest
    | .post v =>
      match (← named v).bind Value.clone with
      | .ok copy =>
        post 0 copy
        act after rest
      | .error v => finish after (.error v)
    | .hearMessage =>
      modify fun w => { w with listeners := w.listeners ++ [.act rest (waited after)] }
    | .exit code => endThread (.exited code)
    | .exitLater code =>
      modify fun w => { w with exits := w.exits ++ [code] }
      act after rest
    | .uncaught v =>
      defer (.crash (← thrownBy v))
      act after rest
    | .ringLater channel =>
      modify fun w => { w with rings := w.rings ++ [channel] }
      act after rest

/-- The name that a reply is chosen by: the path of an address, else the text of whatever stands in
its place. A symbol names none. -/
def replyName (address : Value) : Attempt (Option String) := do
  match address with
  | .symbol _ => return none
  | v =>
    let text ← v.innerText
    return some ((Url.parse? text).elim text (·.path.text))

/-- The reply to a request. -/
def replyTo (script : Script) (request : Value) : Attempt Reply := do
  let address ← request.read "url"
  match script.paths with
  | none => return script.reply
  | some paths => return ((← replyName address).bind (find? paths)).getD script.reply

/-- A client gets a request. The result is an answer that comes at once, which may be no response
at all. -/
def ask (client : Instance) (caller : Caller) (request : Value) :
    Play (Option (Attempt (Option Response))) := do
  match client with
  | .scripted c =>
    modifyClient c fun s => { s with requests := s.requests + 1, seen := s.seen.push request }
    match replyTo ((← get).clients[c]?.getD default).script request with
    | .error v => return some (.error v)
    | .ok reply =>
      match reply.syncThrow with
      | some v => return some (.error (← thrownBy v))
      | none =>
        act (.reply caller reply) reply.before
        return none
  | .network n =>
    match n.place request with
    | .error v => push (.answer caller (.error v)) 0
    | .ok place => defer (.answer caller (.error (Client.Network.connect place)))
    return none
  | .other v => return some ((v.call "client" "request").map fun _ => none)

/-- A client is closed by the pipeline of a line. -/
def closeClient (i : Nat) (client : Instance) : Play Unit := do
  let closed (r : Attempt Unit) : Play Unit := push (.clientClosed i r) 0
  match client with
  | .scripted c =>
    match ((← get).clients[c]?.getD default).script.close with
    | none => closed (.ok ())
    | some actions =>
      modifyClient c fun s => { s with closed := s.closed + 1 }
      act (.closed i) actions
  | .network _ => closed (.ok ())
  | .other v =>
    if !v.isNothing && (v.field "close").isNothing then closed (.ok ())
    else closed (v.call "client" "close")

/-- Carries out an effect of a dispatch. Gives the calls whose client has answered at once. -/
def perform (i : Nat) (e : Effect) : Play (Option (Nat × Attempt (Option Response))) := do
  let l ← line i
  match e with
  | .settle s => settleCall i s
  | .log entry => record l.sink entry
  | .wake => push (.turn i) (if l.body.isDraining then 1 else 0)
  | .drained => push (.turn i) 4
  | .ask k request =>
    match ← ask l.client (.unit i k) request with
    | some r => return some (k, r)
    | none => pure ()
  | .pull _ => pure ()
  | .discard _ =>
    match l.client with
    | .scripted c => modifyClient c fun s => { s with discarded := s.discarded + 1 }
    | _ => pure ()
  | .conclude k => push (.conclude i k) 0
  | .retire k => push (.retire i k) 0
  | .loopEnded r =>
    match l.ended with
    | some event => settle event (r.map fun _ => .undefined)
    | none => pure ()
  | .unhandled v => reject v
  | .closeClient => closeClient i l.client
  | .finished r =>
    match l.done with
    | some event => settle event (.ok .undefined)
    | none => pure ()
    match l.task with
    | some (reactor, task) => push (.taskSettled reactor task r) 1
    | none => pure ()
  return none

/-- Carries out the effects of a bridge. -/
def performBridge (i : Nat) (effects : List Bridge.Effect) : Play Unit := do
  for e in effects do
    match e with
    | .settle s => settleCall i s
    | .log entry => record (← line i).sink entry
    | .wake => push (.turn i) 0
    | .post message => post i message
    | .unhandled v => reject v
    | .closePort => modify fun w => { w with closedPorts := w.closedPorts ++ [i] }

/-- Where a worker reports its own failures. -/
def workerSink : Sink := .console (Log.Config.pretty .error "[HTTP-TRANSPORT:worker]")

/-- Carries out an effect of a worker. -/
def performWorker (i : Nat) (e : Worker.Effect) :
    Play (Option (Nat × Attempt (Option Response))) := do
  match e with
  | .inner e => return (← perform i e)
  | .log entry => record (← line i).sink entry
  | .post v => post i v
  | .reply v => push (.post i v) 0
  | .crash v => reject v
  | .fail v =>
    record workerSink ⟨.error, "Standalone worker crashed:", [v]⟩
    modify fun w => { w with exitCode := 1 }
  | .closePort => modify fun w => { w with closedPorts := w.closedPorts ++ [i] }
  return none

/-- Carries out effects that ask no client. -/
def performAll (i : Nat) (effects : List Worker.Effect) : Play Unit := do
  for e in effects do
    let _ ← performWorker i e

/-- What the logger of a line does with its calls. -/
def reactionOf (l : Line) : Play Log.Reaction := do
  match l.sink with
  | .recorded name _ => return if (← get).broken.contains name then brokenLog else Log.calm
  | _ => return Log.calm

/-- One step of the dispatch of a line, and its effects. -/
def move (i : Nat) (f : Dispatch → Dispatch × List Effect) : Play (List Worker.Effect) := do
  let l ← line i
  let react ← reactionOf l
  match l.body with
  | .loop d =>
    let (d, effects) := f d
    setBody i (.loop d)
    return effects.map .inner
  | .pipeline p =>
    let (p, effects) := p.lift react (f p.dispatch)
    setBody i (.pipeline p)
    return effects.map .inner
  | .worker w =>
    let (w, effects) := w.liftDispatch (f w.pipeline.dispatch)
    setBody i (.worker w)
    return effects
  | .plain _ | .bridge _ => return []

/-- One step of the dispatch of a line. What its client answers at once is heard at once. -/
def step (i : Nat) (f : Dispatch → Dispatch × List Effect) : Play Unit := do
  for e in ← move i f do
    match ← performWorker i e with
    | some (k, r) => performAll i (← move i fun d => d.answered k r)
    | none => pure ()

/-! Exchanges -/

/-- What becomes of an exchange outside of a pipeline when it moved. -/
def moveDirect (n : Nat) (f : Exchange → Exchange) : Play Unit := do
  match (← get).directs[n]? with
  | none => pure ()
  | some d =>
    let e := f d.exchange
    modify fun w => { w with directs := w.directs.setIfInBounds n { d with exchange := e } }
    match e with
    | .over _ => push (.concludeDirect n) 0
    | _ => pure ()

def isAsking : Exchange → Bool
  | .asking => true
  | _ => false

/-- A client has answered; the result tells whether the body is read now. -/
def answered (caller : Caller) (r : Attempt (Option Response)) : Play Bool := do
  match caller with
  | .unit i k =>
    step i fun d => d.answered k r
    return (← line i).body.dispatch?.any (isReading · k)
  | .direct n =>
    match (← get).directs[n]? with
    | none => return false
    | some d =>
      if !isAsking d.exchange then
        return false
      let (e, discards) := Exchange.answered r
      if discards then
        match d.client with
        | .scripted c => modifyClient c fun s => { s with discarded := s.discarded + 1 }
        | _ => pure ()
      moveDirect n fun _ => e
      match e with
      | .reading _ => return true
      | _ => return false
where
  isReading (d : Dispatch) (k : Nat) : Bool :=
    match d.intake.progress? k with
    | some (.running (.reading _)) => true
    | _ => false

/-- The request that a caller has asked with. -/
def requestOf (caller : Caller) : Play Value := do
  match caller with
  | .unit i k => return (((← line i).body.parcel k).content.toOption).getD .undefined
  | .direct n => return ((← get).directs[n]?.map (·.request)).getD .undefined

def chunkOf (caller : Caller) (v : Value) : Play Unit :=
  match caller with
  | .unit i k => step i fun d => d.chunk k v
  | .direct n => moveDirect n fun e => e.chunk v

def bodyEnded (caller : Caller) (r : Attempt Memory) : Play Unit :=
  match caller with
  | .unit i k => step i fun d => d.bodyEnded k r
  | .direct n => moveDirect n fun e => e.bodyEnded r

/-- The text of the headers of a request, sorted by name. -/
def headerText (request : Value) : Attempt String := do
  let headers := request.field "headers"
  if headers.isNothing then
    throw (Value.typeError "Cannot convert undefined or null to object")
  let lines ← (Text.sortBy (·.1) headers.entries).mapM fun (name, v) => do
    return name ++ ": " ++ (← v.innerText) ++ "\n"
  return String.join lines

/-- What a chunk of a script yields for a request. -/
def yielded (c : Chunk) (request : Value) : Play (Attempt Value) := do
  match c with
  | .bytes content => return .ok (.buffer content)
  | .requestBody => return .ok (request.field "body")
  | .requestUrl => return ((request.field "url").octets memory).map .buffer
  | .requestHeaders => return (headerText request).map fun text => .buffer (Text.utf8 text)
  | .threadName =>
    return .ok (.buffer (Text.utf8 (if (← get).worker then "worker" else "main")))
  | .raw v => named v
  | .throws v => return .error (← thrownBy v)
  | .wait _ => return .ok .undefined

/-- The body of a response goes on to its next chunk. A chunk that is waited for never comes. -/
def bodyRuns (caller : Caller) : List Chunk → Play Unit
  | [] => push (.bodyEnded caller (.ok memory)) 0
  | .wait gate :: rest => waitAt gate (.body caller rest)
  | c :: rest => do
    match ← yielded c (← requestOf caller) with
    | .error v => push (.bodyEnded caller (.error v)) 0
    | .ok v => if !v.isPromise then push (.chunk caller v rest) 1

/-! Clients -/

/-- The logger of the reactor that a client is made for throws from now on. -/
def breakLogger (purpose : Purpose) : Play Unit := do
  let reactor? := match purpose with
    | .pipeline _ reactor _ _ _ | .transport _ _ reactor _ _ => some reactor
    | _ => none
  match (reactor?.bind ((← get).reactorSinks[·]?)) with
  | some (.recorded name _) => modify fun w => { w with broken := name :: w.broken }
  | _ => pure ()

/-- The factory of a client runs. -/
def make (client : Nat) (purpose : Purpose) : Play Unit := do
  let state := (← get).clients[client]?.getD default
  let fails (v : Value) : Play Unit := push (.made client purpose (.error v)) 0
  let runs (script : Script) : Play Unit := do
    match script.buildThrow, script.build with
    | some v, _ => fails (← thrownBy v)
    | none, some actions => act (.built client purpose) actions
    | none, none => push (.made client purpose (.ok (script.toValue, .scripted client))) 0
  let counted : Play Unit := do
    modifyClient client fun s => { s with built := s.built + 1 }
    runs state.script
  match state.reference with
  | none => counted
  | some r =>
    if r.module = libraryModule then
      match Client.Network.ofOptions r.options with
      | .ok n => push (.made client purpose (.ok (n.toValue, .network n))) 0
      | .error v => fails v
    else
      match Module.load r.module, r.strategy with
      | .error v, _ | .ok _, .error v => fails v
      | .ok _, .ok strategy =>
        match strategy.factory Module.load with
        | .error v => fails v
        | .ok .factory => counted
        | .ok (.scripted script) =>
          modifyClient client fun s => { s with script := script }
          if script.catchesRejections then
            modify fun w => { w with forgiving := true }
          if script.breaksLogger then
            breakLogger purpose
          runs script
        | .ok (.constant (.ok v)) => push (.made client purpose (.ok (v, default))) 0
        | .ok (.constant (.error v)) => fails v

/-- A new line with a name for its sender. -/
def addLine (l : Line) : Play Nat := do
  let i := (← get).lines.size
  modify fun w => { w with lines := w.lines.push l }
  return i

/-- Starts a pipeline on a reactor, or gives the failure of its client. -/
def startPipeline (made : Attempt Value) (client : Instance) (reactor : Nat) (sink : Sink)
    (options : Option Nat) (done : Option String) : Play (Attempt Nat) := do
  let w ← get
  match Pipeline.build (w.reactors[reactor]?.getD default) w.fired made with
  | (_, .error v) => return .error v
  | (r, .ok (task, pipeline)) =>
    modify fun w => { w with reactors := w.reactors.setIfInBounds reactor r }
    let i ← addLine
      { body := .pipeline pipeline
        client := client
        sink := sink
        options := options
        goals := []
        wanted := []
        ended := none
        done := done
        task := some (reactor, task) }
    push (.turn i) 0
    return .ok i

def iteratedOnce : Value := Value.plainError "Receiver can only be iterated once"

/-- Starts the one iteration of a line's receiver; false if it has been started before. -/
def iterate (i : Nat) : Play Bool := do
  let body := (← line i).body
  let (body, first) := body.mapChannel fun c =>
    match c.iterate? with
    | some c => (c, true)
    | none => (c, false)
  setBody i body
  return first

/-- A factory has come to its end. -/
def made (client : Nat) (purpose : Purpose) (result : Attempt (Value × Instance)) :
    Play Unit := do
  let state := (← get).clients[client]?.getD default
  let accepted := state.accept (result.map (·.1))
  let inst := match result with
    | .ok (_, inst) => inst
    | .error _ => default
  match purpose with
  | .resolve event =>
    settle event (accepted.map fun v =>
      .record [("same", .bool state.reference.isNone), ("isClient", .bool (Client.isClient v))])
  | .exchange event request =>
    match accepted with
    | .error v => settle event (.error v)
    | .ok _ =>
      let n := (← get).directs.size
      modify fun w => { w with directs := w.directs.push ⟨event, inst, request, .asking⟩ }
      match ← ask inst (.direct n) request with
      | some r => let _ ← answered (.direct n) r
      | none => pure ()
  | .loop event i options =>
    match accepted with
    | .error v => settle event (.error v)
    | .ok _ =>
      let opts := (← get).options[options]?.getD default
      match ← iterate i with
      | true =>
        modifyLine i fun l =>
          { l with
            body := l.body.dispatched
            client := inst
            sink := opts.sink
            options := some options
            ended := some event }
        let react ← reactionOf (← line i)
        step i fun d => d.turn react
      | false => settle event (.error iteratedOnce)
  | .pipeline event reactor options tx done =>
    let opts := (← get).options[options]?.getD default
    match ← startPipeline accepted inst reactor opts.sink (some options) (some done) with
    | .error v => settle event (.error v)
    | .ok i =>
      modify fun w => { w with senders := put w.senders tx (i, 0) }
      settle event (.ok (.bool true))
  | .transport event name reactor reactorName sink =>
    match ← startPipeline accepted inst reactor sink none none with
    | .error v => settle event (.error v)
    | .ok i =>
      modify fun w => { w with
        transports := put w.transports name w.families.size
        families := w.families.push ⟨i, Transport.new 0, sink, none⟩ }
      settle event (.ok (.record [("kind", "embedded"), ("reactor", .string reactorName)]))
  | .worker =>
    match (← line 0).body with
    | .worker w =>
      let (w, r, task, effects) := w.start ((← get).reactors[0]?.getD default) accepted
      setBody 0 (.worker w)
      modifyLine 0 fun l => { l with client := inst, task := task.map fun task => (0, task) }
      modify fun w => { w with reactors := w.reactors.setIfInBounds 0 r }
      if task.isSome then
        push (.turn 0) 0
      performAll 0 effects
    | _ => pure ()

/-! Iterations -/

/-- The value of an answer to a `next` call. -/
def nextValue (v : Option Value) : Value :=
  match v with
  | some v => .record [("done", .bool false), ("value", v)]
  | none => .record [("done", .bool true), ("value", .undefined)]

/-- The value of a call that an iteration has come to. -/
def valueOf (i : Nat) (call : Option Nat) : Play (Option Value) := do
  match call with
  | some k => return some ((← line i).body.parcel k).toValue
  | none => return none

/-- A `next` call of a plain channel. -/
def callNext (i : Nat) (wanted : Wanted) : Play (Option (Option Value)) := do
  match (← line i).body with
  | .plain intake =>
    let (channel, answer) := intake.channel.next
    setBody i (.plain { intake with channel := channel })
    match answer with
    | .value k => return some (← valueOf i (some k))
    | .done => return some none
    | .waits ticket =>
      modifyLine i fun l => { l with wanted := l.wanted ++ [(ticket, wanted)] }
      return none
  | _ => return some none

/-- Consecutive numbers. -/
def consecutive : List Value → Bool
  | .number x :: .number y :: rest => x.addOne.same y && consecutive (.number y :: rest)
  | [.number _] => true
  | _ => false

/-- A list of values, or what is left of a long one. -/
def listing (values : List Value) : Value :=
  if values.length ≤ 20 then .array values
  else
    .record [("count", Value.nat values.length), ("first", values.head?.getD .undefined),
      ("last", values.getLast?.getD .undefined), ("consecutive", .bool (consecutive values))]

/-- Closes a channel from the receiver's side. Gives the calls that it drops and what follows when
they have been told. -/
def closeChannel (i : Nat) : Play (List Nat × List Effect × Option (Channel.Handoff Nat)) := do
  match (← line i).body with
  | .plain intake =>
    let (channel, dropped, handoff) := intake.channel.close
    setBody i (.plain { intake with channel := channel })
    return (dropped, [], handoff)
  | .loop d =>
    let (d, dropped, effects) := d.closeChannel
    setBody i (.loop d)
    return (dropped, effects, none)
  | _ => return ([], [], none)

/-- What waits for a `next` call makes it. -/
def want (i : Nat) (wanted : Wanted) : Play Unit := do
  match ← callNext i wanted with
  | some v => push (.serve i wanted v) 0
  | none => pure ()

/-- An answer reaches what waits for a `next` call. -/
def serve (i : Nat) (wanted : Wanted) (v : Option Value) : Play Unit := do
  match wanted with
  | .next event => settle event (.ok (nextValue v))
  | .take event left values =>
    match v with
    | none =>
      settle event (.ok (.record [("values", listing values.reverse), ("done", .bool true)]))
    | some v =>
      let values := v :: values
      if left ≤ 1 then
        settle event (.ok (.record [("values", listing values.reverse), ("done", .bool false)]))
      else want i (.take event (left - 1) values)
  | .collect event limit values =>
    match v with
    | none => settle event (.ok (listing values.reverse))
    | some v =>
      let values := v :: values
      if limit.any fun limit => limit ≠ 0 && limit ≤ values.length then
        let _ ← closeChannel i
        settle event (.ok (listing values.reverse))
      else want i (.collect event limit values)

/-- A waiting `next` call of a plain channel is answered. -/
def handOff (i : Nat) (handoff : Option (Channel.Handoff Nat)) : Play Unit := do
  match handoff with
  | none => pure ()
  | some h =>
    match (← line i).wanted.find? (·.1 = h.ticket) with
    | some (_, wanted) =>
      modifyLine i fun l => { l with wanted := l.wanted.filter (·.1 ≠ h.ticket) }
      push (.serve i wanted (← valueOf i h.value)) 0
    | none => pure ()

/-! Jobs -/

def run (job : Job) : Play Unit := do
  match job with
  | .turn i =>
    match (← line i).body with
    | .bridge b =>
      let (b, effects) := b.turn
      setBody i (.bridge b)
      performBridge i effects
    | _ =>
      let react ← reactionOf (← line i)
      step i fun d => d.turn react
  | .conclude i k =>
    let react ← reactionOf (← line i)
    step i fun d => d.conclude react k
  | .retire i k => step i fun d => d.retire k
  | .concludeDirect n =>
    match (← get).directs[n]? with
    | some ⟨event, _, _, .over result⟩ => settle event (result.map (·.toValue))
    | _ => pure ()
  | .act actions after => act after actions
  | .respond caller reply =>
    match ← named reply.status with
    | .error v => let _ ← answered caller (.error v)
    | .ok status =>
      let discard ← match reply.discard with
        | .throws v => do pure (Discard.throws (← thrownBy v))
        | d => pure d
      let later := reply.later.getD status
      if ← answered caller (.ok (some ⟨status, discard, .ok later⟩)) then
        bodyRuns caller reply.chunks
  | .body caller chunks => bodyRuns caller chunks
  | .chunk caller v rest =>
    chunkOf caller v
    bodyRuns caller rest
  | .bodyEnded caller r => bodyEnded caller r
  | .answer caller r => let _ ← answered caller r
  | .make client purpose => make client purpose
  | .made client purpose result => made client purpose result
  | .clientClosed i r =>
    match (← line i).body with
    | .pipeline p =>
      let (p, effects) := p.clientClosed r
      setBody i (.pipeline p)
      performAll i (effects.map .inner)
    | .worker w =>
      let (w, effects) := w.lift (w.pipeline.clientClosed r)
      setBody i (.worker w)
      performAll i effects
    | _ => pure ()
  | .taskSettled reactor task r =>
    match Reactor.complaint r with
    | some entry => record ((← get).reactorSinks[reactor]?.getD .silent) entry
    | none => pure ()
    push (.taskRetired reactor task) 0
  | .taskRetired reactor task =>
    let (r, idlers) := ((← get).reactors[reactor]?.getD default).retire task
    modify fun w => { w with reactors := w.reactors.setIfInBounds reactor r }
    for idler in idlers do
      push (.look reactor idler) 3
  | .look reactor idler =>
    let (r, ended) := ((← get).reactors[reactor]?.getD default).look idler
    modify fun w => { w with reactors := w.reactors.setIfInBounds reactor r }
    if ended then
      match (← get).idle.find? fun e => e.1 = reactor ∧ e.2.1 = idler with
      | some (_, _, event) => settle event (.ok .undefined)
      | none => pure ()
  | .serve i wanted v => serve i wanted v
  | .post i v => post i v
  | .crash v => crash v

/-- Runs ready jobs until none is left or the thread has ended. -/
def runAll : Nat → Play Unit
  | 0 => pure ()
  | fuel + 1 => do
    if (← get).ended.isSome then
      return
    match ← pop? with
    | none => return
    | some (0, job) =>
      run job
      runAll fuel
    | some (hops + 1, job) =>
      push job hops
      runAll fuel

/-- More jobs than any scenario has. -/
def patience : Nat := 100000000

/-- Runs until nothing can move without a further step. -/
def quiesce : Play Unit := runAll patience

end World
end Courier.Scenario
