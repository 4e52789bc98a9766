import Courier.Bridge
import Courier.Proofs.Correlation

/-!
The launch of a standalone transport. A worker is started, unless that throws, and its owner hears
messages, errors and its exit in any order. The first of them decides how the launch ends; a failure
is told when no worker is left and the owner's port is closed. From the first event until the exit
nobody listens for errors of a worker that was not ready.
-/

namespace Courier

namespace Startup

namespace Event

def isReady : Event → Bool
  | .message v =>
    match FromWorker.ofValue? v with
    | some .ready => true
    | _ => false
  | _ => false

def isExit : Event → Bool
  | .exit _ => true
  | _ => false

/-- The value that the worker has failed with. -/
def error? : Event → Option Value
  | .error v => some v
  | _ => none

/-- The failure that the first event of a launch stands for, if it is not that the worker is
ready. -/
def failure : Event → Attempt Fault
  | .message v =>
    match FromWorker.ofValue? v with
    | some (.buildError posted) => Fault.rebuild posted
    | _ => .ok unexpectedMessage
  | .error v => .ok (Fault.reactor "Worker failed during setup" v)
  | .exit code => .ok (exitedDuring code)

/-- The event is a well-formed report that the client could not be made. -/
def Reports (e : Event) (posted : Value) : Prop :=
  ∃ v, e = .message v ∧ FromWorker.ofValue? v = some (.buildError posted)

variable {e : Event} {posted : Value}

theorem isReady_eq_true : e.isReady = true ↔
    ∃ v, e = .message v ∧ FromWorker.ofValue? v = some .ready := by
  constructor
  · intro h
    cases e with
    | message v =>
      simp only [isReady] at h
      split at h
      · exact ⟨v, rfl, by assumption⟩
      · cases h
    | error | exit => cases h
  · rintro ⟨v, rfl, hv⟩
    simp [isReady, hv]

theorem Reports.failure (h : e.Reports posted) : e.failure = Fault.rebuild posted := by
  obtain ⟨v, rfl, hv⟩ := h
  simp [Event.failure, hv]

/-- What the guard has accepted can be decoded. -/
theorem Reports.rebuild (h : e.Reports posted) : ∃ (kind : FaultKind) (message : String),
    posted.field "kind" = .string kind.name ∧ posted.field "message" = .string message ∧
    Fault.rebuild posted =
      .ok ⟨.string kind.name, message, posted.field "status", posted.field "cause"⟩ := by
  obtain ⟨v, rfl, hv⟩ := h
  refine Fault.rebuild_of_isPosted ?_
  unfold FromWorker.ofValue? at hv
  split at hv <;> try cases hv
  · split at hv
    · cases hv
      assumption
    · cases hv
  · split at hv
    · split at hv <;> cases hv
    · cases hv

theorem failure_of_no_report (h : ∀ posted, ¬ e.Reports posted) :
    ∃ f, e.failure = .ok f ∧ f.kind = .string FaultKind.reactor.name := by
  cases e with
  | message v =>
    cases hv : FromWorker.ofValue? v with
    | none => exact ⟨unexpectedMessage, by simp only [failure, hv], rfl⟩
    | some m =>
      cases m with
      | buildError posted => exact absurd ⟨v, rfl, hv⟩ (h posted)
      | ready | response => exact ⟨unexpectedMessage, by simp only [failure, hv], rfl⟩
  | error v => exact ⟨_, rfl, rfl⟩
  | exit code => exact ⟨_, rfl, rfl⟩

end Event

/-- What the owner of a worker that starts can do when it first hears of it. -/
theorem listening_step (e : Event) :
    (e.isReady = true ∧ listening.step e = (.ready, [.resolve])) ∨
    e.isReady = false ∧
      ((e.isExit = true ∧
        listening.step e = (.failed e.failure, [.closePort, .reject e.failure])) ∨
      (e.isExit = false ∧ listening.step e = (.stopping e.failure, [.closePort, .terminate])) ∨
      (e.isExit = false ∧ listening.step e = (.stopping e.failure, [.closePort]) ∧
        ∃ posted, e.Reports posted)) := by
  cases e with
  | message v =>
    cases hv : FromWorker.ofValue? v with
    | none => simp [step, Event.isReady, Event.isExit, Event.failure, hv]
    | some m =>
      cases m with
      | ready => simp [step, Event.isReady, hv]
      | buildError posted =>
        refine Or.inr ⟨by simp [Event.isReady, hv], Or.inr (Or.inr ⟨rfl, ?_, posted, v, rfl, hv⟩)⟩
        simp [step, Event.failure, hv]
      | response => simp [step, Event.isReady, Event.isExit, Event.failure, hv]
  | error v => exact Or.inr ⟨rfl, Or.inr (Or.inl ⟨rfl, rfl⟩)⟩
  | exit code => exact Or.inr ⟨rfl, Or.inl ⟨rfl, rfl⟩⟩

end Startup

/-! How a launch is settled -/

/-- How the promise of a launch was settled, and what was left at that moment. -/
structure Settling where
  /-- Nothing if the transport is ready, or what the launch was rejected with. -/
  result : Except (Attempt Fault) Unit
  /-- A worker was created and has not exited. -/
  running : Bool
  portOpen : Bool

structure Launch where
  startup : Startup
  running : Bool
  /-- The worker was told to stop. -/
  terminated : Bool
  portOpen : Bool
  settled : List Settling
  /-- Errors of the worker that nobody listened for. -/
  uncaught : List Value

namespace Launch

def settle (l : Launch) (result : Except (Attempt Fault) Unit) : Launch :=
  { l with settled := l.settled ++ [⟨result, l.running, l.portOpen⟩] }

def absorb (l : Launch) : Startup.Effect → Launch
  | .closePort => { l with portOpen := false }
  | .terminate => { l with terminated := true }
  | .resolve => l.settle (.ok ())
  | .reject fault => l.settle (.error fault)
  | .uncaught v => { l with uncaught := l.uncaught ++ [v] }
  | .log _ => l

/-- The owner starts a worker, which is there unless that throws. -/
def start (spawned : Attempt Value) : Launch :=
  (Startup.start spawned).2.foldl absorb
    ⟨(Startup.start spawned).1, spawned.isOk, false, true, [], []⟩

/-- The owner hears something of the worker, which is gone once it has exited. -/
def step (l : Launch) (e : Startup.Event) : Launch :=
  (l.startup.step e).2.foldl absorb
    { l with startup := (l.startup.step e).1, running := l.running && !e.isExit }

def run (l : Launch) (events : List Startup.Event) : Launch := events.foldl step l

variable {l : Launch} {fault : Attempt Fault} {e : Startup.Event}

/-- The worker was ready. -/
structure Ready (l : Launch) : Prop where
  startup : l.startup = .ready
  settled : l.settled = [⟨.ok (), true, true⟩]

/-- The launch has failed, which is told once the worker has exited. -/
structure Failing (fault : Attempt Fault) (l : Launch) : Prop where
  port : l.portOpen = false
  startup : l.startup = if l.running then .stopping fault else .failed fault
  settled : l.settled = if l.running then [] else [⟨.error fault, false, false⟩]

theorem running_absorb (effects : List Startup.Effect) (l : Launch) :
    (effects.foldl absorb l).running = l.running := by
  induction effects generalizing l with
  | nil => rfl
  | cons effect effects ih =>
    rw [List.foldl_cons, ih]
    cases effect <;> rfl

theorem running_step : (l.step e).running = (l.running && !e.isExit) := running_absorb _ _

theorem running_run (events : List Startup.Event) :
    (l.run events).running = (l.running && !events.any Startup.Event.isExit) := by
  induction events generalizing l with
  | nil => simp [run]
  | cons e events ih =>
    rw [run, List.foldl_cons, ← run, ih, running_step, List.any_cons, Bool.not_or, Bool.and_assoc]

theorem start_ok (thread : Value) : start (.ok thread) = ⟨.listening, true, false, true, [], []⟩ :=
  rfl

theorem start_error (v : Value) : Failing (.ok (Startup.notStarted v)) (start (.error v)) :=
  ⟨rfl, rfl, rfl⟩

/-- The first event of a launch decides how it ends. A worker that is neither ready nor gone after
it is told to stop unless it has itself reported that it could not make its client. -/
theorem first_step (thread : Value) (e : Startup.Event) :
    let l := (start (.ok thread)).step e
    l.uncaught = [] ∧ ((e.isReady = true ∧ l.Ready) ∨ e.isReady = false ∧ l.Failing e.failure ∧
      (e.isExit = false → (l.terminated = true ↔ ∀ posted, ¬ e.Reports posted))) := by
  have hreports {posted : Value} (hp : e.Reports posted) :
      Startup.listening.step e = (.stopping e.failure, [.closePort]) := by
    obtain ⟨v, rfl, hv⟩ := hp
    simp [Startup.step, Startup.Event.failure, hv]
  simp only [start_ok, step]
  rcases Startup.listening_step e with ⟨hr, hs⟩ | ⟨hr, ⟨he, hs⟩ | ⟨he, hs⟩ | ⟨he, hs, posted, hp⟩⟩
  · obtain ⟨v, rfl, -⟩ := Startup.Event.isReady_eq_true.mp hr
    rw [hs]
    exact ⟨rfl, Or.inl ⟨hr, rfl, rfl⟩⟩
  · rw [hs, he]
    exact ⟨rfl, Or.inr ⟨hr, ⟨rfl, rfl, rfl⟩, fun h => (by cases h)⟩⟩
  · refine ⟨by rw [hs]; rfl, Or.inr ⟨hr, by rw [hs, he]; exact ⟨rfl, rfl, rfl⟩, fun _ => ?_⟩⟩
    rw [hs]
    refine iff_of_true rfl fun posted hp => ?_
    have h := hreports hp
    rw [hs] at h
    simp at h
  · refine ⟨by rw [hs]; rfl, Or.inr ⟨hr, by rw [hs, he]; exact ⟨rfl, rfl, rfl⟩, fun _ => ?_⟩⟩
    rw [hs]
    exact iff_of_false Bool.false_ne_true fun h => h posted hp

theorem Ready.step (h : l.Ready) (e : Startup.Event) :
    (l.step e).Ready ∧ (l.step e).uncaught = l.uncaught := by
  have hs : l.startup.step e = (.ready, []) := by
    rw [h.startup]
    cases e <;> rfl
  simp only [Launch.step, hs]
  exact ⟨⟨rfl, h.settled⟩, rfl⟩

/-- A launch that fails tells the worker nothing more, and hears no errors of it. -/
theorem Failing.step (h : l.Failing fault) (e : Startup.Event) :
    (l.step e).Failing fault ∧ (l.step e).terminated = l.terminated ∧
      (l.step e).uncaught = l.uncaught ++ e.error?.toList := by
  obtain ⟨startup, running, terminated, portOpen, settled, uncaught⟩ := l
  obtain ⟨hport, hstartup, hsettled⟩ := h
  have hnone : uncaught ++ (none : Option Value).toList = uncaught := List.append_nil uncaught
  cases running with
  | false =>
    obtain rfl : startup = .failed fault := hstartup
    cases e <;> exact ⟨⟨hport, rfl, hsettled⟩, rfl, by first | rfl | exact hnone.symm⟩
  | true =>
    obtain rfl : settled = [] := hsettled
    obtain rfl : startup = .stopping fault := hstartup
    obtain rfl : portOpen = false := hport
    cases e <;> exact ⟨⟨rfl, rfl, rfl⟩, rfl, by first | rfl | exact hnone.symm⟩

theorem Ready.run (h : l.Ready) (events : List Startup.Event) :
    (l.run events).Ready ∧ (l.run events).uncaught = l.uncaught := by
  induction events generalizing l with
  | nil => exact ⟨h, rfl⟩
  | cons e events ih =>
    obtain ⟨hready, hsame⟩ := h.step e
    exact ⟨(ih hready).1, (ih hready).2.trans hsame⟩

theorem Failing.run (h : l.Failing fault) (events : List Startup.Event) :
    (l.run events).Failing fault ∧ (l.run events).terminated = l.terminated ∧
      (l.run events).uncaught = l.uncaught ++ events.filterMap (·.error?) := by
  induction events generalizing l with
  | nil => exact ⟨h, rfl, (List.append_nil _).symm⟩
  | cons e events ih =>
    obtain ⟨hfailing, hsame, hmore⟩ := h.step e
    obtain ⟨hlater, hstill, herrors⟩ := ih hfailing
    refine ⟨hlater, hstill.trans hsame, herrors.trans ?_⟩
    rw [hmore, List.append_assoc]
    cases he : e.error? <;> simp [he]

/-- A launch whose worker was started is decided by the first event, whatever follows. -/
theorem run_cons (thread : Value) (first : Startup.Event) (rest : List Startup.Event) :
    let l := (start (.ok thread)).run (first :: rest)
    (first.isReady = true ∧ l.Ready) ∨ first.isReady = false ∧ l.Failing first.failure := by
  rcases first_step thread first with ⟨-, ⟨hr, h⟩ | ⟨hr, h, -⟩⟩
  · exact Or.inl ⟨hr, (h.run rest).1⟩
  · exact Or.inr ⟨hr, (h.run rest).1⟩

theorem settled_error (v : Value) (events : List Startup.Event) :
    ((start (.error v)).run events).settled =
      [⟨.error (.ok (Startup.notStarted v)), false, false⟩] := by
  have hrunning : ((start (.error v)).run events).running = false := by
    rw [running_run]
    rfl
  rw [((start_error v).run events).1.settled, hrunning]
  rfl

/-- Once a worker was started, the first event alone decides the result. -/
theorem settled_ok (thread : Value) (first : Startup.Event) (rest : List Startup.Event) :
    ((start (.ok thread)).run (first :: rest)).settled =
      if first.isReady then [⟨.ok (), true, true⟩]
      else if (first :: rest).any Startup.Event.isExit then [⟨.error first.failure, false, false⟩]
      else [] := by
  rcases run_cons thread first rest with ⟨hr, h⟩ | ⟨hr, h⟩
  · rw [h.settled, if_pos hr]
  · have hrunning : ((start (.ok thread)).run (first :: rest)).running =
        !(first :: rest).any Startup.Event.isExit := running_run _
    rw [h.settled, hrunning, hr]
    cases (first :: rest).any Startup.Event.isExit <;> rfl

/-- What a launch is rejected with. -/
def Tells (spawned : Attempt Value) (events : List Startup.Event) (fault : Attempt Fault) : Prop :=
  (∃ first ∈ events.head?, ∃ posted, spawned.isOk = true ∧ first.Reports posted ∧
    ∃ (kind : FaultKind) (message : String), posted.field "kind" = .string kind.name ∧
      posted.field "message" = .string message ∧
      fault = .ok ⟨.string kind.name, message, posted.field "status", posted.field "cause"⟩) ∨
  (spawned.isOk = true → ∀ first ∈ events.head?, ∀ posted, ¬ first.Reports posted) ∧
    ∃ f, fault = .ok f ∧ f.kind = .string FaultKind.reactor.name

theorem tells_failure (thread : Value) (first : Startup.Event) (rest : List Startup.Event) :
    Tells (.ok thread) (first :: rest) first.failure := by
  by_cases hr : ∃ posted, first.Reports posted
  · obtain ⟨posted, hr⟩ := hr
    obtain ⟨kind, message, hkind, hmessage, hrebuild⟩ := hr.rebuild
    exact Or.inl ⟨first, rfl, posted, rfl, hr, kind, message, hkind, hmessage,
      hr.failure.trans hrebuild⟩
  · have hr : ∀ posted, ¬ first.Reports posted := fun posted h => hr ⟨posted, h⟩
    refine Or.inr ⟨fun _ e he => ?_, Startup.Event.failure_of_no_report hr⟩
    obtain rfl : first = e := Option.some.inj he
    exact hr

variable {spawned : Attempt Value} {events others : List Startup.Event} {x y : Settling}

theorem settled_nil (thread : Value) : ((start (.ok thread)).run []).settled = [] := rfl

theorem settled_once (spawned : Attempt Value) (events : List Startup.Event) :
    ((start spawned).run events).settled.length ≤ 1 := by
  cases spawned with
  | error v => simp [settled_error]
  | ok thread =>
    cases events with
    | nil => simp [settled_nil]
    | cons first rest =>
      rw [settled_ok]
      split
      · simp
      · split <;> simp

theorem resolves_iff : (∃ x ∈ ((start spawned).run events).settled, x.result = .ok ()) ↔
    spawned.isOk = true ∧ ∃ first ∈ events.head?, first.isReady = true := by
  cases spawned with
  | error v => simp [settled_error, Except.isOk, Except.toBool]
  | ok thread =>
    cases events with
    | nil => simp [settled_nil]
    | cons first rest =>
      rw [settled_ok]
      cases hr : first.isReady with
      | true => simp [hr, Except.isOk, Except.toBool]
      | false => cases (first :: rest).any Startup.Event.isExit <;> simp [hr]

theorem exit_mem_iff : (∃ code, Startup.Event.exit code ∈ events) ↔
    events.any Startup.Event.isExit = true := by
  rw [List.any_eq_true]
  constructor
  · rintro ⟨code, he⟩
    exact ⟨_, he, rfl⟩
  · rintro ⟨e, he, h⟩
    cases e with
    | exit code => exact ⟨code, he⟩
    | message | error => cases h

theorem rejects_iff : (∃ x ∈ ((start spawned).run events).settled, ∃ f, x.result = .error f) ↔
    spawned.isOk = false ∨
      (∃ first ∈ events.head?, first.isReady = false) ∧ ∃ code, .exit code ∈ events := by
  rw [exit_mem_iff]
  cases spawned with
  | error v => simp [settled_error, Except.isOk, Except.toBool]
  | ok thread =>
    cases events with
    | nil => simp [settled_nil, Except.isOk, Except.toBool]
    | cons first rest =>
      rw [settled_ok]
      cases hr : first.isReady with
      | true => simp [hr, Except.isOk, Except.toBool]
      | false =>
        cases (first :: rest).any Startup.Event.isExit <;> simp [hr, Except.isOk, Except.toBool]

theorem rejected (hx : x ∈ ((start spawned).run events).settled) (hf : x.result = .error fault) :
    x.running = false ∧ x.portOpen = false ∧ Tells spawned events fault := by
  cases spawned with
  | error v =>
    rw [settled_error, List.mem_singleton] at hx
    subst hx
    cases hf
    exact ⟨rfl, rfl, Or.inr ⟨fun h => (by cases h), _, rfl, rfl⟩⟩
  | ok thread =>
    cases events with
    | nil => cases hx
    | cons first rest =>
      rw [settled_ok] at hx
      split at hx
      · rw [List.mem_singleton] at hx
        subst hx
        cases hf
      · split at hx
        · rw [List.mem_singleton] at hx
          subst hx
          cases hf
          exact ⟨rfl, rfl, tells_failure thread first rest⟩
        · cases hx

/-- What follows the first event does not change the result. -/
theorem result_congr (hx : x ∈ ((start spawned).run events).settled)
    (ho : others.head? = events.head?) (hy : y ∈ ((start spawned).run others).settled) :
    y.result = x.result := by
  have hresult {thread : Value} {first : Startup.Event} {rest : List Startup.Event}
      {z : Settling} (hz : z ∈ ((start (.ok thread)).run (first :: rest)).settled) :
      z.result = if first.isReady then .ok () else .error first.failure := by
    rw [settled_ok] at hz
    split at hz
    · next hr => rw [List.mem_singleton.mp hz, if_pos hr]
    · next hr =>
      split at hz
      · rw [List.mem_singleton.mp hz, if_neg hr]
      · cases hz
  cases spawned with
  | error v =>
    rw [settled_error, List.mem_singleton] at hx hy
    rw [hx, hy]
  | ok thread =>
    cases events with
    | nil => cases hx
    | cons first rest =>
      cases others with
      | nil => cases ho
      | cons other rest' =>
        obtain rfl : other = first := Option.some.inj ho
        rw [hresult hx, hresult hy]

/-- What is done about a worker that is not ready: the owner's port is closed, and the worker is
told to stop unless it has exited or has reported the failure. Its later errors go uncaught. -/
theorem failing_run (thread : Value) {first : Startup.Event} (hr : first.isReady = false)
    (rest : List Startup.Event) :
    let l := (start (.ok thread)).run (first :: rest)
    l.portOpen = false ∧
    (first.isExit = false → (l.terminated = true ↔ ∀ posted, ¬ first.Reports posted)) ∧
    l.uncaught = rest.filterMap (·.error?) := by
  obtain ⟨hnone, ⟨hready, -⟩ | ⟨-, hfailing, hstop⟩⟩ := first_step thread first
  · rw [hr] at hready
    cases hready
  · obtain ⟨hlater, hstill, herrors⟩ := hfailing.run rest
    refine ⟨hlater.port, fun he => ?_, ?_⟩
    · rw [← hstop he, ← hstill]
      rfl
    · rw [hnone, List.nil_append] at herrors
      exact herrors

/-- A launch is settled at most once, and as its first event says. It resolves if that is that the
worker is ready. If it is anything else the launch rejects as soon as the worker has exited, with
the owner's port closed; if no worker could be started, at once. It rejects with what the worker has
reported, if the first event is a well-formed report, and with a failure of the reactor otherwise.
A worker that fails before it exits is told to stop if and only if it has not reported the failure.
What it fails with after the first event goes uncaught; where the owner survives that, nothing else
changes. -/
theorem first_event_decides (spawned : Attempt Value) (events : List Startup.Event) :
    let l := (start spawned).run events
    l.settled.length ≤ 1 ∧
    ((∃ x ∈ l.settled, x.result = .ok ()) ↔
      spawned.isOk = true ∧ ∃ first ∈ events.head?, first.isReady = true) ∧
    ((∃ x ∈ l.settled, ∃ fault, x.result = .error fault) ↔
      spawned.isOk = false ∨
        (∃ first ∈ events.head?, first.isReady = false) ∧ ∃ code, .exit code ∈ events) ∧
    (∀ x ∈ l.settled,
      (∀ fault, x.result = .error fault →
        x.running = false ∧ x.portOpen = false ∧ Tells spawned events fault) ∧
      ∀ others, others.head? = events.head? →
        ∀ y ∈ ((start spawned).run others).settled, y.result = x.result) ∧
    (spawned.isOk = true → ∀ first ∈ events.head?, first.isReady = false →
      l.portOpen = false ∧
      (first.isExit = false → (l.terminated = true ↔ ∀ posted, ¬ first.Reports posted)) ∧
      l.uncaught = events.tail.filterMap (·.error?)) := by
  refine ⟨settled_once spawned events, resolves_iff, rejects_iff,
    fun _ hx => ⟨fun _ hf => rejected hx hf, fun _ ho _ hy => result_congr hx ho hy⟩,
    fun hs first he hr => ?_⟩
  cases spawned with
  | error v => cases hs
  | ok thread =>
    cases events with
    | nil => cases he
    | cons e rest =>
      obtain rfl : e = first := Option.some.inj he
      exact failing_run thread hr rest

/-- A worker reports that its client could not be made. -/
def report : Startup.Event :=
  .message (FromWorker.buildError (.record [("kind", "ClientBuilderError"),
    ("message", "no client")])).toValue

/-- As long as a worker that has reported a failure does not exit by itself, the launch stays
pending, the worker stays, and nobody tells it to stop; after a message that is no report at all the
worker is told to. -/
theorem reported_lingers :
    (∀ rest : List Startup.Event, rest.any Startup.Event.isExit = false →
      let l := (start (.ok "ID")).run (report :: rest)
      l.settled = [] ∧ l.running = true ∧ l.terminated = false) ∧
    ((start (.ok "ID")).run [.message .null]).terminated = true := by
  refine ⟨fun rest hrest => ?_, rfl⟩
  have hany : (report :: rest).any Startup.Event.isExit = false := hrest
  have hrunning : ((start (.ok "ID")).run (report :: rest)).running = true := by
    rw [running_run, hany]
    rfl
  have hsettled := settled_ok "ID" report rest
  rw [hany] at hsettled
  have hready : report.isReady = false := rfl
  obtain ⟨_, hstop, _⟩ := failing_run "ID" hready rest
  refine ⟨hsettled, hrunning, Bool.eq_false_iff.mpr fun h => ?_⟩
  exact (hstop rfl).mp h _ ⟨_, rfl, rfl⟩

end Launch

/-! Errors of the worker -/

/-- The owner of a worker that was started. -/
inductive Owner where
  | launching (s : Startup)
  | connected (b : Bridge)

namespace Owner

inductive Effect where
  | startup (effect : Startup.Effect)
  | bridge (effect : Bridge.Effect)

/-- A bridge takes over as soon as the worker is ready. -/
def ofStartup (fired : List (Nat × Value)) : Startup → Owner
  | .ready => .connected (Bridge.start fired)
  | s => .launching s

/-- The owner hears something of the worker, when the given signals have fired. -/
def hear (fired : List (Nat × Value)) (o : Owner) (e : Startup.Event) : Owner × List Effect :=
  match o with
  | .launching s => (ofStartup fired (s.step e).1, (s.step e).2.map .startup)
  | .connected b => (.connected (b.hear e).1, (b.hear e).2.map .bridge)

def run (fired : List (Nat × Value)) (o : Owner) (events : List Startup.Event) : Owner :=
  events.foldl (fun o e => (o.hear fired e).1) o

def listensForErrors : Owner → Bool
  | .launching s => s.listensForErrors
  | .connected _ => true

variable {fired : List (Nat × Value)} {o : Owner}

/-- The launch has failed, whether or not that has been told. -/
def Failing : Owner → Prop
  | .launching (.stopping _) | .launching (.failed _) => True
  | _ => False

theorem Failing.deaf (h : o.Failing) (fired : List (Nat × Value)) :
    o.listensForErrors = false ∧ ∀ v, (o.hear fired (.error v)).2 = [.startup (.uncaught v)] := by
  cases o with
  | connected b => exact h.elim
  | launching s =>
    cases s with
    | listening | ready => exact h.elim
    | stopping | failed => exact ⟨rfl, fun _ => rfl⟩

theorem Failing.hear (h : o.Failing) (e : Startup.Event) : (o.hear fired e).1.Failing := by
  cases o with
  | connected b => exact h.elim
  | launching s =>
    cases s with
    | listening | ready => exact h.elim
    | stopping | failed => cases e <;> exact trivial

theorem Failing.run (h : o.Failing) (events : List Startup.Event) : (o.run fired events).Failing := by
  induction events generalizing o with
  | nil => exact h
  | cons e events ih => exact ih (h.hear e)

theorem connected_run (fired : List (Nat × Value)) (b : Bridge) (events : List Startup.Event) :
    ∃ b', (connected b).run fired events = .connected b' := by
  induction events generalizing b with
  | nil => exact ⟨b, rfl⟩
  | cons e events ih => exact ih (b.hear e).1

/-- The first event either connects the owner or makes the launch fail. -/
theorem hear_first (fired : List (Nat × Value)) (e : Startup.Event) :
    let o := ((launching .listening).hear fired e).1
    (e.isReady = true ∧ o = .connected (Bridge.start fired)) ∨ e.isReady = false ∧ o.Failing := by
  simp only [hear]
  rcases Startup.listening_step e with ⟨hr, hs⟩ | ⟨hr, ⟨_, hs⟩ | ⟨_, hs⟩ | ⟨_, hs, _⟩⟩
  · rw [hs]
    exact Or.inl ⟨hr, rfl⟩
  all_goals
    rw [hs]
    exact Or.inr ⟨hr, trivial⟩

/-- The owner listens for errors of a worker until the first event, and after it only if that was
that the worker is ready. An error that is the first event makes the launch fail with it; one of a
worker that was ready is logged, if its message can be read; any other goes uncaught. -/
theorem errors_heard (fired : List (Nat × Value)) (events : List Startup.Event) :
    let o := (launching .listening).run fired events
    (o.listensForErrors = true ↔ ∀ first ∈ events.head?, first.isReady = true) ∧
    ∀ v, (events = [] → o.hear fired (.error v) =
        (.launching (.stopping (.ok (Fault.reactor "Worker failed during setup" v))),
          [.startup .closePort, .startup .terminate])) ∧
      ∀ first ∈ events.head?,
        (first.isReady = true → (o.hear fired (.error v)).2 = [.bridge (Bridge.complaint v)]) ∧
        (first.isReady = false → (o.hear fired (.error v)).2 = [.startup (.uncaught v)]) := by
  cases events with
  | nil => exact ⟨by simp [run, listensForErrors, Startup.listensForErrors], fun v =>
      ⟨fun _ => rfl, fun _ h => (by cases h)⟩⟩
  | cons first rest =>
    intro o
    rcases hear_first fired first with ⟨hr, h⟩ | ⟨hr, h⟩
    · obtain ⟨b, hb⟩ := connected_run fired (Bridge.start fired) rest
      have ho : o = .connected b := by
        rw [← h] at hb
        exact hb
      simp [ho, hr, listensForErrors, hear, Bridge.hear]
    · have ho : o.Failing := h.run rest
      obtain ⟨hdeaf, huncaught⟩ := ho.deaf fired
      simp [hdeaf, huncaught, hr]

/-- A worker reports that its client could not be made and then throws, before it exits. -/
theorem error_after_report :
    let o := (launching .listening).run [] [Launch.report]
    ((Launch.start (.ok "ID")).run [Launch.report]).running = true ∧
    o.listensForErrors = false ∧
    (o.hear [] (.error (Value.plainError "worker bug"))).2 =
      [.startup (.uncaught (Value.plainError "worker bug"))] :=
  ⟨rfl, rfl, rfl⟩

end Owner
end Courier
