import Courier.Reactor
import Courier.Proofs.Effects
import Courier.Proofs.Units

/-!
The end of a pipeline. It is a task of a reactor; when its loop has ended it closes the client,
once, and it is done when the client has closed or has failed to. Nothing that the units do changes
that.
-/

namespace Courier

open Effect

/-! Marks -/

/-- What passes between a pipeline and its client, and the end of the pipeline. -/
inductive Mark where
  | asked (k : Nat) (request : Value)
  /-- The client is told to close. -/
  | closing
  /-- It has closed, or has failed to. -/
  | closed (r : Attempt Unit)
  | done

namespace Effect

def mark? : Effect → Option Mark
  | .ask k request => some (.asked k request)
  | .closeClient => some .closing
  | .finished _ => some .done
  | _ => none

def marks (effects : List Effect) : List Mark := effects.filterMap mark?

@[simp] theorem marks_nil : marks [] = [] := rfl

@[simp] theorem marks_append (a b : List Effect) : marks (a ++ b) = marks a ++ marks b :=
  List.filterMap_append

@[simp] theorem marks_cons (e : Effect) (es : List Effect) :
    marks (e :: es) = e.mark?.toList ++ marks es := by
  cases h : e.mark? <;> simp [marks, h]

@[simp] theorem marks_settledEffects (s : List Settled) :
    marks (Dispatch.settledEffects s) = [] := by
  simp [marks, Dispatch.settledEffects, mark?]

end Effect

namespace Dispatch

variable {d : Dispatch}

def requested (x : Nat × Value) : Mark := .asked x.1 x.2

/-- Only the end of a pipeline and of its client leaves other marks than requests. -/
theorem marks_requested {es : List Effect}
    (h : ∀ e ∈ es, e ≠ .closeClient ∧ ∀ r, e ≠ .finished r) : marks es = (asks es).map requested := by
  induction es with
  | nil => rfl
  | cons e es ih =>
    obtain ⟨he, hes⟩ := List.forall_mem_cons.mp h
    rw [marks_cons, asks_cons, List.map_append, ih hes]
    cases e <;> simp_all [mark?, asked?, requested]

@[simp] theorem marks_take (handoff : Option (Channel.Handoff Nat)) :
    marks (d.take handoff).2 = [] := by
  obtain h | h := d.take_effects handoff <;> rw [h] <;> rfl

/-- A step of the dispatch neither closes the client nor ends the pipeline. -/
theorem marks_move (h : d.Sound) (m : Move) :
    marks (d.move m).2 = (asks (d.move m).2).map requested :=
  marks_requested fun e he => by cases move_causes h he <;> simp

end Dispatch

namespace Pipeline

variable {p : Pipeline} {s : Dispatch × List Effect}

theorem lift_of_open (hl : ∀ r, s.1.loop ≠ .ended r) :
    p.lift Log.calm s = ({ p with dispatch := s.1 }, s.2) := by
  unfold lift
  dsimp only
  split
  · rename_i hr
    exact (hl _ hr).elim
  · rfl

/-- The client is told to close once. -/
theorem lift_of_shut (h : p.closing ≠ .no) :
    p.lift Log.calm s = ({ p with dispatch := s.1 }, s.2) := by
  unfold lift
  dsimp only
  split
  · rename_i hc _
    exact (h hc).elim
  · rfl

/-- When the loop has ended the client is told to close. -/
theorem lift_of_ended (h : p.closing = .no) (hl : s.1.loop = .ended (.ok ())) :
    (p.lift Log.calm s).1.closing = .closing (.ok ()) ∧
      marks (p.lift Log.calm s).2 = marks s.2 ++ [.closing] := by
  obtain ⟨⟨intake, loop, said⟩, effects⟩ := s
  obtain ⟨dispatch, closing⟩ := p
  cases h
  cases hl
  simp [lift, shut, Dispatch.say, Log.calm, mark?]

namespace Run

/-- What an event does to the dispatch, and what follows from it. -/
def stepped (r : Run) : Event → Dispatch × List Effect
  | .offer sender request =>
    let (d, _, effects) := r.dispatch.offer sender (.request request.toValue)
    (d, effects)
  | .send sender request signal =>
    let (d, _, _, effects) := r.dispatch.send sender request signal
    (d, effects)
  | .receive k signal => ((r.dispatch.receive k signal).1, [])
  | .withSlot k slot => r.dispatch.withSlot k slot
  | .clone sender => (r.dispatch.clone sender, [])
  | .release sender => r.dispatch.release sender
  | .abort signal reason => r.dispatch.abort signal reason
  | .move m => r.dispatch.move m
  | .clientClosed _ => (r.dispatch, [])

/-- What follows from an event, for others to do. -/
def effects (r : Run) : Event → List Effect
  | .clientClosed result => (r.pipeline.clientClosed result).2
  | e => (r.pipeline.lift Log.calm (r.stepped e)).2

/-- A client closes after it has been told to, and nobody opens a slot again. -/
def Lawful (r : Run) : Event → Prop
  | .withSlot k slot => ∀ c : Call Stage, r.dispatch.intake.calls[k]? = some c →
      slot.isOpen = true → c.slot.isOpen = true
  | .clientClosed _ => ∃ result, r.pipeline.closing = .closing result
  | _ => True

/-- The requests in order, none of them failed, and the client asked for those that have begun. -/
structure Tidy (r : Run) : Prop where
  ordered : r.Ordered
  dispatch : r.dispatch.Tidy
  begun : ∀ (k : Nat) (c : Call Stage), r.dispatch.intake.calls[k]? = some c →
    (c.progress = .waiting ↔ k ∉ r.asked.map (·.1))

theorem tidy_start (fired : List (Nat × Value)) : (start fired).Tidy := by
  refine ⟨ordered_start fired, ⟨?_, ?_, ?_⟩, ?_⟩ <;>
    simp [start, Run.dispatch, Pipeline.new, Dispatch.new, Intake.new]

variable {r : Run} {e : Event}

theorem asked_step (r : Run) (e : Event) : (r.step e).asked = r.asked ++ asks (r.stepped e).2 := by
  cases e <;> simp [step, stepped, note]

theorem pipeline_step (h : ∀ result, e ≠ .clientClosed result) :
    (r.step e).pipeline = (r.pipeline.lift Log.calm (r.stepped e)).1 := by
  cases e with
  | clientClosed result => exact (h result rfl).elim
  | _ => rfl

theorem effects_of_ne (h : ∀ result, e ≠ .clientClosed result) :
    r.effects e = (r.pipeline.lift Log.calm (r.stepped e)).2 := by
  cases e with
  | clientClosed result => exact (h result rfl).elim
  | _ => rfl

theorem intake_step (r : Run) (e : Event) :
    (r.step e).dispatch.intake = (r.stepped e).1.intake := by
  cases e with
  | clientClosed result => rw [dispatch_clientClosed]; rfl
  | _ => simp [step, stepped, note]

theorem loop_step (r : Run) (e : Event) : (r.step e).dispatch.loop = (r.stepped e).1.loop := by
  cases e with
  | clientClosed result => rw [dispatch_clientClosed]; rfl
  | _ => simp [step, stepped, note]

/-- All but moves leaves the units alone. -/
theorem aside_stepped (hl : r.Lawful e) (hm : ∀ m, e ≠ .move m) :
    Dispatch.Aside r.dispatch (r.stepped e).1 ∧ asks (r.stepped e).2 = [] ∧
      marks (r.stepped e).2 = [] := by
  cases e with
  | offer sender request =>
    have ha := Dispatch.arrived_offer r.dispatch sender (.request request.toValue)
    refine ⟨Dispatch.aside_arrived ha rfl, ?_⟩
    simp [stepped, Dispatch.offer]
  | send sender request signal =>
    have ha := Dispatch.arrived_send r.dispatch sender request signal
    refine ⟨Dispatch.aside_arrived ha (by simp), ?_⟩
    simp [stepped, Dispatch.send]
  | receive k signal => exact ⟨Dispatch.aside_receive _ k signal, rfl, rfl⟩
  | withSlot k slot =>
    exact ⟨Dispatch.aside_withSlot hl, asks_settledEffects _, marks_settledEffects _⟩
  | clone sender => exact ⟨Dispatch.aside_clone _ sender, rfl, rfl⟩
  | release sender =>
    refine ⟨Dispatch.aside_release _ sender, (Dispatch.quiet_release _ sender).2, ?_⟩
    simp [stepped, Dispatch.release]
  | abort signal reason =>
    exact ⟨Dispatch.aside_abort _ signal reason, asks_settledEffects _, marks_settledEffects _⟩
  | move m => exact (hm m rfl).elim
  | clientClosed result => exact ⟨.refl _, rfl, rfl⟩

theorem marks_stepped (h : r.Tidy) (hl : r.Lawful e) :
    marks (r.stepped e).2 = (asks (r.stepped e).2).map Dispatch.requested := by
  by_cases hm : ∃ m, e = .move m
  · obtain ⟨m, rfl⟩ := hm
    exact Dispatch.marks_move h.ordered.sound m
  · obtain ⟨_, ha, hk⟩ := aside_stepped hl fun m he => hm ⟨m, he⟩
    rw [ha, hk]
    rfl

/-- What has begun is what the client has been asked for. -/
theorem Tidy.begun_move (h : r.Tidy) (m : Move) (k : Nat) (c : Call Stage)
    (hc : (r.dispatch.move m).1.intake.calls[k]? = some c) :
    c.progress = .waiting ↔ k ∉ (r.asked ++ asks (r.dispatch.move m).2).map (·.1) := by
  cases hm : m.own? with
  | some j =>
    have ht := Dispatch.touched_move h.ordered.sound hm
    rw [ht.calls, Array.getElem?_modify] at hc
    rw [ht.asks, List.append_nil]
    split at hc
    · obtain ⟨b, hb, rfl⟩ := Option.map_eq_some_iff.mp hc
      exact (moved_waiting_iff m b).trans (h.begun k b hb)
    · exact h.begun k c hc
  | none =>
    obtain rfl := Move.eq_turn hm
    obtain ⟨_, _, ⟨ha, _, hcalls⟩ | ⟨j, b, content, _, _, _, ha, _, hcalls⟩⟩ :=
      Dispatch.turn_cases h.ordered.sound
    · simp only [Dispatch.move] at hc ⊢
      rw [hcalls] at hc
      rw [ha, List.append_nil]
      exact h.begun k c hc
    · simp only [Dispatch.move] at hc ⊢
      rw [hcalls, Array.getElem?_modify] at hc
      rw [ha]
      by_cases hj : j = k
      · subst hj
        rw [if_pos rfl] at hc
        obtain ⟨x, _, rfl⟩ := Option.map_eq_some_iff.mp hc
        simp [Dispatch.begun]
      · rw [if_neg hj] at hc
        have hk := h.begun k c hc
        simp only [List.map_append, List.mem_append, List.map_cons, List.map_nil,
          List.mem_singleton]
        rw [hk]
        exact ⟨fun hn hor => hor.elim hn fun he => hj he.symm, fun hn hin => hn (Or.inl hin)⟩

theorem Tidy.asked_lt (h : r.Tidy) {k : Nat} (hk : k ∈ r.asked.map (·.1)) :
    k < r.dispatch.intake.calls.size := by
  obtain ⟨x, hx, rfl⟩ := List.mem_map.mp hk
  obtain ⟨rest, hrest, _⟩ := h.ordered.rest
  obtain ⟨c, hc, _⟩ := h.ordered.parcels x (by rw [hrest]; exact List.mem_append_left _ hx)
  exact (Array.getElem?_eq_some_iff.mp hc).1

theorem Tidy.step (h : r.Tidy) (hl : r.Lawful e) : (r.step e).Tidy := by
  have hsame : ∀ {d : Dispatch}, d.Tidy → (r.step e).dispatch.intake = d.intake →
      (r.step e).dispatch.loop = d.loop → (r.step e).dispatch.Tidy := by
    intro d hd hi hloop
    refine ⟨by rw [hi]; exact hd.units, by rw [hloop]; exact hd.draining, ?_⟩
    unfold Dispatch.inFlight
    rw [hi, hloop]
    exact hd.ended
  by_cases hm : ∃ m, e = .move m
  · obtain ⟨m, rfl⟩ := hm
    refine ⟨h.ordered.step _, hsame (h.dispatch.move h.ordered.sound m) ?_ ?_, fun k c hc => ?_⟩
    · exact intake_step r (.move m)
    · exact loop_step r (.move m)
    · rw [asked_step]
      rw [intake_step] at hc
      exact h.begun_move m k c hc
  · obtain ⟨ha, hasks, _⟩ := aside_stepped hl fun m he => hm ⟨m, he⟩
    refine ⟨h.ordered.step e, hsame (h.dispatch.aside ha) (intake_step r e) (loop_step r e),
      fun k c hc => ?_⟩
    rw [asked_step, hasks, List.append_nil]
    rw [intake_step] at hc
    rcases ha.calls k c hc with ⟨b, hb, hp, _⟩ | ⟨hw, hle⟩
    · rw [hp]
      exact h.begun k b hb
    · refine ⟨fun _ hin => ?_, fun _ => hw⟩
      have hlt := h.asked_lt hin
      omega

/-- A loop that has ended does nothing more. -/
theorem Tidy.stays_ended (h : r.Tidy) (hl : r.Lawful e) (he : r.dispatch.loop = .ended (.ok ())) :
    (r.stepped e).1.loop = .ended (.ok ()) ∧ asks (r.stepped e).2 = [] := by
  by_cases hm : ∃ m, e = .move m
  · obtain ⟨m, rfl⟩ := hm
    show (r.dispatch.move m).1.loop = _ ∧ asks (r.dispatch.move m).2 = []
    cases hm : m.own? with
    | some k =>
      rw [Dispatch.loop_move h.ordered.sound h.dispatch hm]
      exact ⟨he, (Dispatch.touched_move h.ordered.sound hm).asks⟩
    | none =>
      obtain rfl := Move.eq_turn hm
      simp only [Dispatch.move, Dispatch.loop_turn_ended he]
      exact ⟨he, rfl⟩
  · obtain ⟨⟨⟨handoff, hloop⟩, _⟩, hasks, _⟩ := aside_stepped hl fun m he => hm ⟨m, he⟩
    refine ⟨?_, hasks⟩
    rw [hloop, he]
    cases handoff <;> rfl

/-- Where the loop has ended the channel is closed and drained, and the client was asked for every
accepted request; every unit has ended, and no slot of one is open. -/
theorem Tidy.drained (h : r.Tidy) (he : r.dispatch.loop = .ended (.ok ())) :
    r.closed = true ∧ r.dispatch.intake.channel.live = [] ∧ r.asked = r.accepted ∧
      ∀ x ∈ r.accepted, ∃ c : Call Stage, r.dispatch.intake.calls[x.1]? = some c ∧
        c.progress = .retired none ∧ c.slot.isOpen = false := by
  have hover : r.dispatch.loop.hand = .over := by rw [he]; rfl
  obtain ⟨hclosed, hlive⟩ := h.ordered.sound.coupled.ended (Or.inl hover)
  have hqueue : r.dispatch.queue = [] := by
    rw [Dispatch.queue, Hand.queue, hover, hlive]
    rfl
  have hasked : r.asked = r.accepted := by
    obtain ⟨rest, hrest, hkeys⟩ := h.ordered.rest
    rw [hqueue, List.map_eq_nil_iff] at hkeys
    rw [hrest, hkeys, List.append_nil]
  refine ⟨hclosed, hlive, hasked, fun x hx => ?_⟩
  obtain ⟨c, hc, _⟩ := h.ordered.parcels x hx
  have hidle := Dispatch.inFlight_eq_zero.mp (h.dispatch.ended _ he).2 x.1 c hc
  have hbegun : c.progress ≠ .waiting := fun hw =>
    (h.begun x.1 c hc).mp hw (List.mem_map_of_mem (by rw [hasked]; exact hx))
  cases hp : c.progress with
  | waiting => exact (hbegun hp).elim
  | running | ended => simp [hp, Dispatch.isInFlight] at hidle
  | retired failure =>
    obtain ⟨rfl, ho⟩ := h.dispatch.units x.1 c hc failure (Or.inr hp)
    exact ⟨c, hc, hp, ho⟩

/-- A loop at rest waits for a call or for units, or it has ended. -/
theorem loop_of_quiet {d : Dispatch} (h : d.Sound) (hq : d.Quiet) : d.loop = .waiting ∨
    (∃ failure, d.loop = .draining failure) ∨ ∃ result, d.loop = .ended result := by
  have hh := hq.rests h
  cases hl : d.loop with
  | waiting => exact Or.inl rfl
  | draining failure => exact Or.inr (Or.inl ⟨failure, rfl⟩)
  | ended result => exact Or.inr (Or.inr ⟨result, rfl⟩)
  | unstarted | handed => simp [hl, Loop.hand] at hh

/-- Every accepted call has a unit, and the loop counts none of them any more. -/
def Settled (r : Run) : Prop :=
  ∀ x ∈ r.accepted, ∃ c : Call Stage, r.dispatch.intake.calls[x.1]? = some c ∧
    c.progress = .retired none

theorem Settled.queue (h : r.Settled) (ht : r.Tidy) : r.dispatch.queue = [] := by
  obtain ⟨rest, hrest, hkeys⟩ := ht.ordered.rest
  refine List.eq_nil_iff_forall_not_mem.mpr fun k hk => ?_
  obtain ⟨x, hx, rfl⟩ := List.mem_map.mp (hkeys ▸ hk)
  obtain ⟨c, hc, hp⟩ := h x (by rw [hrest]; exact List.mem_append_right _ hx)
  obtain ⟨b, hb, hw⟩ := ht.ordered.sound.queued x.1 hk
  obtain rfl := Option.some.inj (hc.symm.trans hb)
  simp [hp] at hw

theorem Settled.inFlight (h : r.Settled) (ht : r.Tidy) : r.dispatch.inFlight = 0 := by
  refine Dispatch.inFlight_eq_zero.mpr fun k c hc => ?_
  by_cases hk : k ∈ r.asked.map (·.1)
  · obtain ⟨x, hx, rfl⟩ := List.mem_map.mp hk
    obtain ⟨rest, hrest, _⟩ := ht.ordered.rest
    obtain ⟨b, hb, hp⟩ := h x (by rw [hrest]; exact List.mem_append_left _ hx)
    obtain rfl := Option.some.inj (hc.symm.trans hb)
    rw [hp]
    rfl
  · rw [(ht.begun k c hc).mpr hk]
    rfl

theorem Settled.turn (h : r.Settled) (ht : r.Tidy) : (r.step (.move .turn)).Settled := by
  intro x hx
  obtain ⟨c, hc, hp⟩ := h x hx
  refine ⟨c, ?_, hp⟩
  rw [intake_step]
  simp only [stepped, Dispatch.move]
  obtain ⟨_, _, ⟨_, _, hcalls⟩ | ⟨k, _, _, _, _, _, _, hq, _⟩⟩ :=
    Dispatch.turn_cases ht.ordered.sound
  · rw [hcalls, hc]
  · rw [h.queue ht] at hq
    cases hq

theorem Settled.lasts (h : r.Settled) (ht : r.Tidy) (hc : r.closed = true) (n : Nat) :
    (r.run (turns n)).Settled ∧ (r.run (turns n)).Tidy ∧ (r.run (turns n)).closed = true := by
  induction n generalizing r with
  | zero => exact ⟨h, ht, hc⟩
  | succ n ih =>
    exact ih (h.turn ht) (ht.step (e := .move .turn) trivial)
      (ht.ordered.step_of_closed hc (.move .turn)).1

/-- With the channel closed and every unit at its end the loop ends by itself. -/
theorem Settled.ends (h : r.Settled) (ht : r.Tidy) (hc : r.closed = true) :
    ∃ n, (r.run (turns n)).dispatch.loop = .ended (.ok ()) := by
  obtain ⟨n, hn⟩ := ht.ordered.quiet_turns
  refine ⟨n, ?_⟩
  obtain ⟨hs, ht, hc⟩ := h.lasts ht hc n
  obtain hl | ⟨failure, hl⟩ | ⟨result, hl⟩ := loop_of_quiet ht.ordered.sound hn
  · have hw := ht.ordered.sound.coupled.waits.mp (by rw [hl]; rfl)
    have hopen := ht.ordered.sound.coupled.sound.opened hw
    simp only [closed, hopen] at hc
    cases hc
  · cases failure with
    | some v => exact (ht.dispatch.draining v hl).elim
    | none =>
      unfold Dispatch.Quiet at hn
      have hturn := congrArg (fun r => r.1.loop) hn
      simp [Dispatch.turn, hl, hs.inFlight ht, Dispatch.finish] at hturn
  · rw [hl, (ht.dispatch.ended result hl).1]

end Run

/-! A pipeline as a task of a reactor -/

/-- A pipeline that runs as a task of a reactor, with what has passed between it and its client. -/
structure Task where
  reactor : Reactor
  number : Nat
  inner : Run
  trace : List Mark

namespace Task

/-- What happens to the pipeline, and what its reactor does. -/
inductive Event where
  | pipeline (e : Pipeline.Event)
  /-- The reactor learns that the task has settled. -/
  | settled
  /-- Another task of the reactor begins. -/
  | spawn
  /-- Another task of the reactor has settled. -/
  | retire (task : Nat)
  /-- Somebody waits for the reactor to be idle, or goes on waiting. -/
  | look (idler : Nat)

/-- A reactor spawns the pipeline. -/
def start (reactor : Reactor) (fired : List (Nat × Value)) : Task :=
  ⟨reactor.spawn.1, reactor.spawn.2, .start fired, []⟩

/-- What an event adds to the trace. -/
def marks (t : Task) : Pipeline.Event → List Mark
  | .clientClosed r => .closed r :: Effect.marks (t.inner.effects (.clientClosed r))
  | e => Effect.marks (t.inner.effects e)

/-- The task settles when the pipeline is done. -/
def step (t : Task) : Event → Task
  | .pipeline e => { t with inner := t.inner.step e, trace := t.trace ++ t.marks e }
  | .settled =>
    match t.inner.pipeline.closing with
    | .done _ => { t with reactor := (t.reactor.retire t.number).1 }
    | _ => t
  | .spawn => { t with reactor := t.reactor.spawn.1 }
  | .retire task => { t with reactor := (t.reactor.retire task).1 }
  | .look idler => { t with reactor := (t.reactor.look idler).1 }

def run (t : Task) (events : List Event) : Task := events.foldl step t

/-- The task is nobody else's. -/
def Lawful (t : Task) : Event → Prop
  | .pipeline e => t.inner.Lawful e
  | .retire task => task ≠ t.number
  | _ => True

def Valid (t : Task) : List Event → Prop
  | [] => True
  | e :: events => t.Lawful e ∧ Valid (t.step e) events

/-- What a client sees of the end of a pipeline that has come so far. -/
def Ending (closing : Closing) (tail : List Mark) : Prop :=
  match closing with
  | .no => tail = []
  | .closing _ => tail = [.closing]
  | .done _ => ∃ r, tail = [.closing, .closed r, .done]

structure Sound (t : Task) : Prop where
  tidy : t.inner.Tidy
  /-- The client is told to close as soon as the loop has ended. -/
  shut : t.inner.pipeline.closing ≠ .no ↔ t.inner.dispatch.loop = .ended (.ok ())
  trace : ∃ tail, t.trace = t.inner.asked.map Dispatch.requested ++ tail ∧
    Ending t.inner.pipeline.closing tail
  active : (∀ r, t.inner.pipeline.closing ≠ .done r) → t.number ∈ t.reactor.active

theorem sound_start (reactor : Reactor) (fired : List (Nat × Value)) :
    (start reactor fired).Sound := by
  refine ⟨Run.tidy_start fired, ?_, ⟨[], rfl, rfl⟩, fun _ => ?_⟩
  · simp [start, Run.start, Run.dispatch, Pipeline.new, Dispatch.new]
  · simp [start, Reactor.spawn]

variable {t : Task}

/-- A step of the dispatch asks the client for what it takes off the queue; if it ends the loop it
tells the client to close. -/
theorem Sound.stepped (h : t.Sound) {e : Pipeline.Event} (hl : t.inner.Lawful e)
    (he : ∀ result, e ≠ .clientClosed result) : (t.step (.pipeline e)).Sound := by
  have htidy := h.tidy.step hl
  have hmarks := Run.marks_stepped h.tidy hl
  have hpipe := Run.pipeline_step (r := t.inner) he
  have hadd : t.marks e = Effect.marks (t.inner.pipeline.lift Log.calm (t.inner.stepped e)).2 := by
    rw [← Run.effects_of_ne he]
    cases e with
    | clientClosed result => exact (he result rfl).elim
    | _ => rfl
  obtain ⟨tail, htrace, hend⟩ := h.trace
  have hloop := Run.loop_step t.inner e
  have hasked := Run.asked_step t.inner e
  by_cases hno : t.inner.pipeline.closing = .no
  · have htail : tail = [] := by simpa [hno, Ending] using hend
    have hact : t.number ∈ t.reactor.active := h.active fun r hr => by simp [hno] at hr
    by_cases hnew : ∃ result, (t.inner.stepped e).1.loop = .ended result
    · obtain ⟨result, hr⟩ := hnew
      obtain ⟨rfl, _⟩ := htidy.dispatch.ended result (hloop.trans hr)
      obtain ⟨hcl, hm⟩ := lift_of_ended hno hr
      refine ⟨htidy, ?_, ⟨[.closing], ?_, ?_⟩, fun _ => hact⟩
      · simp [step, hpipe, hcl, hloop, hr]
      · simp [step, hadd, hm, hmarks, hasked, htrace, htail]
      · simp [step, hpipe, hcl, Ending]
    · have hopen : ∀ result, (t.inner.stepped e).1.loop ≠ .ended result :=
        fun result hr => hnew ⟨result, hr⟩
      have hlift := lift_of_open (p := t.inner.pipeline) hopen
      refine ⟨htidy, ?_, ⟨[], ?_, ?_⟩, fun _ => hact⟩
      · simp [step, hpipe, hlift, hno, hloop, hopen]
      · simp [step, hadd, hlift, hmarks, hasked, htrace, htail]
      · simp [step, hpipe, hlift, hno, Ending]
  · obtain ⟨hstay, hquiet⟩ := h.tidy.stays_ended hl (h.shut.mp hno)
    have hlift := lift_of_shut (s := t.inner.stepped e) hno
    refine ⟨htidy, ?_, ⟨tail, ?_, ?_⟩, fun hd => h.active fun r hr => hd r ?_⟩
    · simp [step, hpipe, hlift, hno, hloop, hstay]
    · simp [step, hadd, hlift, hmarks, hasked, htrace, hquiet]
    · simpa [step, hpipe, hlift] using hend
    · simp [step, hpipe, hlift, hr]

/-- The client has closed, or has failed to: the pipeline is done. -/
theorem Sound.clientClosed (h : t.Sound) {r : Attempt Unit}
    (hl : t.inner.Lawful (.clientClosed r)) : (t.step (.pipeline (.clientClosed r))).Sound := by
  obtain ⟨result, hc⟩ := hl
  obtain ⟨tail, htrace, hend⟩ := h.trace
  have htail : tail = [.closing] := by simpa [hc, Ending] using hend
  obtain ⟨last, hp⟩ : ∃ last, t.inner.pipeline.clientClosed r =
      ({ t.inner.pipeline with closing := .done last }, [.finished last]) := by
    simp [Pipeline.clientClosed, hc]
  refine ⟨h.tidy.step (e := .clientClosed r) ⟨result, hc⟩, ?_,
    ⟨tail ++ [.closed r, .done], ?_, ?_⟩, fun hd => ?_⟩
  · have hshut := h.shut
    simpa [step, Run.step, hp, hc, Run.dispatch] using hshut
  · simp [step, Run.step, marks, Run.effects, hp, mark?, htrace]
  · simp [step, Run.step, hp, Ending, htail]
  · exact (hd last (by simp [step, Run.step, hp])).elim

theorem Sound.step (h : t.Sound) {e : Event} (hl : t.Lawful e) : (t.step e).Sound := by
  cases e with
  | pipeline e =>
    by_cases he : ∃ result, e = .clientClosed result
    · obtain ⟨result, rfl⟩ := he
      exact h.clientClosed hl
    · exact h.stepped hl fun result hr => he ⟨result, hr⟩
  | settled =>
    unfold Task.step
    dsimp only
    split
    · rename_i r hr
      exact ⟨h.tidy, h.shut, h.trace, fun hd => (hd r hr).elim⟩
    · exact h
  | spawn =>
    exact ⟨h.tidy, h.shut, h.trace, fun hd => List.mem_append_left _ (h.active hd)⟩
  | retire task =>
    refine ⟨h.tidy, h.shut, h.trace, fun hd => ?_⟩
    exact (List.mem_erase_of_ne (Ne.symm hl)).mpr (h.active hd)
  | look idler =>
    refine ⟨h.tidy, h.shut, h.trace, fun hd => ?_⟩
    unfold Task.step Reactor.look
    dsimp only
    split <;> exact h.active hd

theorem Sound.run (h : t.Sound) {events : List Event} (hv : t.Valid events) :
    (t.run events).Sound := by
  induction events generalizing t with
  | nil => exact h
  | cons e events ih => exact ih (h.step hv.1) hv.2

/-- A task that is let run. -/
theorem inner_turns (t : Task) (n : Nat) :
    (t.run ((Run.turns n).map .pipeline)).inner = t.inner.run (Run.turns n) := by
  induction n generalizing t with
  | zero => rfl
  | succ n ih => exact ih (t.step (.pipeline (.move .turn)))

theorem valid_turns (t : Task) (n : Nat) : t.Valid ((Run.turns n).map .pipeline) := by
  induction n generalizing t with
  | zero => trivial
  | succ n ih => exact ⟨trivial, ih (t.step (.pipeline (.move .turn)))⟩

theorem Sound.closing_mem (h : t.Sound) :
    .closing ∈ t.trace ↔ t.inner.dispatch.loop = .ended (.ok ()) := by
  rw [← h.shut]
  obtain ⟨tail, htrace, hend⟩ := h.trace
  have hmem : Mark.closing ∈ t.trace ↔ .closing ∈ tail := by
    simp [htrace, Dispatch.requested]
  rw [hmem]
  cases hc : t.inner.pipeline.closing with
  | no =>
    obtain rfl : tail = [] := by simpa [hc, Ending] using hend
    simp
  | closing result =>
    obtain rfl : tail = [.closing] := by simpa [hc, Ending] using hend
    simp
  | done result =>
    obtain ⟨r, rfl⟩ : ∃ r, tail = [.closing, .closed r, .done] := by simpa [hc, Ending] using hend
    simp

/-- The client of a pipeline is told to close at most once, after the last request that it is asked
for, and the pipeline is done when it has closed. Before it is told to the channel has closed, all
of it has been taken off, and the unit of every accepted request has ended and left no slot open.
However the closing ends, the pipeline is done then; and its task is active up to that point. Once
the channel has closed and the units have come to their ends, the client is told to close. -/
theorem closes_last (reactor : Reactor) (fired : List (Nat × Value)) (events : List Event)
    (hv : (start reactor fired).Valid events) {t : Task}
    (ht : (start reactor fired).run events = t) :
    (∃ tail r, t.trace = t.inner.asked.map Dispatch.requested ++ tail ∧
      tail <+: [.closing, .closed r, .done]) ∧
    (.closing ∈ t.trace → t.inner.closed = true ∧ t.inner.dispatch.intake.channel.live = [] ∧
      ∀ x ∈ t.inner.accepted, ∃ c : Call Stage, t.inner.dispatch.intake.calls[x.1]? = some c ∧
        c.progress = .retired none ∧ c.slot.isOpen = false) ∧
    (.closing ∈ t.trace → (∀ r, .closed r ∉ t.trace) → ∀ r,
      t.Lawful (.pipeline (.clientClosed r)) ∧
      (t.step (.pipeline (.clientClosed r))).trace = t.trace ++ [.closed r, .done]) ∧
    (.done ∉ t.trace → t.number ∈ t.reactor.active) ∧
    (t.inner.closed = true → t.inner.Settled →
      ∃ n, .closing ∈ (t.run ((Run.turns n).map .pipeline)).trace) := by
  have h := ht ▸ (sound_start reactor fired).run hv
  obtain ⟨tail, htrace, hend⟩ := h.trace
  refine ⟨?_, fun hm => ?_, fun hm hno r => ?_, fun hd => h.active fun r hr => hd ?_,
    fun hc hs => ?_⟩
  · cases hcl : t.inner.pipeline.closing with
    | no =>
      obtain rfl : tail = [] := by simpa [hcl, Ending] using hend
      exact ⟨[], .ok (), htrace, List.nil_prefix⟩
    | closing result =>
      obtain rfl : tail = [.closing] := by simpa [hcl, Ending] using hend
      exact ⟨[.closing], .ok (), htrace, [.closed (.ok ()), .done], rfl⟩
    | done result =>
      obtain ⟨r, rfl⟩ : ∃ r, tail = [.closing, .closed r, .done] := by
        simpa [hcl, Ending] using hend
      exact ⟨_, r, htrace, List.prefix_rfl⟩
  · obtain ⟨hclosed, hlive, _, hunits⟩ := h.tidy.drained (h.closing_mem.mp hm)
    exact ⟨hclosed, hlive, hunits⟩
  · have hshut := h.shut.mpr (h.closing_mem.mp hm)
    cases hcl : t.inner.pipeline.closing with
    | no => exact (hshut hcl).elim
    | closing result =>
      refine ⟨⟨result, hcl⟩, ?_⟩
      simp [step, marks, Run.effects, clientClosed, hcl, mark?]
    | done result =>
      obtain ⟨r', rfl⟩ : ∃ r, tail = [.closing, .closed r, .done] := by
        simpa [hcl, Ending] using hend
      exact (hno r' (by simp [htrace])).elim
  · obtain ⟨r', rfl⟩ : ∃ r, tail = [.closing, .closed r, .done] := by
      simpa [hr, Ending] using hend
    simp [htrace]
  · obtain ⟨n, hn⟩ := hs.ends h.tidy hc
    refine ⟨n, (h.run (valid_turns t n)).closing_mem.mpr ?_⟩
    rw [inner_turns]
    exact hn

/-- A request that its client fails, and a closing that fails as well. -/
def failing : List Event :=
  [.pipeline (.send 0 (.post "http://a/" []) none), .pipeline (.move .turn),
    .pipeline (.move .turn), .spawn, .pipeline (.release 0), .pipeline (.move .turn),
    .pipeline (.move (.answered 0 (.error (.bare [])))), .retire 1,
    .pipeline (.move (.conclude 0)), .pipeline (.move (.retire 0)), .pipeline (.move .turn),
    .pipeline (.clientClosed (.error (.string "gone"))), .settled]

theorem failing_valid : (start .new []).Valid failing :=
  ⟨trivial, trivial, trivial, trivial, trivial, trivial, trivial, Nat.one_ne_zero, trivial, trivial,
    trivial, ⟨_, rfl⟩, trivial, trivial⟩

theorem failing_closes_last : (start .new []).Valid failing ∧
    ((start .new []).run failing).trace = [.asked 0 (Request.post "http://a/" []).toValue, .closing,
      .closed (.error (.string "gone")), .done] ∧
    ((start .new []).run failing).inner.accepted.length = 1 ∧
    ((start .new []).run failing).inner.closed = true ∧
    ((start .new []).run failing).reactor.active = [] := by
  refine ⟨failing_valid, rfl, rfl, ?_, rfl⟩
  exact ((closes_last .new [] failing failing_valid rfl).2.1
    (List.mem_cons_of_mem _ List.mem_cons_self)).1

end Task
end Pipeline
end Courier
