import Courier.Proofs.Carrying
import Courier.Proofs.Sequence
import Courier.Proofs.Standalone

/-!
What goes through a standalone transport, from the channel of its callers to its client. The two
threads take their steps in any order, statuses may be anything, and the worker may be found gone
at any moment.
-/

namespace Courier

namespace Standalone

/-- What an event is for the owner. -/
def owned (s : Standalone) : Event → Option Bridge.Event
  | .caller c => (s.transport.act s.channel c).2.map Deed.owned
  | .forward => some .forward
  | .listen => (s.worker.sent[s.listened]?).map .message
  | .portClosed => some .portClosed
  | .exited code => some (.exited code)
  | .hear | .work _ | .clientClosed _ => none

/-- What the worker does at an event. -/
def effects (s : Standalone) : Event → List Worker.Effect
  | .hear => s.arriving.elim [] fun v => (s.worker.worker.message v).2
  | .work m => (s.worker.worker.liftDispatch (s.worker.dispatch.move m)).2
  | .clientClosed r => (s.worker.worker.lift (s.worker.worker.pipeline.clientClosed r)).2
  | .caller _ | .forward | .listen | .portClosed | .exited _ => []

/-- Whether an event is one of the worker's. -/
def Event.isWork : Event → Bool
  | .hear | .work _ | .clientClosed _ => true
  | _ => false

/-- What is not the worker's leaves the worker alone. -/
theorem step_of_owner (s : Standalone) {ev : Event} (he : ev.isWork = false) :
    (s.step ev).owner = (s.owned ev).elim s.owner s.owner.step ∧
      (s.step ev).worker = s.worker ∧ (s.step ev).heard = s.heard ∧ s.effects ev = [] := by
  cases ev with
  | caller c =>
    refine ⟨?_, rfl, rfl, rfl⟩
    simp only [step, owned]
    cases (s.transport.act s.channel c).2 <;> rfl
  | listen =>
    simp only [step, owned]
    cases s.worker.sent[s.listened]? <;> exact ⟨rfl, rfl, rfl, rfl⟩
  | hear | work | clientClosed => cases he
  | forward | portClosed | exited => exact ⟨rfl, rfl, rfl, rfl⟩

end Standalone

/-- A standalone transport with the requests that its channel has accepted and those that its
client was asked for. -/
structure Relay where
  inner : Standalone
  accepted : List Request
  asked : List Value

namespace Relay

open Standalone (Event)

def start (fired : List (Nat × Value)) : Relay := ⟨.start fired, [], []⟩

def owner (r : Relay) : Bridge.Run := r.inner.owner

def worker (r : Relay) : Worker.Run := r.inner.worker

def step (r : Relay) (ev : Event) : Relay :=
  ⟨r.inner.step ev, r.accepted ++ (r.inner.owned ev).elim [] r.owner.accepts,
    r.asked ++ Worker.Effect.asks (r.inner.effects ev)⟩

def run (r : Relay) (events : List Event) : Relay := events.foldl step r

/-- The client does what clients do. -/
def possible (r : Relay) : Event → Bool
  | .work m => r.worker.dispatch.allows m
  | _ => true

/-- Every event of a run is possible where it happens. -/
def valid (r : Relay) : List Event → Bool
  | [] => true
  | ev :: events => r.possible ev && valid (r.step ev) events

variable {r : Relay} {p q : Pipeline.Run}

theorem run_append (r : Relay) (before after : List Event) :
    r.run (before ++ after) = (r.run before).run after := List.foldl_append

/-- The number of requests that have arrived at the worker. -/
def arrived (r : Relay) : Nat := min r.inner.heard r.owner.bridge.seq

/-- What has arrived at the worker has been taken by the pipeline that it runs, and nothing closes
the channel there before the last request. -/
structure Sound (r : Relay) (p : Pipeline.Run) : Prop where
  owner : r.owner.Sequenced r.accepted
  heard_le : r.inner.heard ≤ r.owner.posted.length
  worker : r.worker.Carries p (r.accepted.take r.arrived) r.asked
  opened : r.inner.heard ≤ r.owner.bridge.seq →
    p.dispatch.intake.channel.gate = (Channel.new : Channel Nat).gate

theorem sound_start (fired : List (Nat × Value)) : (start fired).Sound (.start []) :=
  ⟨Bridge.Run.sequenced_start fired, Nat.zero_le _,
    by rw [start, List.take_nil]; exact Worker.Run.carries_start, fun _ => rfl⟩

/-- An event of the owner does not touch what has arrived. -/
theorem Sound.owned (h : r.Sound p) {s : Standalone} {own : Bridge.Event}
    (howner : s.owner = r.owner.step own) (hworker : s.worker = r.worker)
    (hheard : s.heard = r.inner.heard) :
    (⟨s, r.accepted ++ r.owner.accepts own, r.asked⟩ : Relay).Sound p := by
  obtain ⟨hs, hseq⟩ := h.owner.step own
  have hheard_le := h.heard_le
  have hgrown : r.owner.posted.length ≤ s.owner.posted.length := by
    rw [howner]
    cases own <;> exact List.length_append ▸ Nat.le_add_right _ _
  have hle := h.owner.accounted.seq_le_step own
  rw [← howner] at hs hle hseq
  have harrived : min s.heard s.owner.bridge.seq = r.arrived := by
    unfold arrived
    omega
  have htake : (r.accepted ++ r.owner.accepts own).take r.arrived = r.accepted.take r.arrived :=
    List.take_append_of_le_length (Nat.le_trans (Nat.min_le_right _ _) h.owner.seq_le)
  refine ⟨hs, ?_, ?_, fun hopen => h.opened ?_⟩
  · show s.heard ≤ s.owner.posted.length
    omega
  · show s.worker.Carries p
      ((r.accepted ++ r.owner.accepts own).take (min s.heard s.owner.bridge.seq)) r.asked
    rw [harrived, htake, hworker]
    exact h.worker
  · have hopen : s.heard ≤ s.owner.bridge.seq := hopen
    omega

theorem Sound.same (h : r.Sound p) {s : Standalone} (howner : s.owner = r.owner)
    (hworker : s.worker = r.worker) (hheard : s.heard = r.inner.heard) :
    (⟨s, r.accepted, r.asked⟩ : Relay).Sound p := by
  obtain ⟨transport, owner, worker, heard, listened⟩ := s
  cases howner
  cases hworker
  cases hheard
  exact ⟨h.owner, h.heard_le, h.worker, h.opened⟩

/-- The next message of the owner as it arrives: a request while there are any, and then the one
that tells the worker to close. -/
theorem Sound.arriving (h : r.Sound p) (hlt : r.inner.heard < r.owner.posted.length) :
    (r.inner.heard < r.owner.bridge.seq ∧
      ∃ uri payload, r.accepted[r.inner.heard]? = some (.post uri payload) ∧
        r.inner.arriving = some (ToWorker.request (.ofNat (r.inner.heard + 1))
          (Request.post uri payload).arrived).toValue) ∨
    (r.inner.heard = r.owner.bridge.seq ∧ r.inner.arriving = some ToWorker.close.toValue) := by
  show (_ ∧ ∃ uri payload, _ ∧ (r.owner.posted[r.inner.heard]?).bind _ = _) ∨
    (_ ∧ (r.owner.posted[r.inner.heard]?).bind _ = _)
  rcases Nat.lt_or_ge r.inner.heard r.owner.bridge.seq with hseq | hseq
  · obtain ⟨uri, payload, hget, hposted⟩ := h.owner.posted_request hseq
    refine Or.inl ⟨hseq, uri, payload, hget, ?_⟩
    rw [hposted, Option.bind_some, clone_message]
    rfl
  · obtain ⟨heq, hposted⟩ := h.owner.posted_close hseq hlt
    refine Or.inr ⟨heq, ?_⟩
    rw [hposted, Option.bind_some, clone_close]
    rfl

/-- A step of the worker alone. -/
theorem Sound.worked (h : r.Sound p) {w : Worker.Run} {heard : Nat} {asked : List Value}
    (hheard : heard ≤ r.owner.posted.length)
    (hw : w.Carries q (r.accepted.take (min heard r.owner.bridge.seq)) asked)
    (hopened : heard ≤ r.owner.bridge.seq →
      q.dispatch.intake.channel.gate = (Channel.new : Channel Nat).gate) :
    (⟨{ r.inner with worker := w, heard := heard }, r.accepted, asked⟩ : Relay).Sound q :=
  ⟨h.owner, hheard, hw, hopened⟩

/-- A message arrives and does what it says. -/
theorem Sound.hear (h : r.Sound p) (hlt : r.inner.heard < r.owner.posted.length) :
    (∃ q, (r.step .hear).Sound q) ∧ (r.step .hear).accepted = r.accepted ∧
      (r.step .hear).owner = r.owner ∧ (r.step .hear).inner.heard = r.inner.heard + 1 := by
  have hmessage : ∀ v, r.inner.arriving = some v → r.step .hear =
      ⟨{ r.inner with worker := r.worker.message v, heard := r.inner.heard + 1 }, r.accepted,
        r.asked ++ Worker.Effect.asks (r.worker.worker.message v).2⟩ := by
    intro v hv
    simp only [step, Standalone.step, Standalone.owned, Standalone.effects, hv, Option.elim,
      List.append_nil]
    rfl
  rcases h.arriving hlt with ⟨hseq, uri, payload, hget, hv⟩ | ⟨hseq, hv⟩
  · rw [hmessage _ hv]
    refine ⟨?_, rfl, rfl, rfl⟩
    obtain ⟨q, hq, hopen⟩ :=
      h.worker.request (h.opened (Nat.le_of_lt hseq)) (ofValue_request _ uri payload)
    refine ⟨q, h.worked hlt ?_ fun _ => hopen⟩
    rw [arrived, Nat.min_eq_left (Nat.le_of_lt hseq)] at hq
    rw [Nat.min_eq_left hseq, List.take_add_one, hget]
    exact hq
  · rw [hmessage _ hv]
    refine ⟨?_, rfl, rfl, rfl⟩
    have hq := h.worker.close (h.opened (Nat.le_of_eq hseq)) ofValue_close
    have harrived : r.arrived = min (r.inner.heard + 1) r.owner.bridge.seq := by
      unfold arrived
      omega
    rw [harrived] at hq
    exact ⟨_, h.worked hlt hq fun hle => by omega⟩

/-- When everything has arrived nothing is left to arrive. -/
theorem step_hear_of_silent (hle : r.owner.posted.length ≤ r.inner.heard) : r.step .hear = r := by
  have hv : r.inner.arriving = none := by
    show (r.owner.posted[r.inner.heard]?).bind _ = none
    rw [List.getElem?_eq_none hle]
    rfl
  simp only [step, Standalone.step, Standalone.owned, Standalone.effects, hv, Option.elim,
    List.append_nil]
  exact congrArg (Relay.mk r.inner r.accepted) (List.append_nil r.asked)

theorem step_work (r : Relay) (m : Move) : r.step (.work m) =
    ⟨{ r.inner with worker := r.worker.move m }, r.accepted, r.asked ++
      Worker.Effect.asks (r.worker.worker.liftDispatch (r.worker.dispatch.move m)).2⟩ :=
  congrArg (Relay.mk _ · _) (List.append_nil _)

/-- Something happens to the unit of a request. -/
theorem Sound.work (h : r.Sound p) {m : Move} (hm : r.possible (.work m) = true) :
    (r.step (.work m)).Sound (p.step (.move m)) := by
  rw [step_work]
  refine h.worked h.heard_le (h.worker.move hm) fun hle => ?_
  have hintake : (p.step (.move m)).dispatch.intake = (p.dispatch.move m).1.intake :=
    p.lift_intake _
  rw [hintake, Dispatch.move_gate h.worker.settling.ordered.sound m, h.opened hle]

theorem Sound.clientClosed (h : r.Sound p) (result : Attempt Unit) :
    (r.step (.clientClosed result)).Sound (p.step (.clientClosed result)) := by
  have hstep : r.step (.clientClosed result) =
      ⟨{ r.inner with worker := r.worker.clientClosed result }, r.accepted, r.asked ++
        Worker.Effect.asks
          (r.worker.worker.lift (r.worker.worker.pipeline.clientClosed result)).2⟩ :=
    congrArg (Relay.mk _ · _) (List.append_nil _)
  rw [hstep]
  refine h.worked h.heard_le (h.worker.clientClosed result) fun hle => ?_
  rw [p.dispatch_clientClosed, h.opened hle]

theorem Sound.step (h : r.Sound p) {ev : Event} (hp : r.possible ev = true) :
    ∃ q, (r.step ev).Sound q := by
  by_cases he : ev.isWork = true
  · cases ev with
    | hear =>
      rcases Nat.lt_or_ge r.inner.heard r.owner.posted.length with hlt | hle
      · exact (h.hear hlt).1
      · rw [step_hear_of_silent hle]
        exact ⟨p, h⟩
    | work m => exact ⟨_, h.work hp⟩
    | clientClosed result => exact ⟨_, h.clientClosed result⟩
    | _ => cases he
  · obtain ⟨howner, hworker, hheard, heffects⟩ :=
      r.inner.step_of_owner (Bool.eq_false_of_not_eq_true he)
    refine ⟨p, ?_⟩
    rw [Relay.step, heffects]
    have hasked : r.asked ++ Worker.Effect.asks [] = r.asked := List.append_nil _
    rw [hasked]
    cases ho : r.inner.owned ev with
    | none =>
      rw [ho] at howner
      rw [Option.elim_none, List.append_nil]
      exact h.same howner hworker hheard
    | some own =>
      rw [ho] at howner
      exact h.owned howner hworker hheard

theorem Sound.run (h : r.Sound p) {events : List Event} (hv : r.valid events = true) :
    ∃ q, (r.run events).Sound q := by
  induction events generalizing r p with
  | nil => exact ⟨p, h⟩
  | cons ev events ih =>
    simp only [valid, Bool.and_eq_true] at hv
    obtain ⟨q, hq⟩ := h.step hv.1
    exact ih hq hv.2

/-! What comes of the accepted requests in the end -/

/-- The forwarding posts what has been accepted. -/
theorem Sound.forwards (h : r.Sound p) (ha : r.owner.bridge.alive = true) :
    ∃ n, (∃ q, (r.run (.replicate n .forward)).Sound q) ∧
      (r.run (.replicate n .forward)).accepted = r.accepted ∧
      (r.run (.replicate n .forward)).owner.bridge.seq = r.accepted.length := by
  induction hn : r.owner.bridge.queue.length using Nat.strong_induction_on generalizing r p with
  | h n ih =>
    by_cases hh : r.owner.handing = true
    · obtain ⟨k, hf⟩ : ∃ k, r.owner.bridge.forwarding = .handed (some k) := by
        unfold Bridge.Run.handing at hh
        split at hh
        · exact ⟨_, by assumption⟩
        · cases hh
      obtain ⟨q, hq⟩ : ∃ q, (r.step .forward).Sound q := h.step rfl
      have howner : (r.step .forward).owner = r.owner.step .forward := rfl
      have haccepted : (r.step .forward).accepted = r.accepted := List.append_nil _
      have halive : (r.step .forward).owner.bridge.alive = true := by
        rw [howner, Bridge.Run.alive_step, ha]
        rfl
      have hqueue := (h.owner.posting hf).2.2
      have hless : (r.step .forward).owner.bridge.queue.length < n := by
        rw [howner, hqueue, ← hn, (h.owner.accounted.queue_posting hf).1]
        exact Nat.lt_succ_self _
      obtain ⟨m, hsound, hacc, hseq⟩ := ih _ hless hq halive rfl
      exact ⟨m + 1, hsound, hacc.trans haccepted, hseq.trans (congrArg _ haccepted)⟩
    · exact ⟨0, ⟨p, h⟩, rfl, h.owner.seq_of_idle ha (Bool.eq_false_of_not_eq_true hh)⟩

/-- What has been posted arrives. -/
theorem Sound.hears (h : r.Sound p) :
    ∃ n, (∃ q, (r.run (.replicate n .hear)).Sound q) ∧
      (r.run (.replicate n .hear)).accepted = r.accepted ∧
      (r.run (.replicate n .hear)).owner = r.owner ∧
      (r.run (.replicate n .hear)).inner.heard = r.owner.posted.length := by
  induction hn : r.owner.posted.length - r.inner.heard generalizing r p with
  | zero => exact ⟨0, ⟨p, h⟩, rfl, rfl, Nat.le_antisymm h.heard_le (Nat.le_of_sub_eq_zero hn)⟩
  | succ n ih =>
    obtain ⟨⟨q, hq⟩, haccepted, howner, hheard⟩ := h.hear (by omega)
    obtain ⟨m, hsound, hacc, hown, hall⟩ := ih hq (by rw [howner, hheard]; omega)
    exact ⟨m + 1, hsound, hacc.trans haccepted, hown.trans howner, hall.trans (by rw [howner])⟩

/-- The loop of the worker runs. -/
theorem Sound.turns (h : r.Sound p) (n : Nat) :
    (r.run (.replicate n (.work .turn))).Sound (p.run (Pipeline.Run.turns n)) ∧
      (r.run (.replicate n (.work .turn))).accepted = r.accepted ∧
      (r.run (.replicate n (.work .turn))).arrived = r.arrived := by
  induction n generalizing r p with
  | zero => exact ⟨h, rfl, rfl⟩
  | succ n ih =>
    obtain ⟨hsound, haccepted, harrived⟩ := ih (h.work (m := .turn) rfl)
    have hstep := r.step_work .turn
    have hacc : (r.step (.work .turn)).accepted = r.accepted := by rw [hstep]
    have harr : (r.step (.work .turn)).arrived = r.arrived := by
      rw [hstep]
      rfl
    exact ⟨hsound, haccepted.trans hacc, harrived.trans harr⟩

/-- When the loop has come to rest the client was asked for everything that has arrived. -/
theorem Sound.asked_of_quiet (h : r.Sound p) (hq : p.dispatch.Quiet) :
    r.asked = (r.accepted.take r.arrived).map Request.toValue := by
  rw [h.worker.asked, h.worker.settling.ordered.asked_of_quiet hq, h.worker.taken]

/-- Once everything posted has arrived, all requests with a number have. -/
theorem Sound.arrived_eq (h : r.Sound p) (hall : r.owner.posted.length ≤ r.inner.heard) :
    r.arrived = r.owner.bridge.seq := by
  have hle : r.owner.bridge.seq ≤ r.owner.posted.length := by
    obtain ⟨tail, htail, _⟩ := h.owner.posted
    rw [htail, List.length_append, length_numbered, List.length_take]
    have hseq_le := h.owner.seq_le
    omega
  exact Nat.min_eq_right (Nat.le_trans hle hall)

/-- All that is accepted reaches the client of a worker that is not found gone, without any answer
being waited for. -/
theorem Sound.reaches (h : r.Sound p) (ha : r.owner.bridge.alive = true) : ∃ n m k,
    (r.run (.replicate n .forward ++ .replicate m .hear ++ .replicate k (.work .turn))).asked =
      r.accepted.map Request.toValue := by
  obtain ⟨n, ⟨p, hp⟩, hn, hseq⟩ := h.forwards ha
  obtain ⟨m, ⟨q, hq⟩, hm, howner, hheard⟩ := hp.hears
  obtain ⟨k, hk⟩ := hq.worker.settling.ordered.quiet_turns
  obtain ⟨hsound, haccepted, harrived⟩ := hq.turns k
  refine ⟨n, m, k, ?_⟩
  have hall := hq.arrived_eq (by rw [howner, hheard])
  rw [howner, hseq] at hall
  rw [List.append_assoc, run_append, run_append, hsound.asked_of_quiet hk, harrived, haccepted,
    hall, hm, hn, List.take_length]

/-- The first requests have been posted, and the client was asked for the first ones of them. -/
structure Relayed (r : Relay) (n : Nat) (tail : List Value) : Prop where
  posted : r.owner.posted = numbered (r.accepted.take n) ++ tail
  /-- The message that tells the worker to close comes last. -/
  close : tail = [] ∨ tail = [ToWorker.close.toValue] ∧ n = r.accepted.length ∧
    r.inner.channel.closed = true
  /-- With nothing at hand all requests have been posted, unless the worker was found gone. -/
  idle : r.owner.bridge.alive = true → r.owner.handing = false → n = r.accepted.length
  asked : r.asked <+: (r.accepted.take n).map Request.toValue
  /-- When everything has arrived and the loop has come to rest nothing is left out. -/
  complete : r.inner.heard = r.owner.posted.length → r.worker.dispatch.Quiet →
    r.asked = (r.accepted.take n).map Request.toValue

theorem Sound.relayed (h : r.Sound p) : ∃ n tail, r.Relayed n tail := by
  obtain ⟨tail, htail, hclose⟩ := h.owner.posted
  obtain ⟨rest, hrest, _⟩ := h.worker.settling.ordered.rest
  have hasked : r.asked <+: (r.accepted.take r.arrived).map Request.toValue := by
    rw [← h.worker.taken, h.worker.asked, hrest, List.map_append]
    exact List.prefix_append _ _
  refine ⟨r.owner.bridge.seq, tail, htail, ?_, h.owner.seq_of_idle, ?_, fun hall hq => ?_⟩
  · exact hclose.imp_right fun ⟨ht, hf, hall⟩ => ⟨ht, hall, h.owner.accounted.closed_of_ended hf⟩
  · exact hasked.trans ((List.take_prefix_take_left (Nat.min_le_right _ _)).map _)
  · rw [h.worker.dispatch] at hq
    rw [h.asked_of_quiet hq, h.arrived_eq (Nat.le_of_eq hall.symm)]

/-- The owner posts the accepted requests in order, numbered from one on, and after all of them at
most once that the worker is to close; it does so only when the channel has closed, and not to a
worker that it knows to be gone. All of this passes the check of the worker. The client is asked for
the same requests in the same order, for all of them while the worker is there, and no response
says that nobody listens. -/
theorem relayed_in_order (fired : List (Nat × Value)) (events : List Event)
    (hv : (start fired).valid events = true) {r : Relay} (hr : (start fired).run events = r) :
    (∃ n tail, r.Relayed n tail) ∧
    (∀ ev, ToWorker.close.toValue ∈ (r.step ev).owner.posted.drop r.owner.posted.length →
      r.inner.channel.closed = true ∧ r.owner.bridge.alive = true ∧
        r.owner.posted = numbered r.accepted) ∧
    (∀ m ∈ r.owner.posted, ∃ v message, m.clone = .ok v ∧ ToWorker.ofValue? v = some message) ∧
    (r.owner.bridge.alive = true → ∃ n m k, (r.run (.replicate n .forward ++
      .replicate m .hear ++ .replicate k (.work .turn))).asked = r.accepted.map Request.toValue) ∧
    ∀ v ∈ r.worker.sent, Worker.failureKind v ≠ .string FaultKind.notListening.name := by
  obtain ⟨p, h⟩ := (sound_start fired).run hv
  rw [hr] at h
  refine ⟨h.relayed, fun ev hc => ?_, fun m hm => ?_, h.reaches, h.worker.sent⟩
  · have hposted : ToWorker.close.toValue ∈
        (r.inner.step ev).owner.posted.drop r.inner.owner.posted.length := hc
    rcases r.inner.owner_step ev with ho | ⟨own, ho⟩ <;> rw [ho] at hposted
    · rw [List.drop_length] at hposted
      cases hposted
    · exact h.owner.closes hposted
  · obtain ⟨j, hj⟩ := List.mem_iff_getElem?.mp hm
    rcases Nat.lt_or_ge j r.owner.bridge.seq with hlt | hge
    · obtain ⟨uri, payload, _, hposted⟩ := h.owner.posted_request hlt
      obtain rfl := Option.some.inj (hj.symm.trans hposted)
      exact ⟨_, _, clone_message _ _ _, ofValue_request _ _ _⟩
    · obtain ⟨_, hposted⟩ := h.owner.posted_close hge (List.getElem?_eq_some_iff.mp hj).1
      obtain rfl := Option.some.inj (hj.symm.trans hposted)
      exact ⟨_, _, clone_close, ofValue_close⟩

/-- The second of two requests is accepted while the first one is under way, and the transport is
closed before either is answered. The client fails one of them, and reports no number for the
other. The worker is found gone when it is done. -/
def traffic : List Event :=
  [.caller (.handle "http://a/"), .caller (.send 0 [1] none), .forward, .hear, .work .turn,
    .work .turn, .caller (.send 0 [2] none), .caller .close, .caller (.closeHandle 0), .forward,
    .forward, .work (.answered 0 (.error .null)), .hear, .hear, .work .turn,
    .work (.answered 1 (.ok (some (.steady .null .absent)))), .work (.conclude 0), .work (.conclude 1),
    .listen, .exited 0, .listen, .portClosed]

theorem traffic_relayed : (start []).valid traffic = true ∧
    ((start []).run traffic).accepted.map (·.body) = [[1], [2]] ∧
    ((start []).run traffic).asked = ((start []).run traffic).accepted.map Request.toValue ∧
    ((start []).run traffic).owner.posted =
      numbered ((start []).run traffic).accepted ++ [ToWorker.close.toValue] ∧
    ((start []).run traffic).worker.sent.length = 2 ∧
    ∀ v ∈ ((start []).run traffic).worker.sent,
      Worker.failureKind v ≠ .string FaultKind.notListening.name := by
  have hv : (start []).valid traffic = true := by decide +kernel
  have hposts : ((start []).run traffic).owner.posted.length = 3 := by decide +kernel
  have hbodies : ((start []).run traffic).accepted.map (·.body) = [[1], [2]] := by decide +kernel
  have haccepted : ((start []).run traffic).accepted.length = 2 := by
    rw [← List.length_map (·.body), hbodies]
    rfl
  have hasks : ((start []).run traffic).asked.length = 2 := by decide +kernel
  obtain ⟨⟨n, tail, hposted, hclose, _, hasked, _⟩, _, _, _, hsent⟩ :=
    relayed_in_order [] traffic hv rfl
  rcases hclose with rfl | ⟨rfl, rfl, _⟩
  · rw [hposted, List.append_nil, length_numbered, List.length_take] at hposts
    omega
  · rw [List.take_length] at hposted hasked
    refine ⟨hv, hbodies, hasked.eq_of_length ?_, hposted, by decide +kernel, hsent⟩
    rw [hasks, List.length_map, haccepted]

end Relay
end Courier
