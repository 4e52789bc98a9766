import Courier.Bridge
import Courier.Proofs.Hand
import Courier.Proofs.Intake

/-!
The owner's side of a standalone transport, step by step: what each step settles, what it posts
and how it moves requests between the channel and the table of requests that wait for a response.
-/

namespace Courier

/-- A parcel that a handle makes. -/
def Parcel.Posted (p : Parcel) : Prop :=
  ∃ uri payload, p = .request (Request.post uri payload).toValue

theorem Parcel.Posted.stranger {p : Parcel} (h : p.Posted) : p.stranger? = none := by
  obtain ⟨uri, payload, rfl⟩ := h
  rfl

theorem Parcel.Posted.dropComplaint {p : Parcel} (h : p.Posted) : p.dropComplaint? = none := by
  obtain ⟨uri, payload, rfl⟩ := h
  rfl

/-- The message in which a request is posted. -/
def Request.message (r : Request) (seq : Nat) : Value :=
  ToWorker.carry (.ofNat seq)
    (.record [("url", .string r.url), ("headers", .record r.headers), ("body", .buffer r.body)])

theorem message_post (seq : Nat) (uri : String) (payload : Bytes) :
    Bridge.message? seq (Request.post uri payload).toValue =
      .ok ((Request.post uri payload).message seq) := rfl

namespace Forwarding

def hand : Forwarding → Hand Nat
  | .waiting => .waits
  | .handed k => .holds k
  | .ended => .over

def take (f : Forwarding) (handoff : Option (Channel.Handoff Nat)) : Forwarding :=
  match handoff, f with
  | some h, .waiting => .handed h.value
  | _, f => f

def ofNext : Channel.Next Nat → Forwarding
  | .value k => .handed (some k)
  | .done => .handed none
  | .waits _ => .waiting

@[simp] theorem hand_take (f : Forwarding) (handoff : Option (Channel.Handoff Nat)) :
    (f.take handoff).hand = f.hand.take handoff := by
  cases handoff <;> cases f <;> rfl

@[simp] theorem hand_ofNext (n : Channel.Next Nat) : (ofNext n).hand = Hand.ofNext n := by
  cases n <;> rfl

end Forwarding

namespace Bridge

namespace Effect

def settled? : Effect → Option Settled
  | .settle s => some s
  | _ => none

def posted? : Effect → Option Value
  | .post message => some message
  | _ => none

/-- The receives that effects settle. -/
def settles (effects : List Effect) : List Settled := effects.filterMap settled?

/-- The messages that effects post. -/
def posts (effects : List Effect) : List Value := effects.filterMap posted?

@[simp] theorem settles_nil : settles [] = [] := rfl

@[simp] theorem posts_nil : posts [] = [] := rfl

@[simp] theorem settles_append (a b : List Effect) : settles (a ++ b) = settles a ++ settles b :=
  List.filterMap_append

@[simp] theorem posts_append (a b : List Effect) : posts (a ++ b) = posts a ++ posts b :=
  List.filterMap_append

@[simp] theorem settles_cons (e : Effect) (es : List Effect) :
    settles (e :: es) = e.settled?.toList ++ settles es := by
  cases h : e.settled? <;> simp [settles, h]

@[simp] theorem posts_cons (e : Effect) (es : List Effect) :
    posts (e :: es) = e.posted?.toList ++ posts es := by
  cases h : e.posted? <;> simp [posts, h]

@[simp] theorem settles_settledEffects (s : List Settled) : settles (settledEffects s) = s := by
  induction s with
  | nil => rfl
  | cons x s ih => simpa [settledEffects, settled?] using ih

@[simp] theorem posts_settledEffects (s : List Settled) : posts (settledEffects s) = [] := by
  induction s with
  | nil => rfl
  | cons x s ih => simpa [settledEffects, posted?] using ih

end Effect

open Effect

variable {b : Bridge} {k : Nat}

/-- The accepted calls that have not been posted, the oldest one first. -/
def queue (b : Bridge) : List Nat := Hand.queue b.intake.channel b.forwarding.hand

theorem take_eq (b : Bridge) (handoff : Option (Channel.Handoff Nat)) :
    b.take handoff = ({ b with forwarding := b.forwarding.take handoff }, (b.take handoff).2) := by
  obtain ⟨intake, forwarding, pending, seq, alive⟩ := b
  cases handoff <;> cases forwarding <;> rfl

/-- An answer lets the forwarding run on, and does nothing else. -/
theorem take_effects (b : Bridge) (handoff : Option (Channel.Handoff Nat)) :
    (b.take handoff).2 = [] ∨ (b.take handoff).2 = [.wake] := by
  obtain ⟨intake, forwarding, pending, seq, alive⟩ := b
  cases handoff <;> cases forwarding <;> simp [take]

@[simp] theorem settles_take (handoff : Option (Channel.Handoff Nat)) :
    settles (b.take handoff).2 = [] := by
  obtain h | h := b.take_effects handoff <;> rw [h] <;> rfl

@[simp] theorem posts_take (handoff : Option (Channel.Handoff Nat)) :
    posts (b.take handoff).2 = [] := by
  obtain h | h := b.take_effects handoff <;> rw [h] <;> rfl

/-- The bridge after it has asked for the next request. -/
def asking (b : Bridge) : Bridge :=
  { b with
    intake := { b.intake with channel := b.intake.channel.next.1 }
    forwarding := .ofNext b.intake.channel.next.2 }

theorem takeNext_eq (b : Bridge) : b.takeNext = (b.asking, b.takeNext.2) := by
  unfold takeNext asking
  cases h : b.intake.channel.next with
  | mk c answer => cases answer <;> rfl

theorem takeNext_effects (b : Bridge) : b.takeNext.2 = [] ∨ b.takeNext.2 = [.wake] := by
  unfold takeNext
  cases h : b.intake.channel.next with
  | mk c answer => cases answer <;> simp

@[simp] theorem settles_takeNext : settles b.takeNext.2 = [] := by
  obtain h | h := b.takeNext_effects <;> rw [h] <;> rfl

@[simp] theorem posts_takeNext : posts b.takeNext.2 = [] := by
  obtain h | h := b.takeNext_effects <;> rw [h] <;> rfl

theorem alive_take (handoff : Option (Channel.Handoff Nat)) :
    (b.take handoff).1.alive = b.alive := by rw [take_eq]

theorem alive_takeNext : b.takeNext.1.alive = b.alive := by rw [takeNext_eq]; rfl

/-! Callers -/

theorem send_eq (b : Bridge) (sender : Nat) (request : Request) (signal : Option Nat) :
    (b.send sender request signal).1 =
      { b with
        intake := (b.intake.send sender request signal ()).1
        forwarding := b.forwarding.take (b.intake.send sender request signal ()).2.2.2 } := by
  simp only [send]
  rw [take_eq]

theorem send_accepted (b : Bridge) (sender : Nat) (request : Request) (signal : Option Nat) :
    (b.send sender request signal).2.1 = !b.intake.channel.isClosed sender := by
  cases hc : b.intake.channel.isClosed sender with
  | true => simp [send, Intake.send_eq_of_closed request signal _ hc]
  | false => simp [send, Intake.send_eq_of_open request signal _ hc]

theorem send_reading (b : Bridge) (sender : Nat) (request : Request) (signal : Option Nat) :
    (b.send sender request signal).2.2.1 =
      if b.intake.channel.isClosed sender then none
      else (b.intake.reason? signal).map .refused := by
  cases hc : b.intake.channel.isClosed sender with
  | true => simp [send, Intake.send_eq_of_closed request signal _ hc]
  | false => simp [send, Intake.send_eq_of_open request signal _ hc]

@[simp] theorem settles_send (b : Bridge) (sender : Nat) (request : Request)
    (signal : Option Nat) : settles (b.send sender request signal).2.2.2 = [] := by simp [send]

@[simp] theorem posts_send (b : Bridge) (sender : Nat) (request : Request)
    (signal : Option Nat) : posts (b.send sender request signal).2.2.2 = [] := by simp [send]

@[simp] theorem settles_release (b : Bridge) (sender : Nat) :
    settles (b.release sender).2 = [] := by simp [release]

theorem release_eq (b : Bridge) (sender : Nat) : (b.release sender).1 =
    { b with
      intake := { b.intake with channel := (b.intake.channel.release sender).1 }
      forwarding := b.forwarding.take (b.intake.channel.release sender).2 } := by
  simp only [release]
  rw [take_eq]

theorem queue_release (hc : Hand.Coupled b.intake.channel b.forwarding.hand) (sender : Nat) :
    (b.release sender).1.queue = b.queue := by
  rw [release_eq]
  unfold queue
  rw [Forwarding.hand_take]
  exact hc.queue_release

theorem queue_abort (b : Bridge) (signal : Nat) (reason : Value) :
    (b.abort signal reason).1.queue = b.queue := by
  show Hand.queue (b.intake.abort signal reason).1.channel _ = _
  rw [(Intake.abort_spec b.intake signal reason).1]
  rfl

/-! Forwarding -/

/-- A request has been given the next number, and forwarding is about to ask on. -/
def posting (b : Bridge) (k : Nat) : Bridge :=
  { b with seq := b.seq + 1, pending := b.pending ++ [(b.seq + 1, k)] }

theorem turn_handed {c : Call Unit} {uri : String} {payload : Bytes}
    (hf : b.forwarding = .handed (some k)) (hk : b.intake.calls[k]? = some c)
    (hp : c.parcel = .request (Request.post uri payload).toValue) : b.turn =
      ((b.posting k).asking,
        .post ((Request.post uri payload).message (b.seq + 1)) :: (b.posting k).takeNext.2) := by
  obtain ⟨intake, forwarding, pending, seq, alive⟩ := b
  cases hf
  have ht := congrArg Prod.fst (takeNext_eq
    (posting ⟨intake, .handed (some k), pending, seq, alive⟩ k))
  simp only [turn, hk, forward, hp, Parcel.content, message_post]
  exact Prod.ext ht rfl

/-- At the end of the channel the worker is told to close. -/
theorem turn_handed_none (hf : b.forwarding = .handed none) :
    (b.turn).1 = { b with forwarding := .ended } ∧ settles b.turn.2 = [] ∧
      posts b.turn.2 = if b.alive then [ToWorker.close.toValue] else [] := by
  simp only [turn, hf, true_and]
  split <;> exact ⟨rfl, rfl⟩

/-- The forwarding has nothing to do, has come to the end of the channel or holds a request. -/
theorem turn_cases (b : Bridge) : b.turn = (b, []) ∨ b.forwarding = .handed none ∨
    ∃ k, b.forwarding = .handed (some k) := by
  cases hf : b.forwarding with
  | waiting | ended => exact Or.inl (by simp [turn, hf])
  | handed held =>
    cases held with
    | none => exact Or.inr (Or.inl rfl)
    | some k => exact Or.inr (Or.inr ⟨k, rfl⟩)

theorem alive_turn : b.turn.1.alive = b.alive := by
  unfold turn
  split
  · split
    · unfold forward
      split
      · rfl
      · simp only
        split
        · exact alive_takeNext
        · rfl
    · rfl
  · rfl
  · rfl
  · rfl

/-! Responses -/

/-- The waiting request that a value on the port answers, and the outcome that it brings. -/
def answer? (b : Bridge) (v : Value) : Option ((Nat × Nat) × Outcome) :=
  match FromWorker.ofValue? v with
  | some (.response seq posted) =>
    match b.waitingFor? seq, Outcome.ofPosted posted with
    | some waiting, .ok outcome => some (waiting, outcome)
    | _, _ => none
  | _ => none

/-- A request has been answered, and its call waits no longer. -/
def answered (b : Bridge) (seq : Nat) : Bridge :=
  { b with pending := b.pending.filter (·.1 ≠ seq) }

theorem answer_eq_some {v : Value} {w : Nat × Nat} {o : Outcome} : b.answer? v = some (w, o) ↔
    ∃ seq posted, FromWorker.ofValue? v = some (.response seq posted) ∧
      b.waitingFor? seq = some w ∧ Outcome.ofPosted posted = .ok o := by
  unfold answer?
  cases hv : FromWorker.ofValue? v with
  | none => simp
  | some m =>
    cases m with
    | response seq posted =>
      cases hw : b.waitingFor? seq with
      | none => simp [hw]
      | some w' => cases ho : Outcome.ofPosted posted <;> simp [hw, ho]
    | _ => simp

theorem message_of_answer {v : Value} {seq : Nat} {o : Outcome}
    (h : b.answer? v = some ((seq, k), o)) : b.message v = (b.answered seq).deliver k o := by
  obtain ⟨x, posted, hv, hw, ho⟩ := answer_eq_some.mp h
  simp [message, hv, hw, ho, answered]

theorem message_of_no_answer {v : Value} (h : b.answer? v = none) :
    (b.message v).1 = b ∧ settles (b.message v).2 = [] ∧ posts (b.message v).2 = [] := by
  cases hv : FromWorker.ofValue? v with
  | none => simp [message, hv, settled?, posted?]
  | some m =>
    cases m with
    | response seq posted =>
      cases hw : b.waitingFor? seq with
      | none => simp [message, hv, hw, settled?, posted?]
      | some w =>
        cases ho : Outcome.ofPosted posted with
        | error e => simp [message, hv, hw, ho, settled?, posted?]
        | ok o => simp [answer?, hv, hw, ho] at h
    | _ => simp [message, hv, settled?, posted?]

theorem mem_of_answer {v : Value} {w : Nat × Nat} {o : Outcome} (h : b.answer? v = some (w, o)) :
    w ∈ b.pending := by
  obtain ⟨seq, posted, _, hw, _⟩ := answer_eq_some.mp h
  exact List.mem_of_find?_eq_some hw

theorem deliver_of_posted {c : Call Unit} (hk : b.intake.calls[k]? = some c)
    (hp : c.parcel.Posted) (o : Outcome) :
    (b.deliver k o).1 = { b with intake := (b.intake.deliver k o).1 } ∧
      settles (b.deliver k o).2 = (b.intake.deliver k o).2.2 ∧ posts (b.deliver k o).2 = [] := by
  have hs : b.intake.stranger? k = none := by simp [Intake.stranger?, hk, hp.stranger]
  simp only [deliver, hs, true_and]
  constructor
  · split <;> simp [undelivered, settled?]
  · split <;> simp [undelivered, posted?]

theorem alive_deliver (k : Nat) (o : Outcome) : (b.deliver k o).1.alive = b.alive := by
  unfold deliver
  split
  · split <;> rfl
  · rfl

theorem alive_message (v : Value) : (b.message v).1.alive = b.alive := by
  cases h : b.answer? v with
  | none => rw [(message_of_no_answer h).1]
  | some x => rw [message_of_answer h, alive_deliver]; rfl

/-! The end of the worker -/

theorem droppable_eq {ks : List Nat}
    (h : ∀ k ∈ ks, ∀ c : Call Unit, b.intake.calls[k]? = some c → c.parcel.Posted) :
    b.droppable ks = (ks, none) := by
  induction ks with
  | nil => rfl
  | cons k ks ih =>
    have hn : (b.intake.calls[k]?).bind (·.parcel.dropComplaint?) = none := by
      cases hk : b.intake.calls[k]? with
      | none => rfl
      | some c => exact (h k List.mem_cons_self c hk).dropComplaint
    have hr := ih fun n hn => h n (List.mem_cons_of_mem _ hn)
    simp [droppable, hn, hr]

theorem shutdown_of_dead (h : b.alive = false) (reason : String) : b.shutdown reason = (b, []) := by
  simp [shutdown, h]

theorem alive_shutdown (reason : String) : (b.shutdown reason).1.alive = false := by
  cases h : b.alive with
  | false => simpa [shutdown_of_dead h] using h
  | true =>
    simp only [shutdown, h, Bool.not_true, Bool.false_eq_true, if_false]
    split <;> exact alive_take _

/-- What the end of the worker drops. -/
def owed (b : Bridge) : List Nat := b.intake.channel.live ++ b.pending.map (·.2)

/-- The intake after its receiver has closed the channel. -/
def closedIntake (b : Bridge) : Intake Unit :=
  { b.intake with channel := b.intake.channel.close.1 }

theorem shutdown_of_alive (h : b.alive = true)
    (hp : ∀ (k : Nat) (c : Call Unit), b.intake.calls[k]? = some c → c.parcel.Posted)
    (reason : String) : (b.shutdown reason).1 =
        ⟨(b.closedIntake.dropAll b.owed).1, b.forwarding.take b.intake.channel.close.2.2, [], b.seq,
          false⟩ ∧
      settles (b.shutdown reason).2 = (b.closedIntake.dropAll b.owed).2 ∧
      posts (b.shutdown reason).2 = [] := by
  have hd : droppable
      ⟨b.closedIntake, b.forwarding.take b.intake.channel.close.2.2, b.pending, b.seq, false⟩ b.owed =
        (b.owed, none) := droppable_eq fun k _ c hc => hp k c hc
  have hl : b.intake.channel.close.2.1 = b.intake.channel.live := by rw [Channel.close_eq]
  have ht := settles_take (b := ⟨b.closedIntake, b.forwarding, b.pending, b.seq, false⟩)
    b.intake.channel.close.2.2
  have ht' := posts_take (b := ⟨b.closedIntake, b.forwarding, b.pending, b.seq, false⟩)
    b.intake.channel.close.2.2
  unfold closedIntake at hd ht ht' ⊢
  unfold owed at hd ⊢
  simp only [shutdown, h, Bool.not_true, Bool.false_eq_true, if_false, hl]
  rw [take_eq]
  simp only [hd]
  refine ⟨trivial, ?_, ?_⟩
  · simp [settled?, ht]
  · simp [posted?, ht']

end Bridge
end Courier
