import Courier.Dispatch
import Courier.Proofs.Exchange
import Courier.Proofs.Hand
import Courier.Proofs.Intake

/-!
The dispatch loop with a logger whose calls return. Of what a step does, three things matter
here: the receives it settles, the requests it passes to the client and the queue of calls that
the client has not been asked for yet.
-/

namespace Courier

namespace Effect

def settled? : Effect → Option Settled
  | .settle s => some s
  | _ => none

def asked? : Effect → Option (Nat × Value)
  | .ask k request => some (k, request)
  | _ => none

/-- The receives that effects settle. -/
def settles (effects : List Effect) : List Settled := effects.filterMap settled?

/-- The requests that effects pass to the client, each with its call. -/
def asks (effects : List Effect) : List (Nat × Value) := effects.filterMap asked?

@[simp] theorem settles_nil : settles [] = [] := rfl

@[simp] theorem asks_nil : asks [] = [] := rfl

@[simp] theorem settles_append (a b : List Effect) : settles (a ++ b) = settles a ++ settles b :=
  List.filterMap_append

@[simp] theorem asks_append (a b : List Effect) : asks (a ++ b) = asks a ++ asks b :=
  List.filterMap_append

@[simp] theorem settles_cons (e : Effect) (es : List Effect) :
    settles (e :: es) = e.settled?.toList ++ settles es := by
  cases h : e.settled? <;> simp [settles, h]

@[simp] theorem asks_cons (e : Effect) (es : List Effect) :
    asks (e :: es) = e.asked?.toList ++ asks es := by
  cases h : e.asked? <;> simp [asks, h]

theorem mem_asks {es : List Effect} {k : Nat} {request : Value} (h : .ask k request ∈ es) :
    (k, request) ∈ asks es := List.mem_filterMap.mpr ⟨_, h, rfl⟩

@[simp] theorem settles_settledEffects (s : List Settled) :
    settles (Dispatch.settledEffects s) = s := by
  induction s with
  | nil => rfl
  | cons x s ih => simpa [Dispatch.settledEffects, settled?] using ih

@[simp] theorem asks_settledEffects (s : List Settled) :
    asks (Dispatch.settledEffects s) = [] := by
  induction s with
  | nil => rfl
  | cons x s ih => simpa [Dispatch.settledEffects, asked?] using ih

end Effect

open Effect

/-- A parcel that a typed sender makes: a request whose address can be read. -/
def Parcel.Proper (p : Parcel) : Prop :=
  ∃ content url, p = .request content ∧ content.read "url" = .ok url

theorem Request.proper (r : Request) : (Parcel.request r.toValue).Proper := ⟨_, _, rfl, rfl⟩

theorem Parcel.Proper.dropComplaint {p : Parcel} (h : p.Proper) : p.dropComplaint? = none := by
  obtain ⟨content, url, rfl, -⟩ := h
  rfl

namespace Loop

def hand : Loop → Hand Nat
  | .unstarted => .apart
  | .waiting => .waits
  | .handed k => .holds k
  | .draining _ | .ended _ => .over

def take (l : Loop) (handoff : Option (Channel.Handoff Nat)) : Loop :=
  match handoff, l with
  | some h, .waiting => .handed h.value
  | _, l => l

def ofNext : Channel.Next Nat → Loop
  | .value k => .handed (some k)
  | .done => .handed none
  | .waits _ => .waiting

@[simp] theorem hand_take (l : Loop) (handoff : Option (Channel.Handoff Nat)) :
    (l.take handoff).hand = l.hand.take handoff := by
  cases handoff <;> cases l <;> rfl

@[simp] theorem hand_ofNext (n : Channel.Next Nat) : (ofNext n).hand = Hand.ofNext n := by
  cases n <;> rfl

end Loop

namespace Dispatch

variable {d : Dispatch} {k : Nat}

/-- The accepted calls that the client has not been asked for, the oldest one first. -/
def queue (d : Dispatch) : List Nat := Hand.queue d.intake.channel d.loop.hand

/-- A loop and its channel belong together, and the calls in the queue have not begun. -/
structure Sound (d : Dispatch) : Prop where
  coupled : Hand.Coupled d.intake.channel d.loop.hand
  nodup : d.queue.Nodup
  queued : ∀ k ∈ d.queue, ∃ c : Call Stage, d.intake.calls[k]? = some c ∧ c.progress = .waiting
  proper : ∀ (k : Nat) (c : Call Stage), d.intake.calls[k]? = some c → c.parcel.Proper

theorem queue_handed (hl : d.loop = .handed (some k)) :
    d.queue = k :: d.intake.channel.live := by
  rw [queue, hl]
  rfl

/-- The call in hand is there, and it is a request whose address can be read. -/
theorem Sound.handed (h : d.Sound) (hl : d.loop = .handed (some k)) :
    ∃ (c : Call Stage) (content url : Value), d.intake.calls[k]? = some c ∧
      c.parcel = .request content ∧ content.read "url" = .ok url := by
  obtain ⟨c, hk, _⟩ := h.queued k (by rw [queue_handed hl]; exact List.mem_cons_self)
  obtain ⟨content, url, hp, hu⟩ := h.proper k c hk
  exact ⟨c, content, url, hk, hp, hu⟩

/-- What the loop has said does not matter. -/
theorem Sound.congr {e : Dispatch} (h : d.Sound) (hi : e.intake = d.intake)
    (hl : e.loop = d.loop) : e.Sound := by
  have hq : e.queue = d.queue := by rw [queue, queue, hi, hl]
  refine ⟨?_, ?_, ?_, ?_⟩
  · rw [hi, hl]
    exact h.coupled
  · rw [hq]
    exact h.nodup
  · rw [hq, hi]
    exact h.queued
  · rw [hi]
    exact h.proper

theorem take_eq (d : Dispatch) (handoff : Option (Channel.Handoff Nat)) :
    d.take handoff = ({ d with loop := d.loop.take handoff }, (d.take handoff).2) := by
  obtain ⟨intake, loop, said⟩ := d
  cases handoff <;> cases loop <;> rfl

/-- An answer lets the loop run on, and does nothing else. -/
theorem take_effects (d : Dispatch) (handoff : Option (Channel.Handoff Nat)) :
    (d.take handoff).2 = [] ∨ (d.take handoff).2 = [.wake] := by
  obtain ⟨intake, loop, said⟩ := d
  cases handoff <;> cases loop <;> simp [take]

@[simp] theorem settles_take (handoff : Option (Channel.Handoff Nat)) :
    settles (d.take handoff).2 = [] := by
  obtain h | h := d.take_effects handoff <;> rw [h] <;> rfl

@[simp] theorem asks_take (handoff : Option (Channel.Handoff Nat)) :
    asks (d.take handoff).2 = [] := by
  obtain h | h := d.take_effects handoff <;> rw [h] <;> rfl

/-- The loop after it has asked for the next call. -/
def asking (d : Dispatch) : Dispatch :=
  { d with
    intake := { d.intake with channel := d.intake.channel.next.1 }
    loop := .ofNext d.intake.channel.next.2 }

theorem takeNext_eq (d : Dispatch) : d.takeNext = (d.asking, d.takeNext.2) := by
  unfold takeNext asking
  cases h : d.intake.channel.next with
  | mk c answer => cases answer <;> rfl

theorem takeNext_effects (d : Dispatch) : d.takeNext.2 = [] ∨ d.takeNext.2 = [.wake] := by
  unfold takeNext
  cases h : d.intake.channel.next with
  | mk c answer => cases answer <;> simp

@[simp] theorem settles_takeNext : settles d.takeNext.2 = [] := by
  obtain h | h := d.takeNext_effects <;> rw [h] <;> rfl

@[simp] theorem asks_takeNext : asks d.takeNext.2 = [] := by
  obtain h | h := d.takeNext_effects <;> rw [h] <;> rfl

theorem asking_coupled (hs : d.intake.channel.Sound) (hw : d.intake.channel.waiter = none) :
    Hand.Coupled d.asking.intake.channel d.asking.loop.hand := by
  simpa [asking] using (Hand.coupled_next hs hw).1

theorem asking_queue (hs : d.intake.channel.Sound) (hw : d.intake.channel.waiter = none) :
    d.asking.queue = d.intake.channel.live := by
  simpa [queue, asking] using (Hand.coupled_next hs hw).2

/-! Turns of the loop -/

/-- The unit of a call begins. -/
def begun (c : Call Stage) : Call Stage := { c with progress := .running .asking }

/-- The unit of a call has begun, and the loop is about to ask on. -/
def began (d : Dispatch) (k : Nat) : Dispatch :=
  { d with intake := { d.intake with calls := d.intake.calls.modify k begun }, said := d.said + 1 }

theorem turn_unstarted (hl : d.loop = .unstarted) : d.turn Log.calm = (d.asking, d.takeNext.2) := by
  rw [← takeNext_eq]
  simp [turn, hl]

theorem turn_handed {c : Call Stage} {content url : Value} (hl : d.loop = .handed (some k))
    (hk : d.intake.calls[k]? = some c) (hp : c.parcel = .request content)
    (hu : content.read "url" = .ok url) : d.turn Log.calm = ((d.began k).asking,
      [.log ⟨.debug, "Dispatching request:", [.record [("url", url)]]⟩, .ask k content]
        ++ (d.began k).takeNext.2) := by
  obtain ⟨intake, loop, said⟩ := d
  cases hl
  have ht := congrArg Prod.fst (takeNext_eq (began ⟨intake, .handed (some k), said⟩ k))
  simp only [turn, hk, start, hp, Parcel.content, Parcel.url, bind, Except.bind, hu, say,
    Log.calm, Intake.setProgress]
  exact Prod.ext ht rfl

/-- The ways in which a turn of the loop may go. -/
inductive Turn (d : Dispatch) : Dispatch × List Effect → Prop where
  | asks (hl : d.loop = .unstarted) : Turn d (d.asking, d.takeNext.2)
  /-- There is nothing to do yet, or no more. -/
  | rests (hh : d.loop.hand = .waits ∨ d.loop.hand = .over) : Turn d (d, [])
  | begins {k : Nat} {c : Call Stage} {content : Value} (url : Value)
      (hl : d.loop = .handed (some k)) (hk : d.intake.calls[k]? = some c)
      (hp : c.parcel = .request content) : Turn d ((d.began k).asking,
        [.log ⟨.debug, "Dispatching request:", [.record [("url", url)]]⟩, .ask k content]
          ++ (d.began k).takeNext.2)
  | drains (hl : d.loop = .handed none) :
      Turn d ({ d with loop := .draining none, said := d.said + 1 },
        [.log ⟨.debug, "Request channel closed, in-flight requests:", [Value.nat d.inFlight]⟩]
          ++ if d.inFlight = 0 then [.wake] else [])
  | ends (hl : d.loop = .draining none) (hf : d.inFlight = 0) : Turn d (d.finish (.ok ()))
  | fails {v : Value} (hl : d.loop = .draining (some v)) : Turn d (d.finish (.error v))

theorem Sound.turned (h : d.Sound) : ∃ r, d.turn Log.calm = r ∧ Turn d r := by
  refine ⟨_, rfl, ?_⟩
  cases hl : d.loop with
  | unstarted =>
    rw [turn_unstarted hl]
    exact .asks hl
  | waiting | ended =>
    have ht : d.turn Log.calm = (d, []) := by simp [turn, hl]
    rw [ht]
    exact .rests (by simp [hl, Loop.hand])
  | handed call =>
    cases call with
    | none =>
      simp only [turn, hl, say, Log.calm]
      exact .drains hl
    | some k =>
      obtain ⟨c, content, url, hk, hp, hu⟩ := h.handed hl
      rw [turn_handed hl hk hp hu]
      exact .begins url hl hk hp
  | draining failure =>
    cases failure with
    | some v =>
      simp only [turn, hl]
      exact .fails hl
    | none =>
      simp only [turn, hl]
      split
      · exact .ends hl ‹_›
      · exact .rests (Or.inr (by rw [hl]; rfl))

/-- A step leaves the senders, the signals and the link of the loop to its channel as they are. -/
structure Moved (d e : Dispatch) : Prop where
  gate : e.intake.channel.gate = d.intake.channel.gate
  fired : e.intake.fired = d.intake.fired
  coupled : Hand.Coupled e.intake.channel e.loop.hand

theorem moved_asking (hs : d.intake.channel.Sound) (hw : d.intake.channel.waiter = none) :
    Moved d d.asking := ⟨Channel.gate_next, rfl, asking_coupled hs hw⟩

/-- At the end of the channel the loop does not ask on. -/
theorem moved_over {e : Dispatch} (h : d.Sound)
    (hd : d.loop.hand = .over ∨ d.loop.hand = .holds none) (hi : e.intake = d.intake)
    (he : e.loop.hand = .over) : Moved d e ∧ e.queue = d.queue := by
  have hend := h.coupled.ended hd
  have hw := h.coupled.waiter_of_ne (by rcases hd with hd | hd <;> simp [hd])
  refine ⟨⟨by rw [hi], by rw [hi], ?_⟩, ?_⟩
  · rw [hi]
    exact ⟨h.coupled.sound, by simp [he, hw], fun _ => hend⟩
  · rcases hd with hd | hd <;> simp [queue, Hand.queue, hi, hd, he, Hand.values]

/-- A turn passes the call in hand to the client, or leaves the queue alone. -/
theorem turn_cases (h : d.Sound) : Moved d (d.turn Log.calm).1 ∧
    settles (d.turn Log.calm).2 = [] ∧
      ((asks (d.turn Log.calm).2 = [] ∧ (d.turn Log.calm).1.queue = d.queue ∧
          (d.turn Log.calm).1.intake.calls = d.intake.calls) ∨
        ∃ k c content, d.loop = .handed (some k) ∧ d.intake.calls[k]? = some c ∧
          c.parcel = .request content ∧ asks (d.turn Log.calm).2 = [(k, content)] ∧
          d.queue = k :: (d.turn Log.calm).1.queue ∧
          (d.turn Log.calm).1.intake.calls = d.intake.calls.modify k begun) := by
  have hc := h.coupled
  obtain ⟨r, hr, ht⟩ := h.turned
  rw [hr]
  cases ht with
  | asks hl =>
    have hw := hc.waiter_of_ne (by simp [hl, Loop.hand])
    refine ⟨moved_asking hc.sound hw, settles_takeNext, Or.inl ⟨asks_takeNext, ?_, rfl⟩⟩
    rw [asking_queue hc.sound hw, queue, hl]
    rfl
  | rests => exact ⟨⟨rfl, rfl, hc⟩, rfl, Or.inl ⟨rfl, rfl, rfl⟩⟩
  | @begins k c content url hl hk hp =>
    have hw := hc.waiter_of_ne (by simp [hl, Loop.hand])
    have hm := moved_asking (d := d.began k) hc.sound hw
    refine ⟨⟨hm.gate, hm.fired, hm.coupled⟩, by simp [settled?],
      Or.inr ⟨k, c, content, hl, hk, hp, by simp [asked?], ?_, rfl⟩⟩
    rw [asking_queue (d := d.began k) hc.sound hw, queue_handed hl]
    rfl
  | drains hl =>
    obtain ⟨hm, hq⟩ := moved_over (e := { d with loop := .draining none, said := d.said + 1 }) h
      (Or.inr (by rw [hl]; rfl)) rfl rfl
    refine ⟨hm, ?_, Or.inl ⟨?_, hq, rfl⟩⟩ <;> split <;> rfl
  | ends hl | fails hl =>
    obtain ⟨hm, hq⟩ := moved_over (e := (d.finish _).1) h (Or.inl (by rw [hl]; rfl)) rfl rfl
    exact ⟨hm, rfl, Or.inl ⟨rfl, hq, rfl⟩⟩

end Dispatch

/-! Steps of one unit -/

namespace Stage

/-- Moves the exchange of a running unit. -/
def mapExchange (f : Exchange → Exchange) : Stage → Stage
  | .running e => .running (f e)
  | s => s

end Stage

/-- A unit whose exchange is over ends. -/
def Call.concluded (c : Call Stage) : Call Stage :=
  match c.progress with
  | .running (.over r) => { c with slot := c.slot.concluded r, progress := .ended none }
  | _ => c

/-- A unit that has ended is no longer counted. -/
def Stage.retire : Stage → Stage
  | .ended failure => .retired failure
  | s => s

/-- What may happen next: the loop runs, the client of a call gets on, or the unit of a call
does. -/
inductive Move where
  | turn
  | answered (k : Nat) (r : Attempt (Option Response))
  | chunk (k : Nat) (v : Value)
  | bodyEnded (k : Nat) (r : Attempt Memory)
  | conclude (k : Nat)
  | retire (k : Nat)

/-- The call that a move is about. -/
def Move.own? : Move → Option Nat
  | .turn => none
  | .answered k _ | .chunk k _ | .bodyEnded k _ | .conclude k | .retire k => some k

/-- Only a turn of the loop is about no call. -/
theorem Move.eq_turn {m : Move} (h : m.own? = none) : m = .turn := by
  cases m with
  | turn => rfl
  | answered | chunk | bodyEnded | conclude | retire => cases h

/-- What a move does to its own call. -/
def Call.moved (m : Move) (c : Call Stage) : Call Stage :=
  match m with
  | .turn => c
  | .answered _ r => { c with progress := c.progress.mapExchange (.answer r) }
  | .chunk _ v => { c with progress := c.progress.mapExchange (·.chunk v) }
  | .bodyEnded _ r => { c with progress := c.progress.mapExchange (·.bodyEnded r) }
  | .conclude _ => c.concluded
  | .retire _ => { c with progress := c.progress.retire }

namespace Dispatch

variable {d : Dispatch} {k : Nat}

def move (d : Dispatch) : Move → Dispatch × List Effect
  | .turn => d.turn Log.calm
  | .answered k r => d.answered k r
  | .chunk k v => d.chunk k v
  | .bodyEnded k r => d.bodyEnded k r
  | .conclude k => d.conclude Log.calm k
  | .retire k => d.retire k

/-- One call has changed, and what the caller has to learn is told. -/
structure Touched (d : Dispatch) (k : Nat) (f : Call Stage → Call Stage)
    (r : Dispatch × List Effect) : Prop where
  channel : r.1.intake.channel = d.intake.channel
  fired : r.1.intake.fired = d.intake.fired
  hand : r.1.loop.hand = d.loop.hand
  calls : r.1.intake.calls = d.intake.calls.modify k f
  settles : settles r.2 = (d.intake.news (fun c => (f c).slot) k).toList
  asks : asks r.2 = []

theorem news_same {f : Call Stage → Slot Outcome}
    (h : ∀ c, d.intake.calls[k]? = some c → f c = c.slot) : d.intake.news f k = none := by
  cases hc : d.intake.calls[k]? with
  | none => simp [Intake.news, hc]
  | some c =>
    simp only [Intake.news, hc, h c hc, Option.bind_some, Option.map_eq_none_iff]
    unfold Slot.settledSince
    split <;> simp_all

theorem quiet_news {f : Call Stage → Slot Outcome}
    (h : ∀ c, d.intake.calls[k]? = some c → f c = c.slot) : (d.intake.news f k).toList = [] := by
  rw [news_same h]
  rfl

theorem touched_nothing {f : Call Stage → Call Stage}
    (h : ∀ c, d.intake.calls[k]? = some c → f c = c) : Touched d k f (d, []) where
  channel := rfl
  fired := rfl
  hand := rfl
  calls := (modify_same h).symm
  settles := by rw [news_same fun c hc => by rw [h c hc]]; rfl
  asks := rfl

/-- The exchange of a unit that runs moves, and nothing else does. -/
theorem progress_cases (d : Dispatch) (k : Nat) (step : Exchange → Exchange × List Effect) :
    (∃ e, d.intake.progress? k = some (.running e) ∧ d.progress k step =
      ({ d with intake := d.intake.setProgress k (.running (step e).1) },
        (step e).2 ++ follow k (step e).1)) ∨
    (∀ e, d.intake.progress? k ≠ some (.running e)) ∧ d.progress k step = (d, []) := by
  unfold progress
  split
  · next e hp => exact Or.inl ⟨e, hp, rfl⟩
  · next h => exact Or.inr ⟨h, rfl⟩

theorem touched_progress {f : Exchange → Exchange} {step : Exchange → Exchange × List Effect}
    (hf : ∀ e, (step e).1 = f e) (hs : ∀ e, settles (step e).2 = [])
    (ha : ∀ e, asks (step e).2 = []) :
    Touched d k (fun c => { c with progress := c.progress.mapExchange f }) (d.progress k step) := by
  obtain ⟨e, hp, hd⟩ | ⟨hidle, hd⟩ := d.progress_cases k step <;> rw [hd]
  · have hfollow : settles (follow k (f e)) = [] ∧ asks (follow k (f e)) = [] := by
      cases f e <;> exact ⟨rfl, rfl⟩
    refine ⟨rfl, rfl, rfl, ?_, ?_, ?_⟩
    · rw [Intake.calls_setProgress]
      refine modify_congr fun c hc => ?_
      have hr : c.progress = .running e := by simpa [Intake.progress?, hc] using hp
      simp [hr, hf, Stage.mapExchange]
    · simp [hs, hf, hfollow, news_same]
    · simp [ha, hf, hfollow]
  · refine touched_nothing fun c hc => ?_
    have hsame : c.progress.mapExchange f = c.progress := by
      cases hr : c.progress with
      | running e => exact (hidle e (by simp [Intake.progress?, hc, hr])).elim
      | waiting | ended | retired => rfl
    rw [hsame]

theorem touched_answered (r : Attempt (Option Response)) :
    Touched d k (Call.moved (.answered k r)) (d.answered k r) := by
  refine touched_progress (fun e => ?_) (fun e => ?_) (fun e => ?_)
  · cases e <;> rfl
  · cases e <;> first | rfl | (simp only; split <;> rfl)
  · cases e <;> first | rfl | (simp only; split <;> rfl)

theorem touched_chunk (v : Value) : Touched d k (Call.moved (.chunk k v)) (d.chunk k v) :=
  touched_progress (fun _ => rfl) (fun _ => rfl) (fun _ => rfl)

theorem touched_bodyEnded (r : Attempt Memory) :
    Touched d k (Call.moved (.bodyEnded k r)) (d.bodyEnded k r) :=
  touched_progress (fun _ => rfl) (fun _ => rfl) (fun _ => rfl)

/-- The outcome of a proper call is delivered, received or not. -/
theorem complete_ok {c : Call Stage} (hk : d.intake.calls[k]? = some c) (hp : c.parcel.Proper)
    (o : Outcome) : ∃ said es, d.complete Log.calm k c.parcel (.ok o) =
      (⟨(d.intake.deliver k o).1, d.loop, said⟩, es, none) ∧
        settles es = (d.intake.deliver k o).2.2 ∧ asks es = [] := by
  obtain ⟨content, url, hp, hu⟩ := hp
  have hs : d.intake.stranger? k = none := by simp [Intake.stranger?, hk, hp, Parcel.stranger?]
  simp only [complete, hp, Parcel.url, Parcel.content, bind, Except.bind, hu, say, Log.calm,
    deliver, hs, undelivered]
  by_cases hr : (d.intake.deliver k o).2.1 = true
  · simp only [hr, if_true]
    exact ⟨_, _, rfl, by simp [settled?], by simp [asked?]⟩
  · simp only [hr]
    exact ⟨_, _, rfl, by simp [settled?], by simp [asked?]⟩

/-- After a delivery there is nothing left to drop. -/
theorem drop_deliver {i : Intake Stage} {c : Call Stage} (hk : i.calls[k]? = some c) (o : Outcome) :
    ((i.deliver k o).1.drop k).1 = (i.deliver k o).1 ∧ ((i.deliver k o).1.drop k).2 = [] := by
  have hc : (i.deliver k o).1.calls[k]? = some (c.reslot fun c => (c.slot.send o).1) := by
    rw [Intake.deliver_eq, hk]
    simp only
    rw [Array.getElem?_modify, if_pos rfl, hk]
    rfl
  have ht := Intake.touch_same (f := (·.slot.drop)) hc (Slot.drop_send c.slot o)
  have hd : (i.deliver k o).1.drop k = (i.deliver k o).1.touch (·.slot.drop) k := by
    rw [Intake.drop_eq, Intake.touch_eq]
  rw [hd, ht]
  exact ⟨rfl, rfl⟩

theorem conclude_ok {c : Call Stage} {o : Outcome} (hk : d.intake.calls[k]? = some c)
    (hp : c.parcel.Proper) (hr : c.progress = .running (.over (.ok o))) :
    ∃ said es, d.conclude Log.calm k =
      (⟨(d.intake.deliver k o).1.setProgress k (.ended none), d.loop, said⟩, es) ∧
        settles es = (d.intake.deliver k o).2.2 ∧ asks es = [] := by
  obtain ⟨said, es, hcomp, hs, ha⟩ := complete_ok hk hp o
  obtain ⟨hd, hd'⟩ := drop_deliver hk o
  refine ⟨said, es ++ [.retire k], ?_, by simp [hs, settled?], by simp [ha, asked?]⟩
  simp [conclude, hk, hr, hcomp, hd, hd', hp.dropComplaint, settledEffects]

theorem conclude_error {c : Call Stage} {v : Value} (hk : d.intake.calls[k]? = some c)
    (hp : c.parcel.Proper) (hr : c.progress = .running (.over (.error v))) :
    ∃ said es, d.conclude Log.calm k =
      (⟨(d.intake.drop k).1.setProgress k (.ended none), d.loop, said⟩, es) ∧
        settles es = (d.intake.drop k).2 ∧ asks es = [] := by
  refine ⟨d.said + 1, [.log ⟨.error, "Request processing failed:", [v]⟩]
    ++ settledEffects (d.intake.drop k).2 ++ [.retire k], ?_, by simp [settled?], by simp [asked?]⟩
  simp [conclude, hk, hr, complete, hp.dropComplaint, say, Log.calm]

/-- The exchange of a unit is over, or it is not. -/
theorem over_or_idle (d : Dispatch) (k : Nat) :
    (∃ (c : Call Stage) (result : Attempt Outcome),
      d.intake.calls[k]? = some c ∧ c.progress = .running (.over result)) ∨
    ∀ (c : Call Stage) (result : Attempt Outcome), d.intake.calls[k]? = some c →
      c.progress ≠ .running (.over result) := by
  by_cases h : ∃ (c : Call Stage) (result : Attempt Outcome),
    d.intake.calls[k]? = some c ∧ c.progress = .running (.over result)
  · exact Or.inl h
  · exact Or.inr fun c result hk hr => h ⟨c, result, hk, hr⟩

/-- A unit whose exchange is not over does not end. -/
theorem conclude_idle (react : Log.Reaction) (h : ∀ (c : Call Stage) (result : Attempt Outcome),
    d.intake.calls[k]? = some c → c.progress ≠ .running (.over result)) :
    d.conclude react k = (d, []) := by
  unfold conclude
  cases hk : d.intake.calls[k]? with
  | none => rfl
  | some c =>
    dsimp only
    split
    · rename_i result hr
      exact (h c result hk hr).elim
    · rfl

/-- A unit goes on, or ends without an outcome, or with one. -/
theorem conclude_cases (hp : ∀ c, d.intake.calls[k]? = some c → c.parcel.Proper) :
    ((∀ (c : Call Stage) (result : Attempt Outcome), d.intake.calls[k]? = some c →
        c.progress ≠ .running (.over result)) ∧ d.conclude Log.calm k = (d, [])) ∨
      (∃ (c : Call Stage) (v : Value) (said : Nat) (es : List Effect),
        d.intake.calls[k]? = some c ∧ c.progress = .running (.over (.error v)) ∧
        d.conclude Log.calm k =
          (⟨(d.intake.drop k).1.setProgress k (.ended none), d.loop, said⟩, es) ∧
        settles es = (d.intake.drop k).2 ∧ asks es = []) ∨
      ∃ (c : Call Stage) (o : Outcome) (said : Nat) (es : List Effect),
        d.intake.calls[k]? = some c ∧ c.progress = .running (.over (.ok o)) ∧
        d.conclude Log.calm k =
          (⟨(d.intake.deliver k o).1.setProgress k (.ended none), d.loop, said⟩, es) ∧
        settles es = (d.intake.deliver k o).2.2 ∧ asks es = [] := by
  rcases d.over_or_idle k with ⟨c, result, hk, hr⟩ | hidle
  · cases result with
    | error v =>
      obtain ⟨said, es, hd⟩ := conclude_error hk (hp c hk) hr
      exact Or.inr (Or.inl ⟨c, v, said, es, hk, hr, hd⟩)
    | ok o =>
      obtain ⟨said, es, hd⟩ := conclude_ok hk (hp c hk) hr
      exact Or.inr (Or.inr ⟨c, o, said, es, hk, hr, hd⟩)
  · exact Or.inl ⟨hidle, conclude_idle Log.calm hidle⟩

theorem touched_conclude (hp : ∀ c, d.intake.calls[k]? = some c → c.parcel.Proper) :
    Touched d k Call.concluded (d.conclude Log.calm k) := by
  have hsame : ∀ {c : Call Stage} {f : Call Stage → Slot Outcome}, d.intake.calls[k]? = some c →
      f c = c.concluded.slot → d.intake.news f k = d.intake.news (fun c => c.concluded.slot) k :=
    fun hk hf => by simp [Intake.news, hk, hf]
  obtain ⟨hidle, hd⟩ | ⟨c, v, said, es, hk, hr, hd, hs, ha⟩ | ⟨c, o, said, es, hk, hr, hd, hs, ha⟩ :=
    conclude_cases hp
  · rw [hd]
    refine touched_nothing fun c hk => ?_
    unfold Call.concluded
    split
    · rename_i result hr
      exact (hidle c result hk hr).elim
    · rfl
  · rw [hd]
    refine ⟨by rw [Intake.drop_eq]; rfl, by rw [Intake.drop_eq]; rfl, rfl, ?_, ?_, ha⟩
    · rw [Intake.drop_eq]
      rw [Intake.calls_setProgress, modify_modify]
      refine modify_congr fun x hx => ?_
      obtain rfl := Option.some.inj (hk.symm.trans hx)
      simp [Call.concluded, hr, Slot.concluded, Call.reslot]
    · rw [hs, Intake.drop_eq, hsame hk (by simp [Call.concluded, hr, Slot.concluded])]
  · rw [hd]
    rw [Intake.deliver_eq, hk] at hs ⊢
    refine ⟨rfl, rfl, rfl, ?_, ?_, ha⟩
    · rw [Intake.calls_setProgress, modify_modify]
      refine modify_congr fun x hx => ?_
      obtain rfl := Option.some.inj (hk.symm.trans hx)
      simp [Call.concluded, hr, Slot.concluded, Call.reslot]
    · rw [hs, hsame hk (by simp [Call.concluded, hr, Slot.concluded])]

/-- The ways in which the loop may stop counting a unit. -/
inductive Retirement (d : Dispatch) (k : Nat) : Dispatch × List Effect → Prop where
  /-- There is no unit that has ended. -/
  | idle (h : ∀ failure, d.intake.progress? k ≠ some (.ended failure)) : Retirement d k (d, [])
  | counted {failure : Option Value} {es : List Effect}
      (h : d.intake.progress? k = some (.ended failure))
      (hes : es = [] ∨ es = [.drained] ∨ ∃ v, failure = some v ∧ es = [.unhandled v]) :
      Retirement d k ({ d with intake := d.intake.setProgress k (.retired failure) }, es)
  /-- The loop waits for the unit, which has failed. -/
  | fails {v : Value} (h : d.intake.progress? k = some (.ended (some v)))
      (hl : d.loop = .draining none) : Retirement d k
        ({ d with intake := d.intake.setProgress k (.retired (some v)), loop := .draining (some v) },
          [.drained])

theorem retirement (d : Dispatch) (k : Nat) : ∃ r, d.retire k = r ∧ Retirement d k r := by
  refine ⟨_, rfl, ?_⟩
  unfold retire
  split
  · next failure hp =>
    dsimp only
    split
    · next hl => exact .fails hp hl
    · exact .counted hp (by split <;> simp)
    · exact .counted hp (Or.inl rfl)
    · exact .counted hp (Or.inr (Or.inr ⟨_, rfl, rfl⟩))
    · exact .counted hp (Or.inl rfl)
  · next h => exact .idle h

theorem touched_retire : Touched d k (Call.moved (.retire k)) (d.retire k) := by
  have hnews := quiet_news (d := d) (k := k) (f := fun c => (c.moved (.retire k)).slot)
    fun _ _ => rfl
  have hcalls {failure : Option Value} (h : d.intake.progress? k = some (.ended failure)) :
      (d.intake.setProgress k (.retired failure)).calls =
        d.intake.calls.modify k (Call.moved (.retire k)) := by
    rw [Intake.calls_setProgress]
    refine modify_congr fun c hk => ?_
    have hr : c.progress = .ended failure := by simpa [Intake.progress?, hk] using h
    simp [Call.moved, hr, Stage.retire]
  obtain ⟨r, hr, ht⟩ := d.retirement k
  rw [hr]
  cases ht with
  | idle h =>
    refine touched_nothing fun c hk => ?_
    have hs : c.progress.retire = c.progress := by
      cases hp : c.progress with
      | ended failure => exact (h failure (by simp [Intake.progress?, hk, hp])).elim
      | waiting | running | retired => rfl
    simp only [Call.moved, hs]
  | counted h hes =>
    refine ⟨rfl, rfl, rfl, hcalls h, ?_, ?_⟩
    · rw [hnews]
      rcases hes with rfl | rfl | ⟨v, _, rfl⟩ <;> rfl
    · rcases hes with rfl | rfl | ⟨v, _, rfl⟩ <;> rfl
  | fails h hl => exact ⟨rfl, rfl, by rw [hl]; rfl, hcalls h, hnews.symm, rfl⟩

/-- A move that is about a call changes that call alone. -/
theorem touched_move {m : Move} (h : d.Sound) (hm : m.own? = some k) :
    Touched d k (Call.moved m) (d.move m) := by
  cases m with
  | turn => simp [Move.own?] at hm
  | answered _ r => cases hm; exact touched_answered r
  | chunk _ v => cases hm; exact touched_chunk v
  | bodyEnded _ r => cases hm; exact touched_bodyEnded r
  | conclude _ => cases hm; exact touched_conclude (h.proper k)
  | retire _ => cases hm; exact touched_retire

/-! Callers -/

/-- A call has come in on a sender. -/
structure Arrived (d e : Dispatch) (sender : Nat) (c : Call Stage) : Prop where
  channel : e.intake.channel = (d.intake.channel.send sender d.intake.calls.size).1
  loop : e.loop = d.loop.take (d.intake.channel.send sender d.intake.calls.size).2.2
  calls : e.intake.calls = d.intake.calls.push c
  fired : e.intake.fired = d.intake.fired

theorem arrived_offer (d : Dispatch) (sender : Nat) (p : Parcel) :
    Arrived d (d.offer sender p).1 sender ⟨p, .new, none, .waiting⟩ := by
  simp only [offer]
  rw [take_eq]
  exact ⟨rfl, rfl, rfl, rfl⟩

theorem offer_accepted (d : Dispatch) (sender : Nat) (p : Parcel) :
    (d.offer sender p).2.1 = !d.intake.channel.isClosed sender := by
  simp [offer, Intake.offer]

theorem quiet_offer (d : Dispatch) (sender : Nat) (p : Parcel) :
    settles (d.offer sender p).2.2 = [] ∧ asks (d.offer sender p).2.2 = [] := by
  simp [offer]

theorem arrived_send (d : Dispatch) (sender : Nat) (request : Request) (signal : Option Nat) :
    Arrived d (d.send sender request signal).1 sender
      (d.intake.sent sender request signal .waiting) := by
  simp only [send]
  rw [take_eq]
  cases hc : d.intake.channel.isClosed sender with
  | true =>
    have hs := Channel.send_refused (a := d.intake.calls.size) hc
    rw [Intake.send_eq_of_closed request signal _ hc]
    exact ⟨by rw [hs], by rw [hs], rfl, rfl⟩
  | false =>
    rw [Intake.send_eq_of_open request signal _ hc]
    exact ⟨rfl, rfl, rfl, rfl⟩

theorem send_accepted (d : Dispatch) (sender : Nat) (request : Request) (signal : Option Nat) :
    (d.send sender request signal).2.1 = !d.intake.channel.isClosed sender := by
  cases hc : d.intake.channel.isClosed sender with
  | true => simp [send, Intake.send_eq_of_closed request signal _ hc]
  | false => simp [send, Intake.send_eq_of_open request signal _ hc]

theorem quiet_send (d : Dispatch) (sender : Nat) (request : Request) (signal : Option Nat) :
    settles (d.send sender request signal).2.2.2 = [] ∧
      asks (d.send sender request signal).2.2.2 = [] := by
  simp [send]

theorem Sound.size_notMem (h : d.Sound) : d.intake.calls.size ∉ d.queue := by
  intro hm
  obtain ⟨c, hc, _⟩ := h.queued _ hm
  simp at hc

/-- An accepted call comes last, a refused one not at all. -/
theorem Sound.arrived {e : Dispatch} {sender : Nat} {c : Call Stage} (h : d.Sound)
    (ha : Arrived d e sender c) (hp : c.parcel.Proper) (hw : c.progress = .waiting) : e.Sound ∧
      e.queue = d.queue ++ if d.intake.channel.isClosed sender then [] else [d.intake.calls.size] := by
  have hq : e.queue =
      d.queue ++ if d.intake.channel.isClosed sender then [] else [d.intake.calls.size] := by
    unfold queue
    rw [ha.channel, ha.loop, Loop.hand_take]
    cases hc : d.intake.channel.isClosed sender with
    | true => simp [Channel.send_refused hc]
    | false => exact h.coupled.queue_send hc
  refine ⟨⟨?_, ?_, fun k hk => ?_, fun k x hx => ?_⟩, hq⟩
  · rw [ha.channel, ha.loop, Loop.hand_take]
    exact h.coupled.send
  · rw [hq]
    refine h.nodup.append (by split <;> simp) fun k hk hk' => ?_
    split at hk'
    · simp at hk'
    · rw [List.mem_singleton.mp hk'] at hk
      exact h.size_notMem hk
  · rw [hq, List.mem_append] at hk
    rw [ha.calls, Array.getElem?_push]
    split
    · exact ⟨c, rfl, hw⟩
    · rename_i hne
      rcases hk with hk | hk
      · exact h.queued k hk
      · split at hk
        · simp at hk
        · exact (hne (List.mem_singleton.mp hk)).elim
  · rw [ha.calls, Array.getElem?_push] at hx
    split at hx
    · rw [← Option.some.inj hx]
      exact hp
    · exact h.proper k x hx

/-- Steps that bring no call keep a loop sound, as long as the calls in the queue do not begin. -/
theorem Sound.of_mapIdx {e : Dispatch} {g : Nat → Call Stage → Call Stage} (h : d.Sound)
    (gone : List Nat) (hc : Hand.Coupled e.intake.channel e.loop.hand)
    (hq : d.queue = gone ++ e.queue) (hcalls : e.intake.calls = d.intake.calls.mapIdx g)
    (hp : ∀ n c, (g n c).parcel = c.parcel)
    (hw : ∀ n ∈ e.queue, ∀ c, c.progress = .waiting → (g n c).progress = .waiting) : e.Sound := by
  refine ⟨hc, ?_, fun k hk => ?_, fun k x hx => ?_⟩
  · have hn := h.nodup
    rw [hq] at hn
    exact (List.nodup_append.mp hn).2.1
  · obtain ⟨c, hc, hcw⟩ := h.queued k (by rw [hq]; exact List.mem_append_right _ hk)
    exact ⟨g k c, by simp [hcalls, hc], hw k hk c hcw⟩
  · rw [hcalls, Array.getElem?_mapIdx] at hx
    obtain ⟨c, hc, rfl⟩ := Option.map_eq_some_iff.mp hx
    rw [hp]
    exact h.proper k c hc

/-- A move brings a call on. The end of its exchange also brings something to its slot. -/
theorem moved_cases (m : Move) (c : Call Stage) :
    (∃ stage, c.moved m = { c with progress := stage }) ∨
      ∃ result, c.progress = .running (.over result) ∧
        c.moved m = { c with slot := c.slot.concluded result, progress := .ended none } := by
  cases m with
  | conclude =>
    unfold Call.moved Call.concluded
    dsimp only
    split
    · exact Or.inr ⟨_, ‹_›, rfl⟩
    · exact Or.inl ⟨c.progress, rfl⟩
  | turn | answered | chunk | bodyEnded | retire => exact Or.inl ⟨_, rfl⟩

theorem moved_parcel (m : Move) (c : Call Stage) : (c.moved m).parcel = c.parcel := by
  obtain ⟨_, h⟩ | ⟨_, _, h⟩ := moved_cases m c <;> rw [h]

theorem moved_waiting (m : Move) {c : Call Stage} (h : c.progress = .waiting) :
    (c.moved m).progress = .waiting := by
  cases m <;> simp [Call.moved, Call.concluded, h, Stage.mapExchange, Stage.retire]

/-- A move takes at most one call off the queue, its first, and passes it to the client. -/
theorem Sound.move (h : d.Sound) (m : Move) : (d.move m).1.Sound ∧
    ((asks (d.move m).2 = [] ∧ (d.move m).1.queue = d.queue) ∨
      ∃ k c content, d.intake.calls[k]? = some c ∧ c.parcel = .request content ∧
        asks (d.move m).2 = [(k, content)] ∧ d.queue = k :: (d.move m).1.queue) := by
  cases hm : m.own? with
  | some k =>
    have ht := touched_move h hm
    have hq : (d.move m).1.queue = d.queue := by simp [queue, ht.channel, ht.hand]
    refine ⟨?_, Or.inl ⟨ht.asks, hq⟩⟩
    refine h.of_mapIdx [] (by rw [ht.channel, ht.hand]; exact h.coupled) hq.symm
      (ht.calls.trans (modify_eq_mapIdx _ _ _)) (fun n c => ?_) fun n _ c hc => ?_
    · split
      · exact moved_parcel m c
      · rfl
    · split
      · exact moved_waiting m hc
      · exact hc
  | none =>
    obtain rfl := Move.eq_turn hm
    obtain ⟨hmv, _, ⟨ha, hq, hcalls⟩ | ⟨k, c, content, _, hk, hp, ha, hq, hcalls⟩⟩ := turn_cases h
    · exact ⟨h.of_mapIdx [] hmv.coupled hq.symm (hcalls.trans (mapIdx_same _).symm)
        (fun _ _ => rfl) fun _ _ _ hc => hc, Or.inl ⟨ha, hq⟩⟩
    · refine ⟨?_, Or.inr ⟨k, c, content, hk, hp, ha, hq⟩⟩
      refine h.of_mapIdx [k] hmv.coupled hq (hcalls.trans (modify_eq_mapIdx _ _ _))
        (fun n c => ?_) fun n hn c hc => ?_
      · split <;> rfl
      · have hnd := h.nodup
        rw [hq] at hnd
        rw [if_neg fun he : n = k => (List.nodup_cons.mp hnd).1 (he ▸ hn)]
        exact hc

theorem moved_signal (m : Move) (c : Call Stage) : (c.moved m).signal = c.signal := by
  obtain ⟨_, h⟩ | ⟨_, _, h⟩ := moved_cases m c <;> rw [h]

theorem moved_follows (m : Move) (c : Call Stage) : c.slot.Follows (c.moved m).slot := by
  obtain ⟨_, h⟩ | ⟨_, _, h⟩ := moved_cases m c <;> rw [h]
  · exact .refl _
  · exact Slot.concluded_follows _ _

/-- Calls keep what they were sent with, and no receive is taken back. -/
theorem move_kept (h : d.Sound) (m : Move) :
    Intake.Kept d.intake.calls (d.move m).1.intake.calls := by
  cases hm : m.own? with
  | some k =>
    rw [(touched_move h hm).calls, modify_eq_mapIdx]
    refine Intake.kept_mapIdx (fun n c => ?_) (fun n c => ?_) fun n c => ?_
    · split
      · exact moved_parcel m c
      · rfl
    · split
      · exact moved_signal m c
      · rfl
    · split
      · exact moved_follows m c
      · exact .refl _
  | none =>
    obtain rfl := Move.eq_turn hm
    obtain ⟨_, _, ⟨_, _, hcalls⟩ | ⟨k, c, content, _, hk, hp, _, _, hcalls⟩⟩ := turn_cases h
    · exact hcalls ▸ .refl _
    · show Intake.Kept _ (d.turn Log.calm).1.intake.calls
      rw [hcalls, modify_eq_mapIdx]
      refine Intake.kept_mapIdx (fun n c => ?_) (fun n c => ?_) fun n c => ?_
      · split <;> rfl
      · split <;> rfl
      · split <;> exact .refl _

theorem move_size (h : d.Sound) (m : Move) :
    (d.move m).1.intake.calls.size = d.intake.calls.size := by
  cases hm : m.own? with
  | some k => rw [(touched_move h hm).calls, Array.size_modify]
  | none =>
    obtain rfl := Move.eq_turn hm
    obtain ⟨_, _, ⟨_, _, hcalls⟩ | ⟨k, c, content, _, _, _, _, _, hcalls⟩⟩ := turn_cases h
    · exact congrArg Array.size hcalls
    · exact (congrArg Array.size hcalls).trans Array.size_modify

/-- What a move makes of a call. -/
inductive Becomes (d : Dispatch) (m : Move) (k : Nat) (c : Call Stage) : Call Stage → Prop where
  | own (hm : m.own? = some k) : Becomes d m k c (c.moved m)
  /-- The client is asked for the call, which has waited. -/
  | begun (content : Value) (hm : m = .turn) (hw : c.progress = .waiting)
      (ha : asks (d.move m).2 = [(k, content)]) : Becomes d m k c (Dispatch.begun c)
  | aside (hm : m.own? ≠ some k) (ha : ∀ x ∈ asks (d.move m).2, x.1 ≠ k) : Becomes d m k c c

theorem Sound.becomes (h : d.Sound) (m : Move) {c : Call Stage}
    (hc : d.intake.calls[k]? = some c) :
    ∃ x, (d.move m).1.intake.calls[k]? = some x ∧ Becomes d m k c x := by
  cases hm : m.own? with
  | some j =>
    have ht := touched_move h hm
    rw [ht.calls, Array.getElem?_modify]
    split
    · next he =>
      subst he
      exact ⟨_, by rw [hc]; rfl, .own hm⟩
    · next hne => exact ⟨c, hc, .aside (by simpa [hm] using hne) (by simp [ht.asks])⟩
  | none =>
    obtain rfl := Move.eq_turn hm
    obtain ⟨_, _, ⟨ha, _, hcalls⟩ | ⟨j, b, content, _, _, _, ha, hq, hcalls⟩⟩ := turn_cases h
    · exact ⟨c, (congrArg (·[k]?) hcalls).trans hc,
        .aside (by simp [hm]) (by simp [Dispatch.move, ha])⟩
    · show ∃ x, (d.turn Log.calm).1.intake.calls[k]? = some x ∧ _
      rw [hcalls, Array.getElem?_modify]
      split
      · next he =>
        subst he
        obtain ⟨y, hy, hw⟩ := h.queued j (by rw [hq]; exact List.mem_cons_self)
        obtain rfl := Option.some.inj (hc.symm.trans hy)
        exact ⟨_, by rw [hc]; rfl, .begun content rfl hw ha⟩
      · next hne => exact ⟨c, hc, .aside (by simp [hm]) (by simpa [Dispatch.move, ha] using hne)⟩

/-- A move brings no call. -/
theorem Sound.became (h : d.Sound) {m : Move} {x : Call Stage}
    (hx : (d.move m).1.intake.calls[k]? = some x) :
    ∃ c, d.intake.calls[k]? = some c ∧ Becomes d m k c x := by
  have hlt := (Array.getElem?_eq_some_iff.mp hx).1
  rw [move_size h] at hlt
  obtain ⟨y, hy, hb⟩ := h.becomes m (Array.getElem?_eq_getElem hlt)
  obtain rfl := Option.some.inj (hx.symm.trans hy)
  exact ⟨_, Array.getElem?_eq_getElem hlt, hb⟩

/-- A loop that does not ask again never does. -/
theorem move_over (h : d.Sound) (m : Move) (ho : d.loop.hand = .over) :
    (d.move m).1.loop.hand = .over := by
  cases hm : m.own? with
  | some k => exact (touched_move h hm).hand.trans ho
  | none =>
    obtain rfl := Move.eq_turn hm
    obtain ⟨r, hr, ht⟩ := h.turned
    show (d.turn Log.calm).1.loop.hand = .over
    rw [hr]
    cases ht with
    | asks hl | begins _ hl => simp [hl, Loop.hand] at ho
    | rests => exact ho
    | drains | ends | fails => rfl

theorem move_gate (h : d.Sound) (m : Move) :
    (d.move m).1.intake.channel.gate = d.intake.channel.gate := by
  cases hm : m.own? with
  | some k => rw [(touched_move h hm).channel]
  | none =>
    obtain rfl := Move.eq_turn hm
    exact (turn_cases h).1.gate

end Dispatch
end Courier
