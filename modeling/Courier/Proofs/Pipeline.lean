import Courier.Pipeline
import Courier.Proofs.Dispatch

/-!
Runs of a dispatch pipeline with a logger whose calls return: callers, producers and the client do
what they like in any order, and the loop runs whenever it gets to. The client gets the accepted
requests in order, and nobody waits for an earlier exchange.
-/

namespace Courier

open Effect

namespace Dispatch

variable {d : Dispatch}

/-- A further sender. -/
def clone (d : Dispatch) (sender : Nat) : Dispatch :=
  { d with intake := { d.intake with channel := (d.intake.channel.clone sender).1 } }

/-- The caller of a call starts to wait for its outcome. -/
def receive (d : Dispatch) (k : Nat) (signal : Option Nat) :
    Dispatch × Option (Slot.Reading Outcome) :=
  ({ d with intake := (d.intake.receive k signal).1 }, (d.intake.receive k signal).2)

/-- Somebody else changes the slot of a call. -/
def withSlot (d : Dispatch) (k : Nat) (slot : Slot Outcome) : Dispatch × List Effect :=
  ({ d with intake := (d.intake.withSlot k slot).1 },
    settledEffects (d.intake.withSlot k slot).2)

/-- Steps that change slots alone. -/
structure Reslotted (d e : Dispatch) : Prop where
  channel : e.intake.channel = d.intake.channel
  loop : e.loop = d.loop
  calls : ∃ g : Nat → Call Stage → Call Stage, e.intake.calls = d.intake.calls.mapIdx g ∧
    (∀ n c, (g n c).parcel = c.parcel) ∧ ∀ n c, (g n c).progress = c.progress

theorem Sound.reslotted {e : Dispatch} (h : d.Sound) (hr : Reslotted d e) :
    e.Sound ∧ e.queue = d.queue := by
  obtain ⟨g, hg, hp, hw⟩ := hr.calls
  have hq : e.queue = d.queue := by simp [queue, hr.channel, hr.loop]
  refine ⟨h.of_mapIdx [] ?_ hq.symm hg hp fun n _ c hc => (hw n c).trans hc, hq⟩
  rw [hr.channel, hr.loop]
  exact h.coupled

theorem reslotted_of_modify {e : Dispatch} {k : Nat} {f : Call Stage → Call Stage}
    (hch : e.intake.channel = d.intake.channel) (hl : e.loop = d.loop)
    (hm : e.intake.calls = d.intake.calls.modify k f) (hp : ∀ c, (f c).parcel = c.parcel)
    (hw : ∀ c, (f c).progress = c.progress) : Reslotted d e := by
  refine ⟨hch, hl, _, hm.trans (modify_eq_mapIdx _ _ _), fun n c => ?_, fun n c => ?_⟩
  · split
    · exact hp c
    · rfl
  · split
    · exact hw c
    · rfl

theorem Reslotted.refl (d : Dispatch) : Reslotted d d :=
  ⟨rfl, rfl, _, (mapIdx_same _).symm, fun _ _ => rfl, fun _ _ => rfl⟩

theorem reslotted_receive (d : Dispatch) (k : Nat) (signal : Option Nat) :
    Reslotted d (d.receive k signal).1 := by
  unfold receive Intake.receive
  cases hk : d.intake.calls[k]? with
  | none => exact .refl d
  | some c =>
    let f (c : Call Stage) : Call Stage :=
      { c with slot := (c.slot.receive (d.intake.reason? signal)).1, signal := signal }
    have hm : d.intake.calls.modify k (fun _ => f c) = d.intake.calls.modify k f :=
      modify_congr (by simp [hk])
    exact reslotted_of_modify rfl rfl ((setIfInBounds_eq_modify _ _ _).trans hm) (fun _ => rfl)
      fun _ => rfl

theorem reslotted_withSlot (d : Dispatch) (k : Nat) (slot : Slot Outcome) :
    Reslotted d (d.withSlot k slot).1 := by
  unfold withSlot Intake.withSlot
  cases hk : d.intake.calls[k]? with
  | none => exact .refl d
  | some c =>
    have hm : d.intake.calls.modify k (fun _ => { c with slot := slot }) =
        d.intake.calls.modify k fun c => { c with slot := slot } := modify_congr (by simp [hk])
    exact reslotted_of_modify rfl rfl ((setIfInBounds_eq_modify _ _ _).trans hm) (fun _ => rfl)
      fun _ => rfl

theorem reslotted_abort (d : Dispatch) (signal : Nat) (reason : Value) :
    Reslotted d (d.abort signal reason).1 := by
  unfold abort
  cases hf : d.intake.fired.any (·.1 = signal) with
  | true =>
    rw [Intake.abort_of_fired hf]
    exact .refl d
  | false =>
    rw [Intake.abort_eq hf]
    exact ⟨rfl, rfl, _, map_eq_mapIdx _ _, fun _ _ => rfl, fun _ _ => rfl⟩

theorem release_eq (d : Dispatch) (sender : Nat) : (d.release sender).1 =
    ⟨{ d.intake with channel := (d.intake.channel.release sender).1 },
      d.loop.take (d.intake.channel.release sender).2, d.said⟩ := by
  simp only [release]
  rw [take_eq]

theorem quiet_release (d : Dispatch) (sender : Nat) :
    settles (d.release sender).2 = [] ∧ asks (d.release sender).2 = [] := by
  simp [release]

theorem Sound.of_channel {e : Dispatch} (h : d.Sound)
    (hc : Hand.Coupled e.intake.channel e.loop.hand) (hq : e.queue = d.queue)
    (hcalls : e.intake.calls = d.intake.calls) : e.Sound :=
  h.of_mapIdx [] hc hq.symm (hcalls.trans (mapIdx_same _).symm) (fun _ _ => rfl)
    fun _ _ _ hw => hw

theorem Sound.release (h : d.Sound) (sender : Nat) :
    (d.release sender).1.Sound ∧ (d.release sender).1.queue = d.queue := by
  have hq : (d.release sender).1.queue = d.queue := by
    rw [release_eq]
    simpa [queue] using h.coupled.queue_release
  refine ⟨h.of_channel ?_ hq (by rw [release_eq]), hq⟩
  rw [release_eq]
  simpa using h.coupled.release

theorem Sound.clone (h : d.Sound) (sender : Nat) :
    (d.clone sender).Sound ∧ (d.clone sender).queue = d.queue :=
  ⟨h.of_channel h.coupled.clone rfl rfl, rfl⟩

theorem sound_new (fired : List (Nat × Value)) : (Dispatch.new fired).Sound :=
  ⟨Hand.coupled_new, List.nodup_nil, by simp [queue, new, Intake.new, Loop.hand],
    by simp [new, Intake.new]⟩

/-! Turns until the loop has to wait -/

/-- The loop has nothing to do. -/
def Quiet (d : Dispatch) : Prop := d.turn Log.calm = (d, [])

/-- How many turns a loop may take beyond those for the calls in the queue. -/
def rank : Loop → Nat
  | .unstarted => 3
  | .handed _ => 2
  | .draining _ => 1
  | .waiting | .ended _ => 0

def work (d : Dispatch) : Nat := 3 * d.queue.length + rank d.loop

theorem rank_asking : rank d.asking.loop ≤ 2 := by
  cases h : d.intake.channel.next.2 <;> simp [asking, Loop.ofNext, rank, h]

/-- With nothing to do the loop waits, or it does not ask any more. -/
theorem Quiet.rests (hq : d.Quiet) (h : d.Sound) :
    d.loop.hand = .waits ∨ d.loop.hand = .over := by
  obtain ⟨r, hr, ht⟩ := h.turned
  obtain rfl : (d, []) = r := hq.symm.trans hr
  generalize hs : ((d, []) : Dispatch × List Effect) = s at ht
  cases ht with
  | asks hl =>
    have hd : d.asking = d := (congrArg Prod.fst hs).symm
    have hrank := rank_asking (d := d)
    rw [hd, hl] at hrank
    simp [rank] at hrank
  | rests hh => exact hh
  | begins | drains | ends | fails => cases congrArg Prod.snd hs

theorem queue_of_quiet (h : d.Sound) (hq : d.Quiet) : d.queue = [] := by
  obtain hh | hh := hq.rests h
  · rw [queue, Hand.queue, hh, h.coupled.live_of_waits hh]
    rfl
  · rw [queue, Hand.queue, hh, (h.coupled.ended (Or.inl hh)).2]
    rfl

/-- A turn of a loop that has something to do brings it on. -/
theorem work_turn (h : d.Sound) (hq : ¬ d.Quiet) : (d.turn Log.calm).1.work < d.work := by
  have hqueue : (d.turn Log.calm).1.queue.length ≤ d.queue.length := by
    obtain ⟨_, _, ⟨_, hq, _⟩ | ⟨_, _, _, _, _, _, _, hq, _⟩⟩ := turn_cases h <;> simp [hq]
  obtain ⟨r, hr, ht⟩ := h.turned
  unfold work
  rw [hr] at hqueue ⊢
  cases ht with
  | asks hl =>
    have hrank := rank_asking (d := d)
    have hd : rank d.loop = 3 := by rw [hl]; rfl
    dsimp only at hqueue ⊢
    omega
  | rests => exact (hq hr).elim
  | @begins k _ _ _ hl =>
    have hw := h.coupled.waiter_of_ne (by simp [hl, Loop.hand])
    have hrank := rank_asking (d := d.began k)
    have hd : rank d.loop = 2 := by rw [hl]; rfl
    rw [asking_queue (d := d.began k) h.coupled.sound hw, queue_handed hl, List.length_cons]
    dsimp only [began] at hrank ⊢
    omega
  | drains hl | ends hl | fails hl =>
    simp only [hl, rank, finish] at hqueue ⊢
    omega

end Dispatch

namespace Pipeline

/-- Whatever the logger does, the end of the loop touches no call. -/
theorem lift_under (react : Log.Reaction) (p : Pipeline) (r : Dispatch × List Effect) :
    (p.lift react r).1.dispatch.intake = r.1.intake ∧
      (p.lift react r).1.dispatch.loop = r.1.loop ∧
      settles (p.lift react r).2 = settles r.2 ∧ asks (p.lift react r).2 = asks r.2 := by
  unfold lift
  dsimp only
  split
  · unfold shut
    split <;> simp [Dispatch.say, settled?, asked?]
  · exact ⟨rfl, rfl, rfl, rfl⟩

theorem lift_intake (p : Pipeline) (r : Dispatch × List Effect) :
    (p.lift Log.calm r).1.dispatch.intake = r.1.intake := (lift_under Log.calm p r).1

theorem lift_loop (p : Pipeline) (r : Dispatch × List Effect) :
    (p.lift Log.calm r).1.dispatch.loop = r.1.loop := (lift_under Log.calm p r).2.1

@[simp] theorem settles_lift (p : Pipeline) (r : Dispatch × List Effect) :
    settles (p.lift Log.calm r).2 = settles r.2 := (lift_under Log.calm p r).2.2.1

@[simp] theorem asks_lift (p : Pipeline) (r : Dispatch × List Effect) :
    asks (p.lift Log.calm r).2 = asks r.2 := (lift_under Log.calm p r).2.2.2

theorem dispatch_closed (p : Pipeline) (result : Attempt Unit) :
    (p.clientClosed result).1.dispatch = p.dispatch := by
  unfold clientClosed
  split <;> rfl

theorem settles_closed (p : Pipeline) (result : Attempt Unit) :
    settles (p.clientClosed result).2 = [] := by
  unfold clientClosed
  split <;> rfl

/-- A pipeline with what has happened to it so far. -/
structure Run where
  pipeline : Pipeline
  /-- The accepted requests, each with its call. -/
  accepted : List (Nat × Value)
  /-- The requests passed to the client, each with its call. -/
  asked : List (Nat × Value)
  /-- What callers have learned. -/
  told : List Settled

/-- Producers send requests with slots of their own or as handles do, and do anything to slots. -/
inductive Event where
  | offer (sender : Nat) (request : Request)
  | send (sender : Nat) (request : Request) (signal : Option Nat)
  | receive (k : Nat) (signal : Option Nat)
  | withSlot (k : Nat) (slot : Slot Outcome)
  | clone (sender : Nat)
  | release (sender : Nat)
  | abort (signal : Nat) (reason : Value)
  | move (m : Move)
  | clientClosed (r : Attempt Unit)

namespace Run

def start (fired : List (Nat × Value)) : Run := ⟨.new fired, [], [], []⟩

def dispatch (r : Run) : Dispatch := r.pipeline.dispatch

/-- The number of the next call. -/
def size (r : Run) : Nat := r.dispatch.intake.calls.size

def closed (r : Run) : Bool := r.dispatch.intake.channel.closed

/-- A step of the dispatch. -/
def lift (r : Run) (step : Dispatch × List Effect) : Run :=
  let (pipeline, effects) := r.pipeline.lift Log.calm step
  { r with
    pipeline := pipeline
    asked := r.asked ++ asks effects
    told := r.told ++ settles effects }

/-- Notes whether the next call was accepted, and what its caller has learned at once. -/
def note (r : Run) (accepted : Bool) (request : Request)
    (reading : Option (Slot.Reading Outcome)) : Run :=
  { r with
    accepted := r.accepted ++ if accepted then [(r.size, request.toValue)] else []
    told := r.told ++ (reading.map fun reading => ⟨r.size, reading⟩).toList }

def step (r : Run) : Event → Run
  | .offer sender request =>
    let (d, accepted, effects) := r.dispatch.offer sender (.request request.toValue)
    (r.note accepted request none).lift (d, effects)
  | .send sender request signal =>
    let (d, accepted, reading, effects) := r.dispatch.send sender request signal
    (r.note accepted request reading).lift (d, effects)
  | .receive k signal =>
    let (d, reading) := r.dispatch.receive k signal
    let told : List Settled := (reading.map fun reading => ⟨k, reading⟩).toList
    { r with told := r.told ++ told }.lift (d, [])
  | .withSlot k slot => r.lift (r.dispatch.withSlot k slot)
  | .clone sender => r.lift (r.dispatch.clone sender, [])
  | .release sender => r.lift (r.dispatch.release sender)
  | .abort signal reason => r.lift (r.dispatch.abort signal reason)
  | .move m => r.lift (r.dispatch.move m)
  | .clientClosed result => { r with pipeline := (r.pipeline.clientClosed result).1 }

def run (r : Run) (events : List Event) : Run := events.foldl step r

theorem run_append (r : Run) (before after : List Event) :
    r.run (before ++ after) = (r.run before).run after := List.foldl_append

/-- The client has been asked in order, and the queue holds the calls it has not been asked for. -/
structure Ordered (r : Run) : Prop where
  sound : r.dispatch.Sound
  nodup : (r.accepted.map (·.1)).Nodup
  parcels : ∀ x ∈ r.accepted, ∃ c : Call Stage, r.dispatch.intake.calls[x.1]? = some c ∧
    c.parcel = .request x.2
  rest : ∃ rest, r.accepted = r.asked ++ rest ∧ rest.map (·.1) = r.dispatch.queue

theorem ordered_start (fired : List (Nat × Value)) : (start fired).Ordered :=
  ⟨Dispatch.sound_new fired, List.nodup_nil, by simp [start], [], rfl, rfl⟩

section

variable {r : Run} {s : Dispatch × List Effect}

@[simp] theorem lift_intake (r : Run) (s : Dispatch × List Effect) :
    (r.lift s).dispatch.intake = s.1.intake := r.pipeline.lift_intake s

@[simp] theorem lift_loop (r : Run) (s : Dispatch × List Effect) :
    (r.lift s).dispatch.loop = s.1.loop := r.pipeline.lift_loop s

@[simp] theorem lift_accepted (r : Run) (s : Dispatch × List Effect) :
    (r.lift s).accepted = r.accepted := rfl

@[simp] theorem lift_asked (r : Run) (s : Dispatch × List Effect) :
    (r.lift s).asked = r.asked ++ asks s.2 := by simp [lift]

@[simp] theorem lift_told (r : Run) (s : Dispatch × List Effect) :
    (r.lift s).told = r.told ++ settles s.2 := by simp [lift]

@[simp] theorem lift_queue (r : Run) (s : Dispatch × List Effect) :
    (r.lift s).dispatch.queue = s.1.queue := by simp [Dispatch.queue]

theorem sound_lift (h : s.1.Sound) : (r.lift s).dispatch.Sound :=
  h.congr (r.lift_intake s) (r.lift_loop s)

theorem Ordered.size_notMem (h : r.Ordered) : r.size ∉ r.accepted.map (·.1) := by
  intro hm
  obtain ⟨x, hx, he⟩ := List.mem_map.mp hm
  obtain ⟨c, hc, _⟩ := h.parcels x hx
  rw [he] at hc
  simp [size] at hc

/-- A call comes in. -/
theorem Ordered.arrived {sender : Nat} {c : Call Stage} {request : Request}
    {reading : Option (Slot.Reading Outcome)} (h : r.Ordered)
    (ha : Dispatch.Arrived r.dispatch s.1 sender c) (hp : c.parcel = .request request.toValue)
    (hw : c.progress = .waiting) (hs : asks s.2 = []) :
    ((r.note (!r.dispatch.intake.channel.isClosed sender) request reading).lift s).Ordered := by
  obtain ⟨hsound, hq⟩ := h.sound.arrived ha (hp ▸ request.proper) hw
  obtain ⟨rest, hrest, hkeys⟩ := h.rest
  have hold : ∀ x ∈ r.accepted, ∃ c : Call Stage, s.1.intake.calls[x.1]? = some c ∧
      c.parcel = .request x.2 := by
    intro x hx
    obtain ⟨d, hd, hdp⟩ := h.parcels x hx
    have hlt := (Array.getElem?_eq_some_iff.mp hd).1
    refine ⟨d, ?_, hdp⟩
    rw [ha.calls, Array.getElem?_push, if_neg (Nat.ne_of_lt hlt), hd]
  cases hc : r.dispatch.intake.channel.isClosed sender with
  | true =>
    rw [hc] at hq
    refine ⟨sound_lift hsound, ?_, ?_, rest, ?_, ?_⟩
    · simpa [note] using h.nodup
    · simpa [note] using hold
    · simpa [note, hs] using hrest
    · simpa [hq] using hkeys
  | false =>
    rw [hc] at hq
    refine ⟨sound_lift hsound, ?_, ?_, rest ++ [(r.size, request.toValue)], ?_, ?_⟩
    · simp only [lift_accepted, note, Bool.not_false, if_true, List.map_append]
      exact h.nodup.append (List.nodup_singleton _) (by simpa using h.size_notMem)
    · intro x hx
      simp only [lift_accepted, note, Bool.not_false, if_true, List.mem_append,
        List.mem_singleton] at hx
      rw [lift_intake]
      rcases hx with hx | rfl
      · exact hold x hx
      · exact ⟨c, by simp [ha.calls, size], hp⟩
    · simp [note, hs, hrest]
    · simp [hq, hkeys, size]

/-- Nothing comes in, and at most the first call of the queue is passed to the client. -/
theorem Ordered.lifted (h : r.Ordered) (hs : s.1.Sound)
    (hk : ∀ (k : Nat) (c : Call Stage), r.dispatch.intake.calls[k]? = some c →
      ∃ d : Call Stage, s.1.intake.calls[k]? = some d ∧ d.parcel = c.parcel)
    (hq : (asks s.2 = [] ∧ s.1.queue = r.dispatch.queue) ∨
      ∃ k c content, r.dispatch.intake.calls[k]? = some c ∧ c.parcel = .request content ∧
        asks s.2 = [(k, content)] ∧ r.dispatch.queue = k :: s.1.queue) : (r.lift s).Ordered := by
  obtain ⟨rest, hrest, hkeys⟩ := h.rest
  refine ⟨sound_lift hs, h.nodup, fun x hx => ?_, ?_⟩
  · obtain ⟨c, hc, hp⟩ := h.parcels x hx
    obtain ⟨d, hd, hdp⟩ := hk x.1 c hc
    exact ⟨d, by rw [lift_intake, hd], hdp.trans hp⟩
  · rcases hq with ⟨ha, hq⟩ | ⟨k, c, content, hc, hp, ha, hq⟩
    · exact ⟨rest, by simp [ha, hrest], by simp [hq, hkeys]⟩
    · cases rest with
      | nil => simp [hq] at hkeys
      | cons x rest =>
        obtain ⟨n, v⟩ := x
        rw [hq, List.map_cons, List.cons.injEq] at hkeys
        obtain ⟨rfl, hkeys⟩ := hkeys
        obtain ⟨d, hd, hdp⟩ := h.parcels (n, v) (by simp [hrest])
        obtain rfl := Option.some.inj (hc.symm.trans hd)
        obtain rfl := Parcel.request.inj (hp.symm.trans hdp)
        exact ⟨rest, by simp [ha, hrest], by simp [hkeys]⟩

end

theorem dispatch_clientClosed (r : Run) (result : Attempt Unit) :
    (r.step (.clientClosed result)).dispatch = r.dispatch :=
  r.pipeline.dispatch_closed result

/-- Parcels stay while slots change. -/
theorem parcel_of_reslotted {d e : Dispatch} (h : Dispatch.Reslotted d e) (k : Nat) (c : Call Stage)
    (hc : d.intake.calls[k]? = some c) :
    ∃ x : Call Stage, e.intake.calls[k]? = some x ∧ x.parcel = c.parcel := by
  obtain ⟨g, hg, hp, _⟩ := h.calls
  exact ⟨g k c, by simp [hg, hc], hp k c⟩

theorem Ordered.reslotted {r : Run} {s : Dispatch × List Effect} (h : r.Ordered)
    (hr : Dispatch.Reslotted r.dispatch s.1) (ha : asks s.2 = []) : (r.lift s).Ordered := by
  obtain ⟨hs, hq⟩ := h.sound.reslotted hr
  exact h.lifted hs (parcel_of_reslotted hr) (Or.inl ⟨ha, hq⟩)

theorem Ordered.step {r : Run} (h : r.Ordered) (e : Event) : (r.step e).Ordered := by
  cases e with
  | offer sender request =>
    have ha := Dispatch.arrived_offer r.dispatch sender (.request request.toValue)
    have hs := (Dispatch.quiet_offer r.dispatch sender (.request request.toValue)).2
    have hacc := Dispatch.offer_accepted r.dispatch sender (.request request.toValue)
    simp only [Run.step, hacc]
    exact h.arrived ha rfl rfl hs
  | send sender request signal =>
    have ha := Dispatch.arrived_send r.dispatch sender request signal
    have hs := (Dispatch.quiet_send r.dispatch sender request signal).2
    have hacc := Dispatch.send_accepted r.dispatch sender request signal
    simp only [Run.step, hacc]
    exact h.arrived ha (by simp) (by simp) hs
  | receive k signal =>
    have ht : ({ r with told := r.told ++ ((r.dispatch.receive k signal).2.map fun reading =>
        (⟨k, reading⟩ : Settled)).toList } : Run).Ordered := ⟨h.sound, h.nodup, h.parcels, h.rest⟩
    exact ht.reslotted (s := ((r.dispatch.receive k signal).1, []))
      (Dispatch.reslotted_receive r.dispatch k signal) rfl
  | withSlot k slot =>
    exact h.reslotted (Dispatch.reslotted_withSlot r.dispatch k slot) (asks_settledEffects _)
  | clone sender =>
    obtain ⟨hs, hq⟩ := h.sound.clone sender
    exact h.lifted (s := (r.dispatch.clone sender, [])) hs (fun _ c hc => ⟨c, hc, rfl⟩)
      (Or.inl ⟨rfl, hq⟩)
  | release sender =>
    obtain ⟨hs, hq⟩ := h.sound.release sender
    refine h.lifted (s := r.dispatch.release sender) hs (fun k c hc => ⟨c, ?_, rfl⟩)
      (Or.inl ⟨(Dispatch.quiet_release r.dispatch sender).2, hq⟩)
    rw [Dispatch.release_eq]
    exact hc
  | abort signal reason =>
    exact h.reslotted (Dispatch.reslotted_abort r.dispatch signal reason) (asks_settledEffects _)
  | move m =>
    obtain ⟨hs, hq⟩ := h.sound.move m
    refine h.lifted (s := r.dispatch.move m) hs (fun k c hc => ?_) hq
    obtain ⟨d, hd, hp, _⟩ := (Dispatch.move_kept h.sound m).call k c hc
    exact ⟨d, hd, hp⟩
  | clientClosed result =>
    have hd := dispatch_clientClosed r result
    exact ⟨hd ▸ h.sound, h.nodup, hd ▸ h.parcels, hd ▸ h.rest⟩

theorem Ordered.run {r : Run} (h : r.Ordered) (events : List Event) : (r.run events).Ordered := by
  induction events generalizing r with
  | nil => exact h
  | cons e events ih => exact ih (h.step e)

theorem ordered_run (fired : List (Nat × Value)) (events : List Event) :
    ((start fired).run events).Ordered := (ordered_start fired).run events

@[simp] theorem closed_lift (r : Run) (s : Dispatch × List Effect) :
    (r.lift s).closed = s.1.intake.channel.closed := by simp [closed]

/-- A closed channel stays closed and accepts nothing. -/
theorem Ordered.step_of_closed {r : Run} (h : r.Ordered) (hc : r.closed = true) (e : Event) :
    (r.step e).closed = true ∧ (r.step e).accepted = r.accepted := by
  have hclosed : ∀ sender, r.dispatch.intake.channel.isClosed sender = true := by
    intro sender
    simp only [closed] at hc
    simp [Channel.isClosed, hc]
  cases e with
  | offer sender request =>
    have ha := Dispatch.arrived_offer r.dispatch sender (.request request.toValue)
    have hacc := Dispatch.offer_accepted r.dispatch sender (.request request.toValue)
    simp only [Run.step, hacc, closed_lift, ha.channel, Channel.send_closed]
    exact ⟨hc, by simp [note, hclosed]⟩
  | send sender request signal =>
    have ha := Dispatch.arrived_send r.dispatch sender request signal
    have hacc := Dispatch.send_accepted r.dispatch sender request signal
    simp only [Run.step, hacc, closed_lift, ha.channel, Channel.send_closed]
    exact ⟨hc, by simp [note, hclosed]⟩
  | receive k signal =>
    simp only [Run.step, closed_lift, (Dispatch.reslotted_receive r.dispatch k signal).channel]
    exact ⟨hc, rfl⟩
  | withSlot k slot =>
    simp only [Run.step, closed_lift, (Dispatch.reslotted_withSlot r.dispatch k slot).channel]
    exact ⟨hc, rfl⟩
  | clone sender => exact ⟨(closed_lift r (r.dispatch.clone sender, [])).trans hc, rfl⟩
  | release sender =>
    simp only [Run.step, closed_lift, Dispatch.release_eq]
    exact ⟨Channel.release_closed_of_closed h.sound.coupled.sound hc, rfl⟩
  | abort signal reason =>
    simp only [Run.step, closed_lift, (Dispatch.reslotted_abort r.dispatch signal reason).channel]
    exact ⟨hc, rfl⟩
  | move m =>
    simp only [Run.step, closed_lift]
    exact ⟨(Channel.closed_of_gate (Dispatch.move_gate h.sound m)).trans hc, rfl⟩
  | clientClosed result =>
    have hd := dispatch_clientClosed r result
    exact ⟨by rw [closed, hd]; exact hc, rfl⟩

theorem Ordered.accepted_of_closed {r : Run} (h : r.Ordered) (hc : r.closed = true)
    (events : List Event) : (r.run events).accepted = r.accepted := by
  induction events generalizing r with
  | nil => rfl
  | cons e events ih =>
    obtain ⟨hc', ha⟩ := h.step_of_closed hc e
    exact (ih (h.step e) hc').trans ha

theorem Ordered.asked_of_quiet {r : Run} (h : r.Ordered) (hq : r.dispatch.Quiet) :
    r.asked = r.accepted := by
  obtain ⟨rest, hrest, hkeys⟩ := h.rest
  rw [Dispatch.queue_of_quiet h.sound hq, List.map_eq_nil_iff] at hkeys
  rw [hrest, hkeys, List.append_nil]

/-- The loop runs and nothing else happens. -/
def turns (n : Nat) : List Event := List.replicate n (.move .turn)

theorem accepted_turns (r : Run) (n : Nat) : (r.run (turns n)).accepted = r.accepted := by
  induction n generalizing r with
  | zero => rfl
  | succ n ih => exact ih (r.step (.move .turn))

/-- The loop comes to rest by itself. -/
theorem Ordered.quiet_turns {r : Run} (h : r.Ordered) :
    ∃ n, (r.run (turns n)).dispatch.Quiet := by
  induction hw : r.dispatch.work using Nat.strong_induction_on generalizing r with
  | h w ih =>
    by_cases hq : r.dispatch.Quiet
    · exact ⟨0, hq⟩
    · have hlt := Dispatch.work_turn h.sound hq
      have hstep : (r.step (.move .turn)).dispatch.work = (r.dispatch.turn Log.calm).1.work := by
        simp [Run.step, Dispatch.work, Dispatch.move]
      obtain ⟨n, hn⟩ := ih _ (by rw [hstep, ← hw]; exact hlt) (h.step (.move .turn)) rfl
      exact ⟨n + 1, hn⟩

/-- The client is asked for the accepted requests, each once, unchanged and in order. When the loop
has come to rest it has been asked for all of them, and the loop comes to rest without waiting for
any exchange. Once the last sender is released nothing is lost of what was accepted before. -/
theorem asked_in_order (fired : List (Nat × Value)) (events : List Event) :
    ((start fired).run events).asked <+: ((start fired).run events).accepted ∧
    (((start fired).run events).accepted.map (·.1)).Nodup ∧
    (((start fired).run events).dispatch.Quiet →
      ((start fired).run events).asked = ((start fired).run events).accepted) ∧
    (∃ n, ((start fired).run (events ++ turns n)).dispatch.Quiet ∧
      ((start fired).run (events ++ turns n)).asked = ((start fired).run events).accepted) ∧
    ∀ before sender after, events = before ++ .release sender :: after →
      ((start fired).run (before ++ [.release sender])).closed = true →
      ((start fired).run events).accepted = ((start fired).run before).accepted ∧
      (((start fired).run events).dispatch.Quiet →
        ((start fired).run events).asked = ((start fired).run before).accepted) := by
  have h := ordered_run fired events
  refine ⟨?_, h.nodup, h.asked_of_quiet, ?_, ?_⟩
  · obtain ⟨rest, hrest, _⟩ := h.rest
    exact ⟨rest, hrest.symm⟩
  · obtain ⟨n, hn⟩ := h.quiet_turns
    refine ⟨n, by rwa [run_append], ?_⟩
    rw [run_append, (h.run (turns n)).asked_of_quiet hn, accepted_turns]
  · intro before sender after he hc
    have hrelease : (start fired).run (before ++ [.release sender]) =
        ((start fired).run before).step (.release sender) := run_append _ _ _
    have haccepted : ((start fired).run events).accepted =
        ((start fired).run before).accepted := by
      have hall : events = (before ++ [.release sender]) ++ after := by simp [he]
      rw [hall, run_append, (ordered_run fired _).accepted_of_closed hc, hrelease]
      rfl
    exact ⟨haccepted, fun hq => (h.asked_of_quiet hq).trans haccepted⟩

end Run
end Pipeline
end Courier
