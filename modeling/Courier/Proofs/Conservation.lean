import Courier.Proofs.Embedded
import Courier.Proofs.Ledger
import Courier.Proofs.Outcry

/-!
Counter conservation, on both sides that count. The logger may throw at any of its calls: then on
the dispatch side a unit dies, or the loop breaks off, and nothing is counted for it. On the owner's
side anything may arrive from the worker, and the worker may be found gone.
-/

namespace Courier

open Effect

/-! A dispatch loop whose logger may throw -/

namespace Dispatch

variable {d : Dispatch} {k : Nat} {react : Log.Reaction}

/-- A move while the logger does as it likes. -/
def moveUnder (react : Log.Reaction) (d : Dispatch) : Move → Dispatch × List Effect
  | .turn => d.turn react
  | .conclude k => d.conclude react k
  | m => d.move m

theorem moveUnder_calm (d : Dispatch) (m : Move) : d.moveUnder Log.calm m = d.move m := by
  cases m <;> rfl

/-- The loop has broken off: its channel is closed, and it counts and tells nothing. -/
structure Broken (d : Dispatch) (r : Dispatch × List Effect) : Prop where
  hand : r.1.loop.hand = .over
  coupled : Hand.Coupled r.1.intake.channel r.1.loop.hand
  calls : r.1.intake.calls = d.intake.calls
  fired : r.1.intake.fired = d.intake.fired
  stats : r.1.intake.stats = d.intake.stats
  settles : settles r.2 = []

theorem broken_breakOff (hc : Hand.Coupled d.intake.channel d.loop.hand)
    (hw : d.loop.hand ≠ .waits) (v : Value) : Broken d (d.breakOff v) := by
  obtain ⟨hclose, _, _, hclosed, hlive⟩ := hc.close
  have hwaiter := hclose.waiter_of_ne (by cases hh : d.loop.hand <;> simp_all [Hand.take])
  have hb : (d.breakOff v).1.intake = { d.intake with channel := d.intake.channel.close.1 } := by
    simp only [breakOff, closeChannel, finish]
    rw [take_eq]
  have hl : (d.breakOff v).1.loop = .ended (.error v) := rfl
  refine ⟨by rw [hl]; rfl, ?_, by rw [hb], by rw [hb], by rw [hb], rfl⟩
  rw [hb, hl]
  exact ⟨hclose.sound, by simp [Loop.hand, hwaiter], fun _ => ⟨hclosed, hlive⟩⟩

section Handed

variable {c : Call Stage} {content url : Value}

/-- A logger that lets the call in hand be dispatched does not change the turn. -/
theorem turn_dispatched (hl : d.loop = .handed (some k)) (hk : d.intake.calls[k]? = some c)
    (hp : c.parcel = .request content) (hu : content.read "url" = .ok url)
    (ht : react d.said ⟨.debug, "Dispatching request:", [.record [("url", url)]]⟩ = none) :
    d.turn react = d.turn Log.calm := by
  simp [turn, hl, hk, start, hp, Parcel.content, Parcel.url, bind, Except.bind, hu, say, ht,
    Log.calm]

/-- What the logger throws when it is told of the call in hand breaks the loop off. -/
theorem turn_thrown {v : Value} (hl : d.loop = .handed (some k))
    (hk : d.intake.calls[k]? = some c) (hp : c.parcel = .request content)
    (hu : content.read "url" = .ok url)
    (ht : react d.said ⟨.debug, "Dispatching request:", [.record [("url", url)]]⟩ = some v) :
    d.turn react = ((breakOff { d with said := d.said + 1 } v).1,
      [.log ⟨.debug, "Dispatching request:", [.record [("url", url)]]⟩, .loopEnded (.error v)]) := by
  simp only [turn, hl, hk, start, hp, Parcel.content, Parcel.url, bind, Except.bind, hu, say, ht]
  rfl

end Handed

/-- A turn is the turn under a calm logger, or the logger has thrown and the loop breaks off. -/
theorem turn_under (h : d.Sound) (react : Log.Reaction) :
    d.turn react = d.turn Log.calm ∨ Broken d (d.turn react) := by
  have hc := h.coupled
  cases hl : d.loop with
  | unstarted | waiting | ended => exact Or.inl (by simp [turn, hl])
  | draining failure => exact Or.inl (by cases failure <;> simp [turn, hl])
  | handed call =>
    cases call with
    | some k =>
      obtain ⟨c, content, url, hk, hp, hu⟩ := h.handed hl
      cases ht : react d.said ⟨.debug, "Dispatching request:", [.record [("url", url)]]⟩ with
      | none => exact Or.inl (turn_dispatched hl hk hp hu ht)
      | some v =>
        have hb := broken_breakOff (d := { d with said := d.said + 1 }) hc (by simp [hl, Loop.hand]) v
        rw [turn_thrown hl hk hp hu ht]
        exact Or.inr ⟨hb.hand, hb.coupled, hb.calls, hb.fired, hb.stats, rfl⟩
    | none =>
      cases ht : react d.said
          ⟨.debug, "Request channel closed, in-flight requests:", [Value.nat d.inFlight]⟩ with
      | none => exact Or.inl (by simp [turn, hl, say, ht, Log.calm])
      | some v =>
        have hf : Hand.Coupled d.intake.channel .over := by
          rw [hl] at hc
          exact hc.finish
        exact Or.inr (by simpa [turn, hl, say, ht, finish] using
          ⟨rfl, hf, rfl, rfl, rfl, by simp [settled?]⟩)

theorem stats_turn (h : d.Sound) : (d.turn Log.calm).1.intake.stats = d.intake.stats := by
  obtain ⟨r, hr, ht⟩ := h.turned
  rw [hr]
  cases ht <;> rfl

/-- What the end of a unit passes to `deliver`: the outcome of its exchange, unless the logger
throws before that. -/
def offering? (react : Log.Reaction) (d : Dispatch) (k : Nat) : Option Outcome :=
  match d.intake.calls[k]? with
  | some ⟨parcel, _, _, .running (.over (.ok o))⟩ =>
    match parcel.url with
    | .ok url =>
      if (react d.said ⟨.debug, "Request completed:",
        [.record [("url", url), ("ok", .bool o.isSuccess)]]⟩).isNone then some o else none
    | .error _ => none
  | _ => none

/-- The intake after the end of a unit, and what that has told. -/
def settling (react : Log.Reaction) (d : Dispatch) (k : Nat) : Intake Stage × List Settled :=
  match d.offering? react k with
  | some o => ((d.intake.deliver k o).1, (d.intake.deliver k o).2.2)
  | none => d.intake.drop k

theorem deliver_cases (react : Log.Reaction) {c : Call Stage} (hk : d.intake.calls[k]? = some c)
    (hp : c.parcel.Proper) (o : Outcome) : ∃ said es thrown, d.deliver react k o =
      (⟨(d.intake.deliver k o).1, d.loop, said⟩, es, thrown) ∧
        settles es = (d.intake.deliver k o).2.2 := by
  obtain ⟨content, url, hparcel, -⟩ := hp
  have hs : d.intake.stranger? k = none := by
    simp [Intake.stranger?, hk, hparcel, Parcel.stranger?]
  simp only [deliver, hs]
  split
  · exact ⟨_, _, _, rfl, by simp⟩
  · exact ⟨_, _, _, rfl, by simp [undelivered, say, settled?]⟩

/-- A unit ends by one delivery, or by the drop of its slot. -/
theorem conclude_under {c : Call Stage} {result : Attempt Outcome}
    (hk : d.intake.calls[k]? = some c) (hp : c.parcel.Proper)
    (hr : c.progress = .running (.over result)) (react : Log.Reaction) :
    ∃ failure said es, d.conclude react k =
      (⟨(d.settling react k).1.setProgress k (.ended failure), d.loop, said⟩, es) ∧
        settles es = (d.settling react k).2 := by
  obtain ⟨parcel, slot, signal, progress⟩ := c
  subst hr
  obtain ⟨content, url, rfl, hu⟩ := id hp
  have hurl : (Parcel.request content).url = .ok url := by
    simpa [Parcel.url, Parcel.content, bind, Except.bind] using hu
  have hdrop := hp.dropComplaint
  cases result with
  | error v =>
    have hs : d.settling react k = d.intake.drop k := by simp [settling, offering?, hk]
    simp only [hs, conclude, hk, complete, hdrop, say, Option.none_or]
    exact ⟨_, _, _, rfl, by simp [settled?]⟩
  | ok o =>
    cases ht : react d.said ⟨.debug, "Request completed:",
        [.record [("url", url), ("ok", .bool o.isSuccess)]]⟩ with
    | some v =>
      have hs : d.settling react k = d.intake.drop k := by
        simp [settling, offering?, hk, hurl, ht]
      simp only [hs, conclude, hk, complete, hurl, hdrop, say, ht, Option.none_or]
      exact ⟨_, _, _, rfl, by simp [settled?]⟩
    | none =>
      have hs : d.settling react k = ((d.intake.deliver k o).1, (d.intake.deliver k o).2.2) := by
        simp [settling, offering?, hk, hurl, ht]
      obtain ⟨hd, hd'⟩ := drop_deliver hk o
      obtain ⟨said, es, thrown, hdeliver, hes⟩ :=
        deliver_cases (d := { d with said := d.said + 1 }) react hk hp o
      simp only at hdeliver hes
      simp only [hs, conclude, hk, complete, hurl, hdrop, say, ht, hdeliver, Option.none_or]
      cases thrown with
      | none =>
        simp only [hd, hd']
        exact ⟨_, _, _, rfl, by simp [hes, settledEffects, settled?]⟩
      | some v =>
        simp only [hd, hd']
        exact ⟨_, _, _, rfl, by simp [hes, settledEffects, settled?]⟩

/-- The end of a unit changes the slot of its call and leaves the queue alone. -/
theorem Sound.ended {c : Call Stage} {result : Attempt Outcome} {i : Intake Stage}
    {f : Call Stage → Slot Outcome} (h : d.Sound) (hk : d.intake.calls[k]? = some c)
    (hr : c.progress = .running (.over result)) (hchannel : i.channel = d.intake.channel)
    (hcalls : i.calls = d.intake.calls.modify k (Call.reslot f)) (failure : Option Value)
    (said : Nat) :
    (⟨i.setProgress k (.ended failure), d.loop, said⟩ : Dispatch).Sound ∧
      (⟨i.setProgress k (.ended failure), d.loop, said⟩ : Dispatch).queue = d.queue ∧
      (i.setProgress k (.ended failure)).calls = d.intake.calls.mapIdx fun n c =>
        if n = k then { c.reslot f with progress := .ended failure } else c := by
  have hqueue : (⟨i.setProgress k (.ended failure), d.loop, said⟩ : Dispatch).queue = d.queue := by
    show Hand.queue i.channel d.loop.hand = _
    rw [hchannel]
    rfl
  have hall : (i.setProgress k (.ended failure)).calls = d.intake.calls.mapIdx fun n c =>
      if n = k then { c.reslot f with progress := .ended failure } else c := by
    rw [Intake.calls_setProgress, hcalls, modify_modify, modify_eq_mapIdx]
    rfl
  refine ⟨h.of_mapIdx [] ?_ hqueue.symm hall (fun n c => ?_) fun n hn c hw => ?_, hqueue, hall⟩
  · show Hand.Coupled i.channel d.loop.hand
    rw [hchannel]
    exact h.coupled
  · split <;> rfl
  · -- A call in the queue waits, and the one that ends does not.
    rw [hqueue] at hn
    have hne : n ≠ k := by
      rintro rfl
      obtain ⟨x, hx, hw⟩ := h.queued n hn
      rw [Option.some.inj (hk.symm.trans hx), hw] at hr
      cases hr
    rwa [if_neg hne]

theorem stats_progress (step : Exchange → Exchange × List Effect) :
    (d.progress k step).1.intake.stats = d.intake.stats := by
  obtain ⟨_, _, h⟩ | ⟨_, h⟩ := d.progress_cases k step <;> rw [h]
  rfl

theorem stats_retire : (d.retire k).1.intake.stats = d.intake.stats := by
  obtain ⟨r, hr, h⟩ := d.retirement k
  rw [hr]
  cases h <;> rfl

end Dispatch

/-- How far the unit of a call may have come, given what the ledger says about the call. -/
def Ledger.Places (l : Ledger) (k : Nat) : Stage → Prop
  | .waiting => k ∉ l.closed
  | .running e => k ∈ l.rest ∧ e.Sound .any
  | .ended _ | .retired _ => k ∈ l.closed

namespace Pipeline

/-- A pipeline with the ledger of its calls, and with what callers have learned. -/
structure Audit where
  pipeline : Pipeline
  ledger : Ledger
  told : List Settled

namespace Audit

inductive Event where
  | caller (deed : Deed)
  | move (m : Move)
  | clientClosed (r : Attempt Unit)

def start (fired : List (Nat × Value)) : Audit := ⟨.new fired, .empty, []⟩

def dispatch (s : Audit) : Dispatch := s.pipeline.dispatch

def intake (s : Audit) : Intake Stage := s.dispatch.intake

/-- A step of the dispatch. -/
def lift (react : Log.Reaction) (s : Audit) (step : Dispatch × List Effect) : Audit :=
  let (pipeline, effects) := s.pipeline.lift react step
  { s with pipeline := pipeline, told := s.told ++ settles effects }

/-- The ledger after a move. Only the end of a unit is noted. -/
def noting (react : Log.Reaction) (s : Audit) : Move → Ledger
  | .conclude k =>
    if (s.intake.progress? k).any Stage.isOver then
      s.ledger.done k (s.intake.givenUp k) (s.dispatch.offering? react k)
    else s.ledger
  | _ => s.ledger

def step (react : Log.Reaction) (s : Audit) : Event → Audit
  | .caller (.send sender uri payload signal) =>
    let k := s.intake.calls.size
    let (d, accepted, reading, effects) := s.dispatch.send sender (.post uri payload) signal
    { s with
      ledger := { s.ledger with accepted := s.ledger.accepted ++ if accepted then [k] else [] }
      told := s.told ++ (reading.map fun reading => (⟨k, reading⟩ : Settled)).toList }.lift react
        (d, effects)
  | .caller (.clone sender) => s.lift react (s.dispatch.clone sender, [])
  | .caller (.release sender) => s.lift react (s.dispatch.release sender)
  | .caller (.abort signal reason) => s.lift react (s.dispatch.abort signal reason)
  | .move m => { s with ledger := s.noting react m }.lift react (s.dispatch.moveUnder react m)
  | .clientClosed r => { s with pipeline := (s.pipeline.clientClosed r).1 }

def run (react : Log.Reaction) (s : Audit) (events : List Event) : Audit :=
  events.foldl (step react) s

/-- What an event does to the dispatch, and what follows from it. -/
def stepped (react : Log.Reaction) (s : Audit) : Event → Dispatch × List Effect
  | .caller (.send sender uri payload signal) =>
    let (d, _, _, effects) := s.dispatch.send sender (.post uri payload) signal
    (d, effects)
  | .caller (.clone sender) => (s.dispatch.clone sender, [])
  | .caller (.release sender) => s.dispatch.release sender
  | .caller (.abort signal reason) => s.dispatch.abort signal reason
  | .move m => s.dispatch.moveUnder react m
  | .clientClosed _ => (s.dispatch, [])

/-- What follows from an event, for others to do. -/
def effects (react : Log.Reaction) (s : Audit) : Event → List Effect
  | .clientClosed r => (s.pipeline.clientClosed r).2
  | ev => (s.pipeline.lift react (s.stepped react ev)).2

/-- What follows from events, in order. -/
def trace (react : Log.Reaction) : Audit → List Event → List Effect
  | _, [] => []
  | s, ev :: events => s.effects react ev ++ trace react (s.step react ev) events

variable {s : Audit} {react : Log.Reaction} {t : Dispatch × List Effect}

theorem lift_intake : (s.lift react t).intake = t.1.intake := (lift_under react s.pipeline t).1

theorem lift_loop : (s.lift react t).dispatch.loop = t.1.loop := (lift_under react s.pipeline t).2.1

theorem lift_told : (s.lift react t).told = s.told ++ settles t.2 :=
  congrArg (s.told ++ ·) (lift_under react s.pipeline t).2.2.1

theorem lift_queue : (s.lift react t).dispatch.queue = t.1.queue := by
  have hi : (s.lift react t).dispatch.intake = t.1.intake := lift_intake
  rw [Dispatch.queue, hi, lift_loop, Dispatch.queue]

/-- The ledger says what has become of the calls, and which of them may still run. -/
structure Sound (s : Audit) : Prop where
  dispatch : s.dispatch.Sound
  intake : s.intake.Sound s.told
  tallied : s.intake.Tallied s.ledger
  queued : ∀ k ∈ s.dispatch.queue, k ∈ s.ledger.accepted
  places : ∀ (k : Nat) (c : Call Stage), s.intake.calls[k]? = some c →
    s.ledger.Places k c.progress
  outcomes : ∀ x ∈ s.ledger.offers, x.outcome.OfExchange .any

theorem sound_start (fired : List (Nat × Value)) : (start fired).Sound :=
  ⟨Dispatch.sound_new fired, Intake.sound_new fired, Intake.tallied_new fired,
    by simp [start, dispatch, Pipeline.new, Dispatch.new, Dispatch.queue, Intake.new, Loop.hand],
    by simp [start, intake, dispatch, Pipeline.new, Dispatch.new, Intake.new],
    by simp [start, Ledger.empty]⟩

/-- What has to be shown of a step. -/
theorem Sound.lifted {l : Ledger} {told : List Settled} (hd : t.1.Sound)
    (hi : t.1.intake.Sound (told ++ settles t.2)) (ht : t.1.intake.Tallied l)
    (hq : ∀ k ∈ t.1.queue, k ∈ l.accepted)
    (hp : ∀ (k : Nat) (c : Call Stage), t.1.intake.calls[k]? = some c → l.Places k c.progress)
    (ho : ∀ x ∈ l.offers, x.outcome.OfExchange .any) :
    ({ s with ledger := l, told := told }.lift react t).Sound := by
  have hint : ({ s with ledger := l, told := told }.lift react t).intake = t.1.intake := lift_intake
  refine ⟨hd.congr hint lift_loop, ?_, hint ▸ ht, ?_, ?_, ho⟩
  · rw [hint, lift_told]
    exact hi
  · rw [lift_queue]
    exact hq
  · rw [hint]
    exact hp

/-- Steps that are not noted. -/
theorem Sound.same (h : s.Sound) (hd : t.1.Sound)
    (hi : t.1.intake.Sound (s.told ++ settles t.2)) (ht : t.1.intake.Tallied s.ledger)
    (hq : ∀ k ∈ t.1.queue, k ∈ s.dispatch.queue)
    (hp : ∀ (k : Nat) (c : Call Stage), t.1.intake.calls[k]? = some c →
      s.ledger.Places k c.progress) : (s.lift react t).Sound :=
  Sound.lifted hd hi ht (fun k hk => h.queued k (hq k hk)) hp h.outcomes

theorem places_congr {l m : Ledger} {k : Nat} {p : Stage} (hc : m.closed = l.closed)
    (hr : ∀ k ∈ l.rest, k ∈ m.rest) (h : l.Places k p) : m.Places k p := by
  cases p with
  | running e => exact ⟨hr k h.1, h.2⟩
  | waiting =>
    show k ∉ m.closed
    rw [hc]
    exact h
  | ended | retired =>
    show k ∈ m.closed
    rw [hc]
    exact h

theorem Sound.send (h : s.Sound) (sender : Nat) (uri : String) (payload : Bytes)
    (signal : Option Nat) : (s.step react (.caller (.send sender uri payload signal))).Sound := by
  have ha := Dispatch.arrived_send s.dispatch sender (.post uri payload) signal
  have hs := (Dispatch.quiet_send s.dispatch sender (.post uri payload) signal).1
  have hacc := Dispatch.send_accepted s.dispatch sender (.post uri payload) signal
  have hread := Dispatch.send_reading s.dispatch sender (.post uri payload) signal
  obtain ⟨hd, hq⟩ := h.dispatch.arrived ha (by simpa using Request.proper _) (by simp)
  have hi := h.intake.sent ha.calls ha.fired
  have ht := h.tallied.send sender (.post uri payload) signal .waiting
  obtain ⟨_, _, hcalls, hfired, _⟩ :=
    Intake.send_spec s.intake sender (.post uri payload) signal .waiting
  have hintake : (s.dispatch.send sender (.post uri payload) signal).1.intake =
      (s.intake.send sender (.post uri payload) signal .waiting).1 := by
    simp only [Dispatch.send]
    rw [Dispatch.take_eq]
    rfl
  have haccepted : (if (!s.intake.channel.isClosed sender) = true then [s.intake.calls.size]
      else []) = if s.intake.channel.isClosed sender then [] else [s.intake.calls.size] := by
    cases s.intake.channel.isClosed sender <;> rfl
  simp only [step, hacc, hread]
  show (Audit.lift react { s with ledger := { s.ledger with accepted := s.ledger.accepted ++
    if (!s.intake.channel.isClosed sender) = true then [s.intake.calls.size] else [] }, told := _ }
      _).Sound
  rw [haccepted]
  refine Sound.lifted hd ?_ (hintake ▸ ht) ?_ (fun k c hc => ?_) h.outcomes
  · rw [hs, List.append_nil]
    exact hi
  · intro k hk
    rw [hq] at hk
    rcases List.mem_append.mp hk with hk | hk
    · exact List.mem_append_left _ (h.queued k hk)
    · exact List.mem_append_right _ hk
  · rw [ha.calls, Array.getElem?_push] at hc
    split at hc
    · rename_i hk
      rw [← Option.some.inj hc, Intake.sent_progress]
      show k ∉ s.ledger.closed
      exact fun hm => h.tallied.size_notMem (hk ▸ h.tallied.taken k hm)
    · refine places_congr (l := s.ledger) rfl (fun n hn => ?_) (h.places k c hc)
      obtain ⟨hm, hc⟩ := Ledger.mem_rest.mp hn
      exact Ledger.mem_rest.mpr ⟨List.mem_append_left _ hm, hc⟩

theorem Sound.clone (h : s.Sound) (sender : Nat) :
    (s.step react (.caller (.clone sender))).Sound := by
  obtain ⟨hd, hq⟩ := h.dispatch.clone sender
  have hi := h.intake.congr (j := (s.dispatch.clone sender).intake) rfl rfl
  have ht := h.tallied.congr (j := (s.dispatch.clone sender).intake) rfl rfl rfl
  exact h.same (t := (s.dispatch.clone sender, [])) hd (by simpa using hi) ht
    (fun k hk => hq ▸ hk) h.places

theorem Sound.release (h : s.Sound) (sender : Nat) :
    (s.step react (.caller (.release sender))).Sound := by
  obtain ⟨hd, hq⟩ := h.dispatch.release sender
  have he := Dispatch.release_eq s.dispatch sender
  have hs := (Dispatch.quiet_release s.dispatch sender).1
  refine h.same (t := s.dispatch.release sender) hd ?_ ?_ (fun k hk => hq ▸ hk) ?_
  · rw [hs, List.append_nil, he]
    exact h.intake.congr rfl rfl
  · rw [he]
    exact h.tallied.congr rfl rfl rfl
  · rw [he]
    exact h.places

theorem Sound.abort (h : s.Sound) (signal : Nat) (reason : Value) :
    (s.step react (.caller (.abort signal reason))).Sound := by
  have hr := Dispatch.reslotted_abort s.dispatch signal reason
  obtain ⟨hd, hq⟩ := h.dispatch.reslotted hr
  refine h.same (t := s.dispatch.abort signal reason) hd ?_ (h.tallied.abort signal reason)
    (fun k hk => hq ▸ hk) fun k c hc => ?_
  · simp only [Dispatch.abort, settles_settledEffects]
    exact h.intake.abort signal reason
  · obtain ⟨g, hg, _, hp⟩ := hr.calls
    rw [hg, Array.getElem?_mapIdx] at hc
    obtain ⟨x, hx, rfl⟩ := Option.map_eq_some_iff.mp hc
    rw [hp]
    exact h.places k x hx

/-- Steps that change what the dispatch side keeps about calls, but not their slots. -/
theorem Sound.advanced {g : Nat → Call Stage → Call Stage} (h : s.Sound) (hd : t.1.Sound)
    (hcalls : t.1.intake.calls = s.intake.calls.mapIdx g)
    (hparcel : ∀ n c, (g n c).parcel = c.parcel) (hsignal : ∀ n c, (g n c).signal = c.signal)
    (hslot : ∀ n c, (g n c).slot = c.slot) (hfired : t.1.intake.fired = s.intake.fired)
    (hstats : t.1.intake.stats = s.intake.stats) (hsettles : settles t.2 = [])
    (hq : ∀ k ∈ t.1.queue, k ∈ s.dispatch.queue)
    (hp : ∀ (k : Nat) (c : Call Stage), s.intake.calls[k]? = some c →
      s.ledger.Places k (g k c).progress) : (s.lift react t).Sound := by
  have hi := h.intake.mapIdx hcalls hparcel hslot hsignal hfired
  refine h.same hd (by rwa [hsettles, List.append_nil])
    (h.tallied.mapIdx hcalls hslot hsignal hfired hstats) hq fun k c hc => ?_
  rw [hcalls, Array.getElem?_mapIdx] at hc
  obtain ⟨x, hx, rfl⟩ := Option.map_eq_some_iff.mp hc
  exact hp k x hx

theorem Sound.broken (h : s.Sound) (hb : Dispatch.Broken s.dispatch t) : (s.lift react t).Sound := by
  have hq : t.1.queue = [] := by
    obtain ⟨_, hlive⟩ := hb.coupled.ended (Or.inl hb.hand)
    rw [Dispatch.queue, Hand.queue, hb.hand, hlive]
    rfl
  refine h.advanced ⟨hb.coupled, by simp [hq], by simp [hq], ?_⟩
    (hb.calls.trans (mapIdx_same _).symm) (fun _ _ => rfl) (fun _ _ => rfl) (fun _ _ => rfl)
    hb.fired hb.stats hb.settles (by simp [hq]) h.places
  rw [hb.calls]
  exact h.dispatch.proper

/-- A turn starts at most the unit of an accepted call that is not done with. -/
theorem Sound.turn (h : s.Sound) : (s.step react (.move .turn)).Sound := by
  show (s.lift react (s.dispatch.turn react)).Sound
  obtain ht | hb := Dispatch.turn_under h.dispatch react
  · rw [ht]
    have hd := (h.dispatch.move .turn).1
    have hstats := Dispatch.stats_turn h.dispatch
    obtain ⟨hm, hs, ⟨_, hq, hcalls⟩ | ⟨k, c, content, _, hk, _, _, hq, hcalls⟩⟩ :=
      Dispatch.turn_cases h.dispatch
    · exact h.advanced hd (hcalls.trans (mapIdx_same _).symm) (fun _ _ => rfl) (fun _ _ => rfl)
        (fun _ _ => rfl) hm.fired hstats hs (fun k hk => hq ▸ hk) h.places
    · have hmem : k ∈ s.dispatch.queue := by
        rw [hq]
        exact List.mem_cons_self
      obtain ⟨x, hx, hw⟩ := h.dispatch.queued k hmem
      have hopen := h.places k x hx
      rw [hw] at hopen
      refine h.advanced hd (hcalls.trans (modify_eq_mapIdx _ _ _)) (fun n c => ?_) (fun n c => ?_)
        (fun n c => ?_) hm.fired hstats hs (fun n hn => by rw [hq]; exact List.mem_cons_of_mem _ hn)
        fun n c hc => ?_
      · split <;> rfl
      · split <;> rfl
      · split <;> rfl
      · split
        · rename_i he
          exact he ▸ ⟨Ledger.mem_rest.mpr ⟨h.queued k hmem, hopen⟩, Exchange.sound_asking⟩
        · exact h.places n c hc
  · exact h.broken hb

theorem places_mapExchange {l : Ledger} {k : Nat} {p : Stage} {f : Exchange → Exchange}
    (h : l.Places k p) (hf : ∀ e : Exchange, e.Sound .any → (f e).Sound .any) :
    l.Places k (p.mapExchange f) := by
  cases p with
  | running e => exact ⟨h.1, hf e h.2⟩
  | waiting | ended | retired => exact h

theorem places_moved {l : Ledger} {k : Nat} {c : Call Stage} {m : Move} (h : l.Places k c.progress)
    (hm : ∀ k, m ≠ .conclude k) : l.Places k (c.moved m).progress := by
  cases m with
  | turn => exact h
  | conclude k => exact (hm k rfl).elim
  | answered j r =>
    exact places_mapExchange h fun _ he => Exchange.sound_answer he (Manner.any_answers r)
  | chunk j v => exact places_mapExchange h fun _ he => Exchange.sound_chunk he v
  | bodyEnded j r =>
    exact places_mapExchange h fun _ he => Exchange.sound_bodyEnded he (Manner.any_ends r)
  | retire j => cases hp : c.progress <;> simp only [hp, Call.moved, Stage.retire] at h ⊢ <;> exact h

/-- An exchange that gets on settles nothing and counts nothing. -/
theorem Sound.touched {m : Move} {k : Nat} (h : s.Sound) (hm : m.own? = some k)
    (hc : ∀ k, m ≠ .conclude k) (hstats : (s.dispatch.move m).1.intake.stats = s.intake.stats) :
    (s.lift react (s.dispatch.move m)).Sound := by
  have ht := Dispatch.touched_move h.dispatch hm
  have hslot : ∀ c : Call Stage, (c.moved m).slot = c.slot := fun c => by
    cases m with
    | conclude k => exact (hc k rfl).elim
    | _ => rfl
  have hq : (s.dispatch.move m).1.queue = s.dispatch.queue := by
    simp [Dispatch.queue, ht.channel, ht.hand]
  refine h.advanced (h.dispatch.move m).1 (ht.calls.trans (modify_eq_mapIdx _ _ _)) (fun n c => ?_)
    (fun n c => ?_) (fun n c => ?_) ht.fired hstats ?_ (fun n hn => hq ▸ hn) fun n c hn => ?_
  · split
    · exact Dispatch.moved_parcel m c
    · rfl
  · split
    · exact Dispatch.moved_signal m c
    · rfl
  · split
    · exact hslot c
    · rfl
  · rw [ht.settles, Dispatch.quiet_news fun c _ => hslot c]
  · split
    · exact places_moved (h.places n c hn) hc
    · exact h.places n c hn

theorem noting_of_over {k : Nat} {c : Call Stage} {result : Attempt Outcome}
    (hk : s.intake.calls[k]? = some c) (hr : c.progress = .running (.over result)) :
    s.noting react (.conclude k) =
      s.ledger.done k (s.intake.givenUp k) (s.dispatch.offering? react k) := by
  have ho : (s.intake.progress? k).any Stage.isOver = true := by
    simp [Intake.progress?, hk, hr, Stage.isOver]
  simp only [noting, ho, if_true]

theorem noting_of_not_over (react : Log.Reaction) {k : Nat}
    (ho : ∀ (c : Call Stage) (result : Attempt Outcome), s.intake.calls[k]? = some c →
      c.progress ≠ .running (.over result)) :
    s.noting react (.conclude k) = s.ledger ∧ s.dispatch.conclude react k = (s.dispatch, []) := by
  refine ⟨?_, Dispatch.conclude_idle react ho⟩
  have hnot : ¬ (s.intake.progress? k).any Stage.isOver = true := fun h => by
    obtain ⟨result, hp⟩ := Stage.any_isOver.mp h
    obtain ⟨c, hk, hr⟩ := Option.map_eq_some_iff.mp hp
    exact ho c result hk hr
  simp only [noting, if_neg hnot]

/-- What becomes of the outcome of a unit is what the ledger notes. -/
theorem Sound.settling {k : Nat} (h : s.Sound) (react : Log.Reaction) (hk : k ∈ s.ledger.rest) :
    (s.dispatch.settling react k).1.Sound (s.told ++ (s.dispatch.settling react k).2) ∧
      (s.dispatch.settling react k).1.Tallied
        (s.ledger.done k (s.intake.givenUp k) (s.dispatch.offering? react k)) ∧
      (s.dispatch.settling react k).1.channel = s.intake.channel ∧
      ∃ f : Call Stage → Slot Outcome,
        (s.dispatch.settling react k).1.calls = s.intake.calls.modify k (Call.reslot f) := by
  obtain ⟨c, hc, _⟩ := h.tallied.waits k hk
  unfold Dispatch.settling
  cases ho : s.dispatch.offering? react k with
  | some o =>
    have he := Intake.deliver_eq s.intake k o
    rw [hc] at he
    exact ⟨h.intake.deliver hc o, h.tallied.deliver hk o, (Intake.deliver_spec hc o).1, _,
      congrArg (·.1.calls) he⟩
  | none =>
    have he := Intake.drop_eq s.intake k
    exact ⟨h.intake.drop k, h.tallied.drop hk _, congrArg (·.1.channel) he, _,
      congrArg (·.1.calls) he⟩

theorem places_done {l : Ledger} {k n : Nat} {late : Bool} {o : Option Outcome} {p : Stage}
    (h : l.Places n p) (hne : n ≠ k) : (l.done k late o).Places n p := by
  cases p with
  | running e => exact ⟨Ledger.mem_rest_done.mpr ⟨h.1, hne⟩, h.2⟩
  | waiting =>
    show n ∉ (l.done k late o).closed
    rw [(Ledger.closed_done l k late o).mem_iff, List.mem_cons, not_or]
    exact ⟨hne, h⟩
  | ended | retired => exact (Ledger.closed_done l k late o).mem_iff.mpr (List.mem_cons_of_mem _ h)

/-- What is passed to `deliver` is what the exchange has come to. -/
theorem offering_eq {k : Nat} {c : Call Stage} {result : Attempt Outcome} {o : Outcome}
    (hk : s.intake.calls[k]? = some c) (hr : c.progress = .running (.over result))
    (ho : s.dispatch.offering? react k = some o) : result = .ok o := by
  obtain ⟨parcel, slot, signal, progress⟩ := c
  subst hr
  have hk' : s.dispatch.intake.calls[k]? = _ := hk
  simp only [Dispatch.offering?, hk'] at ho
  cases result with
  | error v => simp at ho
  | ok x =>
    cases hu : parcel.url with
    | error v => simp [hu] at ho
    | ok url =>
      simp only [hu] at ho
      split at ho
      · rw [Option.some.inj ho]
      · cases ho

theorem outcome_done {k : Nat} {c : Call Stage} {result : Attempt Outcome} {late : Bool}
    (hk : s.intake.calls[k]? = some c) (hr : c.progress = .running (.over result))
    (he : (Exchange.over result).Sound .any)
    (h : ∀ x ∈ s.ledger.offers, x.outcome.OfExchange .any) :
    ∀ x ∈ (s.ledger.done k late (s.dispatch.offering? react k)).offers,
      x.outcome.OfExchange .any := by
  intro x hx
  cases ho : s.dispatch.offering? react k with
  | none =>
    rw [ho] at hx
    exact h x hx
  | some o =>
    rw [ho] at hx
    rcases List.mem_append.mp hx with hx | hx
    · exact h x hx
    · rw [List.mem_singleton.mp hx]
      exact he o (by rw [offering_eq hk hr ho]; rfl)

/-- The end of a unit is noted. -/
theorem Sound.conclude (h : s.Sound) (k : Nat) : (s.step react (.move (.conclude k))).Sound := by
  show (Audit.lift react { s with ledger := s.noting react (.conclude k) }
    (s.dispatch.conclude react k)).Sound
  rcases s.dispatch.over_or_idle k with ⟨c, result, hk, hr⟩ | hidle
  · obtain ⟨hrest, hsound⟩ : k ∈ s.ledger.rest ∧ (Exchange.over result).Sound .any := by
      simpa [hr, Ledger.Places] using h.places k c hk
    obtain ⟨failure, said, es, hd, hes⟩ :=
      Dispatch.conclude_under hk (h.dispatch.proper k c hk) hr react
    obtain ⟨hi, ht, hchannel, f, hcalls⟩ := h.settling react hrest
    obtain ⟨hended, hqueue, hall⟩ := h.dispatch.ended hk hr hchannel hcalls failure said
    have hset := Intake.calls_setProgress (s.dispatch.settling react k).1 k (.ended failure)
    rw [hd, noting_of_over hk hr]
    refine Sound.lifted hended ?_ ?_ (fun n hn => ?_) (fun n x hn => ?_) fun x hx => ?_
    · rw [hes]
      exact hi.mapIdx (hset.trans (modify_eq_mapIdx _ _ _)) (fun n c => by split <;> rfl)
        (fun n c => by split <;> rfl) (fun n c => by split <;> rfl) rfl
    · exact ht.modify hset (fun _ => rfl) (fun _ => rfl) rfl rfl
    · rw [Ledger.accepted_done]
      exact h.queued n (hqueue ▸ hn)
    · rw [show _ = _ from hall, Array.getElem?_mapIdx] at hn
      obtain ⟨x, hx, rfl⟩ := Option.map_eq_some_iff.mp hn
      by_cases he : n = k
      · rw [if_pos he]
        exact (Ledger.closed_done _ _ _ _).mem_iff.mpr (he ▸ List.mem_cons_self)
      · rw [if_neg he]
        exact places_done (h.places n x hx) he
    · exact outcome_done hk hr hsound h.outcomes x hx
  · obtain ⟨hn, hd⟩ := noting_of_not_over react hidle
    rw [hn, hd]
    exact h.same h.dispatch (by rw [settles_nil, List.append_nil]; exact h.intake) h.tallied
      (fun _ hk => hk) h.places

theorem Sound.clientClosed (h : s.Sound) (r : Attempt Unit) :
    (s.step react (.clientClosed r)).Sound := by
  have hd : (s.step react (.clientClosed r)).dispatch = s.dispatch := dispatch_closed _ _
  have hi : (s.step react (.clientClosed r)).intake = s.intake := congrArg Dispatch.intake hd
  refine ⟨hd ▸ h.dispatch, ?_, ?_, ?_, ?_, h.outcomes⟩
  · rw [hi]
    exact h.intake
  · rw [hi]
    exact h.tallied
  · rw [hd]
    exact h.queued
  · rw [hi]
    exact h.places

theorem Sound.step (h : s.Sound) (ev : Event) : (s.step react ev).Sound := by
  cases ev with
  | caller deed =>
    cases deed with
    | clone sender => exact h.clone sender
    | send sender uri payload signal => exact h.send sender uri payload signal
    | release sender => exact h.release sender
    | abort signal reason => exact h.abort signal reason
  | move m =>
    cases m with
    | turn => exact h.turn
    | answered k r =>
      exact h.touched (m := .answered k r) rfl (by simp) (Dispatch.stats_progress _)
    | chunk k v => exact h.touched (m := .chunk k v) rfl (by simp) (Dispatch.stats_progress _)
    | bodyEnded k r =>
      exact h.touched (m := .bodyEnded k r) rfl (by simp) (Dispatch.stats_progress _)
    | conclude k => exact h.conclude k
    | retire k => exact h.touched (m := .retire k) rfl (by simp) Dispatch.stats_retire
  | clientClosed r => exact h.clientClosed r

theorem Sound.run (h : s.Sound) (react : Log.Reaction) (events : List Event) :
    (s.run react events).Sound := by
  induction events generalizing s with
  | nil => exact h
  | cons ev events ih => exact ih (h.step ev)

end Audit
end Pipeline

/-! The owner's side -/

namespace Bridge

/-- A bridge's run, with the outcomes that were passed to `deliver`. -/
structure Audit where
  run : Run
  offers : List Offer

namespace Audit

def start (fired : List (Nat × Value)) : Audit := ⟨.start fired, []⟩

/-- The outcome that an event passes to `deliver`. -/
def offering (r : Run) : Event → List Offer
  | .message v =>
    match r.bridge.answer? v with
    | some ((_, k), o) => [⟨k, o, r.bridge.intake.givenUp k⟩]
    | none => []
  | _ => []

def step (s : Audit) (ev : Event) : Audit := ⟨s.run.step ev, s.offers ++ offering s.run ev⟩

def trace (s : Audit) (events : List Event) : Audit := events.foldl step s

/-- As `trace`, under a logger that may throw and has had some calls before. -/
def traceUnder (react : Log.Reaction) : Nat → Audit → List Event → Audit
  | _, s, [] => s
  | said, s, ev :: events =>
    let (run, said) := s.run.stepUnder react said ev
    traceUnder react said ⟨run, s.offers ++ offering s.run ev⟩ events

def ledger (s : Audit) : Ledger := ⟨s.run.accepted, s.offers, s.run.dropped⟩

variable {s t : Audit} {k : Nat}

/-- The ledger says where requests are that wait no longer. -/
structure Sound (s : Audit) : Prop where
  accounted : s.run.Accounted
  tallied : s.run.bridge.intake.Tallied s.ledger
  delivered : s.offers.map (·.call) = s.run.delivered

theorem Sound.mem_rest (h : s.Sound)
    (hk : k ∈ s.run.bridge.queue ++ s.run.bridge.pending.map (·.2)) : k ∈ s.ledger.rest := by
  have hcount := List.nodup_iff_count_le_one.mp h.accounted.places k
  have hk' := List.count_pos_iff.mpr hk
  refine Ledger.mem_rest.mpr ⟨h.accounted.perm.mem_iff.mpr
    (List.mem_append_left _ (List.mem_append_left _ hk)), fun hm => ?_⟩
  have hclosed : s.ledger.closed = s.run.delivered ++ s.run.dropped := by
    simp [Ledger.closed, ledger, h.delivered]
  rw [hclosed] at hm
  have hm' := List.count_pos_iff.mpr hm
  simp only [List.count_append] at hcount hk' hm'
  omega

theorem sound_start (fired : List (Nat × Value)) : (start fired).Sound := by
  have hb : (Run.start fired).bridge = asking ⟨.new fired, .ended, [], 0, true⟩ := by
    simp only [Run.start, Bridge.start]
    rw [takeNext_eq]
  refine ⟨Run.accounted_start fired, ?_, rfl⟩
  show (Run.start fired).bridge.intake.Tallied .empty
  rw [hb]
  exact (Intake.tallied_new fired).congr rfl rfl rfl

/-- Steps that are not noted. -/
theorem Sound.same {ev : Event} (h : s.Sound)
    (ht : (s.run.step ev).bridge.intake.Tallied s.ledger) (ho : offering s.run ev = [])
    (ha : (s.run.step ev).accepted = s.run.accepted)
    (hdelivered : (s.run.step ev).delivered = s.run.delivered)
    (hdropped : (s.run.step ev).dropped = s.run.dropped) : (s.step ev).Sound := by
  have hl : (s.step ev).ledger = s.ledger := by simp [step, ledger, ho, ha, hdropped]
  refine ⟨h.accounted.step ev, hl ▸ ht, ?_⟩
  simp only [step, ho, List.append_nil]
  exact h.delivered.trans hdelivered.symm

theorem Sound.send (h : s.Sound) (sender : Nat) (uri : String) (payload : Bytes)
    (signal : Option Nat) : (s.step (.send sender uri payload signal)).Sound := by
  have hs := Run.step_send s.run sender uri payload signal
  refine ⟨h.accounted.step (.send sender uri payload signal), ?_, ?_⟩
  · have ht := h.tallied.send sender (.post uri payload) signal ()
    simp only [step, ledger, offering, List.append_nil, hs, send_eq]
    exact ht
  · simp only [step, offering, List.append_nil, hs]
    exact h.delivered

theorem Sound.forward (h : s.Sound) : (s.step .forward).Sound := by
  refine h.same ?_ rfl rfl rfl rfl
  show s.run.bridge.turn.1.intake.Tallied s.ledger
  obtain ht | hf | ⟨k, hf⟩ := s.run.bridge.turn_cases
  · rw [ht]
    exact h.tallied
  · rw [(turn_handed_none hf).1]
    exact h.tallied
  · obtain ⟨c, uri, payload, hk, hp⟩ := h.accounted.held hf
    rw [turn_handed hf hk hp]
    exact h.tallied.congr rfl rfl rfl

/-- An answer passes one outcome to `deliver`, for a request that waits. -/
theorem Sound.message (h : s.Sound) (v : Value) : (s.step (.message v)).Sound := by
  cases ha : s.run.bridge.answer? v with
  | none =>
    have hr := Run.step_message_of_no_answer ha
    have ho : offering s.run (.message v) = [] := by simp only [offering, ha]
    exact h.same (by rw [hr]; exact h.tallied) ho (by rw [hr]) (by rw [hr]) (by rw [hr])
  | some x =>
    obtain ⟨⟨seq, k⟩, o⟩ := x
    have hx : (seq, k) ∈ s.run.bridge.pending := mem_of_answer ha
    have hm : k ∈ s.run.bridge.queue ++ s.run.bridge.pending.map (·.2) :=
      List.mem_append_right _ (List.mem_map_of_mem (f := (·.2)) hx)
    obtain ⟨c, hk, _⟩ := h.accounted.waits k hm
    have hd := (deliver_of_posted (b := s.run.bridge.answered seq) hk (h.accounted.posted k c hk) o).1
    have hb : (s.run.step (.message v)).bridge.intake = (s.run.bridge.intake.deliver k o).1 := by
      simp only [Run.step, Run.lift, message_of_answer ha, hd]
      rfl
    have ho : offering s.run (.message v) = [⟨k, o, s.run.bridge.intake.givenUp k⟩] := by
      simp only [offering, ha]
    refine ⟨h.accounted.step (.message v), ?_, ?_⟩
    · have ht := h.tallied.deliver (h.mem_rest hm) o
      show (s.run.step (.message v)).bridge.intake.Tallied _
      rw [hb]
      simp only [step, ledger, ho]
      exact ht
    · simp only [step, ho, List.map_append, h.delivered]
      simp [Run.step, Run.lift, Run.answering, ha]

/-- The worker is found gone, and all that waits is dropped without a delivery. -/
theorem Sound.shutdown {ev : Event} (h : s.Sound) {reason : String} (ho : offering s.run ev = [])
    (hev : s.run.step ev = s.run.shutdown reason) : (s.step ev).Sound := by
  cases ha : s.run.bridge.alive with
  | false =>
    have hr := hev.trans (Run.shutdown_of_dead ha reason)
    exact h.same (by rw [hr]; exact h.tallied) ho (by rw [hr]) (by rw [hr]) (by rw [hr])
  | true =>
    obtain ⟨hb, _⟩ := shutdown_of_alive ha h.accounted.posted reason
    have hclosed : s.run.bridge.closedIntake.Tallied s.ledger := h.tallied.congr rfl rfl rfl
    have ht := hclosed.dropAll h.accounted.owed_nodup fun k hk =>
      h.mem_rest (s.run.owed_sublist.mem hk)
    refine ⟨h.accounted.step ev, ?_, ?_⟩
    · simp only [step, ledger, ho, List.append_nil, hev, Run.shutdown, Run.lift, ha, if_true]
      rw [hb]
      exact ht
    · simp only [step, ho, List.append_nil, hev]
      exact h.delivered

theorem Sound.step (h : s.Sound) (ev : Event) : (s.step ev).Sound := by
  cases ev with
  | send sender uri payload signal => exact h.send sender uri payload signal
  | clone sender => exact h.same (h.tallied.congr rfl rfl rfl) rfl rfl rfl rfl
  | release sender =>
    refine h.same ?_ rfl rfl rfl rfl
    show (s.run.bridge.release sender).1.intake.Tallied s.ledger
    rw [release_eq]
    exact h.tallied.congr rfl rfl rfl
  | abort signal reason => exact h.same (h.tallied.abort signal reason) rfl rfl rfl rfl
  | forward => exact h.forward
  | message v => exact h.message v
  | portClosed => exact h.shutdown rfl rfl
  | exited code => exact h.shutdown rfl rfl

theorem Sound.trace (h : s.Sound) (events : List Event) : (s.trace events).Sound := by
  induction events generalizing s with
  | nil => exact h
  | cons ev events ih => exact ih (h.step ev)

theorem traceUnder_calm (said : Nat) (s : Audit) (events : List Event) :
    s.traceUnder Log.calm said events = s.trace events := by
  induction events generalizing s said with
  | nil => rfl
  | cons ev events ih =>
    simp only [traceUnder, stepUnder_calm, ih]
    rfl

theorem offering_of_ends {ev : Event} (h : ev.ends = true) (r : Run) : offering r ev = [] := by
  cases ev with
  | portClosed | exited => rfl
  | _ => cases h

theorem offering_of_echoes {r q : Run} (h : r.Echoes q) (ev : Event) :
    offering r ev = offering q ev := by
  cases ev with
  | message v =>
    have hi : r.bridge.intake = q.bridge.intake := congrArg (·.bridge.intake) h.run
    simp only [offering, h.answer_eq, hi]
  | _ => rfl

/-- What a logger throws does nothing to what has become of requests but that the end of the worker
may go unheeded. -/
theorem traceUnder_echoes (react : Log.Reaction) (said : Nat) (events : List Event)
    (h : s.run.Echoes t.run) (ho : s.offers = t.offers) : ∃ heeded,
      (s.traceUnder react said events).run.Echoes (t.trace heeded).run ∧
        (s.traceUnder react said events).offers = (t.trace heeded).offers := by
  induction events generalizing s t said with
  | nil => exact ⟨[], h, ho⟩
  | cons ev events ih =>
    have hoffers := offering_of_echoes h ev
    rcases h.step react said ev with hstep | ⟨hends, hstep⟩
    · obtain ⟨heeded, hrun, hsame⟩ := ih _ (t := t.step ev)
        (s := ⟨(s.run.stepUnder react said ev).1, s.offers ++ offering s.run ev⟩) hstep
        (by rw [hoffers, ho]; rfl)
      exact ⟨ev :: heeded, hrun, hsame⟩
    · refine ih _ (s := ⟨(s.run.stepUnder react said ev).1, s.offers ++ offering s.run ev⟩) hstep ?_
      rw [offering_of_ends hends, List.append_nil, ho]

end Audit
end Bridge

/-- In every state of an embedded transport, and in every state of the owner's side of a standalone
one, whatever arrives from its worker, the counters account for the accepted requests, whatever the
logger does. An exchange never brings an outcome that looks like an abort. -/
theorem counters_conserved :
    (∀ (react : Log.Reaction) (fired : List (Nat × Value)) (events : List Pipeline.Audit.Event),
      let s := (Pipeline.Audit.start fired).run react events
      Conserved s.intake s.told s.ledger ∧ ∀ x ∈ s.ledger.offers, ∀ reason : Value,
        Handle.result (.got (some x.outcome)) ≠ .error (Fault.aborted reason).toValue) ∧
    ∀ (react : Log.Reaction) (fired : List (Nat × Value)) (events : List Bridge.Event),
      let s := (Bridge.Audit.start fired).traceUnder react 0 events
      Conserved s.run.bridge.intake s.run.told s.ledger := by
  refine ⟨fun react fired events => ?_, fun react fired events => ?_⟩
  · have h := (Pipeline.Audit.sound_start fired).run react events
    exact ⟨h.tallied.conserved h.intake, fun x hx =>
      (Embedded.result_of_exchange (h.outcomes x hx)).2⟩
  · obtain ⟨heeded, hrun, hoffers⟩ := Bridge.Audit.traceUnder_echoes react 0 events
      (Bridge.Run.Echoes.refl (Bridge.Audit.start fired).run) rfl
    have h := (Bridge.Audit.sound_start fired).trace heeded
    have hledger : ((Bridge.Audit.start fired).traceUnder react 0 events).ledger =
        ((Bridge.Audit.start fired).trace heeded).ledger := by
      have ha := congrArg Bridge.Run.accepted hrun.run
      have hd := congrArg Bridge.Run.dropped hrun.run
      simp only [Bridge.Audit.ledger, ha, hd, hoffers]
    intro s
    rw [show s.ledger = _ from hledger, show s.run = _ from hrun.run]
    exact h.tallied.conserved h.accounted.intake

/-- The logger throws when the first of three exchanges has ended, and the caller of the third one
has given up before its exchange ends. -/
example : ((Pipeline.Audit.start []).run (fun n _ => if n = 3 then some .null else none)
    [.caller (.send 0 "http://a/" [] none), .caller (.send 0 "http://a/" [] none),
      .caller (.send 0 "http://a/" [] (some 7)), .move .turn, .move .turn, .move .turn, .move .turn,
      .caller (.abort 7 .null), .move (.answered 0 (.error .null)),
      .move (.answered 1 (.error .null)), .move (.answered 2 (.error .null)), .move (.conclude 0),
      .move (.conclude 1), .move (.conclude 2)]).intake.stats = ⟨3, 1, 1⟩ := by decide +kernel

end Courier
