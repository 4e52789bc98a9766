import Courier.Proofs.Closing
import Courier.Proofs.Counters

/-!
Giving up is nobody else's business. Two runs in which the same is done, but in which other signals
fire or the same ones at other moments, are one run for the client and for every caller whose
signal fires in neither. Each of them goes along with a third run, in which no signal fires.
-/

namespace Courier

open Effect

/-! Calls and counters -/

/-- Two records of one call. They differ at most in its slot, and only if its signal has fired in
the first. -/
structure Call.Twin {P : Type} (fired : Option Value) (c b : Call P) : Prop where
  parcel : c.parcel = b.parcel
  signal : c.signal = b.signal
  progress : c.progress = b.progress
  slot : fired = none → c.slot = b.slot

/-- The outcomes that have been offered, whether they were received or not. -/
def Stats.offered (s : Stats) : Nat := s.delivered + s.undelivered

theorem Stats.offered_countDelivery (s : Stats) (received : Bool) :
    (s.countDelivery received).offered = s.offered + 1 := by
  cases received <;> simp only [countDelivery, offered, if_true, Bool.false_eq_true, if_false] <;>
    omega

theorem Stats.submitted_countDelivery (s : Stats) (received : Bool) :
    (s.countDelivery received).submitted = s.submitted := by
  cases received <;> rfl

namespace Intake

variable {P : Type} {reason : Option Nat → Option Value} {a b : Array (Call P)}

/-- The calls of two intakes agree one by one. -/
def Twins (reason : Option Nat → Option Value) (a b : Array (Call P)) : Prop :=
  ∀ k : Nat, Option.Rel (fun c d : Call P => c.Twin (reason c.signal) d) a[k]? b[k]?

theorem Twins.both (h : Twins reason a b) (k : Nat) : (a[k]? = none ∧ b[k]? = none) ∨
    ∃ c d, a[k]? = some c ∧ b[k]? = some d ∧ Call.Twin (reason c.signal) c d := by
  have hk := h k
  generalize a[k]? = x at hk ⊢
  generalize b[k]? = y at hk ⊢
  cases hk with
  | none => exact Or.inl ⟨rfl, rfl⟩
  | some ht => exact Or.inr ⟨_, _, rfl, rfl, ht⟩

theorem Twins.progress (h : Twins reason a b) (k : Nat) :
    (a[k]?).map (·.progress) = (b[k]?).map (·.progress) := by
  obtain ⟨ha, hb⟩ | ⟨c, d, ha, hb, ht⟩ := h.both k
  · rw [ha, hb]
  · rw [ha, hb, Option.map_some, Option.map_some, ht.progress]

theorem Twins.map_progress (h : Twins reason a b) : a.map (·.progress) = b.map (·.progress) := by
  refine Array.ext_getElem? fun k => ?_
  rw [Array.getElem?_map, Array.getElem?_map]
  exact h.progress k

theorem Twins.size_eq (h : Twins reason a b) : a.size = b.size := by
  have hsize := congrArg Array.size h.map_progress
  rwa [Array.size_map, Array.size_map] at hsize

theorem Twins.push (h : Twins reason a b) {c d : Call P} (hc : c.Twin (reason c.signal) d) :
    Twins reason (a.push c) (b.push d) := by
  intro k
  rw [Array.getElem?_push, Array.getElem?_push, h.size_eq]
  split
  · exact .some hc
  · exact h k

/-- The same happens to a call in both intakes. -/
theorem Twins.modify (h : Twins reason a b) (k : Nat) {f : Call P → Call P}
    (hs : ∀ c, (f c).signal = c.signal)
    (hf : ∀ {fired c d}, Call.Twin fired c d → (f c).Twin fired (f d)) :
    Twins reason (a.modify k f) (b.modify k f) := by
  intro n
  rw [Array.getElem?_modify, Array.getElem?_modify]
  split
  · subst n
    obtain ⟨ha, hb⟩ | ⟨c, d, ha, hb, ht⟩ := h.both k
    · rw [ha, hb]
      exact .none
    · rw [ha, hb]
      refine .some ?_
      rw [hs]
      exact hf ht
  · exact h n

/-- Two intakes of calls to which the same has happened, except that in the second one no signal has
fired. -/
structure Twin (i j : Intake P) : Prop where
  channel : i.channel = j.channel
  calls : Twins i.reason? i.calls j.calls
  unfired : j.fired = []
  submitted : i.stats.submitted = j.stats.submitted
  offered : i.stats.offered = j.stats.offered

variable {i j : Intake P}

theorem Twin.reason_eq_none (h : i.Twin j) (signal : Option Nat) : j.reason? signal = none := by
  cases signal with
  | none => rfl
  | some s => simp [reason?, Signals.reason?, h.unfired]

theorem Twin.sent (h : i.Twin j) (sender : Nat) (request : Request) (signal : Option Nat)
    (start : P) : (i.sent sender request signal start).Twin
      (i.reason? (i.sent sender request signal start).signal)
      (j.sent sender request signal start) := by
  unfold Intake.sent
  rw [h.channel]
  split
  · exact ⟨rfl, rfl, rfl, fun _ => rfl⟩
  · refine ⟨rfl, rfl, rfl, fun hr => ?_⟩
    simp only at hr ⊢
    rw [hr, h.reason_eq_none]

theorem Twin.send (h : i.Twin j) (sender : Nat) (request : Request) (signal : Option Nat)
    (start : P) :
    (i.send sender request signal start).1.Twin (j.send sender request signal start).1 ∧
      (i.send sender request signal start).2.2.2 = (j.send sender request signal start).2.2.2 := by
  have hcalls := h.calls.push (h.sent sender request signal start)
  cases hc : i.channel.isClosed sender with
  | true =>
    rw [send_eq_of_closed request signal start hc,
      send_eq_of_closed request signal start (h.channel ▸ hc)]
    exact ⟨⟨h.channel, hcalls, h.unfired, h.submitted, h.offered⟩, rfl⟩
  | false =>
    have hchannel : i.channel.send sender i.calls.size = j.channel.send sender j.calls.size := by
      rw [h.channel, h.calls.size_eq]
    rw [send_eq_of_open request signal start hc,
      send_eq_of_open request signal start (h.channel ▸ hc), hchannel]
    exact ⟨⟨rfl, hcalls, h.unfired, congrArg (· + 1) h.submitted, h.offered⟩, rfl⟩

theorem Twin.setProgress (h : i.Twin j) (k : Nat) (p : P) :
    (i.setProgress k p).Twin (j.setProgress k p) := by
  refine ⟨h.channel, ?_, h.unfired, h.submitted, h.offered⟩
  exact h.calls.modify k (f := fun c => { c with progress := p }) (fun _ => rfl)
    fun ht => ⟨ht.parcel, ht.signal, rfl, ht.slot⟩

theorem Twin.channeled (h : i.Twin j) (c : Channel Nat) :
    Twin { i with channel := c } { j with channel := c } :=
  ⟨rfl, h.calls, h.unfired, h.submitted, h.offered⟩

/-- A signal for which there is no reason after another has fired is not that one. -/
theorem reason_of_abort {signal : Nat} {reason : Value} {s : Option Nat}
    (h : Intake.reason? { i with fired := i.fired ++ [(signal, reason)] } s = none) :
    i.reason? s = none ∧ s ≠ some signal := by
  rw [reason?, Signals.reason_append, Option.or_eq_none_iff] at h
  exact ⟨h.1, fun hs => by simp [hs] at h⟩

/-- A signal that fires in the first intake alone. -/
theorem Twin.abort (h : i.Twin j) (signal : Nat) (reason : Value) :
    (i.abort signal reason).1.Twin j := by
  cases hf : i.fired.any (·.1 = signal) with
  | true =>
    rw [abort_of_fired hf]
    exact h
  | false =>
    rw [abort_eq hf]
    refine ⟨h.channel, fun k => ?_, h.unfired, h.submitted, h.offered⟩
    rw [Array.getElem?_map]
    obtain ⟨hi, hj⟩ | ⟨c, d, hi, hj, ht⟩ := h.calls.both k
    · rw [hi, hj]
      exact .none
    · rw [hi, hj]
      refine .some ⟨ht.parcel, ht.signal, ht.progress, fun hr => ?_⟩
      -- The signal of a call without a reason is not the one that fires, so its slot stays.
      obtain ⟨hr, hne⟩ := reason_of_abort hr
      exact (if_neg hne).trans (ht.slot hr)

end Intake

/-! The dispatch loop and its units -/

/-- How a unit gets on does not depend on the slot of its call. -/
theorem Call.Twin.moved {fired : Option Value} {c b : Call Stage} (h : c.Twin fired b) (m : Move) :
    (c.moved m).Twin fired (b.moved m) := by
  obtain ⟨parcel, slot, signal, progress⟩ := c
  obtain ⟨parcel', slot', signal', progress'⟩ := b
  obtain ⟨rfl, rfl, rfl, hslot⟩ := h
  refine ⟨?_, ?_, ?_, fun hf => ?_⟩
  · rw [Dispatch.moved_parcel, Dispatch.moved_parcel]
  · rw [Dispatch.moved_signal, Dispatch.moved_signal]
  · cases m with
    | conclude => rcases progress with _ | (_ | _ | _) | _ | _ <;> rfl
    | _ => rfl
  · obtain rfl : slot = slot' := hslot hf
    rfl

/-- Whether the unit of a call is about to offer an outcome. -/
def Stage.brings : Stage → Bool
  | .running (.over (.ok _)) => true
  | _ => false

namespace Dispatch

variable {d e : Dispatch} {k : Nat}

/-- Two dispatches that have gone the same way, except for what callers who gave up have made of
it. -/
structure Twin (d e : Dispatch) : Prop where
  intake : d.intake.Twin e.intake
  loop : d.loop = e.loop

/-- Steps of two dispatches that stay twins and ask others for the same. -/
structure Lockstep (r s : Dispatch × List Effect) : Prop where
  state : r.1.Twin s.1
  acts : acts r.2 = acts s.2

theorem Twin.progress_eq (h : d.Twin e) (k : Nat) : d.intake.progress? k = e.intake.progress? k :=
  h.intake.calls.progress k

theorem Twin.inFlight_eq (h : d.Twin e) : d.inFlight = e.inFlight := by
  have hcount : ∀ d : Dispatch, d.inFlight = (d.intake.calls.map (·.progress)).countP isInFlight :=
    fun d => by
      rw [Array.countP_map, Array.countP_eq_size_filter]
      rfl
  rw [hcount, hcount, h.intake.calls.map_progress]

theorem Twin.take (h : d.Twin e) (handoff : Option (Channel.Handoff Nat)) :
    Lockstep (d.take handoff) (e.take handoff) := by
  obtain ⟨i, loop, said⟩ := d
  obtain ⟨j, loop', said'⟩ := e
  obtain ⟨hi, rfl⟩ : i.Twin j ∧ loop = loop' := ⟨h.intake, h.loop⟩
  cases handoff with
  | none => exact ⟨⟨hi, rfl⟩, rfl⟩
  | some handoff => cases loop <;> exact ⟨⟨hi, rfl⟩, rfl⟩

theorem Twin.takeNext (h : d.Twin e) : Lockstep d.takeNext e.takeNext := by
  unfold Dispatch.takeNext
  rw [h.intake.channel]
  cases e.intake.channel.next with
  | mk c answer => cases answer <;> exact ⟨⟨h.intake.channeled c, rfl⟩, rfl⟩

theorem Twin.send (h : d.Twin e) (sender : Nat) (request : Request) (signal : Option Nat) :
    Lockstep ((d.send sender request signal).1, (d.send sender request signal).2.2.2)
      ((e.send sender request signal).1, (e.send sender request signal).2.2.2) := by
  obtain ⟨hintake, hhandoff⟩ := h.intake.send sender request signal .waiting
  have ht := Twin.take (d := { d with intake := (d.intake.send sender request signal .waiting).1 })
    (e := { e with intake := (e.intake.send sender request signal .waiting).1 }) ⟨hintake, h.loop⟩
    (d.intake.send sender request signal .waiting).2.2.2
  simp only [Dispatch.send]
  rw [← hhandoff]
  exact ht

theorem Twin.clone (h : d.Twin e) (sender : Nat) : (d.clone sender).Twin (e.clone sender) := by
  refine ⟨?_, h.loop⟩
  unfold Dispatch.clone
  rw [h.intake.channel]
  exact h.intake.channeled _

theorem Twin.release (h : d.Twin e) (sender : Nat) :
    Lockstep (d.release sender) (e.release sender) := by
  obtain ⟨i, loop, said⟩ := d
  obtain ⟨j, loop', said'⟩ := e
  obtain ⟨hi, rfl⟩ : i.Twin j ∧ loop = loop' := ⟨h.intake, h.loop⟩
  simp only [Dispatch.release, hi.channel]
  exact Twin.take (d := ⟨_, loop, said⟩) (e := ⟨_, loop, said'⟩) ⟨hi.channeled _, rfl⟩ _

/-- A signal that fires in the first dispatch alone moves nothing there. -/
theorem Twin.abort (h : d.Twin e) (signal : Nat) (reason : Value) :
    (d.abort signal reason).1.Twin e ∧ acts (d.abort signal reason).2 = [] :=
  ⟨⟨h.intake.abort signal reason, h.loop⟩, acts_settledEffects _⟩

theorem Twin.progress (h : d.Twin e) (k : Nat) (step : Exchange → Exchange × List Effect) :
    Lockstep (d.progress k step) (e.progress k step) := by
  unfold Dispatch.progress
  rw [h.progress_eq k]
  split
  · exact ⟨⟨h.intake.setProgress k _, h.loop⟩, rfl⟩
  · exact ⟨h, rfl⟩

theorem Twin.retire (h : d.Twin e) (k : Nat) : Lockstep (d.retire k) (e.retire k) := by
  obtain ⟨i, loop, said⟩ := d
  obtain ⟨j, loop', said'⟩ := e
  obtain ⟨hi, rfl⟩ : i.Twin j ∧ loop = loop' := ⟨h.intake, h.loop⟩
  have hp : i.progress? k = j.progress? k := hi.calls.progress k
  simp only [Dispatch.retire, hp]
  split
  · rename_i failure _
    have hi' := hi.setProgress k (.retired failure)
    have hflight := inFlight_eq (d := ⟨i.setProgress k (.retired failure), loop, said⟩)
      (e := ⟨j.setProgress k (.retired failure), loop, said'⟩) ⟨hi', rfl⟩
    split
    · exact ⟨⟨hi', rfl⟩, rfl⟩
    · rw [hflight]
      exact ⟨⟨hi', rfl⟩, rfl⟩
    all_goals exact ⟨⟨hi', rfl⟩, rfl⟩
  · exact ⟨⟨hi, rfl⟩, rfl⟩

theorem Twin.turn (h : d.Twin e) (hd : d.Sound) :
    Lockstep (d.turn Log.calm) (e.turn Log.calm) := by
  cases hl : d.loop with
  | unstarted =>
    rw [turn_unstarted hl, turn_unstarted (h.loop ▸ hl), ← takeNext_eq, ← takeNext_eq]
    exact h.takeNext
  | handed call =>
    cases call with
    | none =>
      have hflight := h.inFlight_eq
      have hl' : e.loop = .handed none := h.loop ▸ hl
      simp only [Dispatch.turn, hl, hl', say, Log.calm]
      refine ⟨⟨h.intake, rfl⟩, ?_⟩
      show acts ([.log _] ++ if d.inFlight = 0 then [.wake] else []) =
        acts ([.log _] ++ if e.inFlight = 0 then [.wake] else [])
      rw [hflight]
    | some k =>
      have hl' : e.loop = .handed (some k) := h.loop ▸ hl
      obtain ⟨c, content, url, hc, hp, hu⟩ := hd.handed hl
      obtain ⟨hnone, _⟩ | ⟨_, b, hc', hb, htwin⟩ := h.intake.calls.both k
      · rw [hc] at hnone
        cases hnone
      obtain rfl := Option.some.inj (hc.symm.trans hc')
      have hbegan : (d.began k).Twin (e.began k) :=
        ⟨h.intake.setProgress k (.running .asking), h.loop⟩
      have ht := hbegan.takeNext
      rw [turn_handed hl hc hp hu, turn_handed hl' hb (htwin.parcel ▸ hp) hu]
      refine ⟨?_, ?_⟩
      · have hstate := ht.state
        rw [takeNext_eq (d.began k), takeNext_eq (e.began k)] at hstate
        exact hstate
      · rw [acts_append, acts_append, ht.acts]
  | draining failure =>
    have hl' : e.loop = .draining failure := h.loop ▸ hl
    cases failure with
    | some v =>
      simp only [Dispatch.turn, hl, hl', finish]
      exact ⟨⟨h.intake, rfl⟩, rfl⟩
    | none =>
      simp only [Dispatch.turn, hl, hl', h.inFlight_eq]
      split
      · exact ⟨⟨h.intake, rfl⟩, rfl⟩
      · exact ⟨h, rfl⟩
  | waiting | ended =>
    simp only [Dispatch.turn, hl, h.loop ▸ hl]
    exact ⟨h, rfl⟩

/-- A unit that ends counts for one outcome if it has one, whatever becomes of that. -/
theorem stats_conclude (h : d.Sound) (k : Nat) :
    (d.conclude Log.calm k).1.intake.stats.submitted = d.intake.stats.submitted ∧
      (d.conclude Log.calm k).1.intake.stats.offered = d.intake.stats.offered +
        if (d.intake.progress? k).any Stage.brings then 1 else 0 := by
  obtain ⟨hidle, hd⟩ | ⟨c, v, said, es, hk, hr, hd, _⟩ | ⟨c, o, said, es, hk, hr, hd, _⟩ :=
    conclude_cases (h.proper k)
  · have hnone : (d.intake.progress? k).any Stage.brings = false := by
      unfold Intake.progress?
      cases hk : d.intake.calls[k]? with
      | none => rfl
      | some c =>
        have hc := hidle c
        cases hp : c.progress with
        | running x => cases x <;> simp_all [Stage.brings]
        | waiting | ended | retired => simp [hp, Stage.brings]
    simp [hd, hnone]
  · rw [hd, Intake.drop_eq]
    simp [Intake.setProgress, Intake.progress?, hk, hr, Stage.brings]
  · have hs : d.intake.slot? k = some c.slot := by simp [Intake.slot?, hk]
    have hstats : (d.conclude Log.calm k).1.intake.stats =
        d.intake.stats.countDelivery (c.slot.send o).2 := by
      rw [hd]
      exact Intake.stats_deliver hs o
    rw [hstats, Stats.submitted_countDelivery, Stats.offered_countDelivery]
    simp [Intake.progress?, hk, hr, Stage.brings]

theorem Twin.conclude (h : d.Twin e) (hd : d.Sound) (he : e.Sound) (k : Nat) :
    Lockstep (d.conclude Log.calm k) (e.conclude Log.calm k) := by
  have htd := touched_conclude (k := k) (hd.proper k)
  have hte := touched_conclude (k := k) (he.proper k)
  obtain ⟨hsub, hoff⟩ := stats_conclude hd k
  obtain ⟨hsub', hoff'⟩ := stats_conclude he k
  refine ⟨⟨⟨?channel, ?calls, ?unfired, ?submitted, ?offered⟩, ?loop⟩, ?acts⟩
  case channel => rw [htd.channel, hte.channel, h.intake.channel]
  case calls =>
    rw [funext (Intake.reason_congr htd.fired), htd.calls, hte.calls]
    exact h.intake.calls.modify k (Dispatch.moved_signal (.conclude k))
      fun ht => ht.moved (.conclude k)
  case unfired => rw [hte.fired, h.intake.unfired]
  case submitted => rw [hsub, hsub', h.intake.submitted]
  case offered => rw [hoff, hoff', h.intake.offered, h.progress_eq]
  case loop => rw [loop_conclude hd, loop_conclude he, h.loop]
  case acts => rw [acts_conclude, acts_conclude, h.progress_eq]

theorem Twin.move (h : d.Twin e) (hd : d.Sound) (he : e.Sound) (m : Move) :
    Lockstep (d.move m) (e.move m) := by
  cases m with
  | turn => exact h.turn hd
  | answered k r => exact h.progress k _
  | chunk k v => exact h.progress k fun x => (x.chunk v, [])
  | bodyEnded k r => exact h.progress k fun x => (x.bodyEnded r, [])
  | conclude k => exact h.conclude hd he k
  | retire k => exact h.retire k

end Dispatch

/-! Pipelines -/

namespace Pipeline

/-- Two pipelines that have gone the same way; the client of one whose loop has ended was told to
close. -/
structure Twin (p q : Pipeline) : Prop where
  dispatch : p.dispatch.Twin q.dispatch
  closing : p.closing = q.closing
  shut : ∀ r, p.dispatch.loop = .ended r → p.closing ≠ .no

variable {p q : Pipeline} {s t : Dispatch × List Effect}

theorem Twin.lift (h : p.Twin q) (hs : Dispatch.Lockstep s t) :
    (p.lift Log.calm s).1.Twin (q.lift Log.calm t).1 ∧
      acts (p.lift Log.calm s).2 = acts (q.lift Log.calm t).2 := by
  obtain ⟨⟨i, loop, said⟩, es⟩ := s
  obtain ⟨⟨j, loop', said'⟩, fs⟩ := t
  obtain ⟨⟨hi, hloop⟩, hacts⟩ := hs
  obtain ⟨dispatch, closing⟩ := p
  obtain ⟨dispatch', closing'⟩ := q
  obtain rfl : closing = closing' := h.closing
  cases hloop
  cases closing with
  | no =>
    cases loop with
    | ended result =>
      cases result <;> refine ⟨⟨⟨hi, rfl⟩, rfl, by simp [Pipeline.lift, Pipeline.shut]⟩, ?_⟩ <;>
        simp only [Pipeline.lift, Pipeline.shut, Dispatch.say, Log.calm, acts_append, hacts]
    | unstarted | waiting | handed | draining =>
      exact ⟨⟨⟨hi, rfl⟩, rfl, by simp [Pipeline.lift]⟩, hacts⟩
  | closing | done => exact ⟨⟨⟨hi, rfl⟩, rfl, by simp [Pipeline.lift]⟩, hacts⟩

theorem Twin.clientClosed (h : p.Twin q) (result : Attempt Unit) :
    (p.clientClosed result).1.Twin (q.clientClosed result).1 ∧
      acts (p.clientClosed result).2 = acts (q.clientClosed result).2 := by
  obtain ⟨dispatch, closing⟩ := p
  obtain ⟨dispatch', closing'⟩ := q
  obtain ⟨hd, rfl, hshut⟩ := h
  cases closing with
  | closing last => exact ⟨⟨hd, rfl, by simp [Pipeline.clientClosed]⟩, rfl⟩
  | no | done => exact ⟨⟨hd, rfl, hshut⟩, rfl⟩

/-- A signal that fires in the first pipeline alone. -/
theorem Twin.abort (h : p.Twin q) (signal : Nat) (reason : Value) :
    (p.lift Log.calm (p.dispatch.abort signal reason)).1.Twin q ∧
      acts (p.lift Log.calm (p.dispatch.abort signal reason)).2 = [] := by
  obtain ⟨hd, hacts⟩ := h.dispatch.abort signal reason
  have hlift : p.lift Log.calm (p.dispatch.abort signal reason) =
      ({ p with dispatch := (p.dispatch.abort signal reason).1 },
        (p.dispatch.abort signal reason).2) := by
    -- An ended loop has closed the client before, so that the abort is not what closes it.
    by_cases hc : p.closing = .no
    · exact lift_of_open fun r hr => h.shut r hr hc
    · exact lift_of_shut hc
  rw [hlift]
  exact ⟨⟨hd, h.closing, h.shut⟩, hacts⟩

namespace Run

variable {r s : Run}

theorem lockstep (h : r.pipeline.Twin s.pipeline) (hr : r.dispatch.Sound) (hs : s.dispatch.Sound)
    {ev : Event} (hp : ev.plain = true) (ha : ∀ signal reason, ev ≠ .abort signal reason) :
    Dispatch.Lockstep (r.stepped ev) (s.stepped ev) := by
  have hd : r.dispatch.Twin s.dispatch := h.dispatch
  cases ev with
  | offer | receive | withSlot => cases hp
  | send sender request signal => exact hd.send sender request signal
  | clone sender => exact ⟨hd.clone sender, rfl⟩
  | release sender => exact hd.release sender
  | abort signal reason => exact (ha signal reason rfl).elim
  | move m => exact hd.move hr hs m
  | clientClosed => exact ⟨hd, rfl⟩

theorem twin_step (h : r.pipeline.Twin s.pipeline) (hr : r.dispatch.Sound) (hs : s.dispatch.Sound)
    (ev : Event) (hp : ev.plain = true) (ha : ∀ signal reason, ev ≠ .abort signal reason) :
    (r.step ev).pipeline.Twin (s.step ev).pipeline ∧
      acts (r.effects ev) = acts (s.effects ev) := by
  by_cases hc : ∃ result, ev = .clientClosed result
  · obtain ⟨result, rfl⟩ := hc
    exact h.clientClosed result
  · have hne : ∀ result, ev ≠ .clientClosed result := fun result he => hc ⟨result, he⟩
    rw [pipeline_step hne, pipeline_step hne, effects_of_ne hne, effects_of_ne hne]
    exact h.lift (lockstep h hr hs hp ha)

end Run
end Pipeline

/-! Embedded transports -/

theorem Transport.act_of_not_aborts {α : Type} {t : Transport} {c : Channel α} {caller : Caller}
    {deed : Deed} (h : caller.aborts = false) (hd : (t.act c caller).2 = some deed)
    (signal : Nat) (reason : Value) : deed.event ≠ .abort signal reason := by
  cases caller with
  | abort => cases h
  | handle | clone =>
    simp only [act] at hd
    split at hd <;> cases hd
    simp [Deed.event]
  | send | closeHandle | close =>
    simp only [act, Option.map_eq_some_iff] at hd
    obtain ⟨_, _, rfl⟩ := hd
    simp [Deed.event]

/-- Whether the client sees an effect: a request, a wish for more of a body, a body that nobody
wants, or its own end. -/
def Effect.isForClient : Effect → Bool
  | .ask _ _ | .pull _ | .discard _ | .closeClient => true
  | _ => false

namespace Embedded

variable {e f : Embedded} {k : Nat}

def Event.aborts : Event → Bool
  | .caller c => c.aborts
  | _ => false

/-- What follows from an event, for others to do. -/
def effects (e : Embedded) (ev : Event) : List Effect := (e.inward ev).flatMap e.inner.effects

/-- What the client sees of a run. -/
def seen (e : Embedded) : List Event → List Effect
  | [] => []
  | ev :: events => (e.effects ev).filter (·.isForClient) ++ seen (e.step ev) events

/-- The signal of a call has not fired. -/
def Unfired (e : Embedded) (k : Nat) : Prop :=
  ∀ c : Call Stage, e.inner.dispatch.intake.calls[k]? = some c → e.reason? c.signal = none

/-- Two transports that have gone the same way, except that in the second one no signal has
fired. -/
structure Twin (e f : Embedded) : Prop where
  transport : e.transport = f.transport
  refused : e.refused = f.refused
  pipeline : e.inner.pipeline.Twin f.inner.pipeline

theorem twin_start (fired : List (Nat × Value)) : (start fired).Twin (start []) := by
  refine ⟨rfl, rfl, ⟨⟨rfl, fun k => ?_, rfl, rfl, rfl⟩, rfl⟩, rfl, fun r hr => ?_⟩
  · exact .none
  · cases hr

theorem Twin.channel_eq (h : e.Twin f) : e.channel = f.channel :=
  h.pipeline.dispatch.intake.channel

theorem Twin.refusal (h : e.Twin f) (deed : Deed) : e.refusal deed = f.refusal deed := by
  have hsize : e.inner.size = f.inner.size := h.pipeline.dispatch.intake.calls.size_eq
  cases deed with
  | send sender uri payload signal => rw [refusal_send, refusal_send, h.channel_eq, hsize]
  | clone | release | abort => rfl

/-- What is not an abort happens in both. -/
theorem Twin.step (h : e.Twin f) (he : e.Sound) (hf : f.Sound) {ev : Event}
    (ha : ev.aborts = false) :
    (e.step ev).Twin (f.step ev) ∧ acts (e.effects ev) = acts (f.effects ev) := by
  have hinner := Pipeline.Run.twin_step h.pipeline he.settling.ordered.sound
    hf.settling.ordered.sound
  cases ev with
  | caller c =>
    have hact : e.transport.act e.channel c = f.transport.act f.channel c := by
      rw [h.transport, h.channel_eq]
    cases hd : f.transport.act f.channel c with
    | mk transport deed =>
      simp only [Embedded.step, effects, inward, hact, hd]
      cases deed with
      | none => exact ⟨⟨rfl, h.refused, h.pipeline⟩, rfl⟩
      | some deed =>
        have hne := Transport.act_of_not_aborts ha (congrArg Prod.snd hd)
        obtain ⟨hp, hacts⟩ := hinner deed.event (event_plain deed) hne
        refine ⟨⟨rfl, ?_, hp⟩, ?_⟩
        · show e.refused ++ e.refusal deed = f.refused ++ f.refusal deed
          rw [h.refused, h.refusal]
        · simpa using hacts
  | move m =>
    obtain ⟨hp, hacts⟩ := hinner (.move m) rfl (by simp)
    exact ⟨⟨h.transport, h.refused, hp⟩, by simpa [effects, inward] using hacts⟩
  | clientClosed r =>
    obtain ⟨hp, hacts⟩ := hinner (.clientClosed r) rfl (by simp)
    exact ⟨⟨h.transport, h.refused, hp⟩, by simpa [effects, inward] using hacts⟩

/-- An abort happens in the first alone, and there it asks nobody for anything. -/
theorem Twin.abort (h : e.Twin f) {ev : Event} (ha : ev.aborts = true) :
    (e.step ev).Twin f ∧ acts (e.effects ev) = [] := by
  cases ev with
  | caller c =>
    cases c with
    | abort signal reason =>
      obtain ⟨hp, hacts⟩ := h.pipeline.abort signal reason
      refine ⟨⟨h.transport, ?_, hp⟩, ?_⟩
      · show e.refused ++ [] = f.refused
        rw [List.append_nil, h.refused]
      · have he : e.effects (.caller (.abort signal reason)) =
            e.inner.effects (.abort signal reason) ++ [] := rfl
        rw [he, List.append_nil]
        exact hacts
    | _ => cases ha
  | move | clientClosed => cases ha

/-- What is only told to callers and to the logger is nothing that the client sees. -/
theorem filter_acts (es : List Effect) :
    (acts es).filter (·.isForClient) = es.filter (·.isForClient) := by
  rw [acts, List.filter_filter]
  refine List.filter_congr fun x _ => ?_
  cases x <;> rfl

theorem seen_cons (e : Embedded) (ev : Event) (events : List Event) : e.seen (ev :: events) =
    (acts (e.effects ev)).filter (·.isForClient) ++ (e.step ev).seen events := by
  rw [filter_acts]
  rfl

/-- A run goes along with what is left of it without its aborts. -/
theorem Twin.run (h : e.Twin f) (he : e.Sound) (hf : f.Sound) (events : List Event) :
    (e.run events).Twin (f.run (events.filter (!·.aborts))) ∧
      e.seen events = f.seen (events.filter (!·.aborts)) := by
  induction events generalizing e f with
  | nil => exact ⟨h, rfl⟩
  | cons ev events ih =>
    cases ha : ev.aborts with
    | true =>
      obtain ⟨ht, hacts⟩ := h.abort ha
      obtain ⟨hrun, hseen⟩ := ih ht (he.step ev) hf
      rw [List.filter_cons_of_neg (by simp [ha]), seen_cons, hacts]
      exact ⟨hrun, hseen⟩
    | false =>
      obtain ⟨ht, hacts⟩ := h.step he hf ha
      obtain ⟨hrun, hseen⟩ := ih ht (he.step ev) (hf.step ev)
      rw [List.filter_cons_of_pos (by simp [ha]), seen_cons, seen_cons, hacts, hseen]
      exact ⟨hrun, rfl⟩

/-- A caller whose signal has not fired knows what it would know if nobody had given up. -/
theorem Twin.mem_answers (h : e.Twin f) (he : e.Sound) (hf : f.Sound) (hk : e.Unfired k)
    (a : Attempt Value) : (k, a) ∈ e.answers ↔ (k, a) ∈ f.answers := by
  by_cases hr : k ∈ f.refused
  · rw [he.mem_answers_of_refused (h.refused ▸ hr), hf.mem_answers_of_refused hr]
  · have hreading : e.inner.reading? k = f.inner.reading? k := by
      unfold Pipeline.Run.reading? Pipeline.Run.dispatch
      obtain ⟨hi, hj⟩ | ⟨c, d, hi, hj, ht⟩ := h.pipeline.dispatch.intake.calls.both k
      · rw [hi, hj]
      · rw [hi, hj, Option.bind_some, Option.bind_some, ht.slot (hk c hi)]
    rw [he.mem_answers (h.refused ▸ hr), hf.mem_answers hr, hreading]

/-- Two runs in which callers and the client do the same, except that other signals fire in them,
or the same ones at other moments. The client sees the same in both, as many calls are accepted and
as many outcomes offered, and a call whose signal fires in neither settles in one as it does in the
other. -/
theorem aborts_unseen (fired fired' : List (Nat × Value)) {events events' : List Event}
    (hsame : events.filter (!·.aborts) = events'.filter (!·.aborts)) :
    let e := (start fired).run events
    let e' := (start fired').run events'
    let stats := e.inner.dispatch.intake.stats
    let stats' := e'.inner.dispatch.intake.stats
    (start fired).seen events = (start fired').seen events' ∧
    stats.submitted = stats'.submitted ∧
    stats.delivered + stats.undelivered = stats'.delivered + stats'.undelivered ∧
    ∀ k, e.Unfired k → e'.Unfired k → ∀ a, (k, a) ∈ e.answers ↔ (k, a) ∈ e'.answers := by
  intro e e' stats stats'
  -- Without their aborts the two runs are one, and each goes along with that.
  have hcalm := sound_start []
  obtain ⟨h, hseen⟩ := (twin_start fired).run (sound_start fired) hcalm events
  obtain ⟨h', hseen'⟩ := (twin_start fired').run (sound_start fired') hcalm events'
  rw [← hsame] at h' hseen'
  have hi := h.pipeline.dispatch.intake
  have hi' := h'.pipeline.dispatch.intake
  refine ⟨hseen.trans hseen'.symm, hi.submitted.trans hi'.submitted.symm,
    hi.offered.trans hi'.offered.symm, fun k hk hk' a => ?_⟩
  have hrun := hcalm.run (events.filter (!·.aborts))
  rw [h.mem_answers ((sound_start fired).run events) hrun hk,
    h'.mem_answers ((sound_start fired').run events') hrun hk']

/-- The same calls as in `crossing`, where the signal of the second one has fired before. -/
def crossingLate : List Event :=
  .caller (.abort 7 (.string "late")) :: crossing.filter (!·.aborts)

theorem crossing_unseen : crossing.filter (!·.aborts) = crossingLate.filter (!·.aborts) ∧
    (start []).seen crossing = (start []).seen crossingLate ∧
    ((start []).seen crossing).length = 2 ∧
    (∀ a, (0, a) ∈ ((start []).run crossing).answers ↔
      (0, a) ∈ ((start []).run crossingLate).answers) ∧
    ((start []).run crossing).answers.map (·.1) = [1, 0] := by
  have hsame : crossing.filter (!·.aborts) = crossingLate.filter (!·.aborts) := rfl
  have hunfired : ∀ events : List Event, ((start []).run events).inner.dispatch.intake.calls[0]?.map
      (·.signal) = some none → ((start []).run events).Unfired 0 := by
    intro events hsignal c hc
    rw [hc] at hsignal
    have hnone : c.signal = none := Option.some.inj hsignal
    rw [hnone]
    rfl
  obtain ⟨hseen, _, _, hanswers⟩ := aborts_unseen [] [] hsame
  exact ⟨hsame, hseen, by decide +kernel, hanswers 0 (hunfired _ (by decide +kernel))
    (hunfired _ (by decide +kernel)), by decide +kernel⟩

end Embedded

/-! A logger that throws -/

namespace Pipeline.Audit

def Event.aborts : Event → Bool
  | .caller (.abort ..) => true
  | _ => false

/-- A logger that throws when it is told of something wrong. -/
def nervous : Log.Reaction := fun _ entry =>
  if Log.Level.warn.rank ≤ entry.level.rank then some .null else none

/-- A response whose body nobody wants. -/
def unwanted : Response := .steady (.number 500) .returns

/-- Of two calls the first one is refused after its caller has given up, and the second one after
that. -/
def leaving : List Event :=
  [.caller (.send 0 "http://a/" [] (some 7)), .caller (.send 0 "http://a/" [] none),
    .caller (.release 0), .move .turn, .move .turn, .move .turn, .move .turn,
    .caller (.abort 7 .null), .move (.answered 0 (.ok (some unwanted))),
    .move (.conclude 0), .move (.retire 0), .move .turn,
    .move (.answered 1 (.ok (some unwanted))), .move (.conclude 1), .move (.retire 1),
    .move .turn]

/-- Where the logger throws when it hears of a caller that has given up, the client is closed before
the body of another response is discarded. -/
theorem abort_seen : ¬ ∀ (react : Log.Reaction) (events events' : List Event),
    events.filter (!·.aborts) = events'.filter (!·.aborts) →
      ((start []).trace react events).filter (·.isForClient) =
        ((start []).trace react events').filter (·.isForClient) := by
  intro h
  have hsame := h nervous leaving (leaving.filter (!·.aborts)) rfl
  have hlast := congrArg (fun seen => seen.getLast?.map fun
    | .closeClient => true
    | _ => false) hsame
  exact absurd hlast (by decide +kernel)

end Pipeline.Audit
end Courier
