import Courier.Proofs.Conservation
import Courier.Proofs.Units

/-!
Who is left waiting when a pipeline is done. Whatever a logger does, the slot of a call whose unit
was started is closed when the unit ends. Slots stay open only behind a logger that throws when it
is told of a call that is to be dispatched: then the loop breaks off, and nobody tells the caller of
that call, nor those of the calls behind it.
-/

namespace Courier

open Effect

/-- What is said of a call before its unit is started. -/
def Log.dispatching (url : Value) : Log.Entry :=
  ⟨.debug, "Dispatching request:", [.record [("url", url)]]⟩

namespace Dispatch

variable {d e : Dispatch} {k : Nat} {react : Log.Reaction} {r : Attempt Unit}

/-- The logger threw when it was told of a call that was to be dispatched, which ended the loop. -/
def Cut (react : Log.Reaction) (loop : Loop) : Prop :=
  ∃ n url v, react n (Log.dispatching url) = some v ∧ loop = .ended (.error v)

/-- Calls whose units have not been started stay in the queue if they were there. -/
def Patient (d e : Dispatch) : Prop :=
  ∀ k, e.intake.progress? k = some .waiting → k < d.intake.calls.size →
    d.intake.progress? k = some .waiting ∧ (k ∈ d.queue → k ∈ e.queue)

theorem patient_of_aside (ha : Aside d e) (hq : ∀ k ∈ d.queue, k ∈ e.queue) : Patient d e := by
  intro k hw hk
  obtain ⟨c, hc, hp⟩ := Option.map_eq_some_iff.mp hw
  obtain ⟨b, hb, hsame, _⟩ | ⟨_, hle⟩ := ha.calls k c hc
  · refine ⟨Option.map_eq_some_iff.mpr ⟨b, hb, ?_⟩, hq k⟩
    rw [← hsame, hp]
  · omega

/-- Steps that change calls in their places, none of them into one that waits. -/
theorem patient_of_mapIdx {g : Nat → Call Stage → Call Stage}
    (hc : e.intake.calls = d.intake.calls.mapIdx g) (hq : ∀ k ∈ d.queue, k ∈ e.queue)
    (hw : ∀ n c, d.intake.calls[n]? = some c → (g n c).progress = .waiting →
      c.progress = .waiting) : Patient d e := by
  intro k hk _
  obtain ⟨x, hx, hp⟩ := Option.map_eq_some_iff.mp hk
  rw [hc, Array.getElem?_mapIdx] at hx
  obtain ⟨c, hc, rfl⟩ := Option.map_eq_some_iff.mp hx
  exact ⟨Option.map_eq_some_iff.mpr ⟨c, hc, hw k c hc hp⟩, hq k⟩

/-- Moves that are about one call. -/
theorem move_patient (h : d.Sound) {m : Move} (hm : m.own? = some k) : Patient d (d.move m).1 := by
  have ht := touched_move h hm
  have hq : (d.move m).1.queue = d.queue := by simp [queue, ht.channel, ht.hand]
  refine patient_of_mapIdx (ht.calls.trans (modify_eq_mapIdx _ _ _)) (fun n hn => hq ▸ hn)
    fun n c _ hw => ?_
  split at hw
  · exact (moved_waiting_iff m c).mp hw
  · exact hw

/-- A turn starts the unit of the call in hand, unless the logger throws when it is told of it. -/
theorem turn_patient (h : d.Sound) (react : Log.Reaction) :
    Cut react (d.turn react).1.loop ∨ Patient d (d.turn react).1 := by
  have hcalm : d.turn react = d.turn Log.calm → Patient d (d.turn react).1 := by
    intro ht
    rw [ht]
    obtain ⟨_, _, ⟨_, hq, hcalls⟩ | ⟨k, _, _, _, _, _, _, hq, hcalls⟩⟩ := turn_cases h
    · exact patient_of_mapIdx (hcalls.trans (mapIdx_same _).symm) (fun n hn => hq ▸ hn)
        fun _ _ _ hw => hw
    · -- The call that leaves the queue waits no longer.
      intro n hn hsize
      obtain ⟨x, hx, hp⟩ := Option.map_eq_some_iff.mp hn
      rw [hcalls, Array.getElem?_modify] at hx
      by_cases hk : k = n
      · rw [if_pos hk] at hx
        obtain ⟨c, _, rfl⟩ := Option.map_eq_some_iff.mp hx
        cases hp
      · rw [if_neg hk] at hx
        refine ⟨Option.map_eq_some_iff.mpr ⟨x, hx, hp⟩, fun hm => ?_⟩
        rw [hq] at hm
        exact (List.mem_cons.mp hm).resolve_left fun he => hk he.symm
  obtain ht | hb := turn_under h react
  · exact Or.inr (hcalm ht)
  · cases hl : d.loop with
    | unstarted | waiting | ended => exact Or.inr (hcalm (by simp [turn, hl]))
    | draining failure => exact Or.inr (hcalm (by cases failure <;> simp [turn, hl]))
    | handed call =>
      cases call with
      | none =>
        have hq : d.queue = [] := by
          rw [queue, hl]
          exact (h.coupled.ended (Or.inr (by rw [hl]; rfl))).2
        exact Or.inr (patient_of_mapIdx (hb.calls.trans (mapIdx_same _).symm) (by simp [hq])
          fun _ _ _ hw => hw)
      | some k =>
        obtain ⟨c, content, url, hk, hp, hu⟩ := h.handed hl
        cases ht : react d.said (Log.dispatching url) with
        | none => exact Or.inr (hcalm (turn_dispatched hl hk hp hu ht))
        | some v =>
          refine Or.inl ⟨d.said, url, v, ht, ?_⟩
          rw [turn_thrown hl hk hp hu ht]
          rfl

/-- A loop that has ended stays so. -/
theorem retire_ended (hl : d.loop = .ended r) : (d.retire k).1.loop = .ended r := by
  obtain ⟨x, hx, h⟩ := d.retirement k
  rw [hx]
  cases h with
  | idle | counted => exact hl
  | fails _ hd =>
    rw [hd] at hl
    cases hl

theorem conclude_loop (hp : ∀ c, d.intake.calls[k]? = some c → c.parcel.Proper) :
    (d.conclude react k).1.loop = d.loop := by
  rcases d.over_or_idle k with ⟨c, result, hk, hr⟩ | hidle
  · obtain ⟨failure, said, es, hd, _⟩ := conclude_under hk (hp c hk) hr react
    rw [hd]
  · rw [conclude_idle react hidle]

theorem moveUnder_ended (h : d.Sound) (hl : d.loop = .ended r) (m : Move) :
    (d.moveUnder react m).1.loop = .ended r := by
  cases m with
  | turn => simp [moveUnder, turn, hl]
  | answered | chunk | bodyEnded => exact (loop_progress _).trans hl
  | conclude k => exact (conclude_loop (h.proper k)).trans hl
  | retire k => exact retire_ended hl

end Dispatch

namespace Pipeline.Audit

variable {s : Audit} {react : Log.Reaction} {ev : Event} {r : Attempt Unit} {k : Nat}

/-- All but the closing of the client is a step of the dispatch. -/
theorem pipeline_step (h : ∀ r, ev ≠ .clientClosed r) :
    (s.step react ev).pipeline = (s.pipeline.lift react (s.stepped react ev)).1 := by
  cases ev with
  | caller deed => cases deed <;> rfl
  | move m => rfl
  | clientClosed r => exact (h r rfl).elim

theorem intake_step : (s.step react ev).intake = (s.stepped react ev).1.intake := by
  cases ev with
  | caller deed => cases deed <;> exact lift_intake
  | move m => exact lift_intake
  | clientClosed r => exact congrArg Dispatch.intake (dispatch_closed _ _)

theorem loop_step : (s.step react ev).dispatch.loop = (s.stepped react ev).1.loop := by
  cases ev with
  | caller deed => cases deed <;> exact lift_loop
  | move m => exact lift_loop
  | clientClosed r => exact congrArg Dispatch.loop (dispatch_closed _ _)

theorem queue_step : (s.step react ev).dispatch.queue = (s.stepped react ev).1.queue := by
  have hi : (s.step react ev).dispatch.intake = (s.stepped react ev).1.intake := intake_step
  rw [Dispatch.queue, hi, loop_step, Dispatch.queue]

theorem stepped_ended (h : s.Sound) (hl : s.dispatch.loop = .ended r) :
    (s.stepped react ev).1.loop = .ended r := by
  cases ev with
  | caller deed =>
    cases deed with
    | send sender uri payload signal =>
      have ha := (Dispatch.arrived_send s.dispatch sender (.post uri payload) signal).loop
      rw [hl] at ha
      simp only [stepped, ha]
      cases (s.dispatch.intake.channel.send sender s.dispatch.intake.calls.size).2.2 <;> rfl
    | clone sender => exact hl
    | release sender =>
      simp only [stepped, Dispatch.release_eq, hl]
      cases (s.dispatch.intake.channel.release sender).2 <;> rfl
    | abort signal reason => exact (Dispatch.reslotted_abort s.dispatch signal reason).loop.trans hl
  | move m => exact Dispatch.moveUnder_ended h.dispatch hl m
  | clientClosed r => exact hl

theorem Sound.patient_deed (h : s.Sound) (react : Log.Reaction) (deed : Deed) :
    Dispatch.Patient s.dispatch (s.stepped react (.caller deed)).1 := by
  cases deed with
  | send sender uri payload signal =>
    have ha := Dispatch.arrived_send s.dispatch sender (.post uri payload) signal
    obtain ⟨_, hq⟩ := h.dispatch.arrived ha (by simpa using Request.proper _) (by simp)
    refine Dispatch.patient_of_aside (Dispatch.aside_arrived ha (by simp)) fun k hk => ?_
    simp only [stepped, hq]
    exact List.mem_append_left _ hk
  | clone sender => exact Dispatch.patient_of_aside (Dispatch.aside_clone _ sender) fun _ hk => hk
  | release sender =>
    refine Dispatch.patient_of_aside (Dispatch.aside_release _ sender) fun k hk => ?_
    exact (h.dispatch.release sender).2 ▸ hk
  | abort signal reason =>
    refine Dispatch.patient_of_aside (Dispatch.aside_abort _ signal reason) fun k hk => ?_
    exact (h.dispatch.reslotted (Dispatch.reslotted_abort _ signal reason)).2 ▸ hk

theorem Sound.patient_conclude (h : s.Sound) (react : Log.Reaction) (k : Nat) :
    Dispatch.Patient s.dispatch (s.dispatch.conclude react k).1 := by
  rcases s.dispatch.over_or_idle k with ⟨c, result, hk, hr⟩ | hidle
  · have hrest : k ∈ s.ledger.rest := by
      have hp := h.places k c hk
      rw [hr] at hp
      exact hp.1
    obtain ⟨failure, said, es, hd, _⟩ :=
      Dispatch.conclude_under hk (h.dispatch.proper k c hk) hr react
    obtain ⟨_, _, hchannel, f, hcalls⟩ := h.settling react hrest
    obtain ⟨_, hqueue, hall⟩ := h.dispatch.ended hk hr hchannel hcalls failure said
    rw [hd]
    refine Dispatch.patient_of_mapIdx hall (fun n hn => hqueue ▸ hn) fun n c _ hw => ?_
    split at hw
    · cases hw
    · exact hw
  · rw [Dispatch.conclude_idle react hidle]
    exact Dispatch.patient_of_aside (.refl _) fun _ hk => hk

/-- Calls that wait to be started go on waiting in the queue, unless the loop breaks off. -/
theorem Sound.patient (h : s.Sound) (react : Log.Reaction) (ev : Event) :
    Dispatch.Cut react (s.stepped react ev).1.loop ∨
      Dispatch.Patient s.dispatch (s.stepped react ev).1 := by
  cases ev with
  | caller deed => exact Or.inr (h.patient_deed react deed)
  | move m =>
    cases m with
    | turn => exact Dispatch.turn_patient h.dispatch react
    | answered | chunk | bodyEnded | retire => exact Or.inr (Dispatch.move_patient h.dispatch rfl)
    | conclude k => exact Or.inr (h.patient_conclude react k)
  | clientClosed r => exact Or.inr (Dispatch.patient_of_aside (.refl _) fun _ hk => hk)

/-- A call that is accepted joins the queue. -/
theorem Sound.accepts (h : s.Sound) (hk : k ∈ (s.step react ev).ledger.accepted) :
    k ∈ s.ledger.accepted ∨ k ∈ (s.stepped react ev).1.queue := by
  cases ev with
  | caller deed =>
    cases deed with
    | send sender uri payload signal =>
      have ha := Dispatch.arrived_send s.dispatch sender (.post uri payload) signal
      obtain ⟨_, hq⟩ := h.dispatch.arrived ha (by simpa using Request.proper _) (by simp)
      have hacc := Dispatch.send_accepted s.dispatch sender (.post uri payload) signal
      have hk' : k ∈ s.ledger.accepted ++ if (s.dispatch.send sender (.post uri payload) signal).2.1
          then [s.dispatch.intake.calls.size] else [] := hk
      rw [hacc] at hk'
      refine (List.mem_append.mp hk').imp_right fun hk => ?_
      simp only [stepped, hq]
      refine List.mem_append_right _ ?_
      cases hc : s.dispatch.intake.channel.isClosed sender with
      | true => simp [hc] at hk
      | false => simpa [hc] using hk
    | clone | release | abort => exact Or.inl hk
  | move m =>
    refine Or.inl ?_
    have hk' : k ∈ (s.noting react m).accepted := hk
    cases m with
    | conclude n =>
      simp only [noting] at hk'
      split at hk'
      · simpa using hk'
      · exact hk'
    | _ => exact hk'
  | clientClosed r => exact Or.inl hk

/-- Where the client is being closed the loop has ended, and unless the logger has broken the loop
off no accepted call waits to be started outside the queue. -/
structure Held (react : Log.Reaction) (s : Audit) : Prop where
  sound : s.Sound
  shut : s.pipeline.closing ≠ .no → ∃ r, s.dispatch.loop = .ended r
  begun : Dispatch.Cut react s.dispatch.loop ∨
    ∀ k ∈ s.ledger.accepted, s.intake.progress? k = some .waiting → k ∈ s.dispatch.queue

theorem held_start (react : Log.Reaction) (fired : List (Nat × Value)) :
    Held react (start fired) :=
  ⟨sound_start fired, fun h => (h rfl).elim, Or.inr (by simp [start, Ledger.empty])⟩

theorem lift_closing {p : Pipeline} {t : Dispatch × List Effect}
    (h : (p.lift react t).1.closing ≠ .no) : p.closing ≠ .no ∨ ∃ r, t.1.loop = .ended r := by
  unfold Pipeline.lift at h
  dsimp only at h
  split at h
  · next r _ hr => exact Or.inr ⟨r, hr⟩
  · exact Or.inl h

theorem Held.step (h : s.Held react) (ev : Event) : (s.step react ev).Held react := by
  refine ⟨h.sound.step ev, fun hc => ?_, ?_⟩
  · rw [loop_step]
    by_cases hclosed : ∃ r, ev = .clientClosed r
    · obtain ⟨r, rfl⟩ := hclosed
      refine h.shut fun hno => hc ?_
      show (s.pipeline.clientClosed r).1.closing = .no
      simp only [clientClosed, hno]
    · have hne : ∀ r, ev ≠ .clientClosed r := fun r hr => hclosed ⟨r, hr⟩
      rw [pipeline_step hne] at hc
      obtain hc | hr := lift_closing hc
      · obtain ⟨r, hr⟩ := h.shut hc
        exact ⟨r, stepped_ended h.sound hr⟩
      · exact hr
  · rw [loop_step, queue_step, intake_step]
    obtain ⟨n, url, v, hv, hl⟩ | hbegun := h.begun
    · exact Or.inl ⟨n, url, v, hv, stepped_ended h.sound hl⟩
    · refine (h.sound.patient react ev).imp_right fun hp k hk hw => ?_
      obtain ha | hq := h.sound.accepts hk
      · obtain ⟨hw, hq⟩ := hp k hw (h.sound.tallied.known k ha)
        exact hq (hbegun k ha hw)
      · exact hq

theorem Held.run (h : s.Held react) (events : List Event) : (s.run react events).Held react := by
  induction events generalizing s with
  | nil => exact h
  | cons ev events ih => exact ih (h.step ev)

/-- The caller of an accepted call whose slot is not open knows how the call has ended. -/
theorem Sound.open_or_told (h : s.Sound) (hk : k ∈ s.ledger.accepted) :
    ∃ slot, s.intake.slot? k = some slot ∧
      ((slot.isOpen = true ∧ k ∉ s.ledger.closed) ∨
        (slot.isOpen = false ∧ ∃ x ∈ s.told, x.call = k)) := by
  have htold {slot : Slot Outcome} {reading : Slot.Reading Outcome}
      (hs : s.intake.slot? k = some slot) (ho : slot.isOpen = false)
      (hr : slot.reader = .settled reading) : ∃ slot, s.intake.slot? k = some slot ∧
        ((slot.isOpen = true ∧ k ∉ s.ledger.closed) ∨
          (slot.isOpen = false ∧ ∃ x ∈ s.told, x.call = k)) :=
    ⟨slot, hs, Or.inr ⟨ho, ⟨k, reading⟩, (Intake.mem_told h.intake hs reading).mpr hr, rfl⟩⟩
  by_cases hc : k ∈ s.ledger.closed
  · rcases List.mem_append.mp hc with ho | hd
    · obtain ⟨x, hx, rfl⟩ := List.mem_map.mp ho
      have hoffered := h.tallied.offered x hx
      unfold Intake.Offered at hoffered
      split at hoffered
      · obtain ⟨reason, hs⟩ := hoffered
        exact htold hs rfl rfl
      · exact htold hoffered rfl rfl
    · obtain hs | ⟨reason, hs⟩ := h.tallied.dropped k hd
      · exact htold hs rfl rfl
      · exact htold hs rfl rfl
  · obtain ⟨fired, hs⟩ := (h.tallied.waits k (Ledger.mem_rest.mpr ⟨hk, hc⟩)).slot_eq
    cases fired with
    | none => exact ⟨_, hs, Or.inl ⟨rfl, hc⟩⟩
    | some reason => exact htold hs rfl rfl

/-- The units that were started have ended. -/
def idle (s : Audit) : Bool :=
  s.intake.calls.toList.all fun c =>
    match c.progress with
    | .running _ => false
    | _ => true

theorem not_running_of_idle (h : s.idle = true) {c : Call Stage} (hc : s.intake.calls[k]? = some c)
    (e : Exchange) : c.progress ≠ .running e := by
  intro hp
  have hi := List.all_eq_true.mp h c (Array.mem_of_getElem? hc).val
  rw [hp] at hi
  cases hi

/-- Once a pipeline is done and the units that were started have ended, whatever its logger does,
every accepted request was answered, given up or dropped, and its caller knows; all but those whose
units were never started because the logger threw when it was told of the one before them, which
broke the loop off. -/
theorem stranded_behind_cut (react : Log.Reaction) (fired : List (Nat × Value))
    (events : List Event) (hs : (start fired).run react events = s) {result : Attempt Unit}
    (hdone : s.pipeline.closing = .done result)
    (hunits : s.idle = true) :
    (∀ k ∈ s.ledger.accepted, ∃ slot, s.intake.slot? k = some slot ∧
      ((slot.isOpen = false ∧ ∃ x ∈ s.told, x.call = k) ∨
        (slot.isOpen = true ∧ s.intake.progress? k = some .waiting ∧
          Dispatch.Cut react s.dispatch.loop))) ∧
    ((∀ n url, react n (Log.dispatching url) = none) →
      ∀ k ∈ s.ledger.accepted, ∃ slot, s.intake.slot? k = some slot ∧
        slot.isOpen = false ∧ ∃ x ∈ s.told, x.call = k) := by
  have h : s.Held react := hs ▸ (held_start react fired).run events
  obtain ⟨r, hl⟩ := h.shut (by simp [hdone])
  have hqueue : s.dispatch.queue = [] := by
    have hover : s.dispatch.loop.hand = .over := by rw [hl]; rfl
    obtain ⟨_, hlive⟩ := h.sound.dispatch.coupled.ended (Or.inl hover)
    rw [Dispatch.queue, Hand.queue, hover, hlive]
    rfl
  have hall : ∀ k ∈ s.ledger.accepted, ∃ slot, s.intake.slot? k = some slot ∧
      ((slot.isOpen = false ∧ ∃ x ∈ s.told, x.call = k) ∨
        (slot.isOpen = true ∧ s.intake.progress? k = some .waiting ∧
          Dispatch.Cut react s.dispatch.loop)) := by
    intro k hk
    obtain ⟨slot, hslot, ⟨ho, hclosed⟩ | htold⟩ := h.sound.open_or_told hk
    · obtain ⟨c, hc, rfl⟩ := Option.map_eq_some_iff.mp hslot
      have hprogress : s.intake.progress? k = some c.progress := by simp [Intake.progress?, hc]
      have hwaiting : s.intake.progress? k = some .waiting := by
        have hplace := h.sound.places k c hc
        rw [hprogress]
        cases hp : c.progress with
        | waiting => rfl
        | running e => exact (not_running_of_idle hunits hc e hp).elim
        | ended | retired =>
          rw [hp] at hplace
          exact (hclosed hplace).elim
      refine ⟨_, hslot, Or.inr ⟨ho, hwaiting, h.begun.resolve_right fun hq => ?_⟩⟩
      have hm := hq k hk hwaiting
      rw [hqueue] at hm
      cases hm
    · exact ⟨slot, hslot, Or.inl htold⟩
  refine ⟨hall, fun hcalm k hk => ?_⟩
  obtain ⟨slot, hslot, hend | ⟨_, _, n, url, v, hv, _⟩⟩ := hall k hk
  · exact ⟨slot, hslot, hend⟩
  · rw [hcalm] at hv
    cases hv

/-- A logger that throws at one of its calls. -/
def throwsAt (n : Nat) : Log.Reaction := fun m _ => if m = n then some .null else none

/-- Two requests, and the unit of the first one if it is started. -/
def twoRequests : List Event :=
  [.caller (.send 0 "http://a/" [] none), .caller (.send 0 "http://b/" [] none), .move .turn,
    .move .turn, .move .turn, .move (.answered 0 (.error .null)), .move (.conclude 0),
    .move (.retire 0), .clientClosed (.ok ())]

/-- The logger throws when it is told of the second request: the first one is answered, the second
one never. -/
theorem second_stranded : ∃ s, (start []).run (throwsAt 1) twoRequests = s ∧
    s.pipeline.closing = .done (.error .null) ∧ s.idle = true ∧ s.ledger.accepted = [0, 1] ∧
    (∃ slot, s.intake.slot? 0 = some slot ∧ slot.isOpen = false ∧ ∃ x ∈ s.told, x.call = 0) ∧
    ∃ slot, s.intake.slot? 1 = some slot ∧ slot.isOpen = true ∧
      Dispatch.Cut (throwsAt 1) s.dispatch.loop := by
  have h := (stranded_behind_cut (throwsAt 1) [] twoRequests rfl rfl rfl).1
  refine ⟨_, rfl, rfl, rfl, rfl, ?_, ?_⟩
  · rcases h 0 (by decide +kernel) with ⟨slot, hs, hend | ⟨ho, _⟩⟩
    · exact ⟨slot, hs, hend⟩
    · obtain rfl := Option.some.inj hs
      cases ho
  · rcases h 1 (by decide +kernel) with ⟨slot, hs, ⟨ho, _⟩ | ⟨ho, _, hcut⟩⟩
    · obtain rfl := Option.some.inj hs
      cases ho
    · exact ⟨slot, hs, ho, hcut⟩

/-- The logger throws when it is told of the first request: the pipeline is done and no unit runs,
but both slots are open, and neither caller is told anything. -/
theorem both_stranded : ∃ s, (start []).run (throwsAt 0) twoRequests = s ∧
    s.pipeline.closing = .done (.error .null) ∧ s.idle = true ∧ s.ledger.accepted = [0, 1] ∧
    (s.intake.slot? 0).map Slot.isOpen = some true ∧
    (s.intake.slot? 1).map Slot.isOpen = some true ∧ s.told = [] :=
  ⟨_, rfl, rfl, rfl, rfl, rfl, rfl, rfl⟩

end Pipeline.Audit
end Courier
