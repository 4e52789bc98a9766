import Courier.Proofs.Pipeline

/-!
How calls end. In a pipeline whose calls come from handles the fate of a call is decided by what
happens to that call alone: its signal fires, or its own exchange gets on and its unit ends.
-/

namespace Courier

open Effect

/-- What happens to one call. -/
inductive Own where
  | aborted (reason : Value)
  | answered (r : Attempt (Option Response))
  | chunk (v : Value)
  | bodyEnded (r : Attempt Memory)
  | concluded

/-- How a call ends whose exchange has come so far. The firing of its signal or the end of its
unit decides, whichever comes first. -/
def fate (e : Exchange) : List Own → Option (Slot.Reading Outcome)
  | [] => none
  | .aborted reason :: _ => some (.refused reason)
  | .answered r :: rest => fate (e.answer r) rest
  | .chunk v :: rest => fate (e.chunk v) rest
  | .bodyEnded r :: rest => fate (e.bodyEnded r) rest
  | .concluded :: _ => e.result?.map fun result => .got result.toOption

/-- The reason of the signal of a call, if it fires before the unit of the call ends. -/
def firstReason : List Own → Option Value
  | [] | .concluded :: _ => none
  | .aborted reason :: _ => some reason
  | _ :: rest => firstReason rest

/-- What an exchange comes to, once its unit has ended. -/
def Exchange.outcome? (e : Exchange) : List Own → Option (Attempt Outcome)
  | [] => none
  | .concluded :: _ => e.result?
  | .aborted _ :: rest => e.outcome? rest
  | .answered r :: rest => (e.answer r).outcome? rest
  | .chunk v :: rest => (e.chunk v).outcome? rest
  | .bodyEnded r :: rest => (e.bodyEnded r).outcome? rest

theorem fate_eq (e : Exchange) (h : List Own) : fate e h =
    match firstReason h with
    | some reason => some (.refused reason)
    | none => (e.outcome? h).map fun result => .got result.toOption := by
  induction h generalizing e with
  | nil => rfl
  | cons own rest ih => cases own <;> simp only [fate, firstReason, Exchange.outcome?, ih]

/-- What the client does in a call is of some manner. -/
def Manner.Shows (m : Manner) : Own → Prop
  | .answered r => m.Answers r
  | .bodyEnded r => m.Ends r
  | .aborted _ | .chunk _ | .concluded => True

theorem Exchange.sound_outcome {m : Manner} {e : Exchange} (h : e.Sound m) {own : List Own}
    (hown : ∀ x ∈ own, m.Shows x) {o : Outcome} (ho : e.outcome? own = some (.ok o)) :
    o.OfExchange m := by
  induction own generalizing e with
  | nil => cases ho
  | cons first rest ih =>
    obtain ⟨hfirst, hrest⟩ := List.forall_mem_cons.mp hown
    cases first with
    | concluded => exact h o ho
    | aborted reason => exact ih h hrest ho
    | answered r => exact ih (sound_answer h hfirst) hrest ho
    | chunk v => exact ih (sound_chunk h v) hrest ho
    | bodyEnded r => exact ih (sound_bodyEnded h hfirst) hrest ho

/-- What a move does to a call. -/
def Move.happens? (k : Nat) : Move → Option Own
  | .answered j r => if j = k then some (.answered r) else none
  | .chunk j v => if j = k then some (.chunk v) else none
  | .bodyEnded j r => if j = k then some (.bodyEnded r) else none
  | .conclude j => if j = k then some .concluded else none
  | .turn | .retire _ => none

def Slot.reading? {ρ : Type} (s : Slot ρ) : Option (Slot.Reading ρ) :=
  match s.reader with
  | .settled r => some r
  | _ => none

theorem Slot.reading_eq_some {ρ : Type} {s : Slot ρ} {r : Slot.Reading ρ} :
    s.reading? = some r ↔ s.reader = .settled r := by
  unfold reading?
  split <;> simp_all

namespace Stage

def isAsking : Stage → Bool
  | .running .asking => true
  | _ => false

def isReading : Stage → Bool
  | .running (.reading _) => true
  | _ => false

def isOver : Stage → Bool
  | .running (.over _) => true
  | _ => false

theorem any_isAsking {s : Option Stage} :
    s.any isAsking = true ↔ s = some (.running .asking) := by
  rcases s with _ | _ | (_ | _ | _) | _ | _ <;> simp [isAsking]

theorem any_isReading {s : Option Stage} :
    s.any isReading = true ↔ ∃ chunks, s = some (.running (.reading chunks)) := by
  rcases s with _ | _ | (_ | _ | _) | _ | _ <;> simp [isReading]

theorem any_isOver {s : Option Stage} :
    s.any isOver = true ↔ ∃ result, s = some (.running (.over result)) := by
  rcases s with _ | _ | (_ | _ | _) | _ | _ <;> simp [isOver]

end Stage

namespace Dispatch

variable {d : Dispatch}

/-- Clients answer what they were asked, bodies go on while they are read, and a unit ends after
its exchange. -/
def allows (d : Dispatch) : Move → Bool
  | .answered k _ => (d.intake.progress? k).any Stage.isAsking
  | .chunk k _ | .bodyEnded k _ => (d.intake.progress? k).any Stage.isReading
  | .conclude k => (d.intake.progress? k).any Stage.isOver
  | .turn | .retire _ => true

theorem send_reading (d : Dispatch) (sender : Nat) (request : Request) (signal : Option Nat) :
    (d.send sender request signal).2.2.1 =
      if d.intake.channel.isClosed sender then none
      else (d.intake.reason? signal).map .refused := by
  cases hc : d.intake.channel.isClosed sender with
  | true => simp [send, Intake.send_eq_of_closed request signal _ hc]
  | false => simp [send, Intake.send_eq_of_open request signal _ hc]

theorem moved_sound (m : Move) {c : Call Stage} (h : c.slot.Sound) : (c.moved m).slot.Sound := by
  obtain ⟨_, hm⟩ | ⟨_, _, hm⟩ := moved_cases m c <;> rw [hm]
  · exact h
  · exact Slot.sound_concluded h _

theorem refused_of_moved (m : Move) {c : Call Stage} {reason : Value}
    (h : (c.moved m).slot.reader = .settled (.refused reason)) :
    c.slot.reader = .settled (.refused reason) := by
  obtain ⟨_, hm⟩ | ⟨_, _, hm⟩ := moved_cases m c <;> rw [hm] at h
  · exact h
  · exact Slot.refused_of_concluded h

theorem move_sound {told : List Settled} (h : d.Sound) (hi : d.intake.Sound told) (m : Move) :
    (d.move m).1.intake.Sound (told ++ settles (d.move m).2) := by
  cases hm : m.own? with
  | some k =>
    have ht := touched_move h hm
    have hr := hi.reslot (f := fun c => (c.moved m).slot) (List.nodup_singleton k)
      (ht.calls.trans (modify_eq_mapIdx _ _ _)) ht.fired
      (fun n c => by split <;> simp [moved_parcel]) (fun n c => by split <;> simp [moved_signal])
      (fun n c => by simp only [List.mem_singleton]; split <;> rfl) (moved_follows m)
      (fun c => moved_sound m) fun c reason => refused_of_moved m
    rw [ht.settles]
    cases hn : d.intake.news (fun c => (c.moved m).slot) k <;> simpa [hn] using hr
  | none =>
    obtain rfl := Move.eq_turn hm
    obtain ⟨hmv, hs, hcase⟩ := turn_cases h
    have hcalls : ∃ g : Nat → Call Stage → Call Stage,
        (d.turn Log.calm).1.intake.calls = d.intake.calls.mapIdx g ∧
          ∀ n c, (g n c).parcel = c.parcel ∧ (g n c).signal = c.signal ∧ (g n c).slot = c.slot := by
      obtain ⟨_, _, hc⟩ | ⟨k, c, content, _, _, _, _, _, hc⟩ := hcase
      · exact ⟨_, hc.trans (mapIdx_same _).symm, fun _ _ => ⟨rfl, rfl, rfl⟩⟩
      · refine ⟨_, hc.trans (modify_eq_mapIdx _ _ _), fun n c => ?_⟩
        split <;> exact ⟨rfl, rfl, rfl⟩
    obtain ⟨g, hg, hsame⟩ := hcalls
    have hr := hi.reslot (f := fun c => c.slot)
      (List.nodup_nil : ([] : List Nat).Nodup) hg hmv.fired
      (fun n c => (hsame n c).1) (fun n c => (hsame n c).2.1)
      (fun n c => by simp [(hsame n c).2.2]) (fun c => .refl _) (fun _ hc => hc) fun _ _ hr => hr
    simpa [move, hs] using hr

end Dispatch

namespace Pipeline

/-- Handles send and receive, and nobody else touches a slot. -/
def Event.plain : Event → Bool
  | .offer .. | .receive .. | .withSlot .. => false
  | _ => true

/-- What an event does to a call that listens to a signal. -/
def Event.happens? (k : Nat) (signal : Option Nat) : Event → Option Own
  | .abort s reason => if signal = some s then some (.aborted reason) else none
  | .move m => m.happens? k
  | _ => none

namespace Run

variable {r : Run} {k : Nat} {signal : Option Nat} {e : Exchange}

def possible (r : Run) : Event → Bool
  | .move m => r.dispatch.allows m
  | _ => true

/-- The client has been asked in order, and callers know what has become of their calls. -/
structure Settling (r : Run) : Prop where
  ordered : r.Ordered
  intake : r.dispatch.intake.Sound r.told

theorem settling_start (fired : List (Nat × Value)) : (start fired).Settling :=
  ⟨ordered_start fired, Intake.sound_new fired⟩

theorem Settling.step (h : r.Settling) {ev : Event} (hp : ev.plain = true) : (r.step ev).Settling := by
  refine ⟨h.ordered.step ev, ?_⟩
  cases ev with
  | offer | receive | withSlot => simp [Event.plain] at hp
  | send sender request signal =>
    have ha := Dispatch.arrived_send r.dispatch sender request signal
    have hs := (Dispatch.quiet_send r.dispatch sender request signal).1
    have hr := h.intake.sent ha.calls ha.fired
    simp only [Run.step, lift_intake, lift_told, hs, note, Dispatch.send_reading, List.append_nil]
    exact hr
  | clone sender =>
    simp only [Run.step, lift_intake, lift_told, settles_nil, List.append_nil]
    exact h.intake.congr rfl rfl
  | release sender =>
    have hs := (Dispatch.quiet_release r.dispatch sender).1
    simp only [Run.step, lift_intake, lift_told, hs, List.append_nil, Dispatch.release_eq]
    exact h.intake.congr rfl rfl
  | abort s reason =>
    simp only [Run.step, lift_intake, lift_told, Dispatch.abort, settles_settledEffects]
    exact h.intake.abort s reason
  | move m =>
    simp only [Run.step, lift_intake, lift_told]
    exact Dispatch.move_sound h.ordered.sound h.intake m
  | clientClosed result =>
    rw [dispatch_clientClosed]
    exact h.intake

/-- What the slot of a call has settled with. -/
def reading? (r : Run) (k : Nat) : Option (Slot.Reading Outcome) :=
  r.dispatch.intake.calls[k]?.bind (·.slot.reading?)

/-- A call waits whose exchange has come so far. -/
def Pending (r : Run) (k : Nat) (signal : Option Nat) (e : Exchange) : Prop :=
  ∃ c : Call Stage, r.dispatch.intake.calls[k]? = some c ∧ c.signal = signal ∧
    c.slot.reader = .waiting ∧ (c.progress = .waiting ∧ e = .asking ∨ c.progress = .running e)

theorem Settling.mem_told (h : r.Settling) {reading : Slot.Reading Outcome} :
    ⟨k, reading⟩ ∈ r.told ↔ r.reading? k = some reading := by
  rw [h.intake.told.mem ⟨k, reading⟩]
  simp only [reading?, Option.bind_eq_some_iff, Slot.reading_eq_some]

theorem Pending.reading (h : r.Pending k signal e) : r.reading? k = none := by
  obtain ⟨c, hc, _, hw, _⟩ := h
  simp [reading?, hc, Slot.reading?, hw]

/-- Calls stay, and what has settled stays settled. -/
theorem Settling.kept (h : r.Settling) {ev : Event} (hp : ev.plain = true) :
    Intake.Kept r.dispatch.intake.calls (r.step ev).dispatch.intake.calls := by
  cases ev with
  | offer | receive | withSlot => simp [Event.plain] at hp
  | send sender request signal =>
    have ha := Dispatch.arrived_send r.dispatch sender request signal
    simp only [Run.step, lift_intake]
    rw [ha.calls]
    exact Intake.kept_push _ _
  | clone sender =>
    simp only [Run.step, lift_intake]
    exact .refl _
  | release sender =>
    simp only [Run.step, lift_intake, Dispatch.release_eq]
    exact .refl _
  | abort s reason =>
    simp only [Run.step, lift_intake, Dispatch.abort]
    exact Intake.kept_abort _ s reason
  | move m =>
    simp only [Run.step, lift_intake]
    exact Dispatch.move_kept h.ordered.sound m
  | clientClosed result =>
    rw [dispatch_clientClosed]
    exact .refl _

theorem Settling.reading_step (h : r.Settling) {ev : Event} (hp : ev.plain = true)
    {reading : Slot.Reading Outcome} (hr : r.reading? k = some reading) :
    (r.step ev).reading? k = some reading := by
  obtain ⟨c, hc, hs⟩ := Option.bind_eq_some_iff.mp hr
  obtain ⟨d, hd, _, _, hf⟩ := (h.kept hp).call k c hc
  simp [reading?, hd, Slot.reading_eq_some.mpr (hf.settled (Slot.reading_eq_some.mp hs))]

/-- What does not happen to a call leaves it as it is. -/
theorem Settling.pending_other (h : r.Settling) (hc : r.Pending k signal e) {ev : Event}
    (hp : ev.plain = true) (hown : ev.happens? k signal = none) : (r.step ev).Pending k signal e := by
  obtain ⟨c, hk, hsignal, hw, hstage⟩ := hc
  cases ev with
  | offer | receive | withSlot => simp [Event.plain] at hp
  | send sender request s =>
    have ha := Dispatch.arrived_send r.dispatch sender request s
    have hlt := (Array.getElem?_eq_some_iff.mp hk).1
    refine ⟨c, ?_, hsignal, hw, hstage⟩
    simp only [Run.step, lift_intake]
    rw [ha.calls, Array.getElem?_push, if_neg (Nat.ne_of_lt hlt), hk]
  | clone sender => exact ⟨c, by simp only [Run.step, lift_intake]; exact hk, hsignal, hw, hstage⟩
  | release sender =>
    refine ⟨c, ?_, hsignal, hw, hstage⟩
    simp only [Run.step, lift_intake, Dispatch.release_eq]
    exact hk
  | abort s reason =>
    have hne : signal ≠ some s := fun he => by simp [Event.happens?, he] at hown
    refine ⟨c, ?_, hsignal, hw, hstage⟩
    simp only [Run.step, lift_intake, Dispatch.abort]
    cases hf : r.dispatch.intake.fired.any (·.1 = s) with
    | true => rw [Intake.abort_of_fired hf, hk]
    | false =>
      subst hsignal
      rw [Intake.abort_eq hf]
      simp [hk, Call.reslot, Intake.aborted, hne]
  | move m =>
    simp only [Pending, Run.step, lift_intake]
    obtain ⟨x, hx, hbecomes⟩ := h.ordered.sound.becomes m hk
    refine ⟨x, hx, ?_⟩
    cases hbecomes with
    | own hm =>
      have hsame : c.moved m = c := by
        cases m with
        | retire i =>
          rcases hstage with ⟨hs, _⟩ | hs <;> simp only [Call.moved, hs, Stage.retire] <;> rw [← hs]
        | turn => rfl
        | _ => simp_all [Event.happens?, Move.happens?, Move.own?]
      rw [hsame]
      exact ⟨hsignal, hw, hstage⟩
    | begun _ _ hwait =>
      obtain ⟨_, rfl⟩ := hstage.resolve_right (by simp [hwait])
      exact ⟨hsignal, hw, Or.inr rfl⟩
    | aside => exact ⟨hsignal, hw, hstage⟩
  | clientClosed result =>
    simp only [Pending, dispatch_clientClosed]
    exact ⟨c, hk, hsignal, hw, hstage⟩

theorem progress_of_call {c : Call Stage} (hk : r.dispatch.intake.calls[k]? = some c) :
    r.dispatch.intake.progress? k = some c.progress := by simp [Intake.progress?, hk]

/-- The exchange of a call gets on. -/
theorem Settling.pending_own (h : r.Settling) (hc : r.Pending k signal e) {m : Move}
    (hm : m.own? = some k) {f : Exchange → Exchange}
    (hmoved : ∀ c : Call Stage, c.moved m = { c with progress := c.progress.mapExchange f })
    (hrun : r.dispatch.intake.progress? k = some (.running e)) :
    (r.step (.move m)).Pending k signal (f e) := by
  obtain ⟨c, hk, hsignal, hw, _⟩ := hc
  have hp : c.progress = .running e := Option.some.inj ((progress_of_call hk).symm.trans hrun)
  simp only [Pending, Run.step, lift_intake]
  rw [(Dispatch.touched_move h.ordered.sound hm).calls]
  refine ⟨c.moved m, by rw [Array.getElem?_modify, if_pos rfl, hk]; rfl, ?_, ?_, ?_⟩
  · rw [hmoved, hsignal]
  · rw [hmoved, hw]
  · rw [hmoved]
    simp [hp, Stage.mapExchange]

/-- A signal that fires ends the waiting of its call. -/
theorem Settling.reading_aborted (h : r.Settling) {s : Nat} (hc : r.Pending k (some s) e)
    (reason : Value) : (r.step (.abort s reason)).reading? k = some (.refused reason) := by
  obtain ⟨c, hk, hsignal, hw, _⟩ := hc
  have hr := h.intake.aware k c hk hw
  have hf : r.dispatch.intake.fired.any (·.1 = s) = false := by
    rw [Signals.any_fired, ← Intake.reason?, ← hsignal, hr]
    rfl
  simp only [reading?, Run.step, lift_intake, Dispatch.abort]
  rw [Intake.abort_eq hf]
  simp [hk, Call.reslot, Intake.aborted, hsignal, Slot.reading_eq_some, Slot.reader_abort hw]

/-- The end of its unit ends the waiting of a call. -/
theorem Settling.reading_concluded (h : r.Settling) {result : Attempt Outcome}
    (hc : r.Pending k signal e)
    (hrun : r.dispatch.intake.progress? k = some (.running (.over result))) :
    (r.step (.move (.conclude k))).reading? k = some (.got result.toOption) := by
  obtain ⟨c, hk, _, hw, _⟩ := hc
  have hp : c.progress = .running (.over result) :=
    Option.some.inj ((progress_of_call hk).symm.trans hrun)
  simp only [reading?, Run.step, lift_intake]
  rw [(Dispatch.touched_move h.ordered.sound (m := .conclude k) rfl).calls,
    Array.getElem?_modify, if_pos rfl, hk]
  simp [Call.moved, Call.concluded, hp, Slot.reading_eq_some,
    Slot.reader_concluded (h.intake.slots k c hk) hw]

/-- Every event of a run is plain, and possible where it happens. -/
def valid (r : Run) : List Event → Bool
  | [] => true
  | ev :: events => ev.plain && r.possible ev && valid (r.step ev) events

theorem valid_cons {ev : Event} {events : List Event} (h : r.valid (ev :: events) = true) :
    ev.plain = true ∧ r.possible ev = true ∧ (r.step ev).valid events = true := by
  simpa [valid, and_assoc] using h

theorem valid_append {before after : List Event} (hb : r.valid before = true)
    (ha : (r.run before).valid after = true) : r.valid (before ++ after) = true := by
  induction before generalizing r with
  | nil => exact ha
  | cons ev before ih =>
    obtain ⟨hp, hposs, hv⟩ := valid_cons hb
    have h := ih hv ha
    simp [valid, hp, hposs, h]

theorem Settling.reading_run (h : r.Settling) {events : List Event} (hv : r.valid events = true)
    {reading : Slot.Reading Outcome} (hr : r.reading? k = some reading) :
    (r.run events).reading? k = some reading := by
  induction events generalizing r with
  | nil => exact hr
  | cons ev events ih =>
    obtain ⟨hp, _, hv⟩ := valid_cons hv
    exact ih (h.step hp) hv (h.reading_step hp hr)

theorem Settling.kept_run (h : r.Settling) {events : List Event} (hv : r.valid events = true) :
    Intake.Kept r.dispatch.intake.calls (r.run events).dispatch.intake.calls := by
  induction events generalizing r with
  | nil => exact .refl _
  | cons ev events ih =>
    obtain ⟨hp, _, hv⟩ := valid_cons hv
    exact (h.kept hp).trans (ih (h.step hp) hv)

/-- What the client is asked for is what the call was sent with. -/
theorem Settling.request_of_asked (h : r.Settling) {v : Value} (ha : (k, v) ∈ r.asked) :
    ∃ c : Call Stage, r.dispatch.intake.calls[k]? = some c ∧ c.parcel = .request v := by
  obtain ⟨rest, hrest, _⟩ := h.ordered.rest
  exact h.ordered.parcels (k, v) (by rw [hrest]; exact List.mem_append_left _ ha)

/-- Calls are accepted when they come in or never. -/
theorem accepted_step (r : Run) (ev : Event) :
    ∀ x ∈ (r.step ev).accepted, x ∈ r.accepted ∨ x.1 = r.size := by
  intro x hx
  cases ev with
  | offer | send =>
    simp only [Run.step, lift_accepted, note, List.mem_append] at hx
    rcases hx with hx | hx
    · exact Or.inl hx
    · split at hx
      · exact Or.inr (by rw [List.mem_singleton.mp hx])
      · cases hx
  | _ => exact Or.inl hx

theorem Settling.accepted_run (h : r.Settling) {events : List Event} (hv : r.valid events = true)
    (hk : k < r.size) {v : Value} (ha : (k, v) ∈ (r.run events).accepted) :
    (k, v) ∈ r.accepted := by
  induction events generalizing r with
  | nil => exact ha
  | cons ev events ih =>
    obtain ⟨hp, _, hv⟩ := valid_cons hv
    have hlt := Nat.lt_of_lt_of_le hk (h.kept hp).size_le
    rcases accepted_step r ev (k, v) (ih (h.step hp) hv hlt ha) with ha | he
    · exact ha
    · exact absurd he (Nat.ne_of_lt hk)

/-- What has happened to a call. -/
def history (k : Nat) (signal : Option Nat) (events : List Event) : List Own :=
  events.filterMap (·.happens? k signal)

theorem history_cons (k : Nat) (signal : Option Nat) (ev : Event) (events : List Event) :
    history k signal (ev :: events) =
      (ev.happens? k signal).toList ++ history k signal events := by
  cases h : ev.happens? k signal <;> simp [history, h]

theorem exchange_of_pending (hc : r.Pending k signal e) {e' : Exchange}
    (hrun : r.dispatch.intake.progress? k = some (.running e')) : e' = e := by
  obtain ⟨c, hk, _, _, hstage⟩ := hc
  have hp : c.progress = .running e' := Option.some.inj ((progress_of_call hk).symm.trans hrun)
  rcases hstage with ⟨hs, _⟩ | hs
  · simp [hp] at hs
  · exact Stage.running.inj (hp.symm.trans hs)

/-- The ways in which something happens to a call. -/
theorem happens_cases {ev : Event} {own : Own} (h : ev.happens? k signal = some own) :
    (∃ s reason, signal = some s ∧ ev = .abort s reason ∧ own = .aborted reason) ∨
    (∃ result, ev = .move (.answered k result) ∧ own = .answered result) ∨
    (∃ v, ev = .move (.chunk k v) ∧ own = .chunk v) ∨
    (∃ result, ev = .move (.bodyEnded k result) ∧ own = .bodyEnded result) ∨
    (ev = .move (.conclude k) ∧ own = .concluded) := by
  cases ev with
  | abort s reason =>
    by_cases hs : signal = some s <;> simp_all [Event.happens?]
  | move m =>
    cases m <;> simp only [Event.happens?, Move.happens?] at h <;> try split at h
    all_goals simp_all
  | _ => cases h

/-- The fate of a call that waits is decided by what happens to it from then on. -/
theorem Settling.reading_of_pending (h : r.Settling) (hc : r.Pending k signal e)
    {events : List Event} (hv : r.valid events = true) :
    (r.run events).reading? k = fate e (history k signal events) := by
  induction events generalizing r e with
  | nil => exact hc.reading
  | cons ev events ih =>
    obtain ⟨hp, hposs, hv⟩ := valid_cons hv
    have hs := h.step hp
    show ((r.step ev).run events).reading? k = _
    cases hown : ev.happens? k signal with
    | none =>
      rw [history_cons, hown, Option.toList_none, List.nil_append]
      exact ih hs (h.pending_other hc hp hown) hv
    | some own =>
      rw [history_cons, hown, Option.toList_some, List.singleton_append]
      obtain ⟨s, reason, rfl, rfl, rfl⟩ | ⟨result, rfl, rfl⟩ | ⟨v, rfl, rfl⟩ | ⟨result, rfl, rfl⟩ |
        ⟨rfl, rfl⟩ := happens_cases hown
      · exact hs.reading_run hv (h.reading_aborted hc reason)
      · have hasking := Stage.any_isAsking.mp hposs
        obtain rfl := exchange_of_pending hc hasking
        exact ih hs (h.pending_own hc rfl (f := .answer result) (fun _ => rfl) hasking) hv
      · obtain ⟨chunks, hreading⟩ := Stage.any_isReading.mp hposs
        obtain rfl := exchange_of_pending hc hreading
        exact ih hs (h.pending_own hc rfl (f := (·.chunk v)) (fun _ => rfl) hreading) hv
      · obtain ⟨chunks, hreading⟩ := Stage.any_isReading.mp hposs
        obtain rfl := exchange_of_pending hc hreading
        exact ih hs (h.pending_own hc rfl (f := (·.bodyEnded result)) (fun _ => rfl) hreading) hv
      · obtain ⟨result, hover⟩ := Stage.any_isOver.mp hposs
        obtain rfl := exchange_of_pending hc hover
        exact hs.reading_run hv (h.reading_concluded hc hover)

end Run
end Pipeline
end Courier
