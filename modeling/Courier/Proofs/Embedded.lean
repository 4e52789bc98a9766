import Courier.Proofs.Caller
import Courier.Proofs.Settlement

/-!
Embedded transports: callers, the client and the units of the dispatch loop do something in any
order, and the logger's calls return; what a logger does to the transport while it is called is
done before the step that calls it. Every call of `send` ends at most once, and how it ends is its
own business.
-/

namespace Courier

def Deed.event : Deed → Pipeline.Event
  | .clone sender => .clone sender
  | .send sender uri payload signal => .send sender (.post uri payload) signal
  | .release sender => .release sender
  | .abort signal reason => .abort signal reason

structure Embedded where
  transport : Transport
  inner : Pipeline.Run
  /-- The calls that were refused. -/
  refused : List Nat

namespace Embedded

inductive Event where
  | caller (c : Caller)
  | move (m : Move)
  | clientClosed (r : Attempt Unit)

def start (fired : List (Nat × Value)) : Embedded := ⟨.new 0, .start fired, []⟩

def channel (e : Embedded) : Channel Nat := e.inner.dispatch.intake.channel

/-- The reason of a signal that has fired. -/
def reason? (e : Embedded) (signal : Option Nat) : Option Value :=
  e.inner.dispatch.intake.reason? signal

/-- The call that a deed brings, if it is refused. -/
def refusal (e : Embedded) : Deed → List Nat
  | .send sender uri payload signal =>
    if (e.inner.dispatch.send sender (.post uri payload) signal).2.1 then [] else [e.inner.size]
  | _ => []

def perform (e : Embedded) (deed : Deed) : Embedded :=
  { e with inner := e.inner.step deed.event, refused := e.refused ++ e.refusal deed }

def step (e : Embedded) : Event → Embedded
  | .caller c =>
    let (transport, deed) := e.transport.act e.channel c
    deed.elim { e with transport := transport } { e with transport := transport }.perform
  | .move m => { e with inner := e.inner.step (.move m) }
  | .clientClosed r => { e with inner := e.inner.step (.clientClosed r) }

def run (e : Embedded) (events : List Event) : Embedded := events.foldl step e

def possible (e : Embedded) : Event → Bool
  | .move m => e.inner.possible (.move m)
  | _ => true

/-- Every event of a run is possible where it happens. -/
def valid (e : Embedded) : List Event → Bool
  | [] => true
  | ev :: events => e.possible ev && valid (e.step ev) events

/-- What the callers of `send` have learned, each with its call. -/
def answers (e : Embedded) : List (Nat × Attempt Value) :=
  (e.refused.map fun k => (k, .error Fault.notListening.toValue)) ++
    e.inner.told.map fun s => (s.call, Handle.result s.reading)

/-- What happens to a call that listens to a signal. -/
def Event.happens? (k : Nat) (signal : Option Nat) : Event → Option Own
  | .caller (.abort s reason) => if signal = some s then some (.aborted reason) else none
  | .move m => m.happens? k
  | _ => none

def history (k : Nat) (signal : Option Nat) (events : List Event) : List Own :=
  events.filterMap (·.happens? k signal)

/-- What a caller learns of the end of its unit: the bytes of the body, the failure, or that the
unit has died. No exchange comes to anything else. -/
def learned : Attempt Outcome → Option (Attempt Value)
  | .ok (.success body) => some (.ok (.bytes body))
  | .ok (.failure fault) => some (.error fault.toValue)
  | .ok (.foreign _) => none
  | .error _ => some (.error Fault.diedWithoutResponse.toValue)

/-- What the caller of `send` learns: that nobody listens, if its handle was closed; else the
reason of its signal, if that had fired or fires before its unit ends; else what its own exchange
came to, once its unit has ended. -/
def verdict (closed : Bool) (fired : Option Value) (own : List Own) : Option (Attempt Value) :=
  if closed then some (.error Fault.notListening.toValue)
  else
    match fired.or (firstReason own) with
    | some reason => some (.error (Fault.aborted reason).toValue)
    | none => (Exchange.asking.outcome? own).bind learned

theorem outcome_of_exchange {own : List Own} {o : Outcome}
    (h : Exchange.asking.outcome? own = some (.ok o)) : o.OfExchange .any := by
  refine Exchange.sound_outcome Exchange.sound_asking (fun x _ => ?_) h
  cases x with
  | answered r => exact Manner.any_answers r
  | bodyEnded r => exact Manner.any_ends r
  | aborted | chunk | concluded => trivial

/-- What a caller learns of the end of its unit is what `send` makes of it. -/
theorem learned_outcome (own : List Own) : (Exchange.asking.outcome? own).bind learned =
    (Exchange.asking.outcome? own).map fun result => Handle.result (.got result.toOption) := by
  cases ho : Exchange.asking.outcome? own with
  | none => rfl
  | some result =>
    rcases result with v | body | fault | v
    · rfl
    · rfl
    · rfl
    · exact (outcome_of_exchange ho).elim

/-! From runs of a transport to runs of its pipeline -/

variable {e : Embedded} {k : Nat} {signal : Option Nat}

/-- What an event comes to for the pipeline. -/
def inward (e : Embedded) : Event → List Pipeline.Event
  | .caller c => ((e.transport.act e.channel c).2.map Deed.event).toList
  | .move m => [.move m]
  | .clientClosed r => [.clientClosed r]

def trace (e : Embedded) : List Event → List Pipeline.Event
  | [] => []
  | ev :: events => e.inward ev ++ trace (e.step ev) events

theorem step_inner (e : Embedded) (ev : Event) : (e.step ev).inner = e.inner.run (e.inward ev) := by
  cases ev with
  | caller c =>
    simp only [step, inward]
    cases (e.transport.act e.channel c).2 <;> rfl
  | move m => rfl
  | clientClosed r => rfl

theorem run_inner (e : Embedded) (events : List Event) :
    (e.run events).inner = e.inner.run (e.trace events) := by
  induction events generalizing e with
  | nil => rfl
  | cons ev events ih =>
    show ((e.step ev).run events).inner = _
    rw [ih, step_inner, trace, Pipeline.Run.run_append]

theorem event_plain (deed : Deed) : deed.event.plain = true := by cases deed <;> rfl

theorem valid_inward {ev : Event} (h : e.possible ev = true) :
    e.inner.valid (e.inward ev) = true := by
  cases ev with
  | caller c =>
    simp only [inward]
    cases hd : (e.transport.act e.channel c).2 with
    | none => rfl
    | some deed => cases deed <;> rfl
  | move m =>
    simp only [possible] at h
    simp [inward, Pipeline.Run.valid, Pipeline.Event.plain, h]
  | clientClosed r => rfl

theorem valid_trace {events : List Event} (h : e.valid events = true) :
    e.inner.valid (e.trace events) = true := by
  induction events generalizing e with
  | nil => rfl
  | cons ev events ih =>
    simp only [valid, Bool.and_eq_true] at h
    refine Pipeline.Run.valid_append (valid_inward h.1) ?_
    rw [← step_inner]
    exact ih h.2

theorem happens_inward (e : Embedded) (ev : Event) :
    (e.inward ev).filterMap (·.happens? k signal) = (ev.happens? k signal).toList := by
  cases ev with
  | caller c =>
    have hact : ∀ deed, (e.transport.act e.channel c).2 = some deed →
        deed.event.happens? k signal = (Event.caller c).happens? k signal := by
      intro deed hd
      cases c with
      | abort s reason =>
        simp only [Transport.act, Option.some.injEq] at hd
        rw [← hd]
        rfl
      | handle uri =>
        simp only [Transport.act] at hd
        split at hd <;> cases hd
        rfl
      | clone place =>
        simp only [Transport.act] at hd
        split at hd <;> cases hd
        rfl
      | send | closeHandle | close =>
        simp only [Transport.act, Option.map_eq_some_iff] at hd
        obtain ⟨x, _, rfl⟩ := hd
        rfl
    simp only [inward]
    cases hd : (e.transport.act e.channel c).2 with
    | none =>
      cases c with
      | abort s reason => simp [Transport.act] at hd
      | _ => rfl
    | some deed =>
      have he := hact deed hd
      cases hh : (Event.caller c).happens? k signal <;> simp_all
  | move m =>
    show [Pipeline.Event.move m].filterMap (·.happens? k signal) = (m.happens? k).toList
    cases hm : m.happens? k <;> simp [Pipeline.Event.happens?, hm]
  | clientClosed r => rfl

theorem history_trace (e : Embedded) (events : List Event) :
    Pipeline.Run.history k signal (e.trace events) = history k signal events := by
  induction events generalizing e with
  | nil => rfl
  | cons ev events ih =>
    have hi := ih (e.step ev)
    simp only [Pipeline.Run.history, trace, List.filterMap_append, happens_inward] at hi ⊢
    rw [hi]
    cases h : ev.happens? k signal <;> simp [history, h]

/-! What callers know -/

/-- Callers know what has become of their calls; refused calls wait for nothing, and accepted ones
for their outcomes. -/
structure Sound (e : Embedded) : Prop where
  settling : e.inner.Settling
  nodup : e.refused.Nodup
  unread : ∀ k ∈ e.refused, ∃ c : Call Stage,
    e.inner.dispatch.intake.calls[k]? = some c ∧ c.slot.reader = .unread
  read : ∀ x ∈ e.inner.accepted, ∃ c : Call Stage,
    e.inner.dispatch.intake.calls[x.1]? = some c ∧ c.slot.reader ≠ .unread

theorem sound_start (fired : List (Nat × Value)) : (start fired).Sound :=
  ⟨Pipeline.Run.settling_start fired, List.nodup_nil, by simp [start],
    by simp [start, Pipeline.Run.start]⟩

theorem refusal_send (e : Embedded) (sender : Nat) (uri : String) (payload : Bytes)
    (signal : Option Nat) : e.refusal (.send sender uri payload signal) =
      if e.channel.isClosed sender then [e.inner.size] else [] := by
  simp only [refusal, Dispatch.send_accepted, channel]
  by_cases hc : e.inner.dispatch.intake.channel.isClosed sender = true <;> simp [hc]

theorem Sound.unread_step (h : e.Sound) {ev : Pipeline.Event} (hp : ev.plain = true) :
    ∀ k ∈ e.refused, ∃ c : Call Stage,
      (e.inner.step ev).dispatch.intake.calls[k]? = some c ∧ c.slot.reader = .unread := by
  intro k hk
  obtain ⟨c, hc, hu⟩ := h.unread k hk
  obtain ⟨d, hd, _, _, hf⟩ := (h.settling.kept hp).call k c hc
  exact ⟨d, hd, hf.unread hu⟩

theorem Sound.read_step (h : e.Sound) {ev : Pipeline.Event} (hp : ev.plain = true) :
    ∀ x ∈ e.inner.accepted, ∃ c : Call Stage,
      (e.inner.step ev).dispatch.intake.calls[x.1]? = some c ∧ c.slot.reader ≠ .unread := by
  intro x hx
  obtain ⟨c, hc, hu⟩ := h.read x hx
  obtain ⟨d, hd, _, _, hf⟩ := (h.settling.kept hp).call x.1 c hc
  exact ⟨d, hd, hf.read hu⟩

/-- The call that a `send` brings. -/
theorem call_send (e : Embedded) (sender : Nat) (request : Request) (signal : Option Nat) :
    (e.inner.step (.send sender request signal)).dispatch.intake.calls[e.inner.size]? =
      some (e.inner.dispatch.intake.sent sender request signal .waiting) := by
  have ha := Dispatch.arrived_send e.inner.dispatch sender request signal
  simp only [Pipeline.Run.step, Pipeline.Run.lift_intake]
  rw [ha.calls]
  exact Array.getElem?_push_size

theorem Sound.perform (h : e.Sound) (deed : Deed) : (e.perform deed).Sound := by
  have hp := event_plain deed
  have hs := h.settling.step hp
  have hu := h.unread_step hp
  have hr := h.read_step hp
  cases deed with
  | send sender uri payload signal =>
    have hnew := call_send e sender (.post uri payload) signal
    have hrefused := refusal_send e sender uri payload signal
    have haccepted : (e.inner.step (.send sender (.post uri payload) signal)).accepted =
        e.inner.accepted ++ if e.channel.isClosed sender then []
          else [(e.inner.size, (Request.post uri payload).toValue)] := by
      simp only [Pipeline.Run.step, Pipeline.Run.lift_accepted, Pipeline.Run.note,
        Dispatch.send_accepted]
      show _ ++ _ = _ ++ if e.inner.dispatch.intake.channel.isClosed sender then _ else _
      cases e.inner.dispatch.intake.channel.isClosed sender <;> rfl
    cases hc : e.channel.isClosed sender with
    | true =>
      rw [hc, if_pos rfl] at hrefused haccepted
      rw [List.append_nil] at haccepted
      simp only [Embedded.perform, hrefused]
      refine ⟨hs, h.nodup.append (List.nodup_singleton _) fun k hk hk' => ?_, fun k hk => ?_, ?_⟩
      · obtain ⟨c, hc, _⟩ := h.unread k hk
        rw [List.mem_singleton.mp hk'] at hc
        simp [Pipeline.Run.size] at hc
      · rcases List.mem_append.mp hk with hk | hk
        · exact hu k hk
        · rw [List.mem_singleton.mp hk]
          refine ⟨_, hnew, ?_⟩
          simp only [channel] at hc
          simp [Intake.sent, hc, Slot.new]
      · show ∀ x ∈ (e.inner.step (.send sender (.post uri payload) signal)).accepted, _
        rw [haccepted]
        exact hr
    | false =>
      rw [hc, if_neg Bool.false_ne_true] at hrefused haccepted
      simp only [Embedded.perform, hrefused, List.append_nil]
      refine ⟨hs, h.nodup, hu, ?_⟩
      show ∀ x ∈ (e.inner.step (.send sender (.post uri payload) signal)).accepted, _
      rw [haccepted]
      intro x hx
      rcases List.mem_append.mp hx with hx | hx
      · exact hr x hx
      · rw [List.mem_singleton.mp hx]
        refine ⟨_, hnew, ?_⟩
        simp only [channel] at hc
        simp only [Intake.sent, hc, Bool.false_eq_true, if_false]
        cases e.inner.dispatch.intake.reason? signal <;> simp [Slot.opened]
  | clone | release | abort =>
    simp only [Embedded.perform, refusal, List.append_nil]
    exact ⟨hs, h.nodup, hu, hr⟩

theorem Sound.step (h : e.Sound) (ev : Event) : (e.step ev).Sound := by
  cases ev with
  | caller c =>
    have ht : ({ e with transport := (e.transport.act e.channel c).1 } : Embedded).Sound :=
      ⟨h.settling, h.nodup, h.unread, h.read⟩
    simp only [Embedded.step]
    cases (e.transport.act e.channel c).2 with
    | none => exact ht
    | some deed => exact ht.perform deed
  | move m =>
    have hp : (Pipeline.Event.move m).plain = true := rfl
    exact ⟨h.settling.step hp, h.nodup, h.unread_step hp, h.read_step hp⟩
  | clientClosed r =>
    have hp : (Pipeline.Event.clientClosed r).plain = true := rfl
    exact ⟨h.settling.step hp, h.nodup, h.unread_step hp, h.read_step hp⟩

theorem Sound.run (h : e.Sound) (events : List Event) : (e.run events).Sound := by
  induction events generalizing e with
  | nil => exact h
  | cons ev events ih => exact ih (h.step ev)

theorem Sound.reading_of_refused (h : e.Sound) (hk : k ∈ e.refused) :
    e.inner.reading? k = none := by
  obtain ⟨c, hc, hu⟩ := h.unread k hk
  simp [Pipeline.Run.reading?, hc, Slot.reading?, hu]

/-- A call has at most one answer. -/
theorem Sound.nodup_answers (h : e.Sound) : (e.answers.map (·.1)).Nodup := by
  have hmap : e.answers.map (·.1) = e.refused ++ e.inner.told.map (·.call) := by
    simp [answers, Function.comp_def]
  rw [hmap]
  refine h.nodup.append h.settling.intake.told.nodup fun k hk hk' => ?_
  obtain ⟨s, hs, rfl⟩ := List.mem_map.mp hk'
  have hr := h.settling.mem_told.mp hs
  rw [h.reading_of_refused hk] at hr
  cases hr

theorem Sound.mem_answers_of_refused (h : e.Sound) (hk : k ∈ e.refused) (a : Attempt Value) :
    (k, a) ∈ e.answers ↔ some (.error Fault.notListening.toValue) = some a := by
  have hr := h.reading_of_refused hk
  simp only [answers, List.mem_append, List.mem_map, Prod.mk.injEq, Option.some.injEq]
  constructor
  · rintro (⟨_, _, _, ha⟩ | ⟨s, hs, rfl, _⟩)
    · exact ha
    · rw [h.settling.mem_told.mp hs] at hr
      cases hr
  · exact fun ha => Or.inl ⟨k, hk, rfl, ha⟩

theorem Sound.mem_answers (h : e.Sound) (hk : k ∉ e.refused) (a : Attempt Value) :
    (k, a) ∈ e.answers ↔ (e.inner.reading? k).map Handle.result = some a := by
  simp only [answers, List.mem_append, List.mem_map, Prod.mk.injEq, Option.map_eq_some_iff]
  constructor
  · rintro (⟨n, hn, rfl, _⟩ | ⟨s, hs, rfl, ha⟩)
    · exact (hk hn).elim
    · exact ⟨s.reading, h.settling.mem_told.mp hs, ha⟩
  · rintro ⟨r, hr, ha⟩
    exact Or.inr ⟨⟨k, r⟩, h.settling.mem_told.mpr hr, rfl, ha⟩

/-! One call -/

/-- A call of `send` on a handle. -/
theorem step_send {place : Nat} {handle : Handle}
    (hh : e.transport.handles.members[place]? = some handle) (payload : Bytes)
    (signal : Option Nat) : e.step (.caller (.send place payload signal)) =
      e.perform (.send handle.sender handle.uri payload signal) := by
  simp [step, Transport.act, hh]

/-- A `send` that is refused brings a call to answer and changes nothing else. -/
theorem perform_refused {sender : Nat} (hc : e.channel.isClosed sender = true) (uri : String)
    (payload : Bytes) (signal : Option Nat) :
    (e.perform (.send sender uri payload signal)).channel = e.channel ∧
      (e.perform (.send sender uri payload signal)).inner.dispatch.intake.stats =
        e.inner.dispatch.intake.stats ∧
      (e.perform (.send sender uri payload signal)).inner.dispatch.loop = e.inner.dispatch.loop ∧
      (e.perform (.send sender uri payload signal)).inner.asked = e.inner.asked := by
  simp only [channel] at hc
  have hq := (Dispatch.quiet_send e.inner.dispatch sender (.post uri payload) signal).2
  simp only [perform, Deed.event, Pipeline.Run.step, channel, Pipeline.Run.lift_intake,
    Pipeline.Run.lift_loop, Pipeline.Run.lift_asked, hq, List.append_nil]
  simp only [Dispatch.send, Intake.send_eq_of_closed (.post uri payload) signal _ hc]
  rw [Dispatch.take_eq]
  exact ⟨rfl, rfl, rfl, rfl⟩

theorem mem_refused_run (hk : k ∈ e.refused) (events : List Event) : k ∈ (e.run events).refused := by
  induction events generalizing e with
  | nil => exact hk
  | cons ev events ih =>
    refine ih ?_
    cases ev with
    | caller c =>
      simp only [step]
      cases (e.transport.act e.channel c).2 with
      | none => exact hk
      | some deed => exact List.mem_append_left _ hk
    | move | clientClosed => exact hk

theorem Sound.answers_refused (h : e.Sound) {sender : Nat} (hc : e.channel.isClosed sender = true)
    (uri : String) (payload : Bytes) (signal : Option Nat) (after : List Event)
    (a : Attempt Value) :
    (e.inner.size, a) ∈ ((e.perform (.send sender uri payload signal)).run after).answers ↔
      some (.error Fault.notListening.toValue) = some a := by
  have hk : e.inner.size ∈ (e.perform (.send sender uri payload signal)).refused := by
    simp [Embedded.perform, refusal_send, hc]
  exact ((h.perform _).run after).mem_answers_of_refused (mem_refused_run hk after) a

section

variable {sender : Nat} {uri : String} {payload : Bytes} {after : List Event}

/-- The client is never asked for a refused call. -/
theorem Sound.notMem_asked (h : e.Sound) (hc : e.channel.isClosed sender = true)
    (hv : (e.perform (.send sender uri payload signal)).valid after = true) (v : Value) :
    (e.inner.size, v) ∉ ((e.perform (.send sender uri payload signal)).run after).inner.asked := by
  intro ha
  have hs := (h.perform (.send sender uri payload signal)).settling
  obtain ⟨rest, hrest, _⟩ :=
    ((h.perform (.send sender uri payload signal)).run after).settling.ordered.rest
  have hacc := List.mem_append_left rest ha
  rw [← hrest, run_inner] at hacc
  have hsize : e.inner.size < (e.perform (.send sender uri payload signal)).inner.size :=
    (Array.getElem?_eq_some_iff.mp (call_send e sender (.post uri payload) signal)).1
  have hold := hs.accepted_run (valid_trace hv) hsize hacc
  simp only [channel] at hc
  have hsame : (e.perform (.send sender uri payload signal)).inner.accepted = e.inner.accepted := by
    simp [Embedded.perform, Deed.event, Pipeline.Run.step, Pipeline.Run.note,
      Dispatch.send_accepted, hc]
  rw [hsame] at hold
  exact h.settling.ordered.size_notMem (List.mem_map_of_mem (f := (·.1)) hold)

/-- An accepted call at the end of a run. -/
theorem Sound.call_accepted (h : e.Sound) (hc : e.channel.isClosed sender = false)
    (hv : (e.perform (.send sender uri payload signal)).valid after = true) : ∃ c : Call Stage,
      ((e.perform (.send sender uri payload signal)).run after).inner.dispatch.intake.calls[
        e.inner.size]? = some c ∧ c.parcel = .request (Request.post uri payload).toValue ∧
      (Slot.opened (e.reason? signal)).Follows c.slot := by
  have hs := (h.perform (.send sender uri payload signal)).settling
  have hk := hs.kept_run (valid_trace hv)
  rw [← run_inner] at hk
  obtain ⟨c, hcall, hp, _, hf⟩ := hk.call _ _ (call_send e sender (.post uri payload) signal)
  refine ⟨c, hcall, by rw [hp, Intake.sent_parcel], ?_⟩
  simp only [channel] at hc
  simpa [Intake.sent, hc, reason?] using hf

theorem Sound.notMem_refused (h : e.Sound) (hc : e.channel.isClosed sender = false)
    (hv : (e.perform (.send sender uri payload signal)).valid after = true) :
    e.inner.size ∉ ((e.perform (.send sender uri payload signal)).run after).refused := by
  intro hk
  obtain ⟨c, hcall, _, hf⟩ := h.call_accepted hc hv
  obtain ⟨d, hd, hu⟩ := ((h.perform _).run after).unread _ hk
  obtain rfl := Option.some.inj (hcall.symm.trans hd)
  cases hr : e.reason? signal with
  | none => rcases hf with hf | ⟨_, r, hf⟩ <;> simp [hr, hu, Slot.opened] at hf
  | some reason => rcases hf with hf | ⟨_, r, hf⟩ <;> simp [hr, hu, Slot.opened] at hf

theorem pending_send (hc : e.channel.isClosed sender = false)
    (hr : e.reason? signal = none) :
    (e.perform (.send sender uri payload signal)).inner.Pending e.inner.size signal .asking := by
  refine ⟨_, call_send e sender (.post uri payload) signal, ?_⟩
  simp only [channel] at hc
  simp only [reason?] at hr
  simp [Intake.sent, hc, hr, Slot.opened]

/-- What the caller of an accepted `send` learns. -/
theorem Sound.answers_accepted (h : e.Sound) (hc : e.channel.isClosed sender = false)
    (hv : (e.perform (.send sender uri payload signal)).valid after = true) (a : Attempt Value) :
    (e.inner.size, a) ∈ ((e.perform (.send sender uri payload signal)).run after).answers ↔
      verdict false (e.reason? signal) (history e.inner.size signal after) = some a := by
  have hs := (h.perform (.send sender uri payload signal)).settling
  have hvt := valid_trace hv
  rw [((h.perform _).run after).mem_answers (h.notMem_refused hc hv)]
  suffices hread : (((e.perform (.send sender uri payload signal)).run after).inner.reading?
      e.inner.size).map Handle.result =
        verdict false (e.reason? signal) (history e.inner.size signal after) by rw [hread]
  cases hr : e.reason? signal with
  | none =>
    rw [run_inner, hs.reading_of_pending (pending_send hc hr) hvt, history_trace, fate_eq]
    simp only [verdict, Option.none_or, learned_outcome]
    cases firstReason (history e.inner.size signal after) with
    | some reason => rfl
    | none => cases Exchange.asking.outcome? (history e.inner.size signal after) <;> rfl
  | some reason =>
    obtain ⟨c, hcall, _, hf⟩ := h.call_accepted hc hv
    have hset := hf.settled (r := .refused reason) (by rw [hr]; rfl)
    simp [Pipeline.Run.reading?, hcall, Slot.reading_eq_some.mpr hset, verdict, Handle.result]

end

/-- No exchange ends as a refusal or an abort does. -/
theorem result_of_exchange {o : Outcome} (h : o.OfExchange .any) :
    Handle.result (.got (some o)) ≠ .error Fault.notListening.toValue ∧
      ∀ reason, Handle.result (.got (some o)) ≠ .error (Fault.aborted reason).toValue := by
  cases o with
  | success body => simp [Handle.result]
  | failure fault =>
    have hk := h.kind_eq
    simp only [Handle.result, Fault.toValue, Fault.notListening, Fault.aborted, Fault.ofKind, ne_eq,
      Except.error.injEq, Value.fault.injEq, not_and]
    rcases hk with hk | hk <;> simp [hk, FaultKind.name]
  | foreign => exact h.elim

theorem learned_of_exchange {own : List Own} {a : Attempt Value}
    (h : (Exchange.asking.outcome? own).bind learned = some a) :
    a ≠ .error Fault.notListening.toValue ∧
      ∀ reason, a ≠ .error (Fault.aborted reason).toValue := by
  rw [learned_outcome] at h
  obtain ⟨result, ho, rfl⟩ := Option.map_eq_some_iff.mp h
  cases result with
  | ok o => exact result_of_exchange (outcome_of_exchange ho)
  | error v =>
    simp [Except.toOption, Handle.result, Fault.toValue, Fault.notListening, Fault.aborted,
      Fault.diedWithoutResponse, Fault.ofKind, FaultKind.name]

theorem verdict_notListening (closed : Bool) (fired : Option Value) (own : List Own) :
    verdict closed fired own = some (.error Fault.notListening.toValue) ↔ closed = true := by
  cases closed with
  | true => simp [verdict]
  | false =>
    simp only [verdict, Bool.false_eq_true, if_false, iff_false]
    cases fired.or (firstReason own) with
    | some reason => simp [Fault.toValue, Fault.notListening, Fault.aborted, Fault.ofKind, FaultKind.name]
    | none => exact fun h => (learned_of_exchange h).1 rfl

theorem verdict_aborted (closed : Bool) (fired : Option Value) (own : List Own) (reason : Value) :
    verdict closed fired own = some (.error (Fault.aborted reason).toValue) ↔
      closed = false ∧ fired.or (firstReason own) = some reason := by
  cases closed with
  | true =>
    simp [verdict, Fault.toValue, Fault.notListening, Fault.aborted, Fault.ofKind, FaultKind.name]
  | false =>
    simp only [verdict, Bool.false_eq_true, if_false, true_and]
    cases fired.or (firstReason own) with
    | some r => simp [Fault.toValue, Fault.aborted, Fault.ofKind]
    | none => simpa using fun h => (learned_of_exchange h).2 reason rfl

theorem run_append (e : Embedded) (before after : List Event) :
    e.run (before ++ after) = (e.run before).run after := List.foldl_append

theorem valid_append {before after : List Event} (hb : e.valid before = true)
    (ha : (e.run before).valid after = true) : e.valid (before ++ after) = true := by
  induction before generalizing e with
  | nil => exact ha
  | cons ev before ih =>
    simp only [valid, List.cons_append, Bool.and_eq_true] at hb ⊢
    exact ⟨hb.1, ih hb.2 ha⟩

theorem valid_of_append {before after : List Event} (h : e.valid (before ++ after) = true) :
    (e.run before).valid after = true := by
  induction before generalizing e with
  | nil => exact h
  | cons ev before ih =>
    simp only [List.cons_append, valid, Bool.and_eq_true] at h
    exact ih h.2

/-- Every call of `send` is answered at most once, and its answer is decided by its handle and its
signal at the call and by what happens to it afterwards, whatever other calls do. A refused call
touches nothing, and the client is asked for nothing but the call's own request. -/
theorem send_settles (fired : List (Nat × Value)) {events : List Event}
    (hv : (start fired).valid events = true) :
    (((start fired).run events).answers.map (·.1)).Nodup ∧
    ∀ (before after : List Event) (place : Nat) (payload : Bytes) (signal : Option Nat)
      (handle : Handle) (e : Embedded),
      events = before ++ .caller (.send place payload signal) :: after →
      e = (start fired).run before →
      e.transport.handles.members[place]? = some handle →
      (∀ a, (e.inner.size, a) ∈ ((start fired).run events).answers ↔
        verdict (e.channel.isClosed handle.sender) (e.reason? signal)
          (history e.inner.size signal after) = some a) ∧
      ((e.inner.size, .error Fault.notListening.toValue) ∈ ((start fired).run events).answers ↔
        e.channel.isClosed handle.sender = true) ∧
      (∀ reason, (e.inner.size, .error (Fault.aborted reason).toValue) ∈
        ((start fired).run events).answers ↔ e.channel.isClosed handle.sender = false ∧
          (e.reason? signal).or (firstReason (history e.inner.size signal after)) = some reason) ∧
      (e.channel.isClosed handle.sender = true →
        let f := e.step (.caller (.send place payload signal))
        f.channel = e.channel ∧ f.inner.dispatch.intake.stats = e.inner.dispatch.intake.stats ∧
          f.inner.dispatch.loop = e.inner.dispatch.loop ∧ f.inner.asked = e.inner.asked ∧
          ∀ content, (e.inner.size, content) ∉ ((start fired).run events).inner.asked) ∧
      ∀ content, (e.inner.size, content) ∈ ((start fired).run events).inner.asked →
        content = (Request.post handle.uri payload).toValue := by
  have hsound := (sound_start fired).run events
  refine ⟨hsound.nodup_answers, fun before after place payload signal handle e he hrun hh => ?_⟩
  have hbefore : e.Sound := hrun ▸ (sound_start fired).run before
  have hstep := step_send hh payload signal
  have hend : (start fired).run events =
      (e.perform (.send handle.sender handle.uri payload signal)).run after := by
    rw [he, run_append, ← hrun, ← hstep]
    rfl
  have hvalid : (e.perform (.send handle.sender handle.uri payload signal)).valid after =
      true := by
    have hva := valid_of_append (he ▸ hv)
    rw [← hrun] at hva
    simp only [valid, Bool.and_eq_true] at hva
    rw [← hstep]
    exact hva.2
  have hanswers : ∀ a, (e.inner.size, a) ∈ ((start fired).run events).answers ↔
      verdict (e.channel.isClosed handle.sender) (e.reason? signal)
        (history e.inner.size signal after) = some a := by
    intro a
    rw [hend]
    cases hc : e.channel.isClosed handle.sender with
    | true => exact hbefore.answers_refused hc _ _ signal after a
    | false => exact hbefore.answers_accepted hc hvalid a
  refine ⟨hanswers, ?_, fun reason => ?_, fun hc => ?_, fun content hasked => ?_⟩
  · rw [hanswers, verdict_notListening]
  · rw [hanswers, verdict_aborted]
  · obtain ⟨hchannel, hstats, hloop, hasked⟩ :=
      perform_refused hc handle.uri payload signal
    simp only [hstep]
    refine ⟨hchannel, hstats, hloop, hasked, ?_⟩
    rw [hend]
    exact hbefore.notMem_asked hc hvalid
  · obtain ⟨c, hc, hp⟩ := hsound.settling.request_of_asked hasked
    rw [hend] at hc
    have hk := (hbefore.perform (.send handle.sender handle.uri payload
      signal)).settling.kept_run (valid_trace hvalid)
    rw [← run_inner] at hk
    obtain ⟨d, hd, hdp, _⟩ := hk.call _ _ (call_send e _ _ signal)
    obtain rfl := Option.some.inj (hc.symm.trans hd)
    rw [hp, Intake.sent_parcel] at hdp
    exact Parcel.request.inj hdp

/-- Of two calls to one address the second is aborted while it is under way, and the exchange of
the first one fails after that. -/
def crossing : List Event :=
  [.caller (.handle "http://a/"), .caller (.send 0 [] none), .caller (.send 0 [] (some 7)),
    .move .turn, .move .turn, .move .turn, .caller (.abort 7 .null),
    .move (.answered 0 (.error .null)), .move (.conclude 0)]

theorem crossing_settles : (start []).valid crossing = true ∧
    (0, .error (Fault.ofKind .network "Network error: null" .undefined .null).toValue) ∈
      ((start []).run crossing).answers ∧
    (1, .error (Fault.aborted .null).toValue) ∈ ((start []).run crossing).answers := by
  have hv : (start []).valid crossing = true := by decide +kernel
  have hfirst : (((start []).run (crossing.take 1)).transport.handles.members[0]?).map
      (fun h => (h.sender, h.uri)) = some (1, "http://a/") := by decide +kernel
  have hsecond : (((start []).run (crossing.take 2)).transport.handles.members[0]?).map
      (fun h => (h.sender, h.uri)) = some (1, "http://a/") := by decide +kernel
  have hopen : ((start []).run (crossing.take 1)).channel.isClosed 1 = false ∧
      ((start []).run (crossing.take 2)).channel.isClosed 1 = false := by decide +kernel
  have hsize : ((start []).run (crossing.take 1)).inner.size = 0 ∧
      ((start []).run (crossing.take 2)).inner.size = 1 := by decide +kernel
  have hquiet : ((start []).run (crossing.take 2)).inner.dispatch.intake.fired.isEmpty = true := by
    decide +kernel
  obtain ⟨⟨sender, uri⟩, hh, he⟩ := Option.map_eq_some_iff.mp hfirst
  obtain ⟨⟨sender', uri'⟩, hh', he'⟩ := Option.map_eq_some_iff.mp hsecond
  cases he
  cases he'
  have h0 := ((send_settles [] hv).2 (crossing.take 1) (crossing.drop 2) 0 [] none _ _ rfl rfl hh).1
    (.error (Fault.ofKind .network "Network error: null" .undefined .null).toValue)
  have h1 := ((send_settles [] hv).2 (crossing.take 2) (crossing.drop 3) 0 [] (some 7) _ _ rfl rfl
    hh').1 (.error (Fault.aborted .null).toValue)
  rw [hsize.1, hopen.1] at h0
  rw [hsize.2, hopen.2] at h1
  refine ⟨hv, h0.mpr rfl, h1.mpr ?_⟩
  have hr : ((start []).run (crossing.take 2)).reason? (some 7) = none := by
    simp only [reason?, Intake.reason?, List.isEmpty_iff.mp hquiet]
    rfl
  rw [hr]
  rfl

end Embedded
end Courier
