import Courier.Proofs.Embedded

/-!
What the stage of a call says about its past: how far its exchange has come, and what its unit has
ended with. A reading that is no refusal is what the exchange of its call has come to.
-/

namespace Courier

/-- One thing happens to an exchange. -/
def Exchange.advance (e : Exchange) : Own → Exchange
  | .answered r => e.answer r
  | .chunk v => e.chunk v
  | .bodyEnded r => e.bodyEnded r
  | .aborted _ | .concluded => e

/-- Before its unit ends an exchange goes on with whatever happens to it. -/
theorem Exchange.outcome_append {e : Exchange} {own : List Own}
    (h : ∀ x ∈ own, x ≠ .concluded) (after : List Own) :
    e.outcome? (own ++ after) = (own.foldl advance e).outcome? after := by
  induction own generalizing e with
  | nil => rfl
  | cons x own ih =>
    have hrest : ∀ x ∈ own, x ≠ .concluded := fun y hy => h y (List.mem_cons_of_mem _ hy)
    cases x with
    | concluded => exact (h .concluded List.mem_cons_self rfl).elim
    | _ => exact ih hrest

/-- An exchange comes to nothing before its unit ends. -/
theorem Exchange.outcome_none {e : Exchange} {own : List Own}
    (h : ∀ x ∈ own, x ≠ .concluded) : e.outcome? own = none := by
  rw [← own.append_nil, outcome_append h]
  rfl

theorem Exchange.outcome_concluded {e : Exchange} {own : List Own}
    (h : ∀ x ∈ own, x ≠ .concluded) :
    e.outcome? (own ++ [.concluded]) = (own.foldl advance e).result? := outcome_append h _

/-- A slot whose reader has got something. -/
def Slot.Got {ρ : Type} (s : Slot ρ) (o : Option ρ) : Prop := s.reader = .settled (.got o)

theorem Slot.not_got_opened {ρ : Type} (fired : Option Value) (o : Option ρ) :
    ¬ (opened fired : Slot ρ).Got o := by
  cases fired <;> simp [Got, opened]

/-- Giving up gets nothing. -/
theorem Slot.got_of_abort {ρ : Type} {s : Slot ρ} {reason : Value} {o : Option ρ}
    (h : (s.abort reason).Got o) : s.Got o := by
  unfold Got abort at h
  split at h
  · simp at h
  · exact h

/-- The end of a unit gives its result to a reader that waits. -/
theorem Slot.got_of_concluded {ρ : Type} {s : Slot ρ} (hs : s.Sound) {result : Attempt ρ}
    {o : Option ρ} (h : (s.concluded result).Got o) : s.Got o ∨ o = result.toOption := by
  rcases s.concluded_follows result with hf | ⟨hw, _⟩
  · exact Or.inl (hf.symm.trans h)
  · have hr := reader_concluded hs hw result
    rw [h] at hr
    simp only [Reader.settled.injEq, Reading.got.injEq] at hr
    exact Or.inr hr

/-- The stage and the slot of a call agree with what has happened to the call. -/
structure Call.Recalls (c : Call Stage) (own : List Own) : Prop where
  stage : match c.progress with
    | .waiting => own = []
    | .running e => e = own.foldl Exchange.advance .asking ∧ ∀ x ∈ own, x ≠ .concluded
    | .ended _ | .retired _ => (Exchange.asking.outcome? own).isSome
  got : ∀ o, c.slot.Got o →
    ∃ result : Attempt Outcome, Exchange.asking.outcome? own = some result ∧ o = result.toOption
  waits : c.slot.reader = .waiting → Exchange.asking.outcome? own = none

namespace Call.Recalls

variable {c : Call Stage} {own : List Own}

theorem fresh (hw : c.progress = .waiting) (hg : ∀ o, ¬ c.slot.Got o) : c.Recalls [] :=
  ⟨by rw [hw], fun o ho => (hg o ho).elim, fun _ => rfl⟩

theorem reslot (h : c.Recalls own) {slot : Slot Outcome} (hf : c.slot.Follows slot)
    (hg : ∀ o, slot.Got o → c.slot.Got o) : ({ c with slot := slot } : Call Stage).Recalls own :=
  ⟨h.stage, fun o ho => h.got o (hg o ho), fun hw => h.waits (hf.waiting hw)⟩

theorem begun (h : c.Recalls own) (hw : c.progress = .waiting) :
    (Dispatch.begun c).Recalls own := by
  have hs := h.stage
  rw [hw] at hs
  subst hs
  exact ⟨⟨rfl, by simp⟩, h.got, h.waits⟩

/-- An exchange that is under way gets on. -/
theorem advanced (h : c.Recalls own) {e : Exchange} (hp : c.progress = .running e) {x : Own}
    (hx : x ≠ .concluded) : ({ c with progress := .running (e.advance x) } : Call Stage).Recalls
      (own ++ [x]) := by
  have hs := h.stage
  rw [hp] at hs
  have hall : ∀ y ∈ own ++ [x], y ≠ .concluded := by
    intro y hy
    rcases List.mem_append.mp hy with hy | hy
    · exact hs.2 y hy
    · exact List.mem_singleton.mp hy ▸ hx
  refine ⟨⟨?_, hall⟩, fun o ho => ?_, fun _ => Exchange.outcome_none hall⟩
  · rw [List.foldl_append, ← hs.1]
    rfl
  · obtain ⟨result, hr, _⟩ := h.got o ho
    rw [Exchange.outcome_none hs.2] at hr
    cases hr

theorem concluded (h : c.Recalls own) (hslot : c.slot.Sound) {result : Attempt Outcome}
    (hp : c.progress = .running (.over result)) : c.concluded.Recalls (own ++ [.concluded]) := by
  have hs := h.stage
  rw [hp] at hs
  have ho : Exchange.asking.outcome? (own ++ [.concluded]) = some result := by
    rw [Exchange.outcome_concluded hs.2, ← hs.1]
    rfl
  have hc : c.concluded =
      { c with slot := c.slot.concluded result, progress := .ended none } := by
    simp [Call.concluded, hp]
  rw [hc]
  refine ⟨by rw [ho]; rfl, fun o hg => ?_, fun hw => ?_⟩
  · rcases Slot.got_of_concluded hslot hg with hg | rfl
    · obtain ⟨r, hr, _⟩ := h.got o hg
      rw [Exchange.outcome_none hs.2] at hr
      cases hr
    · exact ⟨result, ho, rfl⟩
  · have hwait := (Slot.concluded_follows c.slot result).waiting hw
    have hset := Slot.reader_concluded hslot hwait result
    rw [hw] at hset
    cases hset

theorem retired (h : c.Recalls own) :
    ({ c with progress := c.progress.retire } : Call Stage).Recalls own := by
  refine ⟨?_, h.got, h.waits⟩
  have hs := h.stage
  cases hp : c.progress <;> rw [hp] at hs <;> exact hs

end Call.Recalls

namespace Dispatch

variable {d e : Dispatch} {past : Nat → List Own}

/-- Every call agrees with its past, and calls that have not come in yet have none. -/
structure Recalls (d : Dispatch) (past : Nat → List Own) : Prop where
  call : ∀ (k : Nat) (c : Call Stage), d.intake.calls[k]? = some c → c.Recalls (past k)
  later : ∀ k, d.intake.calls.size ≤ k → past k = []

theorem recalls_new (fired : List (Nat × Value)) : (Dispatch.new fired).Recalls fun _ => [] :=
  ⟨by simp [new, Intake.new], fun _ _ => rfl⟩

theorem Recalls.same (h : d.Recalls past) (hc : e.intake.calls = d.intake.calls) :
    e.Recalls past := by
  refine ⟨?_, ?_⟩ <;> rw [hc]
  · exact h.call
  · exact h.later

theorem Recalls.push (h : d.Recalls past) {c : Call Stage}
    (hc : e.intake.calls = d.intake.calls.push c) (hw : c.progress = .waiting)
    (hg : ∀ o, ¬ c.slot.Got o) : e.Recalls past := by
  refine ⟨fun k x hx => ?_, fun k hk => ?_⟩
  · rw [hc, Array.getElem?_push] at hx
    split at hx
    · rename_i he
      rw [← Option.some.inj hx, h.later k (Nat.le_of_eq he.symm)]
      exact .fresh hw hg
    · exact h.call k x hx
  · rw [hc, Array.size_push] at hk
    exact h.later k (Nat.le_of_succ_le hk)

theorem Recalls.abort (h : d.Recalls past) (signal : Nat) (reason : Value) :
    (d.abort signal reason).1.Recalls past := by
  simp only [Dispatch.abort]
  cases hf : d.intake.fired.any (·.1 = signal) with
  | true =>
    rw [Intake.abort_of_fired hf]
    exact h.same rfl
  | false =>
    rw [Intake.abort_eq hf]
    refine ⟨fun k c hc => ?_, fun k hk => h.later k (by simpa using hk)⟩
    simp only [Array.getElem?_map] at hc
    obtain ⟨b, hb, rfl⟩ := Option.map_eq_some_iff.mp hc
    refine (h.call k b hb).reslot (Intake.aborted_follows signal reason b) fun o ho => ?_
    unfold Intake.aborted at ho
    split at ho
    · exact Slot.got_of_abort ho
    · exact ho

theorem progress_of_call {k : Nat} {c : Call Stage} (hk : d.intake.calls[k]? = some c) :
    d.intake.progress? k = some c.progress := by simp [Intake.progress?, hk]

/-- What a move does to its own call is what happens to that call. -/
theorem recalls_moved {m : Move} {k : Nat} {c : Call Stage} (hm : m.own? = some k)
    (hk : d.intake.calls[k]? = some c) (ha : d.allows m = true) (hslot : c.slot.Sound)
    (h : c.Recalls (past k)) : (c.moved m).Recalls (past k ++ (m.happens? k).toList) := by
  have hp := progress_of_call hk
  cases m with
  | turn => cases hm
  | answered j r =>
    obtain rfl := Option.some.inj hm
    simp only [allows, hp, Stage.any_isAsking, Option.some.injEq] at ha
    simp only [Move.happens?, if_true, Call.moved, ha, Stage.mapExchange]
    exact h.advanced ha (x := .answered r) (fun hx => by cases hx)
  | chunk j v =>
    obtain rfl := Option.some.inj hm
    simp only [allows, hp, Stage.any_isReading, Option.some.injEq] at ha
    obtain ⟨chunks, ha⟩ := ha
    simp only [Move.happens?, if_true, Call.moved, ha, Stage.mapExchange]
    exact h.advanced ha (x := .chunk v) (fun hx => by cases hx)
  | bodyEnded j r =>
    obtain rfl := Option.some.inj hm
    simp only [allows, hp, Stage.any_isReading, Option.some.injEq] at ha
    obtain ⟨chunks, ha⟩ := ha
    simp only [Move.happens?, if_true, Call.moved, ha, Stage.mapExchange]
    exact h.advanced ha (x := .bodyEnded r) (fun hx => by cases hx)
  | conclude j =>
    obtain rfl := Option.some.inj hm
    simp only [allows, hp, Stage.any_isOver, Option.some.injEq] at ha
    obtain ⟨result, ha⟩ := ha
    simp only [Move.happens?, if_true]
    exact h.concluded hslot ha
  | retire j =>
    simp only [Move.happens?, Option.toList_none, List.append_nil]
    exact h.retired

theorem happens_of_ne {m : Move} {k : Nat} (hm : m.own? ≠ some k) : m.happens? k = none := by
  cases m <;> simp_all [Move.own?, Move.happens?]

/-- Nothing happens to a call that there is not. -/
theorem happens_of_none {m : Move} {k : Nat} (hk : d.intake.calls[k]? = none)
    (ha : d.allows m = true) : m.happens? k = none := by
  have hp : d.intake.progress? k = none := by simp [Intake.progress?, hk]
  cases m with
  | turn | retire => rfl
  | answered j | chunk j | bodyEnded j | conclude j =>
    refine happens_of_ne fun hj => ?_
    obtain rfl := Option.some.inj hj
    simp [allows, hp] at ha

theorem Recalls.move (h : d.Recalls past) (hd : d.Sound) {told : List Settled}
    (hi : d.intake.Sound told) {m : Move} (ha : d.allows m = true) :
    (d.move m).1.Recalls fun k => past k ++ (m.happens? k).toList := by
  refine ⟨fun k x hx => ?_, fun k hk => ?_⟩
  · obtain ⟨c, hc, hbecomes⟩ := hd.became hx
    cases hbecomes with
    | own hm => exact recalls_moved hm hc ha (hi.slots k c hc) (h.call k c hc)
    | begun content hm hw =>
      subst hm
      exact (List.append_nil (past k)).symm ▸ (h.call k c hc).begun hw
    | aside hm =>
      rw [happens_of_ne hm, Option.toList_none, List.append_nil]
      exact h.call k _ hc
  · rw [move_size hd] at hk
    rw [h.later k hk, happens_of_none (Array.getElem?_eq_none hk) ha]
    rfl

end Dispatch

namespace Pipeline.Run

variable {r : Run} {past : Nat → List Own}

theorem Settling.recalls_step (h : r.Settling) (hr : r.dispatch.Recalls past) {ev : Event}
    (hp : ev.plain = true) (ha : r.possible ev = true) :
    (r.step ev).dispatch.Recalls fun k => past k ++ (ev.happens? k none).toList := by
  cases ev with
  | offer | receive | withSlot => simp [Event.plain] at hp
  | send sender request signal =>
    have harr := Dispatch.arrived_send r.dispatch sender request signal
    have hcalls : (r.step (.send sender request signal)).dispatch.intake.calls =
        r.dispatch.intake.calls.push (r.dispatch.intake.sent sender request signal .waiting) := by
      simp only [Run.step, lift_intake]
      exact harr.calls
    simp only [Event.happens?, Option.toList_none, List.append_nil]
    refine hr.push hcalls (by simp) fun o ho => ?_
    unfold Intake.sent at ho
    split at ho
    · simp [Slot.Got, Slot.new] at ho
    · exact Slot.not_got_opened _ _ ho
  | clone sender =>
    simp only [Event.happens?, Option.toList_none, List.append_nil]
    exact hr.same (by simp only [Run.step, lift_intake]; rfl)
  | release sender =>
    simp only [Event.happens?, Option.toList_none, List.append_nil]
    exact hr.same (by simp only [Run.step, lift_intake, Dispatch.release_eq])
  | abort s reason =>
    simp only [Event.happens?, reduceCtorEq, if_false, Option.toList_none, List.append_nil]
    exact (hr.abort s reason).same (by simp only [Run.step, lift_intake])
  | move m =>
    exact (hr.move h.ordered.sound h.intake ha).same (by simp only [Run.step, lift_intake])
  | clientClosed result =>
    simp only [Event.happens?, Option.toList_none, List.append_nil]
    exact hr.same (by rw [dispatch_clientClosed])

theorem Settling.recalls_run (h : r.Settling) (hr : r.dispatch.Recalls past) {events : List Event}
    (hv : r.valid events = true) :
    (r.run events).dispatch.Recalls fun k => past k ++ history k none events := by
  induction events generalizing r past with
  | nil =>
    simp only [history, List.filterMap_nil, List.append_nil]
    exact hr
  | cons ev events ih =>
    obtain ⟨hp, ha, hv⟩ := valid_cons hv
    have hrest := ih (h.step hp) (h.recalls_step hr hp ha) hv
    have hpast : (fun k => past k ++ (ev.happens? k none).toList ++ history k none events) =
        fun k => past k ++ history k none (ev :: events) := by
      funext k
      rw [history_cons, List.append_assoc]
    rwa [hpast] at hrest

end Pipeline.Run

namespace Embedded

/-- In a run of a transport every call agrees with its history. -/
theorem recalls_run (fired : List (Nat × Value)) {events : List Event}
    (hv : (start fired).valid events = true) :
    ((start fired).run events).inner.dispatch.Recalls fun k => history k none events := by
  rw [run_inner]
  have h := (Pipeline.Run.settling_start fired).recalls_run (Dispatch.recalls_new fired)
    (valid_trace hv)
  simp only [history_trace, List.nil_append] at h
  exact h

theorem aborted_notMem_history (k : Nat) (events : List Event) (reason : Value) :
    .aborted reason ∉ history k none events := by
  intro h
  obtain ⟨ev, _, he⟩ := List.mem_filterMap.mp h
  cases ev with
  | caller c => cases c <;> simp [Event.happens?] at he
  | clientClosed r => cases he
  | move m =>
    cases m <;> simp only [Event.happens?, Move.happens?] at he <;> try split at he
    all_goals cases he

/-- A call that listens to no signal is not given up. -/
theorem firstReason_history (k : Nat) (events : List Event) :
    firstReason (history k none events) = none := by
  have h := aborted_notMem_history k events
  generalize history k none events = own at h
  induction own with
  | nil => rfl
  | cons x own ih =>
    have hrest : ∀ reason, .aborted reason ∉ own := fun reason hm =>
      h reason (List.mem_cons_of_mem _ hm)
    cases x with
    | aborted reason => exact (h reason List.mem_cons_self).elim
    | concluded => rfl
    | _ => exact ih hrest

/-- Nobody having given up, the verdict is what the exchange has come to. -/
theorem verdict_history (k : Nat) (events : List Event) :
    verdict false none (history k none events) =
      (Exchange.asking.outcome? (history k none events)).map fun result =>
        Handle.result (.got result.toOption) := by
  simp only [verdict, Bool.false_eq_true, if_false, firstReason_history, Option.none_or,
    learned_outcome]

section

variable {events : List Event} {k : Nat}

/-- An answer is a refusal, or it tells of the call's own signal or of what the exchange has come
to. -/
theorem answer_cases (fired : List (Nat × Value)) (hv : (start fired).valid events = true)
    {a : Attempt Value} (ha : (k, a) ∈ ((start fired).run events).answers) :
    (k ∈ ((start fired).run events).refused ∧ a = .error Fault.notListening.toValue) ∨
      ((start fired).run events).inner.dispatch.intake.GaveUp k a ∨
      verdict false none (history k none events) = some a := by
  have hs := (sound_start fired).run events
  rcases List.mem_append.mp ha with hr | ht
  · obtain ⟨n, hn, he⟩ := List.mem_map.mp hr
    obtain ⟨rfl, rfl⟩ := Prod.mk.inj he
    exact Or.inl ⟨hn, rfl⟩
  · obtain ⟨s, hs', he⟩ := List.mem_map.mp ht
    obtain ⟨rfl, rfl⟩ := Prod.mk.inj he
    obtain ⟨c, hc, hslot⟩ := (hs.settling.intake.told.mem s).mp hs'
    refine Or.inr ?_
    cases hread : s.reading with
    | refused reason =>
      rw [hread] at hslot
      exact Or.inl ⟨c, reason, hc, hs.settling.intake.refused s.call c reason hc hslot, rfl⟩
    | got o =>
      rw [hread] at hslot
      obtain ⟨result, hout, rfl⟩ := ((recalls_run fired hv).call s.call c hc).got o hslot
      exact Or.inr (by rw [verdict_history, hout]; rfl)

/-- An accepted call is answered as soon as its exchange has come to something. -/
theorem answered (fired : List (Nat × Value)) (hv : (start fired).valid events = true)
    (hk : k ∈ ((start fired).run events).inner.accepted.map (·.1)) {b : Attempt Value}
    (hb : verdict false none (history k none events) = some b) :
    (k, b) ∈ ((start fired).run events).answers ∨ ∃ a,
      ((start fired).run events).inner.dispatch.intake.GaveUp k a ∧
        (k, a) ∈ ((start fired).run events).answers := by
  have hs := (sound_start fired).run events
  obtain ⟨x, hx, rfl⟩ := List.mem_map.mp hk
  obtain ⟨c, hc, hread⟩ := hs.read x hx
  have hpast := (recalls_run fired hv).call x.1 c hc
  rw [verdict_history] at hb
  obtain ⟨result, hout, rfl⟩ := Option.map_eq_some_iff.mp hb
  have htold : ∀ reading, c.slot.reader = .settled reading →
      (x.1, Handle.result reading) ∈ ((start fired).run events).answers := by
    intro reading hr
    exact List.mem_append_right _ (List.mem_map.mpr
      ⟨⟨x.1, reading⟩, (hs.settling.intake.told.mem ⟨x.1, reading⟩).mpr ⟨c, hc, hr⟩, rfl⟩)
  cases hr : c.slot.reader with
  | unread => exact (hread hr).elim
  | waiting =>
    have hnone := hpast.waits hr
    rw [hout] at hnone
    cases hnone
  | settled reading =>
    cases reading with
    | refused reason =>
      exact Or.inr ⟨_, ⟨c, reason, hc, hs.settling.intake.refused x.1 c reason hc hr, rfl⟩,
        htold _ hr⟩
    | got o =>
      obtain ⟨r, hout', rfl⟩ := hpast.got o hr
      obtain rfl := Option.some.inj (hout.symm.trans hout')
      exact Or.inl (htold _ hr)

end

end Embedded
end Courier
