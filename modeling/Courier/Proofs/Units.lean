import Courier.Proofs.Settlement

/-!
Units at their ends. With a logger whose calls return no unit fails, each leaves its slot settled,
and the loop does not end before it has stopped counting the last of them.
-/

namespace Courier

/-! Units that have ended -/

/-- A unit that has ended did not fail, and its slot is not open. -/
def Call.Tidy (c : Call Stage) : Prop :=
  ∀ failure, c.progress = .ended failure ∨ c.progress = .retired failure →
    failure = none ∧ c.slot.isOpen = false

namespace Slot

variable {ρ : Type}

theorem isOpen_notify (s : Slot ρ) (r : Reading ρ) : (s.notify r).isOpen = s.isOpen := by
  unfold notify
  split <;> rfl

/-- The end of a unit closes the slot of its call. -/
theorem isOpen_concluded (s : Slot ρ) (r : Attempt ρ) : (s.concluded r).isOpen = false := by
  obtain ⟨state, reader⟩ := s
  cases r <;> cases state <;> simp [concluded, send, drop, isOpen_notify] <;> rfl

theorem isOpen_of_abort {s : Slot ρ} {reason : Value} (h : (s.abort reason).isOpen = true) :
    s.isOpen = true := by
  obtain ⟨state, reader⟩ := s
  cases state <;> cases reader <;> simp_all [abort, abandon, isOpen]

theorem isOpen_of_receive {s : Slot ρ} {fired : Option Value}
    (h : (s.receive fired).1.isOpen = true) : s.isOpen = true := by
  obtain ⟨state, reader⟩ := s
  cases state <;> cases reader <;> cases fired <;> simp_all [receive, abandon, isOpen]

end Slot

theorem Call.tidy_of_waiting {c : Call Stage} (h : c.progress = .waiting) : c.Tidy := by
  intro failure hf
  rcases hf with hf | hf <;> simp [h] at hf

theorem Call.Tidy.moved {c : Call Stage} (h : c.Tidy) (m : Move) : (c.moved m).Tidy := by
  cases m with
  | turn => exact h
  | answered _ r | chunk _ v | bodyEnded _ r =>
    intro failure hf
    cases hp : c.progress with
    | waiting | running => simp [Call.moved, hp, Stage.mapExchange] at hf
    | ended | retired =>
      refine h failure ?_
      simpa [Call.moved, hp, Stage.mapExchange] using hf
  | conclude =>
    unfold Call.moved Call.concluded
    dsimp only
    split
    · intro failure hf
      refine ⟨?_, Slot.isOpen_concluded _ _⟩
      rcases hf with hf | hf <;> cases hf
      rfl
    · exact h
  | retire =>
    intro failure hf
    cases hp : c.progress with
    | waiting | running => simp [Call.moved, hp, Stage.retire] at hf
    | ended | retired =>
      refine h failure ?_
      simpa [Call.moved, hp, Stage.retire] using hf

/-- A unit that nobody counts is not counted later, unless it begins. -/
theorem moved_isInFlight (m : Move) {c : Call Stage}
    (h : Dispatch.isInFlight c.progress = false) :
    Dispatch.isInFlight (c.moved m).progress = false := by
  cases hp : c.progress with
  | waiting => rw [Dispatch.moved_waiting m hp]; rfl
  | running | ended => simp [hp, Dispatch.isInFlight] at h
  | retired failure =>
    cases m <;> simp [Call.moved, Call.concluded, hp, Stage.mapExchange, Stage.retire,
      Dispatch.isInFlight]

theorem moved_waiting_iff (m : Move) (c : Call Stage) :
    (c.moved m).progress = .waiting ↔ c.progress = .waiting := by
  refine ⟨fun h => ?_, Dispatch.moved_waiting m⟩
  cases hp : c.progress with
  | waiting => rfl
  | running e =>
    cases e <;> cases m <;>
      simp [Call.moved, Call.concluded, hp, Stage.mapExchange, Stage.retire] at h
  | ended | retired =>
    cases m <;> simp [Call.moved, Call.concluded, hp, Stage.mapExchange, Stage.retire] at h

namespace Dispatch

variable {d : Dispatch} {k : Nat}

/-! Steps of the dispatch -/

theorem inFlight_eq_zero : d.inFlight = 0 ↔
    ∀ (k : Nat) (c : Call Stage), d.intake.calls[k]? = some c → isInFlight c.progress = false := by
  unfold inFlight
  rw [Array.size_eq_zero_iff, Array.filter_eq_empty_iff]
  constructor
  · intro h k c hc
    simpa using h c (Array.mem_of_getElem? hc)
  · intro h c hc
    obtain ⟨k, hk⟩ := Array.getElem?_of_mem hc
    simp [h k c hk]

/-- No unit has failed, and the loop has not ended before the last one. -/
structure Tidy (d : Dispatch) : Prop where
  units : ∀ (k : Nat) (c : Call Stage), d.intake.calls[k]? = some c → c.Tidy
  draining : ∀ v, d.loop ≠ .draining (some v)
  ended : ∀ r, d.loop = .ended r → r = .ok () ∧ d.inFlight = 0

/-- A step that leaves the units alone: calls come in that have not begun, and slots change without
being opened again. -/
structure Aside (d e : Dispatch) : Prop where
  loop : ∃ handoff, e.loop = d.loop.take handoff
  calls : ∀ (k : Nat) (c : Call Stage), e.intake.calls[k]? = some c →
    (∃ b : Call Stage, d.intake.calls[k]? = some b ∧ c.progress = b.progress ∧
      (c.slot.isOpen = true → b.slot.isOpen = true)) ∨
    (c.progress = .waiting ∧ d.intake.calls.size ≤ k)

theorem Tidy.aside {e : Dispatch} (h : d.Tidy) (ha : Aside d e) : e.Tidy := by
  obtain ⟨handoff, hl⟩ := ha.loop
  refine ⟨fun k c hc => ?_, fun v hv => ?_, fun r hr => ?_⟩
  · rcases ha.calls k c hc with ⟨b, hb, hp, hs⟩ | ⟨hw, _⟩
    · intro failure hf
      obtain ⟨hn, ho⟩ := h.units k b hb failure (hp ▸ hf)
      refine ⟨hn, Bool.eq_false_iff.mpr fun hopen => ?_⟩
      rw [hs hopen] at ho
      cases ho
    · exact Call.tidy_of_waiting hw
  · rw [hl] at hv
    cases hd : d.loop <;> cases handoff <;> simp [hd, Loop.take] at hv
    all_goals exact h.draining v (hd.trans (congrArg _ hv))
  · have hd : d.loop = .ended r := by
      rw [hl] at hr
      cases hd : d.loop <;> cases handoff <;> simp_all [Loop.take]
    obtain ⟨hok, hf⟩ := h.ended r hd
    refine ⟨hok, inFlight_eq_zero.mpr fun k c hc => ?_⟩
    rcases ha.calls k c hc with ⟨b, hb, hp, _⟩ | ⟨hw, _⟩
    · rw [hp]
      exact inFlight_eq_zero.mp hf k b hb
    · rw [hw]
      rfl

theorem aside_arrived {e : Dispatch} {sender : Nat} {c : Call Stage} (ha : Arrived d e sender c)
    (hw : c.progress = .waiting) : Aside d e := by
  refine ⟨⟨_, ha.loop⟩, fun k x hx => ?_⟩
  rw [ha.calls, Array.getElem?_push] at hx
  split at hx
  · rename_i he
    obtain rfl := Option.some.inj hx
    exact Or.inr ⟨hw, Nat.le_of_eq he.symm⟩
  · exact Or.inl ⟨x, hx, rfl, id⟩

/-- Calls whose slots change, none of them back to an open one. -/
theorem aside_reslot {e : Dispatch} {f : Nat → Call Stage → Call Stage} (hl : e.loop = d.loop)
    (hc : e.intake.calls = d.intake.calls.mapIdx f) (hp : ∀ n c, (f n c).progress = c.progress)
    (hs : ∀ n c, d.intake.calls[n]? = some c → (f n c).slot.isOpen = true → c.slot.isOpen = true) :
    Aside d e := by
  refine ⟨⟨none, by rw [hl]; cases d.loop <;> rfl⟩, fun k x hx => Or.inl ?_⟩
  rw [hc, Array.getElem?_mapIdx] at hx
  obtain ⟨c, hk, rfl⟩ := Option.map_eq_some_iff.mp hx
  exact ⟨c, hk, hp k c, hs k c hk⟩

theorem Aside.refl (d : Dispatch) : Aside d d :=
  aside_reslot rfl (mapIdx_same _).symm (fun _ _ => rfl) fun _ _ _ => id

theorem aside_set {e : Dispatch} {b c : Call Stage} (hk : d.intake.calls[k]? = some c)
    (hl : e.loop = d.loop) (hc : e.intake.calls = d.intake.calls.setIfInBounds k b)
    (hp : b.progress = c.progress) (hs : b.slot.isOpen = true → c.slot.isOpen = true) :
    Aside d e := by
  refine ⟨⟨none, by rw [hl]; cases d.loop <;> rfl⟩, fun n x hx => Or.inl ?_⟩
  rw [hc, Array.getElem?_setIfInBounds] at hx
  by_cases hn : k = n
  · subst hn
    obtain ⟨_, hx⟩ : k < d.intake.calls.size ∧ b = x := by simpa using hx
    subst hx
    exact ⟨c, hk, hp, hs⟩
  · rw [if_neg hn] at hx
    exact ⟨x, hx, rfl, id⟩

theorem aside_receive (d : Dispatch) (k : Nat) (signal : Option Nat) :
    Aside d (d.receive k signal).1 := by
  unfold receive Intake.receive
  cases hk : d.intake.calls[k]? with
  | none => exact .refl d
  | some c => exact aside_set hk rfl rfl rfl Slot.isOpen_of_receive

theorem aside_withSlot {slot : Slot Outcome} (h : ∀ c : Call Stage, d.intake.calls[k]? = some c →
    slot.isOpen = true → c.slot.isOpen = true) : Aside d (d.withSlot k slot).1 := by
  unfold withSlot Intake.withSlot
  cases hk : d.intake.calls[k]? with
  | none => exact .refl d
  | some c => exact aside_set hk rfl rfl rfl (h c hk)

theorem aside_abort (d : Dispatch) (signal : Nat) (reason : Value) :
    Aside d (d.abort signal reason).1 := by
  unfold abort
  cases hf : d.intake.fired.any (·.1 = signal) with
  | true =>
    rw [Intake.abort_of_fired hf]
    exact .refl d
  | false =>
    rw [Intake.abort_eq hf]
    refine aside_reslot rfl (map_eq_mapIdx _ _) (fun _ _ => rfl) fun n c _ ho => ?_
    simp only [Call.reslot, Intake.aborted] at ho
    split at ho
    · exact Slot.isOpen_of_abort ho
    · exact ho

theorem aside_clone (d : Dispatch) (sender : Nat) : Aside d (d.clone sender) :=
  aside_reslot rfl (mapIdx_same _).symm (fun _ _ => rfl) fun _ _ _ => id

theorem aside_release (d : Dispatch) (sender : Nat) : Aside d (d.release sender).1 := by
  rw [release_eq]
  exact ⟨⟨_, rfl⟩, fun _ c hc => Or.inl ⟨c, hc, rfl, id⟩⟩

theorem loop_progress (step : Exchange → Exchange × List Effect) :
    (d.progress k step).1.loop = d.loop := by
  obtain ⟨_, _, h⟩ | ⟨_, h⟩ := d.progress_cases k step <;> rw [h]

theorem loop_conclude (h : d.Sound) : (d.conclude Log.calm k).1.loop = d.loop := by
  obtain ⟨_, hd⟩ | ⟨_, _, _, _, _, _, hd, _⟩ | ⟨_, _, _, _, _, _, hd, _⟩ :=
    conclude_cases (h.proper k) <;> rw [hd]

/-- As no unit has failed, the end of one does not break the loop off. -/
theorem loop_retire (ht : d.Tidy) : (d.retire k).1.loop = d.loop := by
  obtain ⟨r, hr, h⟩ := d.retirement k
  rw [hr]
  cases h with
  | idle | counted => rfl
  | fails h =>
    obtain ⟨c, hk, hp⟩ := Option.map_eq_some_iff.mp h
    cases (ht.units k c hk _ (Or.inl hp)).1

/-- Only turns change the loop. -/
theorem loop_move {m : Move} (h : d.Sound) (ht : d.Tidy) (hm : m.own? = some k) :
    (d.move m).1.loop = d.loop := by
  cases m with
  | turn => cases hm
  | answered | chunk | bodyEnded => exact loop_progress _
  | conclude => exact loop_conclude h
  | retire => exact loop_retire ht

theorem loop_turn_ended {r : Attempt Unit} (hl : d.loop = .ended r) : d.turn Log.calm = (d, []) := by
  simp [turn, hl]

theorem Tidy.asking (ht : ∀ (k : Nat) (c : Call Stage), d.intake.calls[k]? = some c → c.Tidy) :
    d.asking.Tidy := by
  refine ⟨ht, fun v hv => ?_, fun r hr => ?_⟩ <;>
    cases hn : d.intake.channel.next.2 <;> simp_all [Dispatch.asking, Loop.ofNext]

/-- The loop ends when it waits for no unit any more, and not before. -/
theorem Tidy.turn (h : d.Tidy) (hs : d.Sound) : (d.turn Log.calm).1.Tidy := by
  obtain ⟨r, hr, ht⟩ := hs.turned
  rw [hr]
  cases ht with
  | asks => exact .asking h.units
  | rests => exact h
  | begins =>
    refine .asking fun k x hx => ?_
    simp only [began] at hx
    rw [Array.getElem?_modify] at hx
    split at hx
    · obtain ⟨b, _, rfl⟩ := Option.map_eq_some_iff.mp hx
      intro failure hf
      rcases hf with hf | hf <;> cases hf
    · exact h.units k x hx
  | drains => exact ⟨h.units, fun v hv => (by cases hv), fun r hr => (by cases hr)⟩
  | ends _ hf =>
    exact ⟨h.units, fun v hv => (by cases hv), fun r hr => ⟨(Loop.ended.inj hr).symm, hf⟩⟩
  | fails hl => exact (h.draining _ hl).elim

theorem Tidy.move (h : d.Tidy) (hs : d.Sound) (m : Move) : (d.move m).1.Tidy := by
  cases hm : m.own? with
  | some k =>
    have hl := loop_move hs h hm
    have hc := (touched_move hs hm).calls
    refine ⟨fun n c hn => ?_, fun v hv => h.draining v (hl ▸ hv), fun r hr => ?_⟩
    · rw [hc, Array.getElem?_modify] at hn
      split at hn
      · obtain ⟨b, hb, rfl⟩ := Option.map_eq_some_iff.mp hn
        exact (h.units n b hb).moved m
      · exact h.units n c hn
    · obtain ⟨hok, hf⟩ := h.ended r (hl ▸ hr)
      refine ⟨hok, inFlight_eq_zero.mpr fun n c hn => ?_⟩
      rw [hc, Array.getElem?_modify] at hn
      split at hn
      · obtain ⟨b, hb, rfl⟩ := Option.map_eq_some_iff.mp hn
        exact moved_isInFlight m (inFlight_eq_zero.mp hf n b hb)
      · exact inFlight_eq_zero.mp hf n c hn
  | none =>
    obtain rfl := Move.eq_turn hm
    exact h.turn hs

end Dispatch
end Courier
