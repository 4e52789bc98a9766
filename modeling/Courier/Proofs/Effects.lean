import Courier.Proofs.Settlement

/-!
What the moves of a dispatch have others do. It is told here once for every move, `move_causes`;
whoever counts effects of one kind goes through the few ways in which a move has them.
-/

namespace Courier

namespace Effect

variable {e : Effect} {es : List Effect}

/-- Whether an effect only lets a caller or the logger know something. -/
def isTold : Effect → Bool
  | .settle _ | .log _ => true
  | _ => false

/-- What effects ask others to do. -/
def acts (effects : List Effect) : List Effect := effects.filter (!·.isTold)

@[simp] theorem acts_append (a b : List Effect) : acts (a ++ b) = acts a ++ acts b :=
  List.filter_append a b

@[simp] theorem acts_settledEffects (s : List Settled) :
    acts (Dispatch.settledEffects s) = [] := by
  simp [acts, Dispatch.settledEffects, isTold]

/-- A caller learns something, or the logger does of something that is no error. -/
inductive Mild : Effect → Prop where
  | settle (s : Settled) : Mild (.settle s)
  | log {entry : Log.Entry} (h : entry.level ≠ .error) : Mild (.log entry)

theorem acts_of_mild (h : ∀ e ∈ es, e.Mild) : acts es = [] :=
  List.filter_eq_nil_iff.mpr fun e he => by cases h e he <;> simp [isTold]

end Effect

open Effect

/-- The call whose client gets on with a move. -/
def Move.client? : Move → Option Nat
  | .answered k _ | .chunk k _ | .bodyEnded k _ => some k
  | .turn | .conclude _ | .retire _ => none

theorem Move.own_of_client {m : Move} {k : Nat} (h : m.client? = some k) : m.own? = some k := by
  cases m with
  | answered | chunk | bodyEnded => exact h
  | turn | conclude | retire => cases h

namespace Dispatch

variable {d : Dispatch} {k : Nat} {e : Effect} {m : Move}

/-- What a move may have others do. -/
inductive Causes (d : Dispatch) : Move → Effect → Prop where
  | told (message : String) (args : List Value) : Causes d .turn (.log ⟨.debug, message, args⟩)
  | wake : Causes d .turn .wake
  | ask (k : Nat) (request : Value) : Causes d .turn (.ask k request)
  | loopEnded : Causes d .turn (.loopEnded (.ok ()))
  /-- A unit has failed while the loop waited for it. -/
  | loopFailed {v : Value} (h : d.loop = .draining (some v)) :
      Causes d .turn (.loopEnded (.error v))
  | discard (k : Nat) (r : Attempt (Option Response)) : Causes d (.answered k r) (.discard k)
  | pull {m : Move} {k : Nat} (h : m.client? = some k) : Causes d m (.pull k)
  | conclude {m : Move} {k : Nat} (h : m.client? = some k) : Causes d m (.conclude k)
  | settle (k : Nat) (s : Settled) : Causes d (.conclude k) (.settle s)
  | log (k : Nat) (entry : Log.Entry) : Causes d (.conclude k) (.log entry)
  | retire (k : Nat) : Causes d (.conclude k) (.retire k)
  | drained (k : Nat) : Causes d (.retire k) .drained
  | unhandled {k : Nat} {v : Value} (h : d.intake.progress? k = some (.ended (some v))) :
      Causes d (.retire k) (.unhandled v)

theorem causes_turn (h : d.Sound) (he : e ∈ (d.turn Log.calm).2) : d.Causes .turn e := by
  have hnext {c : Dispatch} (hc : e ∈ c.takeNext.2) : d.Causes .turn e := by
    obtain hw | hw := c.takeNext_effects <;> rw [hw] at hc
    · cases hc
    · obtain rfl := List.mem_singleton.mp hc
      exact .wake
  obtain ⟨r, hr, ht⟩ := h.turned
  rw [hr] at he
  cases ht with
  | asks => exact hnext he
  | rests => cases he
  | begins =>
    simp only [List.cons_append, List.nil_append, List.mem_cons] at he
    obtain rfl | rfl | he := he
    · exact .told _ _
    · exact .ask _ _
    · exact hnext he
  | drains =>
    obtain rfl | he := List.mem_cons.mp he
    · exact .told _ _
    · obtain ⟨_, rfl⟩ : _ ∧ e = .wake := by simpa using he
      exact .wake
  | ends =>
    obtain rfl := List.mem_singleton.mp he
    exact .loopEnded
  | fails hl =>
    obtain rfl := List.mem_singleton.mp he
    exact .loopFailed hl

theorem mem_follow {x : Exchange} (he : e ∈ follow k x) : e = .pull k ∨ e = .conclude k := by
  cases x <;> simp_all [follow]

theorem causes_progress {step : Exchange → Exchange × List Effect} (hm : m.client? = some k)
    (hs : ∀ x, ∀ e ∈ (step x).2, d.Causes m e) (he : e ∈ (d.progress k step).2) :
    d.Causes m e := by
  obtain ⟨x, _, hd⟩ | ⟨_, hd⟩ := d.progress_cases k step <;> rw [hd] at he
  · obtain he | he := List.mem_append.mp he
    · exact hs x e he
    · obtain rfl | rfl := mem_follow he
      · exact .pull hm
      · exact .conclude hm
  · cases he

theorem mild_deliver (o : Outcome) : ∀ e ∈ (d.deliver Log.calm k o).2.1, e.Mild := by
  have hsettled (s : List Settled) : ∀ e ∈ settledEffects s, e.Mild := by
    intro e he
    obtain ⟨x, _, rfl⟩ := List.mem_map.mp he
    exact .settle x
  have hwarn : ∀ e ∈ (d.undelivered Log.calm).2.1, e.Mild := by
    intro e he
    obtain rfl := List.mem_singleton.mp he
    exact .log (by simp)
  intro e he
  unfold deliver at he
  split at he
  · split at he
    · cases he
    · exact hwarn e he
  · dsimp only at he
    split at he
    · exact hsettled _ e he
    · exact (List.mem_append.mp he).elim (hsettled _ e) (hwarn e)

theorem mild_complete (p : Parcel) (r : Attempt Outcome) :
    ∀ e ∈ (d.complete Log.calm k p r).2.1, e.Mild := by
  intro e he
  unfold complete at he
  split at he
  · cases he
  · cases he
  · simp only [say, Log.calm, List.cons_append, List.nil_append] at he
    obtain rfl | he := List.mem_cons.mp he
    · exact .log (by simp)
    · exact mild_deliver _ e he

/-- A unit that ends asks for nothing but to be counted no longer. -/
theorem acts_conclude : acts (d.conclude Log.calm k).2 =
    if (d.intake.progress? k).any Stage.isOver then [.retire k] else [] := by
  cases ho : (d.intake.progress? k).any Stage.isOver with
  | false =>
    have hidle := conclude_idle (d := d) (k := k) Log.calm fun c result hk hr => by
      simp [Intake.progress?, hk, hr, Stage.isOver] at ho
    rw [hidle]
    rfl
  | true =>
    obtain ⟨result, hp⟩ := Stage.any_isOver.mp ho
    obtain ⟨c, hk, hr⟩ := Option.map_eq_some_iff.mp hp
    have hc := acts_of_mild (mild_complete (d := d) (k := k) c.parcel result)
    simp only [conclude, hk, hr, acts_append, acts_settledEffects, hc]
    split <;> rfl

theorem causes_conclude (he : e ∈ (d.conclude Log.calm k).2) : d.Causes (.conclude k) e := by
  cases ht : e.isTold with
  | true =>
    cases e with
    | settle s => exact .settle k s
    | log entry => exact .log k entry
    | _ => cases ht
  | false =>
    have hacts : e ∈ acts (d.conclude Log.calm k).2 := List.mem_filter.mpr ⟨he, by rw [ht]; rfl⟩
    rw [acts_conclude] at hacts
    split at hacts
    · obtain rfl := List.mem_singleton.mp hacts
      exact .retire k
    · cases hacts

theorem causes_retire (he : e ∈ (d.retire k).2) : d.Causes (.retire k) e := by
  obtain ⟨r, hr, h⟩ := d.retirement k
  rw [hr] at he
  cases h with
  | idle => cases he
  | counted h hes =>
    obtain rfl | rfl | ⟨v, rfl, rfl⟩ := hes
    · cases he
    · obtain rfl := List.mem_singleton.mp he
      exact .drained k
    · obtain rfl := List.mem_singleton.mp he
      exact .unhandled h
  | fails =>
    obtain rfl := List.mem_singleton.mp he
    exact .drained k

theorem causes_own (hm : m.own? = some k) (he : e ∈ (d.move m).2) : d.Causes m e := by
  cases m with
  | turn => cases hm
  | answered n r =>
    refine causes_progress rfl (fun x y hy => ?_) he
    cases x with
    | asking =>
      obtain ⟨_, rfl⟩ : _ ∧ y = .discard n := by simpa using hy
      exact .discard n r
    | _ => cases hy
  | chunk => exact causes_progress rfl (fun _ _ hy => by cases hy) he
  | bodyEnded => exact causes_progress rfl (fun _ _ hy => by cases hy) he
  | conclude => exact causes_conclude he
  | retire => exact causes_retire he

theorem move_causes (h : d.Sound) (he : e ∈ (d.move m).2) : d.Causes m e := by
  cases hm : m.own? with
  | some k => exact causes_own hm he
  | none =>
    obtain rfl := Move.eq_turn hm
    exact causes_turn h he

end Dispatch
end Courier
