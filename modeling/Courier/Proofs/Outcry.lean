import Courier.Proofs.Forwarding

/-!
A bridge whose logger may throw. In most places all is done when the logger is called. But when the
end of the worker is logged, nothing has been closed or dropped yet, and the worker is taken to be
gone from then on; so if the logger throws there, no end of the worker is heeded any more. For the
requests such a run is one under a logger that returns, in which nobody has found the worker gone.
-/

namespace Courier.Bridge

open Effect

/-- Effects up to the first call of the logger that throws, the number of its calls by then, and
what it throws. -/
def cut (react : Log.Reaction) (said : Nat) : List Effect → List Effect × Nat × Option Value
  | [] => ([], said, none)
  | .log entry :: effects =>
    match react said entry with
    | some v => ([.log entry], said + 1, some v)
    | none =>
      let (effects, said, thrown) := cut react (said + 1) effects
      (.log entry :: effects, said, thrown)
  | effect :: effects =>
    let (effects, said, thrown) := cut react said effects
    (effect :: effects, said, thrown)

/-- What nobody catches is heard of elsewhere. -/
def uncaught (thrown : Option Value) : List Effect := (thrown.map .unhandled).toList

/-- A value arrives on the port. -/
def messageUnder (react : Log.Reaction) (said : Nat) (b : Bridge) (v : Value) :
    Bridge × List Effect × Nat :=
  let (b, effects) := b.message v
  let (effects, said, thrown) := cut react said effects
  (b, effects ++ uncaught thrown, said)

/-- Forwarding runs. If the logger throws at the end of the channel, the worker is not told to
close, and that forwarding has failed is logged in turn. -/
def turnUnder (react : Log.Reaction) (said : Nat) (b : Bridge) : Bridge × List Effect × Nat :=
  let (after, effects) := b.turn
  let (effects, said, thrown) := cut react said effects
  match b.forwarding, thrown with
  | .handed none, some v =>
    let (more, said, thrown) :=
      cut react said [.log ⟨.error, "Forwarding to standalone worker failed:", [v]⟩]
    (after, effects ++ more ++ uncaught thrown, said)
  | _, thrown => (after, effects ++ uncaught thrown, said)

namespace Run

/-- The worker is found gone. If the logger throws then, nothing else comes of it, and what is heard
of the worker later is nothing new. -/
def shutdownUnder (react : Log.Reaction) (said : Nat) (r : Run) (reason : String) : Run × Nat :=
  if !r.bridge.alive then (r, said)
  else
    match react said (stopped reason) with
    | some v =>
      (r.lift ({ r.bridge with alive := false }, [.log (stopped reason), .unhandled v]), said + 1)
    | none => (r.shutdown reason, said + 1)

/-- An event under a logger that may throw and has had some calls before. -/
def stepUnder (react : Log.Reaction) (said : Nat) (r : Run) : Event → Run × Nat
  | .forward =>
    let (b, effects, said) := r.bridge.turnUnder react said
    (r.lift (b, effects), said)
  | .message v =>
    let (b, effects, said) := r.bridge.messageUnder react said v
    ({ r with delivered := r.delivered ++ r.answering v }.lift (b, effects), said)
  | .portClosed => r.shutdownUnder react said "port closed"
  | .exited code => r.shutdownUnder react said ("worker exited with code " ++ toString code)
  | ev => (r.step ev, said)

end Run

variable {b : Bridge} {react : Log.Reaction} {said : Nat}

/-! Loggers that return -/

theorem cut_calm (said : Nat) (es : List Effect) :
    (cut Log.calm said es).1 = es ∧ (cut Log.calm said es).2.2 = none := by
  induction es generalizing said with
  | nil => exact ⟨rfl, rfl⟩
  | cons e es ih => cases e <;> simp [cut, Log.calm, ih]

theorem stepUnder_calm (said : Nat) (r : Run) (ev : Event) :
    (r.stepUnder Log.calm said ev).1 = r.step ev := by
  cases ev with
  | forward =>
    obtain ⟨he, ht⟩ := cut_calm said r.bridge.turn.2
    simp only [Run.stepUnder, turnUnder, he, ht, uncaught]
    cases r.bridge.forwarding with
    | handed k => cases k <;> simp [Run.step]
    | waiting | ended => simp [Run.step]
  | message v =>
    obtain ⟨he, ht⟩ := cut_calm said (r.bridge.message v).2
    simp [Run.stepUnder, messageUnder, he, ht, uncaught, Run.step]
  | portClosed | exited =>
    simp only [Run.stepUnder, Run.shutdownUnder, Log.calm, Run.step]
    cases ha : r.bridge.alive with
    | false => simp [Run.shutdown_of_dead ha]
    | true => rfl
  | _ => rfl

/-! What is cut off -/

theorem cut_sublist (react : Log.Reaction) (said : Nat) (es : List Effect) :
    (cut react said es).1.Sublist es := by
  induction es generalizing said with
  | nil => exact .slnil
  | cons e es ih =>
    cases e with
    | log entry =>
      simp only [cut]
      split
      · exact (List.nil_sublist es).cons_cons _
      · exact (ih _).cons_cons _
    | _ => exact (ih said).cons_cons _

/-- Effects that tell callers nothing do not do so when they are cut off. -/
theorem settles_cut_nil (react : Log.Reaction) {es : List Effect} (h : settles es = [])
    (said : Nat) :
    settles (cut react said es).1 = [] := by
  have hsub := (cut_sublist react said es).filterMap settled?
  rw [show es.filterMap settled? = [] from h] at hsub
  exact List.sublist_nil.mp hsub

/-- What callers learn before the logger is called is not cut off. -/
theorem settles_cut {es : List Effect} (h : settles es = []) (settled : List Settled) (said : Nat) :
    settles (cut react said (settledEffects settled ++ es)).1 = settled := by
  induction settled with
  | nil => exact settles_cut_nil react h said
  | cons x settled ih => simpa [settledEffects, cut, settled?] using ih

@[simp] theorem settles_uncaught (thrown : Option Value) : settles (uncaught thrown) = [] := by
  cases thrown <;> rfl

/-- A message settles what it settles before the logger is called. -/
theorem message_effects (b : Bridge) (v : Value) : ∃ settled es,
    (b.message v).2 = settledEffects settled ++ es ∧ settles es = [] := by
  cases ha : b.answer? v with
  | none => exact ⟨[], _, rfl, (message_of_no_answer ha).2.1⟩
  | some x =>
    rw [message_of_answer ha]
    unfold deliver
    split
    · split
      · exact ⟨[], _, rfl, rfl⟩
      · exact ⟨[], _, rfl, rfl⟩
    · refine ⟨_, _, rfl, ?_⟩
      split <;> rfl

theorem settles_turn (b : Bridge) : settles b.turn.2 = [] := by
  unfold turn
  split
  · split
    · unfold forward
      split
      · rfl
      · dsimp only
        split
        · exact settles_takeNext
        · rfl
    · rfl
  · dsimp only
    split <;> rfl
  · rfl
  · rfl

theorem settles_messageUnder (v : Value) :
    settles (b.messageUnder react said v).2.1 = settles (b.message v).2 := by
  obtain ⟨settled, es, he, hs⟩ := b.message_effects v
  simp [messageUnder, he, settles_cut hs, hs]

theorem settles_turnUnder : settles (b.turnUnder react said).2.1 = [] := by
  have hs (said : Nat) := settles_cut_nil react b.settles_turn said
  have hlog (v : Value) (said : Nat) :
      settles (cut react said [.log ⟨.error, "Forwarding to standalone worker failed:", [v]⟩]).1 =
        [] := settles_cut_nil react rfl said
  unfold turnUnder
  dsimp only
  split <;> simp [hs, hlog]

theorem turnUnder_fst : (b.turnUnder react said).1 = b.turn.1 := by
  unfold turnUnder
  dsimp only
  split <;> rfl

/-! Who is taken to be alive -/

theorem deliver_but_alive (b : Bridge) (alive : Bool) (k : Nat) (o : Outcome) :
    ({ b with alive := alive } : Bridge).deliver k o =
      ({ (b.deliver k o).1 with alive := alive }, (b.deliver k o).2) := by
  unfold deliver
  dsimp only
  split
  · split <;> rfl
  · rfl

/-- A message comes to the same, whether the worker is taken to be alive or not. -/
theorem message_but_alive (b : Bridge) (alive : Bool) (v : Value) :
    (({ b with alive := alive } : Bridge).message v).1 = { (b.message v).1 with alive := alive } ∧
      settles (({ b with alive := alive } : Bridge).message v).2 = settles (b.message v).2 := by
  cases ha : b.answer? v with
  | none =>
    have ha' : ({ b with alive := alive } : Bridge).answer? v = none := ha
    obtain ⟨hb, hs, _⟩ := message_of_no_answer ha
    obtain ⟨hb', hs', _⟩ := message_of_no_answer ha'
    rw [hb, hb', hs, hs']
    exact ⟨rfl, rfl⟩
  | some x =>
    have ha' : ({ b with alive := alive } : Bridge).answer? v = some x := ha
    have hd := deliver_but_alive (b.answered x.1.1) alive x.1.2 x.2
    rw [message_of_answer ha, message_of_answer ha']
    exact ⟨congrArg Prod.fst hd, congrArg (settles ·.2) hd⟩

theorem takeNext_but_alive (b : Bridge) (alive : Bool) :
    ({ b with alive := alive } : Bridge).takeNext.1 = { b.takeNext.1 with alive := alive } := by
  rw [takeNext_eq, takeNext_eq b]
  rfl

theorem turn_but_alive (b : Bridge) (alive : Bool) :
    ({ b with alive := alive } : Bridge).turn.1 = { b.turn.1 with alive := alive } := by
  obtain ⟨intake, forwarding, pending, seq, _⟩ := b
  cases forwarding with
  | waiting | ended => rfl
  | handed held =>
    cases held with
    | none => rfl
    | some k =>
      simp only [turn]
      cases intake.calls[k]? with
      | none => rfl
      | some c =>
        simp only [forward]
        split
        · rfl
        · cases message? (seq + 1) _ with
          | error v => rfl
          | ok message =>
            exact takeNext_but_alive
              ⟨intake, .handed (some k), pending ++ [(seq + 1, k)], seq + 1, _⟩ alive

namespace Run

/-- Two runs in which the same has become of all requests. What was posted may differ, and the
worker may be taken to be gone in the first one only. -/
structure Echoes (r q : Run) : Prop where
  run : r = { q with bridge := { q.bridge with alive := r.bridge.alive }, posted := r.posted }
  alive : r.bridge.alive = true → q.bridge.alive = true

variable {r q : Run}

theorem Echoes.refl (r : Run) : r.Echoes r := ⟨rfl, id⟩

/-- What callers do comes to the same. -/
theorem Echoes.called (h : r.Echoes q) (ev : Event) (he : ev.ends = false) (hf : ev ≠ .forward)
    (hm : ∀ v, ev ≠ .message v) : (r.step ev).Echoes (q.step ev) := by
  obtain ⟨hrun, halive⟩ := h
  generalize r.bridge.alive = alive at *
  generalize r.posted = posted at *
  subst hrun
  cases ev with
  | forward => exact (hf rfl).elim
  | message v => exact (hm v rfl).elim
  | portClosed | exited => cases he
  | send sender uri payload signal =>
    rw [step_send, step_send q, send_eq, send_eq q.bridge]
    exact ⟨rfl, halive⟩
  | clone sender => exact ⟨by simp [step, lift], halive⟩
  | release sender =>
    refine ⟨?_, fun ha => ?_⟩
    · simp only [step, lift, settles_release]
      rw [release_eq, release_eq q.bridge]
    · simp only [step, lift] at ha ⊢
      rw [release_eq] at ha ⊢
      exact halive ha
  | abort signal reason => exact ⟨by simp [step, lift, Bridge.abort], halive⟩

/-- Steps of two bridges that differ at most in who is taken to be alive. -/
theorem Echoes.lifted (h : r.Echoes q) {s t : Bridge × List Effect}
    (hb : s.1 = { t.1 with alive := s.1.alive }) (ha : s.1.alive = true → t.1.alive = true)
    (hs : settles s.2 = settles t.2) : (r.lift s).Echoes (q.lift t) := by
  obtain ⟨hrun, _⟩ := h
  generalize r.bridge.alive = alive at hrun
  generalize r.posted = posted at hrun
  subst hrun
  refine ⟨?_, ha⟩
  simp only [lift, hs, ← hb]

theorem Echoes.forward (h : r.Echoes q) (react : Log.Reaction) (said : Nat) :
    (r.stepUnder react said .forward).1.Echoes (q.step .forward) := by
  have hb : r.bridge = { q.bridge with alive := r.bridge.alive } := congrArg Run.bridge h.run
  refine h.lifted
    (s := ((r.bridge.turnUnder react said).1, (r.bridge.turnUnder react said).2.1)) ?_ ?_ ?_
  · show (r.bridge.turnUnder react said).1 = _
    rw [turnUnder_fst, alive_turn]
    conv_lhs => rw [hb, turn_but_alive]
  · show (r.bridge.turnUnder react said).1.alive = true → _
    rw [turnUnder_fst, alive_turn, alive_turn]
    exact h.alive
  · exact settles_turnUnder.trans (settles_turn _).symm

theorem Echoes.recorded (h : r.Echoes q) (offered gone : List Nat) :
    ({ r with delivered := r.delivered ++ offered, dropped := r.dropped ++ gone } : Run).Echoes
      { q with delivered := q.delivered ++ offered, dropped := q.dropped ++ gone } := by
  obtain ⟨hrun, halive⟩ := h
  generalize r.bridge.alive = alive at *
  generalize r.posted = posted at *
  subst hrun
  exact ⟨rfl, halive⟩

theorem Echoes.answer_eq (h : r.Echoes q) (v : Value) :
    r.bridge.answer? v = q.bridge.answer? v := by
  rw [show r.bridge = { q.bridge with alive := r.bridge.alive } from congrArg Run.bridge h.run]
  rfl

theorem Echoes.message (h : r.Echoes q) (react : Log.Reaction) (said : Nat) (v : Value) :
    (r.stepUnder react said (.message v)).1.Echoes (q.step (.message v)) := by
  have hb : r.bridge = { q.bridge with alive := r.bridge.alive } := congrArg Run.bridge h.run
  obtain ⟨hmessage, hsettles⟩ := q.bridge.message_but_alive r.bridge.alive v
  rw [← hb] at hmessage hsettles
  have hanswering : q.answering v = r.answering v := by simp only [answering, h.answer_eq]
  have hrecorded := h.recorded (r.answering v) []
  simp only [List.append_nil] at hrecorded
  simp only [Run.step, hanswering]
  let step := r.bridge.messageUnder react said v
  refine hrecorded.lifted (s := (step.1, step.2.1)) ?_ ?_ ?_
  · show (r.bridge.message v).1 =
      { (q.bridge.message v).1 with alive := (r.bridge.message v).1.alive }
    rw [alive_message]
    exact hmessage
  · show (r.bridge.message v).1.alive = true → _
    rw [alive_message, alive_message]
    exact h.alive
  · exact (settles_messageUnder v).trans hsettles

/-- Where the logger throws at the end of the worker, the other run knows nothing of that end. -/
theorem Echoes.ends (h : r.Echoes q) (react : Log.Reaction) (said : Nat) (reason : String) :
    (r.shutdownUnder react said reason).1.Echoes (q.shutdown reason) ∨
      (r.shutdownUnder react said reason).1.Echoes q := by
  cases ha : r.bridge.alive with
  | false =>
    simp only [shutdownUnder, ha, Bool.not_false, if_true]
    exact Or.inr h
  | true =>
    have hsame : r.bridge = q.bridge := by
      have hb : r.bridge = { q.bridge with alive := r.bridge.alive } := congrArg Run.bridge h.run
      rw [ha, ← h.alive ha] at hb
      exact hb
    simp only [shutdownUnder, ha, Bool.not_true, Bool.false_eq_true, if_false]
    cases react said (stopped reason) with
    | some v =>
      have hidle : q.lift (q.bridge, []) = q := by simp [lift]
      have hq := h.lifted (s := ({ r.bridge with alive := false },
        [.log (stopped reason), .unhandled v])) (t := (q.bridge, [])) (by rw [hsame])
        (fun hf => by cases hf) rfl
      rw [hidle] at hq
      exact Or.inr hq
    | none =>
      have hrecorded := h.recorded [] r.bridge.owed
      simp only [List.append_nil] at hrecorded
      simp only [shutdown, ← hsame, ha, if_true]
      exact Or.inl (hrecorded.lifted rfl id rfl)

/-- What an event comes to, if it is not the end of a worker that nobody notices. -/
theorem Echoes.step (h : r.Echoes q) (react : Log.Reaction) (said : Nat) (ev : Event) :
    (r.stepUnder react said ev).1.Echoes (q.step ev) ∨
      ev.ends = true ∧ (r.stepUnder react said ev).1.Echoes q := by
  cases ev with
  | forward => exact Or.inl (h.forward react said)
  | message v => exact Or.inl (h.message react said v)
  | portClosed => exact (h.ends react said _).imp_right fun hq => ⟨rfl, hq⟩
  | exited code => exact (h.ends react said _).imp_right fun hq => ⟨rfl, hq⟩
  | send sender uri payload signal =>
    exact Or.inl (h.called (.send sender uri payload signal) rfl (by simp) (by simp))
  | clone sender => exact Or.inl (h.called (.clone sender) rfl (by simp) (by simp))
  | release sender => exact Or.inl (h.called (.release sender) rfl (by simp) (by simp))
  | abort signal reason => exact Or.inl (h.called (.abort signal reason) rfl (by simp) (by simp))

end Run
end Courier.Bridge
