import Courier.Exchange
import Mathlib.Tactic

/-!
What an exchange can come to. It takes an answer only while it asks, and it ends with a body, or
with a failure that its client or its status has caused.
-/

namespace Courier

/-- What yields a result has yielded one at every step. -/
theorem Attempt.bind_eq_ok {α β : Type} {x : Attempt α} {f : α → Attempt β} {b : β}
    (h : x >>= f = .ok b) : ∃ a, x = .ok a ∧ f a = .ok b := by
  cases x with
  | error v => cases h
  | ok a => exact ⟨a, rfl, h⟩

/-- Room for short bodies. -/
def Memory.small : Memory := ⟨1024, by decide⟩

/-- What is known of a client: of the statuses that its responses say, and of the values that its
requests and its body streams fail with. -/
structure Manner where
  status : Value → Prop
  cause : Value → Prop

namespace Manner

/-- Nothing is known. -/
def any : Manner := ⟨fun _ => True, fun _ => True⟩

/-- A response says no other status, now or later. -/
def Says (m : Manner) (response : Response) : Prop :=
  m.status response.status ∧ ∀ status, response.later = .ok status → m.status status

/-- An answer is of that manner. -/
def Answers (m : Manner) : Attempt (Option Response) → Prop
  | .error v => m.cause v
  | .ok (some response) => m.Says response
  | .ok none => True

/-- A body ends in that manner. -/
def Ends (m : Manner) : Attempt Memory → Prop
  | .error v => m.cause v
  | .ok _ => True

theorem any_answers (r : Attempt (Option Response)) : any.Answers r := by
  rcases r with v | _ | response
  · trivial
  · trivial
  · exact ⟨trivial, fun _ _ => trivial⟩

theorem any_ends (r : Attempt Memory) : any.Ends r := by
  cases r <;> trivial

end Manner

/-- Whether a failure is one of the two that an exchange with a client of some manner reports. -/
def Fault.OfExchange (m : Manner) (f : Fault) : Prop :=
  (∃ status, m.status status ∧ Fault.http status = .ok f) ∨
    ∃ cause, m.cause cause ∧ Fault.network cause = .ok f

theorem Fault.http_eq {status : Value} {f : Fault} (h : Fault.http status = .ok f) :
    ∃ text, status.innerText = .ok text ∧
      f = ofKind .http ("Http error. Status code " ++ text) status .undefined := by
  obtain ⟨text, ht, hf⟩ := Attempt.bind_eq_ok h
  exact ⟨text, ht, (Except.ok.inj hf).symm⟩

theorem Fault.network_eq {cause : Value} {f : Fault} (h : Fault.network cause = .ok f) :
    ∃ text, cause.wording = .ok text ∧
      f = ofKind .network ("Network error: " ++ text) .undefined cause := by
  obtain ⟨text, ht, hf⟩ := Attempt.bind_eq_ok h
  exact ⟨text, ht, (Except.ok.inj hf).symm⟩

theorem Fault.OfExchange.kind_eq {m : Manner} {f : Fault} (h : f.OfExchange m) :
    f.kind = .string FaultKind.http.name ∨ f.kind = .string FaultKind.network.name := by
  obtain ⟨status, _, hf⟩ | ⟨cause, _, hf⟩ := h
  · obtain ⟨text, _, rfl⟩ := http_eq hf
    exact Or.inl rfl
  · obtain ⟨text, _, rfl⟩ := network_eq hf
    exact Or.inr rfl

/-- An outcome that an exchange can end with. -/
def Outcome.OfExchange (m : Manner) : Outcome → Prop
  | .success _ => True
  | .failure fault => fault.OfExchange m
  | .foreign _ => False

/-- A refusal is the failure of the status that the response has by then. -/
theorem Response.refusal_ok {response : Response} {o : Outcome}
    (h : response.refusal = .ok o) : ∃ status f, response.later = .ok status ∧
      Fault.http status = .ok f ∧ o = .failure f := by
  obtain ⟨status, hl, h⟩ := Attempt.bind_eq_ok h
  obtain ⟨f, hf, h⟩ := Attempt.bind_eq_ok h
  exact ⟨status, f, hl, hf, (Except.ok.inj h).symm⟩

namespace Exchange

variable {m : Manner} {e : Exchange}

/-- Only an exchange that asks takes the answer. -/
def answer (r : Attempt (Option Response)) : Exchange → Exchange
  | .asking => (answered r).1
  | e => e

/-- The result of an exchange that is over. -/
def result? : Exchange → Option (Attempt Outcome)
  | .over result => some result
  | _ => none

/-- An exchange that is over has come to what an exchange can end with. -/
def Sound (m : Manner) (e : Exchange) : Prop :=
  ∀ o, e.result? = some (.ok o) → o.OfExchange m

theorem sound_asking : asking.Sound m := by simp [Sound, result?]

theorem sound_failed {v : Value} (h : m.cause v) : (failed v).Sound m := by
  intro o ho
  simp only [failed, result?, Option.some.injEq] at ho
  cases hf : Fault.network v with
  | error w => simp [hf, Except.map] at ho
  | ok f =>
    simp only [hf, Except.map, Except.ok.injEq] at ho
    subst ho
    exact Or.inr ⟨v, h, hf⟩

theorem sound_refusal {response : Response} (h : m.Says response) :
    (Exchange.over response.refusal).Sound m := by
  intro o ho
  simp only [result?, Option.some.injEq] at ho
  obtain ⟨status, f, hl, hf, rfl⟩ := Response.refusal_ok ho
  exact Or.inl ⟨status, h.2 status hl, hf⟩

theorem sound_error (v : Value) : (Exchange.over (.error v)).Sound m := by
  simp [Sound, result?]

theorem sound_answered {r : Attempt (Option Response)} (h : m.Answers r) :
    (answered r).1.Sound m := by
  unfold answered
  split
  · exact sound_failed h
  · exact sound_error _
  · split
    · simp [Sound, result?]
    · split
      · exact sound_refusal h
      · exact sound_refusal h
      · exact sound_error _

theorem sound_answer (h : e.Sound m) {r : Attempt (Option Response)} (hr : m.Answers r) :
    (e.answer r).Sound m := by
  cases e with
  | asking => exact sound_answered hr
  | _ => exact h

theorem sound_chunk (h : e.Sound m) (v : Value) : (e.chunk v).Sound m := by
  cases e with
  | reading chunks => simp [Sound, chunk, result?]
  | _ => exact h

theorem sound_bodyEnded (h : e.Sound m) {r : Attempt Memory} (hr : m.Ends r) :
    (e.bodyEnded r).Sound m := by
  cases e with
  | reading chunks =>
    cases r with
    | error v => exact sound_failed hr
    | ok memory =>
      intro o ho
      simp only [bodyEnded, result?, Option.some.injEq] at ho
      cases hj : Value.joined memory chunks.reverse with
      | error w => simp [hj, Except.map] at ho
      | ok body =>
        simp only [hj, Except.map, Except.ok.injEq] at ho
        subst ho
        trivial
  | _ => exact h

end Exchange
end Courier
