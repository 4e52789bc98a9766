import Courier.Proofs.Closing
import Courier.Proofs.Course

/-!
What an exchange asks of its client, and what it comes to, for everything that the client may do.
The request is passed on once. A body is read to its end if the status is that of success, and
discarded, at most once, if not.
-/

namespace Courier

open Effect

/-! Demands -/

namespace Effect

/-- Whether an effect asks something of the client of a call. -/
def isDemand (k : Nat) : Effect → Bool
  | .ask n _ | .pull n | .discard n => n = k
  | _ => false

/-- What effects ask of the client of a call. -/
def demands (k : Nat) (effects : List Effect) : List Effect := effects.filter (isDemand k)

@[simp] theorem demands_nil (k : Nat) : demands k [] = [] := rfl

@[simp] theorem demands_append (k : Nat) (a b : List Effect) :
    demands k (a ++ b) = demands k a ++ demands k b := List.filter_append a b

@[simp] theorem demands_settledEffects (k : Nat) (s : List Settled) :
    demands k (Dispatch.settledEffects s) = [] := by
  simp [demands, Dispatch.settledEffects, isDemand]

/-- Clients are asked for nothing but answers, unless a body is read or discarded. -/
theorem demands_requested (k : Nat) {es : List Effect}
    (h : ∀ e ∈ es, ∀ n, e ≠ .pull n ∧ e ≠ .discard n) :
    demands k es = demands k ((asks es).map fun x => .ask x.1 x.2) := by
  induction es with
  | nil => rfl
  | cons e es ih =>
    obtain ⟨he, hes⟩ := List.forall_mem_cons.mp h
    rw [← List.singleton_append, demands_append, ih hes, List.singleton_append, asks_cons,
      List.map_append, demands_append]
    congr 1
    cases e <;> simp_all [demands, isDemand, asked?]

end Effect

namespace Dispatch

variable {d : Dispatch} {k n : Nat}

theorem demands_take (handoff : Option (Channel.Handoff Nat)) :
    demands n (d.take handoff).2 = [] := by
  obtain h | h := d.take_effects handoff <;> rw [h] <;> rfl

/-- A turn asks for nothing but the requests that it passes on. -/
theorem demands_turn (h : d.Sound) : demands n (d.turn Log.calm).2 =
    demands n ((asks (d.turn Log.calm).2).map fun x => .ask x.1 x.2) :=
  demands_requested n fun e he j => by
    cases causes_turn h he with
    | pull hm | conclude hm => cases hm
    | _ => simp

/-- Of the client of a call something is asked as its exchange goes on. -/
theorem demands_progress {e : Exchange} (hp : d.intake.progress? k = some (.running e))
    (step : Exchange → Exchange × List Effect) : demands n (d.progress k step).2 =
      demands n (step e).2 ++ demands n (follow k (step e).1) := by
  simp only [progress, hp, demands_append]

end Dispatch

/-! Bodies -/

namespace Value

theorem joinFrom_ok {chunks : List Value} {place : Nat} {body : Bytes}
    (h : joinFrom place chunks = .ok body) :
    (∀ c ∈ chunks, c.isBytes = true) ∧ body = content chunks := by
  have hb : ∀ c ∈ chunks, c.isBytes = true := by
    induction chunks generalizing place body with
    | nil => simp
    | cons c chunks ih =>
      simp only [joinFrom] at h
      split at h
      · rename_i b hc
        cases hr : joinFrom (place + 1) chunks with
        | error w => simp [hr, bind, Except.bind] at h
        | ok rest =>
          intro x hx
          rcases List.mem_cons.mp hx with rfl | hx
          · simp [isBytes, hc]
          · exact ih hr x hx
      · simp only [bind, Except.bind, throw, throwThe, MonadExceptOf.throw] at h
        split at h <;> cases h
  refine ⟨hb, ?_⟩
  rw [joinFrom_bytes hb, Except.ok.injEq] at h
  exact h.symm

/-- What has been joined is the bytes of the chunks, and nothing but bytes has been. -/
theorem joined_ok {memory : Memory} {chunks : List Value} {body : Bytes}
    (h : joined memory chunks = .ok body) :
    (∀ c ∈ chunks, c.isBytes = true) ∧ body = content chunks := by
  unfold joined at h
  split at h
  · rename_i he
    obtain rfl := List.isEmpty_iff.mp he
    cases h
    exact ⟨by simp, rfl⟩
  · obtain ⟨size, _, h⟩ := Attempt.bind_eq_ok h
    obtain ⟨_, _, h⟩ := Attempt.bind_eq_ok h
    exact joinFrom_ok h

theorem joined_foreign (memory : Memory) {chunks : List Value}
    (h : ∃ c ∈ chunks, c.isBytes = false) : ∃ w, joined memory chunks = .error w := by
  cases hj : joined memory chunks with
  | error w => exact ⟨w, rfl⟩
  | ok body =>
    obtain ⟨c, hc, hn⟩ := h
    rw [(joined_ok hj).1 c hc] at hn
    cases hn

/-- Bytes are joined, unless there is no room for them. -/
theorem joined_cases (memory : Memory) {chunks : List Value} (h : ∀ c ∈ chunks, c.isBytes = true) :
    joined memory chunks = .ok (content chunks) ∨
      memory.room < (content chunks).length ∧ ∃ w, joined memory chunks = .error w := by
  by_cases hm : (content chunks).length ≤ memory.room
  · exact Or.inl (joined_bytes h hm)
  · cases hj : joined memory chunks with
    | ok body => exact Or.inl (by rw [(joined_ok hj).2])
    | error w => exact Or.inr ⟨Nat.lt_of_not_le hm, w, rfl⟩

end Value

/-! What a client does -/

/-- What a client has done about one request so far. -/
inductive Conduct where
  | silent
  | failed (v : Value)
  /-- It has returned no response. -/
  | blank
  | refused (response : Response)
  | reading (response : Response) (chunks : List Value)
  | broken (response : Response) (chunks : List Value) (v : Value)
  | whole (response : Response) (chunks : List Value) (memory : Memory)

namespace Conduct

/-- A response, and the chunks of its body. -/
def read (response : Response) (chunks : List Value) : List Own :=
  .answered (.ok (some response)) :: chunks.map .chunk

/-- What happens to the call meanwhile. -/
def own : Conduct → List Own
  | silent => []
  | failed v => [.answered (.error v)]
  | blank => [.answered (.ok none)]
  | refused response => [.answered (.ok (some response))]
  | reading response chunks => read response chunks
  | broken response chunks v => read response chunks ++ [.bodyEnded (.error v)]
  | whole response chunks memory => read response chunks ++ [.bodyEnded (.ok memory)]

/-- The status is that of success where the body is read, and only there. -/
def Fits : Conduct → Prop
  | silent | failed _ | blank => True
  | refused response => response.isOk = false
  | reading response _ | broken response _ _ | whole response _ _ => response.isOk = true

/-- What the exchange has come to. -/
def exchange (c : Conduct) : Exchange := c.own.foldl Exchange.advance .asking

/-- What the client has failed with. -/
def failure? : Conduct → Option Value
  | failed v | broken _ _ v => some v
  | _ => none

/-- The chunks that have been read. -/
def chunks? : Conduct → Option (List Value)
  | reading _ chunks | broken _ chunks _ | whole _ chunks _ => some chunks
  | _ => none

end Conduct

/-- The discarding of a body, if it can be discarded. -/
def Response.discards (r : Response) (k : Nat) : List Effect :=
  match r.discard with
  | .absent => []
  | .returns | .throws _ => [.discard k]

/-- What a client is asked for after the request: a chunk more than those read, or the end. -/
def Conduct.wants (k : Nat) : Conduct → List Effect
  | refused response => response.discards k
  | reading _ chunks | broken _ chunks _ | whole _ chunks _ =>
    List.replicate (chunks.length + 1) (.pull k)
  | silent | failed _ | blank => []

namespace Conduct

variable {c : Conduct} {response : Response} {chunks : List Value}

/-- What the exchange with a client that does so comes to: it has run its course once the client has
done its part. -/
def stand : Conduct → Exchange
  | silent => .asking
  | blank => .over (.error (Value.unreadable .undefined "status"))
  | reading _ chunks => .reading chunks.reverse
  | failed v => .over (Course.failed v).result
  | refused response => .over (Course.refused response).result
  | broken response chunks v => .over (Course.broken response chunks v).result
  | whole response chunks memory => .over (Course.whole response chunks memory).result

theorem exchange_eq (hf : c.Fits) : c.exchange = c.stand := by
  cases c with
  | silent | failed | blank => rfl
  | refused response => exact Course.advance_refused hf
  | reading response chunks => exact Course.advance_body hf chunks
  | broken response chunks v => exact Course.advance_ended hf chunks (.error v)
  | whole response chunks memory =>
    refine (Course.advance_ended hf chunks (.ok memory)).trans ?_
    rw [Exchange.bodyEnded, List.reverse_reverse]
    rfl

/-- Only a client that has done nothing is still asked. -/
theorem eq_silent (hf : c.Fits) (h : c.exchange = .asking) : c = .silent := by
  rw [exchange_eq hf] at h
  cases c with
  | silent => rfl
  | failed | blank | refused | reading | broken | whole => cases h

/-- Only a body that has not ended is still read. -/
theorem eq_reading (hf : c.Fits) {read : List Value} (h : c.exchange = .reading read) :
    ∃ response chunks, c = .reading response chunks := by
  rw [exchange_eq hf] at h
  cases c with
  | reading response chunks => exact ⟨response, chunks, rfl⟩
  | silent | failed | blank | refused | broken | whole => cases h

/-! What the client does next -/

/-- A client answers, or fails. -/
theorem next_answered (k : Nat) (r : Attempt (Option Response)) : ∃ c : Conduct, c.Fits ∧
    c.own = silent.own ++ [.answered r] ∧
      c.wants k = silent.wants k ++ ((if (Exchange.answered r).2 then [.discard k] else []) ++
        demands k (Dispatch.follow k (Exchange.answered r).1)) := by
  cases r with
  | error v => exact ⟨.failed v, trivial, rfl, rfl⟩
  | ok answer =>
    cases answer with
    | none => exact ⟨.blank, trivial, rfl, rfl⟩
    | some response =>
      cases hok : response.isOk with
      | true =>
        refine ⟨.reading response [], hok, rfl, ?_⟩
        simp [wants, Exchange.answered, hok, Dispatch.follow, demands, isDemand]
      | false =>
        refine ⟨.refused response, hok, rfl, ?_⟩
        cases hd : response.discard <;>
          simp [wants, Response.discards, Exchange.answered, hok, hd, Dispatch.follow, demands,
            isDemand]

/-- A body goes on. -/
theorem next_chunk (h : response.isOk = true) (k : Nat) (v : Value) : ∃ c : Conduct, c.Fits ∧
    c.own = (reading response chunks).own ++ [.chunk v] ∧
      c.wants k = (reading response chunks).wants k ++ [.pull k] := by
  refine ⟨.reading response (chunks ++ [v]), h, ?_, ?_⟩
  · simp [own, read]
  · simp [wants, List.replicate_succ']

/-- A body ends, or fails. -/
theorem next_bodyEnded (h : response.isOk = true) (k : Nat) (r : Attempt Memory) :
    ∃ c : Conduct, c.Fits ∧ c.own = (reading response chunks).own ++ [.bodyEnded r] ∧
      c.wants k = (reading response chunks).wants k := by
  cases r with
  | error v => exact ⟨.broken response chunks v, h, rfl, rfl⟩
  | ok memory => exact ⟨.whole response chunks memory, h, rfl, rfl⟩

/-! What the exchange comes to -/

theorem not_concluded (c : Conduct) : ∀ x ∈ c.own, x ≠ .concluded := by
  rintro x hx rfl
  cases c with
  | silent | failed | blank | refused => simp [own] at hx
  | reading | broken | whole => simp [own, read] at hx

theorem ask_notMem_wants (c : Conduct) (k : Nat) (request : Value) :
    .ask k request ∉ c.wants k := by
  cases c with
  | silent | failed | blank => simp [wants]
  | refused response =>
    unfold wants Response.discards
    dsimp only
    split <;> simp
  | reading | broken | whole => simp [wants, List.mem_replicate]

/-- What an exchange has asked of its client, and what it has come to, by what the client has
done. -/
structure Exact (c : Conduct) (k : Nat) (content : Value) (demanded : List Effect)
    (e : Exchange) : Prop where
  /-- The client is asked once, for the request. -/
  once : ∃ rest, demanded = .ask k content :: rest ∧ ∀ request, .ask k request ∉ rest
  /-- A request or a body that fails is a network failure, unless it has failed with a value that
  cannot be put into words. -/
  failed : ∀ v, c.failure? = some v →
    (∀ text, v.wording = .ok text → e = .over (.ok (.failure
      (.ofKind .network ("Network error: " ++ text) .undefined v)))) ∧
    ∀ w, v.wording = .error w → e = .over (.error w)
  /-- Behind any other status the body is discarded, if it can be, and not read. -/
  refused : ∀ response, c = .refused response →
    demanded = .ask k content :: response.discards k ∧
      ∀ w, response.discard = .throws w → e = .over (.error w)
  /-- Then the status that the response says by then is an HTTP failure, unless it cannot be said or
  put into words. -/
  told : ∀ response, c = .refused response → (∀ w, response.discard ≠ .throws w) →
    (∀ status, response.later = .ok status →
      (∀ text, status.innerText = .ok text → e = .over (.ok (.failure
        (.ofKind .http ("Http error. Status code " ++ text) status .undefined)))) ∧
      ∀ w, status.innerText = .error w → e = .over (.error w)) ∧
    ∀ w, response.later = .error w → e = .over (.error w)
  /-- So it is the status that the response was refused for, if that is a number and discarding the
  body leaves it as it is. -/
  steady : ∀ response, c = .refused response → (∀ w, response.discard ≠ .throws w) →
    response.status.isNumber = true → response.later = .ok response.status →
      ∃ text, response.status.innerText = .ok text ∧ e = .over (.ok (.failure
        (.ofKind .http ("Http error. Status code " ++ text) response.status .undefined)))
  /-- A body is read to its end and not discarded. -/
  read : ∀ chunks, c.chunks? = some chunks →
    demanded = .ask k content :: List.replicate (chunks.length + 1) (.pull k)
  /-- What has been read are the bytes of all the chunks in order, if memory has room for them. A
  chunk that is not bytes breaks the exchange. -/
  whole : ∀ response chunks memory, c = .whole response chunks memory →
    ((∀ chunk ∈ chunks, chunk.isBytes = true) →
      e = .over (.ok (.success (Value.content chunks))) ∨
        memory.room < (Value.content chunks).length ∧ ∃ w, e = .over (.error w)) ∧
    ((∃ chunk ∈ chunks, chunk.isBytes = false) → ∃ w, e = .over (.error w))
  /-- Nothing else is a success. -/
  success : ∀ body, e = .over (.ok (.success body)) → ∃ response chunks memory,
    c = .whole response chunks memory ∧ (∀ chunk ∈ chunks, chunk.isBytes = true) ∧
      body = Value.content chunks

theorem success_whole (hf : c.Fits) {body : Bytes}
    (h : c.exchange = .over (.ok (.success body))) : ∃ response chunks memory,
      c = .whole response chunks memory ∧ (∀ chunk ∈ chunks, chunk.isBytes = true) ∧
        body = Value.content chunks := by
  rw [exchange_eq hf] at h
  cases c with
  | silent | blank | reading => cases h
  | failed v | broken response chunks v =>
    cases hn : Fault.network v <;> simp [stand, Course.result, hn, Except.map] at h
  | refused response =>
    have hrefusal : response.refusal ≠ .ok (.success body) := by
      intro hr
      obtain ⟨_, _, _, _, ho⟩ := Response.refusal_ok hr
      cases ho
    cases hd : response.discard <;> simp [stand, Course.result, hd, hrefusal] at h
  | whole response chunks memory =>
    cases hj : Value.joined memory chunks with
    | error w => simp [stand, Course.result, hj, Except.map] at h
    | ok joined =>
      simp only [stand, Course.result, hj, Except.map, Exchange.over.injEq, Except.ok.injEq,
        Outcome.success.injEq] at h
      obtain ⟨hb, hc⟩ := Value.joined_ok hj
      exact ⟨response, chunks, memory, rfl, hb, h ▸ hc⟩

/-- Where the body of a refused response is discarded, the exchange comes to its refusal. -/
theorem stand_refused (hd : ∀ w, response.discard ≠ .throws w) :
    (refused response).stand = .over response.refusal := by
  cases h : response.discard with
  | throws w => exact (hd w h).elim
  | absent | returns => simp only [stand, Course.result, h]

theorem refusal_of_text {status : Value} {text : String} (hl : response.later = .ok status)
    (ht : status.innerText = .ok text) : response.refusal = .ok (.failure
      (.ofKind .http ("Http error. Status code " ++ text) status .undefined)) := by
  simp [Response.refusal, hl, Fault.http, ht, bind, Except.bind, pure, Except.pure]

theorem exact (hf : c.Fits) (k : Nat) (content : Value) :
    c.Exact k content (.ask k content :: c.wants k) c.exchange where
  once := ⟨_, rfl, c.ask_notMem_wants k⟩
  failed v hv := by
    have he : c.stand = .over (Course.failed v).result := by
      cases c with
      | failed | broken => exact congrArg Exchange.failed (Option.some.inj hv)
      | _ => cases hv
    rw [exchange_eq hf, he]
    constructor
    · intro text ht
      simp [Course.result, Fault.network, ht, bind, Except.bind, pure, Except.pure, Except.map]
    · intro w hw
      simp [Course.result, Fault.network, hw, bind, Except.bind, Except.map]
  refused response hc := by
    subst hc
    refine ⟨rfl, fun w hd => ?_⟩
    rw [exchange_eq hf]
    simp only [stand, Course.result, hd]
  told response hc hd := by
    subst hc
    rw [exchange_eq hf, stand_refused hd]
    refine ⟨fun status hl => ⟨fun text ht => ?_, fun w ht => ?_⟩, fun w hl => ?_⟩
    · rw [refusal_of_text hl ht]
    · simp only [Response.refusal, hl, Fault.http, ht, bind, Except.bind]
    · simp only [Response.refusal, hl, bind, Except.bind]
  steady response hc hd hn hl := by
    subst hc
    obtain ⟨text, ht⟩ := Course.innerText_number hn
    rw [exchange_eq hf, stand_refused hd, refusal_of_text hl ht]
    exact ⟨text, ht, rfl⟩
  read chunks hc := by
    cases c with
    | reading | broken | whole =>
      obtain rfl := Option.some.inj hc
      rfl
    | _ => cases hc
  whole response chunks memory hc := by
    subst hc
    rw [exchange_eq hf, stand]
    constructor
    · intro hb
      rcases Value.joined_cases memory hb with hj | ⟨hm, w, hj⟩
      · exact Or.inl (by rw [Course.result, hj]; rfl)
      · exact Or.inr ⟨hm, w, by rw [Course.result, hj]; rfl⟩
    · intro hn
      obtain ⟨w, hj⟩ := Value.joined_foreign memory hn
      exact ⟨w, by rw [Course.result, hj]; rfl⟩
  success body h := success_whole hf h

end Conduct

/-! Calls -/

/-- What has happened to a call is what its client has done, after it was asked, and so is what its
exchange has come to. -/
def Call.Conducted (k : Nat) (c : Call Stage) (own : List Own) (seen : List Effect) : Prop :=
  match c.progress with
  | .waiting => own = [] ∧ seen = []
  | .running e => ∃ (content : Value) (conduct : Conduct), conduct.Fits ∧ own = conduct.own ∧
      seen = .ask k content :: conduct.wants k ∧ e = conduct.exchange
  | .ended _ | .retired _ => ∃ (content : Value) (conduct : Conduct) (result : Attempt Outcome),
      conduct.Fits ∧ own = conduct.own ++ [.concluded] ∧
        seen = .ask k content :: conduct.wants k ∧ .over result = conduct.exchange

namespace Dispatch

variable {d : Dispatch} {k n : Nat} {c : Call Stage} {own : List Own} {seen : List Effect}

theorem demands_follow (k : Nat) (e : Exchange) :
    demands k (follow k e) = match e with | .reading _ => [.pull k] | _ => [] := by
  cases e <;> simp [follow, demands, isDemand]

/-- A move asks nothing of clients that do not get on with it and get no request. -/
theorem demands_of_ne (h : d.Sound) {m : Move} (hn : m.client? ≠ some n)
    (ha : ∀ x ∈ asks (d.move m).2, x.1 ≠ n) : demands n (d.move m).2 = [] := by
  refine List.filter_eq_nil_iff.mpr fun e he => ?_
  cases move_causes h he with
  | ask j request =>
    have hj : j ≠ n := ha _ (mem_asks he)
    simp [isDemand, hj]
  | discard j r =>
    have hj : j ≠ n := fun h => hn (by rw [h]; rfl)
    simp [isDemand, hj]
  | pull hj =>
    simp only [isDemand, decide_eq_true_eq]
    rintro rfl
    exact hn hj
  | _ => simp [isDemand]

theorem demands_of_own (h : d.Sound) {m : Move} (hm : m.own? = some k) (hn : m.client? ≠ some n) :
    demands n (d.move m).2 = [] := demands_of_ne h hn (by simp [(touched_move h hm).asks])

theorem demands_answered (hp : d.intake.progress? k = some (.running .asking))
    (r : Attempt (Option Response)) : demands k (d.answered k r).2 =
      (if (Exchange.answered r).2 then [.discard k] else []) ++
        demands k (follow k (Exchange.answered r).1) := by
  refine (demands_progress hp _).trans ?_
  dsimp only
  split <;> simp [demands, isDemand]

theorem demands_chunk {read : List Value}
    (hp : d.intake.progress? k = some (.running (.reading read))) (v : Value) :
    demands k (d.chunk k v).2 = [.pull k] := by
  refine (demands_progress hp _).trans ?_
  simp [Exchange.chunk, demands_follow]

theorem demands_bodyEnded {read : List Value}
    (hp : d.intake.progress? k = some (.running (.reading read))) (r : Attempt Memory) :
    demands k (d.bodyEnded k r).2 = [] := by
  refine (demands_progress hp _).trans ?_
  cases r <;> simp [Exchange.bodyEnded, Exchange.failed, demands_follow]

/-- The client of a running unit does something. -/
theorem conducted_next {e : Exchange} {conduct next : Conduct} {x : Own} {more : List Effect}
    (he : e = conduct.exchange) (hf : next.Fits) (ho : next.own = conduct.own ++ [x])
    (hw : next.wants k = conduct.wants k ++ more) (content : Value) (c : Call Stage) :
    ({ c with progress := .running (e.advance x) } : Call Stage).Conducted k
      (conduct.own ++ [x]) (.ask k content :: conduct.wants k ++ more) := by
  refine ⟨content, next, hf, ho.symm, by rw [hw]; rfl, ?_⟩
  unfold Conduct.exchange at he ⊢
  rw [ho, List.foldl_append, ← he]
  rfl

/-- The body of a call is read if its client has answered well. -/
theorem conducted_reading {read : List Value} (hp : c.progress = .running (.reading read))
    (h : c.Conducted k own seen) : ∃ content response chunks, response.isOk = true ∧
      own = (Conduct.reading response chunks).own ∧
      seen = .ask k content :: (Conduct.reading response chunks).wants k ∧
      .reading read = (Conduct.reading response chunks).exchange := by
  simp only [Call.Conducted, hp] at h
  obtain ⟨content, conduct, hf, hown, hseen, he⟩ := h
  obtain ⟨response, chunks, rfl⟩ := conduct.eq_reading hf he.symm
  exact ⟨content, response, chunks, hf, hown, hseen, he⟩

/-- What a move does to its own call is what its client does next. -/
theorem conducted_moved {m : Move} (hs : d.Sound) (hm : m.own? = some k)
    (hk : d.intake.calls[k]? = some c) (ha : d.allows m = true) (h : c.Conducted k own seen) :
    (c.moved m).Conducted k (own ++ (m.happens? k).toList) (seen ++ demands k (d.move m).2) := by
  have hp := progress_of_call hk
  cases m with
  | turn => cases hm
  | answered j r =>
    obtain rfl := Option.some.inj hm
    simp only [allows, hp, Stage.any_isAsking, Option.some.injEq] at ha
    simp only [Call.Conducted, ha] at h
    obtain ⟨content, conduct, hf, rfl, rfl, he⟩ := h
    obtain rfl := conduct.eq_silent hf he.symm
    obtain ⟨next, hfits, hown, hwants⟩ := Conduct.next_answered j r
    rw [← demands_answered (hp.trans (congrArg some ha)) r] at hwants
    simp only [Move.happens?, if_true, Call.moved, ha, Stage.mapExchange]
    exact conducted_next he hfits hown hwants content c
  | chunk j v =>
    obtain rfl := Option.some.inj hm
    simp only [allows, hp, Stage.any_isReading, Option.some.injEq] at ha
    obtain ⟨read, ha⟩ := ha
    obtain ⟨content, response, chunks, hok, rfl, rfl, he⟩ := conducted_reading ha h
    obtain ⟨next, hfits, hown, hwants⟩ := Conduct.next_chunk hok j v
    rw [← demands_chunk (hp.trans (congrArg some ha)) v] at hwants
    simp only [Move.happens?, if_true, Call.moved, ha, Stage.mapExchange]
    exact conducted_next he hfits hown hwants content c
  | bodyEnded j r =>
    obtain rfl := Option.some.inj hm
    simp only [allows, hp, Stage.any_isReading, Option.some.injEq] at ha
    obtain ⟨read, ha⟩ := ha
    obtain ⟨content, response, chunks, hok, rfl, rfl, he⟩ := conducted_reading ha h
    obtain ⟨next, hfits, hown, hwants⟩ := Conduct.next_bodyEnded hok j r
    have hmore : next.wants j =
        (Conduct.reading response chunks).wants j ++ demands j (d.bodyEnded j r).2 := by
      rw [hwants, demands_bodyEnded (hp.trans (congrArg some ha)), List.append_nil]
    simp only [Move.happens?, if_true, Call.moved, ha, Stage.mapExchange]
    exact conducted_next he hfits hown hmore content c
  | conclude j =>
    obtain rfl := Option.some.inj hm
    simp only [allows, hp, Stage.any_isOver, Option.some.injEq] at ha
    obtain ⟨result, ha⟩ := ha
    simp only [Call.Conducted, ha] at h
    obtain ⟨content, conduct, hf, rfl, rfl, he⟩ := h
    have hd := demands_of_own (n := j) hs hm (by simp [Move.client?])
    simp only [Call.Conducted, Call.moved, Call.concluded, ha, hd, List.append_nil]
    exact ⟨content, conduct, result, hf, by simp [Move.happens?], rfl, he⟩
  | retire j =>
    have hd := demands_of_own (n := k) hs hm (by simp [Move.client?])
    simp only [Move.happens?, Option.toList_none, hd, List.append_nil]
    unfold Call.Conducted at h ⊢
    cases hs : c.progress <;> simpa [Call.moved, hs, Stage.retire] using h

/-- Every call agrees with what its client has done. -/
structure Conducted (d : Dispatch) (past : Nat → List Own) (seen : Nat → List Effect) : Prop where
  call : ∀ (k : Nat) (c : Call Stage), d.intake.calls[k]? = some c →
    c.Conducted k (past k) (seen k)
  later : ∀ k, d.intake.calls.size ≤ k → past k = [] ∧ seen k = []

section

variable {past : Nat → List Own} {seen : Nat → List Effect}

theorem conducted_new (fired : List (Nat × Value)) :
    (Dispatch.new fired).Conducted (fun _ => []) fun _ => [] :=
  ⟨by simp [new, Intake.new], fun _ _ => ⟨rfl, rfl⟩⟩

theorem Conducted.congr {e : Dispatch} (h : d.Conducted past seen) (hi : e.intake = d.intake) :
    e.Conducted past seen := ⟨by rw [hi]; exact h.call, by rw [hi]; exact h.later⟩

/-- Steps that leave the units alone. -/
theorem Conducted.aside {e : Dispatch} (h : d.Conducted past seen) (ha : Aside d e)
    (hsize : d.intake.calls.size ≤ e.intake.calls.size) : e.Conducted past seen := by
  refine ⟨fun k c hc => ?_, fun k hk => h.later k (Nat.le_trans hsize hk)⟩
  rcases ha.calls k c hc with ⟨b, hb, hp, _⟩ | ⟨hw, hle⟩
  · have hcall := h.call k b hb
    unfold Call.Conducted at hcall ⊢
    rwa [hp]
  · obtain ⟨hpast, hseen⟩ := h.later k hle
    simp only [Call.Conducted, hw]
    exact ⟨hpast, hseen⟩

theorem client_of_none {m : Move} (hk : d.intake.calls[k]? = none) (ha : d.allows m = true) :
    m.client? ≠ some k := by
  have hp : d.intake.progress? k = none := by simp [Intake.progress?, hk]
  intro hm
  cases m with
  | turn | conclude | retire => cases hm
  | answered | chunk | bodyEnded =>
    obtain rfl := Option.some.inj hm
    simp [allows, hp] at ha

theorem Conducted.move (h : d.Conducted past seen) (hs : d.Sound) {m : Move}
    (ha : d.allows m = true) : (d.move m).1.Conducted (fun k => past k ++ (m.happens? k).toList)
      fun k => seen k ++ demands k (d.move m).2 := by
  refine ⟨fun k x hx => ?_, fun k hk => ?_⟩
  · obtain ⟨c, hc, hbecomes⟩ := hs.became hx
    have hcall := h.call k c hc
    cases hbecomes with
    | own hm => exact conducted_moved hs hm hc ha hcall
    | begun content hm hw hasks =>
      subst hm
      simp only [Call.Conducted, hw] at hcall
      have hd : demands k (d.move .turn).2 = [.ask k content] := by
        refine (demands_turn hs).trans ?_
        rw [show asks (d.turn Log.calm).2 = _ from hasks]
        simp [demands, isDemand]
      rw [hcall.1, hcall.2, hd]
      exact ⟨content, .silent, trivial, rfl, rfl, rfl⟩
    | aside hm hasks =>
      rw [happens_of_ne hm, demands_of_ne hs (fun hc => hm (Move.own_of_client hc)) hasks,
        Option.toList_none, List.append_nil, List.append_nil]
      exact hcall
  · rw [move_size hs] at hk
    obtain ⟨hpast, hseen⟩ := h.later k hk
    have hnone := Array.getElem?_eq_none hk
    have hd : demands k (d.move m).2 = [] := by
      refine demands_of_ne hs (client_of_none hnone ha) fun x hx => ?_
      rintro rfl
      obtain ⟨hempty, _⟩ | ⟨n, b, content, hn, _, hasks, _⟩ := (hs.move m).2
      · rw [hempty] at hx
        cases hx
      · rw [hasks] at hx
        obtain rfl := List.mem_singleton.mp hx
        rw [hnone] at hn
        cases hn
    rw [hpast, hseen, happens_of_none hnone ha, hd]
    exact ⟨rfl, rfl⟩

end

end Dispatch

/-! Runs -/

namespace Pipeline

theorem demands_lift (p : Pipeline) (s : Dispatch × List Effect) (k : Nat) :
    demands k (p.lift Log.calm s).2 = demands k s.2 := by
  unfold lift
  dsimp only
  split
  · unfold shut
    split <;> simp [Dispatch.say, demands, isDemand]
  · rfl

namespace Run

variable {r : Run} {e : Event} {k : Nat} {past : Nat → List Own} {seen : Nat → List Effect}

/-- What follows from events, in order. -/
def trace (r : Run) : List Event → List Effect
  | [] => []
  | e :: events => r.effects e ++ (r.step e).trace events

/-- Of clients only moves ask something. -/
theorem demands_effects (k : Nat) (hm : ∀ m, e ≠ .move m) : demands k (r.effects e) = [] := by
  cases e with
  | move m => exact (hm m rfl).elim
  | clientClosed result =>
    simp only [effects, clientClosed]
    split <;> rfl
  | offer | send | release => exact (demands_lift _ _ k).trans (Dispatch.demands_take _)
  | receive | clone => exact demands_lift _ _ k
  | withSlot | abort => exact (demands_lift _ _ k).trans (demands_settledEffects k _)

/-- Handles and signals do nothing to exchanges. -/
theorem Settling.conducted_aside (h : r.Settling) (hc : r.dispatch.Conducted past seen)
    (hp : e.plain = true) (hm : ∀ m, e ≠ .move m) : (r.step e).dispatch.Conducted past seen := by
  by_cases hclosed : ∃ result, e = .clientClosed result
  · obtain ⟨result, rfl⟩ := hclosed
    rw [dispatch_clientClosed]
    exact hc
  · have hl : r.Lawful e := by
      cases e with
      | withSlot => cases hp
      | clientClosed result => exact (hclosed ⟨result, rfl⟩).elim
      | _ => trivial
    have hi := intake_step r e
    exact (hc.aside (aside_stepped hl hm).1 (hi ▸ (h.kept hp).size_le)).congr hi

theorem happens_of_ne_move (hm : ∀ m, e ≠ .move m) : e.happens? k none = none := by
  cases e with
  | move m => exact (hm m rfl).elim
  | _ => rfl

theorem Settling.conducted_step (h : r.Settling) (hc : r.dispatch.Conducted past seen)
    (hp : e.plain = true) (ha : r.possible e = true) :
    (r.step e).dispatch.Conducted (fun k => past k ++ (e.happens? k none).toList)
      fun k => seen k ++ demands k (r.effects e) := by
  by_cases hm : ∃ m, e = .move m
  · obtain ⟨m, rfl⟩ := hm
    have hmove := hc.move h.ordered.sound ha
    have hd (k : Nat) : demands k (r.effects (.move m)) = demands k (r.dispatch.move m).2 :=
      demands_lift _ _ k
    simp only [hd]
    exact hmove.congr (intake_step r (.move m))
  · have hno : ∀ m, e ≠ .move m := fun m he => hm ⟨m, he⟩
    simp only [happens_of_ne_move hno, demands_effects _ hno, Option.toList_none, List.append_nil]
    exact h.conducted_aside hc hp hno

theorem Settling.conducted_run (h : r.Settling) (hc : r.dispatch.Conducted past seen)
    {events : List Event} (hv : r.valid events = true) :
    (r.run events).dispatch.Conducted (fun k => past k ++ history k none events)
      fun k => seen k ++ demands k (r.trace events) := by
  induction events generalizing r past seen with
  | nil =>
    simp only [history, trace, List.filterMap_nil, demands_nil, List.append_nil]
    exact hc
  | cons e events ih =>
    obtain ⟨hp, ha, hv⟩ := valid_cons hv
    have hrest := ih (h.step hp) (h.conducted_step hc hp ha) hv
    have hpast : (fun k => past k ++ (e.happens? k none).toList ++ history k none events) =
        fun k => past k ++ history k none (e :: events) := by
      funext k
      rw [history_cons, List.append_assoc]
    have hseen : (fun k => seen k ++ demands k (r.effects e) ++
        demands k ((r.step e).trace events)) =
          fun k => seen k ++ demands k (r.trace (e :: events)) := by
      funext k
      rw [trace, demands_append, List.append_assoc]
    rwa [hpast, hseen] at hrest

/-- The requests that have been passed on are those that were asked for in the run. -/
theorem asked_run (events : List Event) :
    (r.run events).asked = r.asked ++ asks (r.trace events) := by
  induction events generalizing r with
  | nil => simp [run, trace]
  | cons e events ih =>
    have he : asks (r.effects e) = asks (r.stepped e).2 := by
      cases e with
      | clientClosed result =>
        simp only [effects, stepped, clientClosed]
        split <;> rfl
      | _ => exact asks_lift _ _
    show ((r.step e).run events).asked = _
    rw [ih, asked_step, trace, asks_append, he, List.append_assoc]

theorem ask_mem_demands {es : List Effect} {content : Value} (h : (k, content) ∈ asks es) :
    .ask k content ∈ demands k es := by
  obtain ⟨e, he, hasked⟩ := List.mem_filterMap.mp h
  cases e with
  | ask n request =>
    obtain ⟨rfl, rfl⟩ := Prod.mk.inj (Option.some.inj hasked)
    exact List.mem_filter.mpr ⟨he, by simp [isDemand]⟩
  | _ => cases hasked

/-- A request whose client answers with a response. -/
def answering (response : Response) : List Event :=
  [.send 0 (.post "http://a/" []) none, .move .turn, .move .turn,
    .move (.answered 0 (.ok (some response)))]

theorem progress_answering (response : Response) :
    ((start []).run (answering response)).dispatch.intake.progress? 0 =
      some (.running (Exchange.answered (.ok (some response))).1) := by
  let asked := (start []).run [.send 0 (.post "http://a/" []) none, .move .turn, .move .turn]
  have hsound : asked.dispatch.Sound := ((ordered_start []).run _).sound
  have hi : ((start []).run (answering response)).dispatch.intake =
      (asked.dispatch.move (.answered 0 (.ok (some response)))).1.intake :=
    intake_step asked (.move (.answered 0 (.ok (some response))))
  have hcalls := (Dispatch.touched_move hsound (m := .answered 0 (.ok (some response)))
    (k := 0) rfl).calls
  obtain ⟨b, hb, hasking⟩ : ∃ b : Call Stage,
      asked.dispatch.intake.calls[0]? = some b ∧ b.progress = .running .asking := ⟨_, rfl, rfl⟩
  rw [hi, Intake.progress?, hcalls, Array.getElem?_modify, if_pos rfl, hb]
  simp [Call.moved, hasking, Stage.mapExchange, Exchange.answer]

end Run
end Pipeline
end Courier
