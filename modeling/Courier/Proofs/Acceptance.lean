import Courier.Proofs.Answering
import Courier.Proofs.Carrying
import Courier.Proofs.Ledger
import Courier.Proofs.Posting

/-!
What the owner takes of what its worker posts. The client may report any status and fail with any
value. A response whose status is a number or absent, and whose cause is a text or absent, is taken
and reaches its caller; any other is taken for something that a worker never posts.
-/

namespace Courier

/-- A status that the owner takes: a number, or none. -/
def Value.isStatus (v : Value) : Bool := v.isUndefined || v.isNumber

/-- A cause that the owner takes: none, or one that is described by a text or by nothing. -/
def Value.isCause (v : Value) : Bool :=
  v.isUndefined || v.describe.toOption.any fun d => d.isUndefined || d.isString

theorem Value.isCause_iff {v : Value} : v.isCause = true ↔
    v = .undefined ∨ v.describe = .ok .undefined ∨ ∃ text, v.HasText text := by
  have hu : v.isUndefined = true ↔ v = .undefined := by cases v <;> simp [isUndefined]
  rw [isCause, Bool.or_eq_true, hu]
  refine or_congr_right ?_
  unfold HasText
  cases v.describe with
  | error w => simp [Except.toOption]
  | ok d => cases d <;> simp [Except.toOption, isUndefined, isString]

/-- A copy is a status if and only if the value is one. -/
theorem Value.isStatus_clone {v copy : Value} (h : v.clone = .ok copy) :
    copy.isStatus = v.isStatus := by
  obtain ⟨_, hundefined, hnumber⟩ := clone_keeps h
  rw [isStatus, hundefined, hnumber, isStatus]

/-- The status that an outcome tells of. -/
def Outcome.status : Outcome → Value
  | .failure fault => fault.status
  | _ => .undefined

/-- The cause that an outcome tells of. -/
def Outcome.cause : Outcome → Value
  | .failure fault => fault.cause
  | _ => .undefined

/-- Whether the owner takes the outcome. -/
def Outcome.isRegular (o : Outcome) : Bool := o.status.isStatus && o.cause.isCause

section

variable {f : Fault} {client : Manner}

/-- The failures of an exchange are portable if their status is one and their cause has a text. -/
theorem Fault.portable_of_status (h : f.OfExchange client) (hs : f.status.isStatus = true)
    (hc : f.cause = .undefined ∨ ∃ text, f.cause.HasText text) : f.Portable := by
  rcases h with ⟨status, _, hf⟩ | ⟨cause, _, hf⟩
  · obtain ⟨text, _, rfl⟩ := http_eq hf
    refine ⟨⟨.http, rfl⟩, ⟨_, rfl⟩, ?_, Or.inl rfl⟩
    cases status <;> simp_all [Value.isStatus, Value.isUndefined, Value.isNumber, ofKind]
  · obtain ⟨text, _, rfl⟩ := network_eq hf
    exact ⟨⟨.network, rfl⟩, ⟨_, rfl⟩, Or.inl rfl, hc⟩

/-- An outcome that is regular can be posted, and its response brings it. -/
theorem Outcome.brings_of_regular (seq : Binary64) {o : Outcome} (h : o.OfExchange client)
    (hr : o.isRegular = true) : ∃ v,
    (∀ post, Worker.respond post seq o.post = post v) ∧ o.relayed.Brings seq v := by
  cases o with
  | success body => exact brings_success seq body
  | foreign v => exact h.elim
  | failure f =>
    obtain ⟨hs, hc⟩ := Bool.and_eq_true_iff.mp hr
    by_cases hu : f.cause = .undefined
    · exact brings_failure seq (Fault.portable_of_status h hs (Or.inl hu))
    · rcases (Value.isCause_iff.mp hc).resolve_left hu with hd | ht
      · exact Fault.brings_undescribed seq h hd
      · exact brings_failure seq (Fault.portable_of_status h hs (Or.inr ht))

/-- The record of a failure shows the status, and what describes the cause. -/
theorem Fault.lookup_post {record : Value} (h : f.post = .ok record) :
    ∃ fields, record = .record fields ∧ Value.lookup fields "status" = f.status ∧
      (f.cause ≠ .undefined → f.cause.describe = .ok (Value.lookup fields "cause")) := by
  by_cases hc : f.cause = .undefined
  · rw [post_uncaused hc] at h
    refine ⟨_, (Except.ok.inj h).symm, ?_, fun hn => (hn hc).elim⟩
    cases f.status <;> rfl
  · rw [post_caused hc] at h
    cases hd : f.cause.describe with
    | error w =>
      rw [hd] at h
      cases h
    | ok d =>
      rw [hd] at h
      refine ⟨_, (Except.ok.inj h).symm, ?_, fun _ => ?_⟩ <;> cases f.status <;> rfl

end

/-- A response that tells of anything else is none for the owner. -/
theorem Worker.ofValue_of_irregular (seq : Binary64) {o : Outcome} {client : Manner} {v : Value}
    (ho : o.OfExchange client) (hr : o.isRegular = false)
    (h : (respond .reply seq o.post).posted? = some v) : FromWorker.ofValue? v = none := by
  cases o with
  | success body => cases hr
  | foreign x => exact ho.elim
  | failure f =>
    obtain ⟨htype, hok, record, hpost, hclone⟩ := failure_respond h
    obtain ⟨fields, rfl, hstatus, hcause⟩ := Fault.lookup_post hpost
    have hposted : Outcome.isPosted (v.field "outcome") = false := by
      have hs := Value.isStatus_clone (Value.clone_field hclone "status")
      obtain ⟨hstring, hundefined, _⟩ := Value.clone_keeps (Value.clone_field hclone "cause")
      rw [hstatus] at hs
      rcases Bool.and_eq_false_iff.mp hr with hr | hr
      · rw [show f.status.isStatus = false from hr, Value.isStatus] at hs
        simp [Outcome.isPosted, hok, Fault.isPosted, hs]
      · simp only [Outcome.cause, Value.isCause, Bool.or_eq_false_iff] at hr
        have hd := hcause fun hu => by rw [hu] at hr; cases hr.1
        have hlookup := hr.2
        simp only [hd, Except.toOption, Option.any_some, ← hundefined, ← hstring] at hlookup
        simp [Outcome.isPosted, hok, Fault.isPosted, hlookup]
    unfold FromWorker.ofValue?
    rw [htype, hposted]
    cases v.isRecord with
    | false => rfl
    | true => cases v.field "seq" <;> rfl

/-! A worker whose client reports anything -/

namespace Worker

open Courier.Worker.Effect

/-- A worker after events. -/
def after (w : Worker) (events : List Event) : Worker := events.foldl (fun w ev => (w.step ev).1) w

/-- Every call that waits has a reply that waits for it, whatever the client does. -/
def Attends (w : Worker) : Prop := Attended .any w.pipeline.dispatch w.replies

variable {w : Worker}

theorem attends_new : new.Attends := attended_new

/-- A step of the pipeline that ends no receive. -/
theorem attends_quiet {p : Pipeline} {effects : List Courier.Effect}
    (h : Attended .any p.dispatch w.replies)
    (hs : Courier.Effect.settles effects = []) : (w.lift (p, effects)).1.Attends := by
  have hl := lifted_quiet (w := w) (p := p) hs
  unfold Attends
  rw [hl.pipeline, hl.replies]
  exact h

/-- A step of the dispatch that ends no receive. -/
theorem attends_dispatched {s : Dispatch × List Courier.Effect}
    (h : Attended .any s.1 w.replies) (hs : Courier.Effect.settles s.2 = []) :
    (w.liftDispatch s).1.Attends :=
  attends_quiet (h.lifted w.pipeline) ((w.pipeline.settles_lift s).trans hs)

/-- A step of the pipeline that ends a receive, whatever its response is. -/
theorem attends_settled {p : Pipeline} {effects : List Courier.Effect} {t : Settled}
    {seq : Binary64} (h : Attended .any p.dispatch (w.replies.filter (·.1 ≠ t.call)))
    (hs : Courier.Effect.settles effects = [t])
    (hf : w.replies.find? (·.1 = t.call) = some (t.call, seq)) :
    (w.lift (p, effects)).1.Attends := by
  obtain ⟨before, after, _, _, heq⟩ := absorb_settled (w := { w with pipeline := p }) hs hf
  have hw : (w.lift (p, effects)).1 = ({ w with
      pipeline := p, replies := w.replies.filter (·.1 ≠ t.call) } : Worker).wrapUp.1 := by
    unfold Worker.lift
    simp only [heq]
  obtain ⟨_, _, hcase⟩ := wrapUp_cases { w with
    pipeline := p, replies := w.replies.filter (·.1 ≠ t.call) }
  unfold Attends
  rcases hcase with hc | ⟨hc, _⟩ <;> rw [hw, hc] <;> exact h

theorem Attends.release (h : w.Attends) : w.release.1.Attends := by
  unfold Worker.release
  split
  · exact attends_dispatched (Attended.release h sender)
      (Dispatch.quiet_release w.pipeline.dispatch sender).1
  · exact h

theorem Attends.message (h : w.Attends) (v : Value) : (w.message v).1.Attends := by
  by_cases hp : w.phase = .closed
  · rw [(message_closed hp v).1]
    exact h
  · cases hv : ToWorker.ofValue? v with
    | none =>
      rw [message_open hp, hv]
      exact h
    | some m =>
      cases m with
      | close =>
        rw [message_open hp, hv]
        exact h.release
      | request seq r =>
        cases ht : w.takes r with
        | false =>
          rw [message_refused hv hp ht]
          exact h
        | true =>
          obtain ⟨hrun, hopen⟩ := takes_iff.mp ht
          obtain ⟨effects, ⟨hs, _⟩, hm⟩ := message_taken hrun hopen hv
          rw [hm]
          exact attends_dispatched (Attended.takeOn h sender (proper_received r) seq) hs

theorem Attends.move (h : w.Attends) (m : Move) :
    (w.liftDispatch (w.pipeline.dispatch.move m)).1.Attends := by
  rcases Attended.move h (m := m) m.reports_any with
    ⟨hs, ha⟩ | ⟨j, o, seq, hs, hf, _, ha⟩
  · exact attends_dispatched ha hs
  · exact attends_settled (t := ⟨j, .got o⟩) (ha.lifted w.pipeline)
      ((w.pipeline.settles_lift _).trans hs) hf

theorem Attends.step (h : w.Attends) (ev : Event) : (w.step ev).1.Attends := by
  cases ev with
  | message v => exact h.message v
  | built => exact h
  | move m => exact h.move m
  | clientClosed r =>
    have ha : Attended .any (w.pipeline.clientClosed r).1.dispatch w.replies := by
      rw [w.pipeline.dispatch_closed r]
      exact h
    exact attends_quiet ha (w.pipeline.settles_closed r)

theorem Attends.after (h : w.Attends) (events : List Event) : (w.after events).Attends := by
  induction events generalizing w with
  | nil => exact h
  | cons ev events ih => exact ih (h.step ev)

/-- When a unit ends, the worker posts the outcome of its exchange under the number that its request
came with, or fails to. -/
theorem Attends.posts_conclude (h : w.Attends) {k : Nat} {c : Call Stage} {o : Outcome}
    (hk : w.pipeline.dispatch.intake.calls[k]? = some c)
    (hp : c.progress = .running (.over (.ok o))) :
    o.OfExchange .any ∧ ∃ seq, w.replies.find? (·.1 = k) = some (k, seq) ∧
      posts (w.step (.move (.conclude k))).2 = (respond .reply seq o.post).posted?.toList := by
  have hc := h.serves k c hk
  obtain ⟨hwait, ho⟩ := hc.over hp
  obtain ⟨seq, hf⟩ := h.waits k c hk hwait
  obtain ⟨hs, _⟩ := h.sound.settles_conclude hk hc hp
  refine ⟨ho o rfl, seq, hf, ?_⟩
  let s := w.pipeline.lift Log.calm (w.pipeline.dispatch.move (.conclude k))
  obtain ⟨before, after, hb, ha, heq⟩ := absorb_settled (w := { w with pipeline := s.1 })
    ((w.pipeline.settles_lift _).trans hs) hf
  have hposts : posts (respond .reply seq o.post :: after) =
      (respond .reply seq o.post).posted?.toList := by
    have hafter := posts_quiet ha
    cases hr : (respond .reply seq o.post).posted? <;> simp_all [posts]
  show posts (({ w with pipeline := s.1 }.absorb s.2).2 ++
    ({ w with pipeline := s.1 }.absorb s.2).1.wrapUp.2) = _
  rw [posts_append, (wrapUp_cases _).1, List.append_nil, heq, posts_append, posts_quiet hb]
  exact hposts

end Worker

/-! The owner -/

namespace Bridge.Run

variable {r : Run} {n j : Nat}

/-- The caller of a call at rest learns what ended its slot, unless it has given up. -/
theorem Accounted.answer_taken (h : r.Accounted) (hseq : r.bridge.seq ≤ 2 ^ 53) {v : Value}
    {o : Outcome} (hx : (n, j) ∈ r.bridge.pending) (hv : o.Brings (.ofNat n) v) :
    (r.step (.message v)).bridge.pending = r.bridge.pending.filter (·.1 ≠ n) ∧
      (r.bridge.intake.givenUp j = false →
        (j, Handle.result (.got (some o))) ∈ (r.step (.message v)).answers) := by
  obtain ⟨posted, hvalue, hposted⟩ := hv
  have ha : r.bridge.answer? v = some ((n, j), o) :=
    answer_eq_some.mpr ⟨_, posted, hvalue, h.waitingFor hseq hx, hposted⟩
  have hb := (h.step_answered ha).1
  refine ⟨by rw [hb]; rfl, fun hg => ?_⟩
  obtain ⟨fired, hslot⟩ := (h.waits_of_pending hx).slot_eq
  have hsound := (h.step (.message v)).intake
  have hslot' := Intake.slot_deliver r.bridge.intake j o
  rw [hslot] at hslot'
  rw [hb] at hsound
  cases fired with
  | none =>
    exact mem_answers_of_told (s := ⟨j, .got (some o)⟩) ((Intake.mem_told hsound hslot' _).mpr rfl)
  | some reason => simp [Intake.givenUp, hslot, Slot.opened, Slot.givenUp] at hg

end Bridge.Run

/-- An exchange that ends with its response tells of the status that the response has by then. -/
theorem Exchange.status_of_answered {response : Response} {o : Outcome}
    (h : (answered (.ok (some response))).1.result? = some (.ok o)) :
    response.later = .ok o.status := by
  have hrefusal : ∀ {o : Outcome}, response.refusal = .ok o → response.later = .ok o.status := by
    intro o ho
    obtain ⟨status, f, hl, hf, rfl⟩ := Response.refusal_ok ho
    obtain ⟨text, _, rfl⟩ := Fault.http_eq hf
    exact hl
  simp only [answered] at h
  split at h
  · cases h
  · split at h
    · exact hrefusal (Option.some.inj h)
    · exact hrefusal (Option.some.inj h)
    · cases h

/-- When a unit has come to an outcome whose status is a number or absent and whose cause is
described by a text or by nothing, the worker posts it under the number of the request; the owner
takes it, the request waits no longer, and a caller that has not given up gets it. Of any other
outcome nothing changes on the owner's side. The status is the one that the response says when its
failure is made. -/
theorem responses_accepted (events : List Worker.Event) {k : Nat} {c : Call Stage} {o : Outcome}
    (hk : (Worker.new.after events).pipeline.dispatch.intake.calls[k]? = some c)
    (hp : c.progress = .running (.over (.ok o))) :
    let w := Worker.new.after events
    let posted := Worker.Effect.posts (w.step (.move (.conclude k))).2
    (∀ response, (Exchange.answered (.ok (some response))).1.result? = some (.ok o) →
      response.later = .ok o.status) ∧
    ∃ seq, w.replies.find? (·.1 = k) = some (k, seq) ∧
      (o.status.isStatus = true → o.cause.isCause = true → ∃ v, posted = [v] ∧
        (∃ outcome, FromWorker.ofValue? v = some (.response seq outcome)) ∧
        ∀ (fired : List (Nat × Value)) (past : List Bridge.Event) (n j : Nat),
          let r := (Bridge.Run.start fired).run past
          seq = .ofNat n → r.bridge.seq ≤ 2 ^ 53 → (n, j) ∈ r.bridge.pending →
            (r.step (.message v)).bridge.pending = r.bridge.pending.filter (·.1 ≠ n) ∧
            (r.bridge.intake.givenUp j = false →
              (j, Handle.result (.got (some o.relayed))) ∈ (r.step (.message v)).answers)) ∧
      ((o.status.isStatus && o.cause.isCause) = false → ∀ v ∈ posted,
        FromWorker.ofValue? v = none ∧ ∀ r : Bridge.Run, r.step (.message v) = r) := by
  intro w posted
  obtain ⟨ho, seq, hf, hposted⟩ := (Worker.attends_new.after events).posts_conclude hk hp
  refine ⟨fun _ => Exchange.status_of_answered, seq, hf, fun hs hc => ?_, fun hr v hv => ?_⟩
  · obtain ⟨v, hr, hv⟩ := Outcome.brings_of_regular seq ho (Bool.and_eq_true_iff.mpr ⟨hs, hc⟩)
    obtain ⟨outcome, hvalue, _⟩ := id hv
    refine ⟨v, hposted.trans (by rw [hr .reply]; rfl), ⟨outcome, hvalue⟩, ?_⟩
    rintro fired past n j r rfl hseq hx
    exact ((Bridge.Run.accounted_start fired).run past).answer_taken hseq hx hv
  · have hnone : FromWorker.ofValue? v = none := by
      refine Worker.ofValue_of_irregular seq ho hr ?_
      rw [show posted = _ from hposted] at hv
      exact Option.mem_toList.mp hv
    refine ⟨hnone, fun r => Bridge.Run.step_message_of_no_answer ?_⟩
    simp [Bridge.answer?, hnone]

/-- The client of a worker is asked for its one request. -/
def Worker.asking : List Worker.Event :=
  [.built, .message (ToWorker.request (.ofNat 1) (Request.post "http://a/" []).arrived).toValue,
    .move .turn, .move .turn]

/-- The client answers that. -/
def Worker.responding (r : Attempt (Option Response)) : List Worker.Event :=
  asking ++ [.move (.answered 0 r)]

/-- The exchange of that request is over if the answer ends it. -/
theorem Worker.over_responding {r : Attempt (Option Response)} {o : Outcome}
    (h : (Exchange.answered r).1 = .over (.ok o)) : ∃ c : Call Stage,
      (new.after (responding r)).pipeline.dispatch.intake.calls[0]? = some c ∧
      c.progress = .running (.over (.ok o)) := by
  have hcalls : (new.after (responding r)).pipeline.dispatch.intake.calls = _ :=
    (congrArg (·.dispatch.intake.calls) (lift_pipeline (new.after asking) _)).trans
      ((congrArg Intake.calls (Pipeline.lift_intake _ _)).trans (Dispatch.touched_move
        (attends_new.after asking).sound (m := .answered 0 r) (k := 0) rfl).calls)
  obtain ⟨b, hb, hasking⟩ : ∃ b : Call Stage,
      (new.after asking).pipeline.dispatch.intake.calls[0]? = some b ∧
        b.progress = .running .asking := ⟨_, rfl, rfl⟩
  refine ⟨b.moved (.answered 0 r), ?_, ?_⟩
  · rw [hcalls, Array.getElem?_modify, if_pos rfl, hb]
    rfl
  · simp [Call.moved, hasking, Stage.mapExchange, Exchange.answer, h]

theorem Worker.replies_responding (r : Attempt (Option Response)) :
    (new.after (responding r)).replies = [(0, .ofNat 1)] := by
  have h := attends_new.after asking
  rcases h.sound.settles_move h.serves (.answered 0 r) with hs | ⟨_, _, _, hm, _⟩
  · exact (dispatched_quiet (w := new.after asking) hs).replies
  · cases hm

/-- A response that has no body to discard. -/
def Response.plain (status : Value) : Response := .steady status .absent

/-- Such a response ends its exchange unless its status is that of success. -/
theorem Exchange.answered_plain (status : Value) {text : String}
    (h : (Response.plain status).isOk = false) (ht : status.innerText = .ok text) :
    (answered (.ok (some (.plain status)))).1 = .over (.ok (.failure
      (.ofKind .http ("Http error. Status code " ++ text) status .undefined))) := by
  have hr : (Response.plain status).refusal = .ok (.failure
      (.ofKind .http ("Http error. Status code " ++ text) status .undefined)) := by
    simp [Response.refusal, Response.plain, Response.steady, Fault.http, ht, bind, Except.bind,
      pure, Except.pure]
  have ha : answered (.ok (some (.plain status))) =
      (.over (Response.plain status).refusal, false) := by
    simp only [answered, h, Bool.false_eq_true, if_false]
    rfl
  rw [ha, hr]

theorem responses_accepted_number : ∃ (v : Value) (fault : Fault), fault.status = .number 404 ∧
    Worker.Effect.posts ((Worker.new.after (Worker.responding
      (.ok (some (.plain (.number 404)))))).step (.move (.conclude 0))).2 = [v] ∧
    (0, .error fault.toValue) ∈ (((Bridge.Run.start []).run
      [.send 0 "http://a/" [] none, .forward]).step (.message v)).answers := by
  obtain ⟨c, hk, hp⟩ := Worker.over_responding
    (Exchange.answered_plain (.number 404) (by decide +kernel) rfl)
  obtain ⟨_, seq, hf, htaken, _⟩ := responses_accepted _ hk hp
  obtain ⟨v, hv, _, howner⟩ := htaken rfl rfl
  have hmem := List.mem_of_find?_eq_some hf
  rw [Worker.replies_responding, List.mem_singleton] at hmem
  obtain ⟨_, hanswers⟩ := howner [] [.send 0 "http://a/" [] none, .forward] 1 0
    (Prod.mk.inj hmem).2 (by decide +kernel) (by decide +kernel)
  exact ⟨v, _, rfl, hv, hanswers (by decide +kernel)⟩

/-- A status that is a text is refused though its response can be posted, and so is a failure whose
message is no text. -/
theorem responses_refused :
    (¬ ∀ (events : List Worker.Event) (k : Nat) (c : Call Stage) (o : Outcome) (v : Value),
      (Worker.new.after events).pipeline.dispatch.intake.calls[k]? = some c →
      c.progress = .running (.over (.ok o)) → o.cause.isCause = true →
      Worker.Effect.posts ((Worker.new.after events).step (.move (.conclude k))).2 = [v] →
      (FromWorker.ofValue? v).isSome) ∧
    ¬ ∀ (events : List Worker.Event) (k : Nat) (c : Call Stage) (o : Outcome) (v : Value),
      (Worker.new.after events).pipeline.dispatch.intake.calls[k]? = some c →
      c.progress = .running (.over (.ok o)) → o.status.isStatus = true →
      Worker.Effect.posts ((Worker.new.after events).step (.move (.conclude k))).2 = [v] →
      (FromWorker.ofValue? v).isSome := by
  refine ⟨fun h => ?_, fun h => ?_⟩
  · obtain ⟨c, hk, hp⟩ := Worker.over_responding (Exchange.answered_plain "404" rfl rfl)
    obtain ⟨_, seq, _, hposts⟩ := (Worker.attends_new.after _).posts_conclude hk hp
    cases h _ 0 c _ _ hk hp rfl hposts
  · obtain ⟨c, hk, hp⟩ := Worker.over_responding (r := .error .speechless) rfl
    obtain ⟨_, seq, _, hposts⟩ := (Worker.attends_new.after _).posts_conclude hk hp
    cases h _ 0 c _ _ hk hp rfl hposts

end Courier
