import Courier.Proofs.Past
import Courier.Proofs.Worker

/-!
A worker beside the pipeline that it runs. Until it is told to close it takes every request that
arrives, its client is asked for what its pipeline asks for, and no response that it posts says
that nobody listens, whatever the client does.
-/

namespace Courier

namespace Worker

namespace Effect

/-- The request that the client is asked for. -/
def asked? : Effect → Option Value
  | .inner (.ask _ request) => some request
  | _ => none

/-- The requests that effects pass to the client. -/
def asks (effects : List Effect) : List Value := effects.filterMap asked?

@[simp] theorem asks_append (a b : List Effect) : asks (a ++ b) = asks a ++ asks b :=
  List.filterMap_append

end Effect

open Courier.Worker.Effect

variable {w : Worker} {v : Value} {s : Pipeline × List Courier.Effect}

theorem asked_respond (seq : Binary64) (outcome : Attempt Value) :
    (respond .reply seq outcome).asked? = none := by
  unfold respond
  split
  · rfl
  · split <;> rfl

theorem asks_absorbOne (acc : Worker × List Effect) (e : Courier.Effect) :
    asks (absorbOne acc e).2 = asks acc.2 ++ e.asked?.toList.map (·.2) := by
  cases e with
  | settle t =>
    simp only [absorbOne]
    split
    · simp [asks, asked_respond, Courier.Effect.asked?]
    · simp [Courier.Effect.asked?]
  | _ => simp [absorbOne, asks, Effect.asked?, Courier.Effect.asked?]

/-- The requests among the effects of a pipeline are passed on. -/
theorem asks_absorb (w : Worker) (effects : List Courier.Effect) :
    asks (w.absorb effects).2 = (Courier.Effect.asks effects).map (·.2) := by
  have hfold : ∀ acc : Worker × List Effect, asks (effects.foldl absorbOne acc).2 =
      asks acc.2 ++ (Courier.Effect.asks effects).map (·.2) := by
    induction effects with
    | nil => exact fun _ => (List.append_nil _).symm
    | cons e effects ih =>
      intro acc
      rw [List.foldl_cons, ih, asks_absorbOne, Courier.Effect.asks_cons, List.map_append,
        List.append_assoc]
  exact hfold (w, [])

theorem asks_lift (w : Worker) (s : Pipeline × List Courier.Effect) :
    asks (w.lift s).2 = (Courier.Effect.asks s.2).map (·.2) := by
  have hwrap : ∀ u : Worker, asks u.wrapUp.2 = [] := by
    intro u
    unfold wrapUp
    split <;> rfl
  simp [lift, asks_absorb, hwrap]

/-- What is posted in the course of a pipeline step answers a receive that the step ends. -/
theorem mem_posts_absorb {effects : List Courier.Effect} (h : v ∈ posts (w.absorb effects).2) :
    ∃ t ∈ Courier.Effect.settles effects, ∃ seq,
      (respond .reply seq (outcomeOf t.reading)).posted? = some v := by
  have hfold : ∀ acc : Worker × List Effect, v ∈ posts (effects.foldl absorbOne acc).2 →
      v ∈ posts acc.2 ∨ ∃ t ∈ Courier.Effect.settles effects, ∃ seq,
        (respond .reply seq (outcomeOf t.reading)).posted? = some v := by
    clear h
    induction effects with
    | nil => exact fun _ => Or.inl
    | cons e effects ih =>
      intro acc hv
      rcases ih (absorbOne acc e) hv with hv | ⟨t, ht, hseq⟩
      · unfold absorbOne at hv
        split at hv
        · rename_i t _
          split at hv
          · rename_i seq _
            rw [posts_append, List.mem_append] at hv
            refine hv.imp_right fun hv => ⟨t, ?_, seq, ?_⟩
            · exact List.mem_filterMap.mpr ⟨.settle t, List.mem_cons_self, rfl⟩
            · obtain ⟨x, hx, hp⟩ := List.mem_filterMap.mp hv
              rwa [List.mem_singleton.mp hx] at hp
          · exact Or.inl hv
        · rw [posts_append, List.mem_append] at hv
          exact Or.inl (hv.resolve_right List.not_mem_nil)
        · rw [posts_append, List.mem_append] at hv
          exact Or.inl (hv.resolve_right List.not_mem_nil)
      · refine Or.inr ⟨t, ?_, hseq⟩
        rw [Courier.Effect.settles_cons]
        exact List.mem_append_right _ ht
  exact (hfold (w, []) h).resolve_left List.not_mem_nil

theorem mem_posts_lift (h : v ∈ posts (w.lift s).2) :
    ∃ t ∈ Courier.Effect.settles s.2, ∃ seq,
      (respond .reply seq (outcomeOf t.reading)).posted? = some v := by
  have hsplit : (w.lift s).2 = (({ w with pipeline := s.1 } : Worker).absorb s.2).2 ++
      (({ w with pipeline := s.1 } : Worker).absorb s.2).1.wrapUp.2 := rfl
  rw [hsplit, posts_append, (wrapUp_cases _).1, List.append_nil] at h
  exact mem_posts_absorb h

/-- A step of the pipeline closes the port at most, and only at the very end. -/
theorem phase_lift (w : Worker) (s : Pipeline × List Courier.Effect) :
    (w.lift s).1.phase = w.phase ∨ ∃ result, s.1.closing = .done result := by
  obtain ⟨hpipeline, hphase⟩ := absorb_same { w with pipeline := s.1 } s.2
  obtain ⟨_, _, hw | ⟨_, _, result, hd⟩⟩ :=
    wrapUp_cases (({ w with pipeline := s.1 } : Worker).absorb s.2).1
  · exact Or.inl ((congrArg Worker.phase hw).trans hphase)
  · exact Or.inr ⟨result, by rwa [hpipeline] at hd⟩

/-! Failures in responses -/

/-- The kind of failure that a response tells of, if it tells of one. -/
def failureKind (v : Value) : Value := ((v.field "outcome").field "error").field "kind"

end Worker

/-- An outcome of a request that was taken. -/
def Outcome.Taken : Outcome → Prop
  | .success _ => True
  | .failure fault => ∃ kind : FaultKind, kind ≠ .notListening ∧ fault.kind = .string kind.name
  | .foreign _ => False

theorem Outcome.OfExchange.taken {client : Manner} {o : Outcome} (h : o.OfExchange client) :
    o.Taken := by
  cases o with
  | success body => trivial
  | failure fault =>
    rcases h.kind_eq with hk | hk
    · exact ⟨.http, FaultKind.noConfusion, hk⟩
    · exact ⟨.network, FaultKind.noConfusion, hk⟩
  | foreign v => exact h.elim

theorem FaultKind.name_injective {a b : FaultKind} (h : a.name = b.name) : a = b := by
  cases a <;> cases b <;> first | rfl | simp [name] at h

/-- The record of a failure arrives as a copy. -/
theorem Worker.failure_respond {seq : Binary64} {fault : Fault} {v : Value}
    (h : (respond .reply seq (Outcome.failure fault).post).posted? = some v) :
    v.field "type" = .string "response" ∧ (v.field "outcome").field "ok" = .bool false ∧
      ∃ record, fault.post = .ok record ∧
        record.clone = .ok ((v.field "outcome").field "error") := by
  unfold respond at h
  split at h
  · cases h
  · rename_i posted hp
    simp only [Outcome.post, bind, Except.bind, pure, Except.pure] at hp
    split at hp
    · cases hp
    · rename_i record hr
      obtain rfl := Except.ok.inj hp
      split at h
      · rename_i message hm
        obtain rfl := Option.some.inj h
        have houtcome := Value.clone_field hm "outcome"
        have htype : message.field "type" = .string "response" :=
          (Except.ok.inj (Value.clone_field hm "type")).symm
        have hok : (message.field "outcome").field "ok" = .bool false :=
          (Except.ok.inj (Value.clone_field houtcome "ok")).symm
        exact ⟨htype, hok, record, hr, Value.clone_field houtcome "error"⟩
      · cases h

/-- The kind of a failure arrives as a copy. -/
theorem Worker.failureKind_respond {seq : Binary64} {fault : Fault} {v : Value}
    (h : (respond .reply seq (Outcome.failure fault).post).posted? = some v) :
    fault.kind.clone = .ok (failureKind v) := by
  obtain ⟨_, _, record, hr, hclone⟩ := failure_respond h
  obtain ⟨rest, rfl⟩ := Fault.post_eq hr
  exact Value.clone_field hclone "kind"

theorem Worker.respond_taken {seq : Binary64} {o : Outcome} {v : Value} (ho : o.Taken)
    (h : (respond .reply seq o.post).posted? = some v) :
    failureKind v ≠ .string FaultKind.notListening.name := by
  cases o with
  | success body =>
    obtain rfl := Option.some.inj h
    exact Value.noConfusion
  | failure fault =>
    obtain ⟨kind, hkind, hk⟩ := ho
    have hkept := failureKind_respond h
    rw [hk] at hkept
    rw [← Except.ok.inj hkept]
    exact fun he => hkind (FaultKind.name_injective (Value.string.inj he))
  | foreign x => exact ho.elim

namespace Pipeline.Run

variable {p : Pipeline.Run} {past : Nat → List Own}

/-- A receive that has ended tells of a request that was taken. -/
theorem Settling.taken (h : p.Settling) (hr : p.dispatch.Recalls past) {t : Courier.Settled}
    (ht : t ∈ p.told) : ∃ o : Outcome, Worker.outcomeOf t.reading = o.post ∧ o.Taken := by
  have hdied : (Outcome.failure Fault.diedWithoutResponse).Taken :=
    ⟨.diedWithoutResponse, FaultKind.noConfusion, rfl⟩
  obtain ⟨c, hc, hslot⟩ := (h.intake.told.mem t).mp ht
  cases hread : t.reading with
  | refused reason => exact ⟨_, rfl, hdied⟩
  | got outcome =>
    cases outcome with
    | none => exact ⟨_, rfl, hdied⟩
    | some o =>
      rw [hread] at hslot
      obtain ⟨result, hout, ho⟩ := (hr.call t.call c hc).got (some o) hslot
      cases result with
      | error e => cases ho
      | ok x =>
        obtain rfl := Option.some.inj ho
        exact ⟨o, rfl, (Embedded.outcome_of_exchange hout).taken⟩

end Pipeline.Run

namespace Worker.Run

open Courier.Worker.Effect

/-- A worker that runs a pipeline has taken these requests so far, and has asked its client for
those. -/
structure Carries (w : Run) (p : Pipeline.Run) (taken : List Request) (asked : List Value) :
    Prop where
  pipeline : w.worker.pipeline = p.pipeline
  settling : p.Settling
  recalls : ∃ past, p.dispatch.Recalls past
  taken : p.accepted.map (·.2) = taken.map Request.toValue
  asked : asked = p.asked.map (·.2)
  finished : p.pipeline.closing ≠ .no → p.dispatch.loop.hand = .over
  phase : w.worker.phase = .running ∨ p.dispatch.loop.hand = .over
  sent : ∀ v ∈ w.sent, failureKind v ≠ .string FaultKind.notListening.name

theorem carries_start : start.Carries (.start []) [] [] :=
  ⟨rfl, Pipeline.Run.settling_start [], ⟨_, Dispatch.recalls_new []⟩, rfl, rfl,
    fun h => (h rfl).elim, Or.inl rfl, by simp [start]⟩

variable {w x : Run} {p q : Pipeline.Run} {taken : List Request} {asked : List Value}

/-- A step of the pipeline that is lifted to the worker. -/
theorem Carries.lifted (h : w.Carries p taken asked) {u : Worker}
    {s : Pipeline × List Courier.Effect} {more : List Request} (hsettling : q.Settling)
    (hrecalls : ∃ past, q.dispatch.Recalls past) (hu : u.phase = w.worker.phase)
    (hs : s.1 = q.pipeline) (hasks : q.asked = p.asked ++ Courier.Effect.asks s.2)
    (htold : ∀ t ∈ Courier.Effect.settles s.2, t ∈ q.told)
    (hmore : q.accepted.map (·.2) = p.accepted.map (·.2) ++ more.map Request.toValue)
    (hfinished : q.pipeline.closing ≠ .no → q.dispatch.loop.hand = .over)
    (hover : p.dispatch.loop.hand = .over → q.dispatch.loop.hand = .over)
    (hx : x.worker = (u.lift s).1) (hsent : x.sent = w.sent ++ posts (u.lift s).2) :
    x.Carries q (taken ++ more) (asked ++ asks (u.lift s).2) := by
  refine ⟨?pipeline, hsettling, hrecalls, ?taken, ?asked, hfinished, ?phase, ?sent⟩
  case pipeline => rw [hx, lift_pipeline, hs]
  case taken => rw [hmore, h.taken, List.map_append]
  case asked => rw [hasks, List.map_append, ← h.asked, asks_lift]
  case phase =>
    rw [hx]
    rcases phase_lift u s with hp | ⟨result, hd⟩
    · rw [hp, hu]
      exact h.phase.imp_right hover
    · refine Or.inr (hfinished ?_)
      rw [← hs, hd]
      exact Closing.noConfusion
  case sent =>
    intro v hv
    rw [hsent, List.mem_append] at hv
    rcases hv with hv | hv
    · exact h.sent v hv
    · obtain ⟨t, ht, seq, hp⟩ := mem_posts_lift hv
      obtain ⟨past, hpast⟩ := hrecalls
      obtain ⟨o, ho, htaken⟩ := hsettling.taken hpast (htold t ht)
      rw [ho] at hp
      exact respond_taken htaken hp

/-- A step of the dispatch that is lifted to the worker. A loop that is over stays over, and the
client is told to close only then. -/
theorem Carries.dispatched (h : w.Carries p taken asked) {u : Worker}
    {s : Dispatch × List Courier.Effect} {more : List Request} (hq : q.pipeline = p.pipeline)
    (hasked : q.asked = p.asked)
    (hmore : q.accepted.map (·.2) = p.accepted.map (·.2) ++ more.map Request.toValue)
    (hsettling : (q.lift s).Settling) (hrecalls : ∃ past, (q.lift s).dispatch.Recalls past)
    (hover : p.dispatch.loop.hand = .over → s.1.loop.hand = .over)
    (hphase : u.phase = w.worker.phase) (hu : u.pipeline = w.worker.pipeline)
    (hx : x.worker = (u.liftDispatch s).1) (hsent : x.sent = w.sent ++ posts (u.liftDispatch s).2) :
    x.Carries (q.lift s) (taken ++ more) (asked ++ asks (u.liftDispatch s).2) := by
  have hover' : p.dispatch.loop.hand = .over → (q.lift s).dispatch.loop.hand = .over := by
    rw [Pipeline.Run.lift_loop]
    exact hover
  refine h.lifted (s := u.pipeline.lift Log.calm s) hsettling hrecalls hphase ?_ ?_ ?_ hmore
    (fun hc => ?_) hover' hx hsent
  · rw [hu, h.pipeline, ← hq]
    rfl
  · rw [Pipeline.asks_lift, Pipeline.Run.lift_asked, hasked]
  · rw [Pipeline.settles_lift, Pipeline.Run.lift_told]
    exact fun t ht => List.mem_append_right _ ht
  · rcases Pipeline.closing_lift hc with hc | hc
    · exact hover' (h.finished (hq ▸ hc))
    · rw [Pipeline.Run.lift_loop]
      exact hc

theorem Carries.dispatch (h : w.Carries p taken asked) : w.dispatch = p.dispatch :=
  congrArg Pipeline.dispatch h.pipeline

/-- A step of the dispatch that takes no request. -/
theorem Carries.internal (h : w.Carries p taken asked) {s : Dispatch × List Courier.Effect}
    (hsettling : (p.lift s).Settling) (hrecalls : ∃ past, (p.lift s).dispatch.Recalls past)
    (hover : p.dispatch.loop.hand = .over → s.1.loop.hand = .over)
    (hx : x.worker = (w.worker.liftDispatch s).1)
    (hsent : x.sent = w.sent ++ posts (w.worker.liftDispatch s).2) :
    x.Carries (p.lift s) taken (asked ++ asks (w.worker.liftDispatch s).2) := by
  have hnone : p.accepted.map (·.2) =
      p.accepted.map (·.2) ++ ([] : List Request).map Request.toValue := (List.append_nil _).symm
  have hcarries := h.dispatched rfl rfl hnone hsettling hrecalls hover rfl rfl hx hsent
  rwa [List.append_nil] at hcarries

/-- Something happens to the unit of a request. -/
theorem Carries.move (h : w.Carries p taken asked) {m : Move}
    (hm : w.dispatch.allows m = true) : (w.move m).Carries (p.step (.move m)) taken
      (asked ++ asks (w.worker.liftDispatch (w.dispatch.move m)).2) := by
  obtain ⟨past, hrecalls⟩ := h.recalls
  rw [h.dispatch] at hm ⊢
  have hsettling : (p.step (.move m)).Settling := h.settling.step rfl
  have hpast : ∃ past, (p.step (.move m)).dispatch.Recalls past :=
    ⟨_, h.settling.recalls_step hrecalls rfl hm⟩
  refine h.internal hsettling hpast (Dispatch.move_over h.settling.ordered.sound m) ?_ ?_
  · rw [← h.dispatch]
    rfl
  · rw [← h.dispatch]
    rfl

theorem Carries.clientClosed (h : w.Carries p taken asked) (result : Attempt Unit) :
    (w.clientClosed result).Carries (p.step (.clientClosed result)) taken
      (asked ++ asks (w.worker.lift (w.worker.pipeline.clientClosed result)).2) := by
  obtain ⟨past, hrecalls⟩ := h.recalls
  have hd := p.dispatch_clientClosed result
  have hnone : (p.step (.clientClosed result)).accepted.map (·.2) =
      p.accepted.map (·.2) ++ ([] : List Request).map Request.toValue := (List.append_nil _).symm
  have hlift := h.lifted (x := w.clientClosed result) (u := w.worker)
    (s := w.worker.pipeline.clientClosed result) (q := p.step (.clientClosed result))
    (h.settling.step rfl) ⟨_, h.settling.recalls_step hrecalls rfl rfl⟩ rfl ?_ ?_ ?_ hnone ?_ ?_ rfl
    rfl
  · rwa [List.append_nil] at hlift
  · rw [h.pipeline]
    rfl
  · have hasks : Courier.Effect.asks (w.worker.pipeline.clientClosed result).2 = [] := by
      unfold Pipeline.clientClosed
      split <;> rfl
    rw [hasks, List.append_nil]
    rfl
  · rw [w.worker.pipeline.settles_closed result]
    exact fun t ht => (List.not_mem_nil ht).elim
  · intro hc
    rw [hd]
    refine h.finished fun hno => hc ?_
    simp [Pipeline.Run.step, Pipeline.clientClosed, hno]
  · rw [hd]
    exact id

/-- A loop whose channel is open goes on. -/
theorem Carries.over (h : w.Carries p taken asked)
    (hc : p.dispatch.intake.channel.closed = false) : p.dispatch.loop.hand ≠ .over := by
  intro ho
  rw [(h.settling.ordered.sound.coupled.ended (Or.inl ho)).1] at hc
  cases hc

/-- A worker that has not been told to close listens. -/
theorem Carries.running (h : w.Carries p taken asked)
    (hc : p.dispatch.intake.channel.closed = false) : w.worker.phase = .running :=
  h.phase.resolve_right (h.over hc)

/-- A request that arrives is taken. -/
theorem Carries.request (h : w.Carries p taken asked)
    (hg : p.dispatch.intake.channel.gate = (Channel.new : Channel Nat).gate) {v : Value}
    {seq : Binary64} {uri : String} {payload : Bytes}
    (hv : ToWorker.ofValue? v = some (.request seq (Request.post uri payload).arrived)) :
    ∃ q, (w.message v).Carries q (taken ++ [.post uri payload])
        (asked ++ asks (w.worker.message v).2) ∧
      q.dispatch.intake.channel.gate = (Channel.new : Channel Nat).gate := by
  have hclosed := Channel.closed_of_gate hg
  have hopen : p.dispatch.intake.channel.isClosed sender = false := Channel.isClosed_of_gate hg _
  obtain ⟨effects, ⟨hquiet, hnone⟩, hm⟩ :=
    message_request (h.running hclosed) (h.dispatch ▸ hopen) hv
  have ha := arrived_admitted p.dispatch uri payload
  rw [h.dispatch] at hm
  generalize admitted p.dispatch uri payload = d at ha hm
  have hsent : p.dispatch.intake.sent sender (.post uri payload) none .waiting =
      Run.taken uri payload := by
    simp [Intake.sent, hopen, Run.taken, Intake.reason?]
  obtain ⟨past, hpast⟩ := h.recalls
  have hordered : ((p.note (!p.dispatch.intake.channel.isClosed sender) (.post uri payload)
      none).lift (d, effects)).Ordered := h.settling.ordered.arrived ha rfl rfl hnone
  rw [hopen, Bool.not_false] at hordered
  have hintake := h.settling.intake.sent (hsent ▸ ha.calls) ha.fired
  have hlift : ((p.note true (.post uri payload) none).lift (d, effects)).dispatch.intake =
      d.intake := Pipeline.Run.lift_intake _ _
  have hsettling : ((p.note true (.post uri payload) none).lift (d, effects)).Settling := by
    refine ⟨hordered, ?_⟩
    rw [hlift]
    simpa [Pipeline.Run.note, hquiet, hopen, Intake.reason?] using hintake
  refine ⟨(p.note true (.post uri payload) none).lift (d, effects), ?_, ?_⟩
  · rw [hm]
    refine h.dispatched rfl rfl ?_ hsettling ⟨past, ?_⟩ (fun ho => (h.over hclosed ho).elim) rfl rfl
      ?_ ?_
    · simp [Pipeline.Run.note]
    · exact hpast.push (hlift ▸ ha.calls) rfl fun o => Slot.not_got_opened none o
    · rw [Run.message, hm]
      rfl
    · rw [Run.message, hm]
      rfl
  · rw [hlift, ha.channel, Channel.gate_send, hg]

/-- When the owner tells the worker to close, what was taken before stays. -/
theorem Carries.close (h : w.Carries p taken asked)
    (hg : p.dispatch.intake.channel.gate = (Channel.new : Channel Nat).gate) {v : Value}
    (hv : ToWorker.ofValue? v = some .close) :
    (w.message v).Carries (p.step (.release sender)) taken
      (asked ++ asks (w.worker.message v).2) := by
  obtain ⟨past, hrecalls⟩ := h.recalls
  have hclosed := Channel.closed_of_gate hg
  have hrun := h.running hclosed
  have hm : w.worker.message v =
      ((w.worker.liftDispatch (p.dispatch.release sender)).1,
        .log ⟨.debug, "Owner released the transport", []⟩ ::
          (w.worker.liftDispatch (p.dispatch.release sender)).2) := by
    rw [← h.dispatch]
    unfold Worker.message Worker.release
    simp only [hrun, hv]
    rfl
  have hsettling : (p.step (.release sender)).Settling := h.settling.step rfl
  have hpast : ∃ past, (p.step (.release sender)).dispatch.Recalls past :=
    ⟨_, h.settling.recalls_step hrecalls rfl rfl⟩
  have hreleased := h.internal (x := w.message v) hsettling hpast
    (fun ho => (h.over hclosed ho).elim) (by rw [Run.message, hm]; rfl)
    (by rw [Run.message, hm]; rfl)
  rw [hm]
  exact hreleased

end Worker.Run

end Courier
