import Courier.Proofs.Settlement
import Courier.Proofs.Wire

/-!
A worker from the moment when it is ready. It numbers the requests that it takes as their owner
does, and when the unit of a request has ended it posts one response under that number, which is
never one that cannot be copied.
-/

namespace Courier

namespace Worker

namespace Effect

def posted? : Effect → Option Value
  | .post message | .reply message => some message
  | _ => none

def crash? : Effect → Option Value
  | .crash v => some v
  | _ => none

/-- The messages that effects post. -/
def posts (effects : List Effect) : List Value := effects.filterMap posted?

/-- The values that nothing catches. -/
def crashes (effects : List Effect) : List Value := effects.filterMap crash?

@[simp] theorem posts_append (a b : List Effect) : posts (a ++ b) = posts a ++ posts b :=
  List.filterMap_append

@[simp] theorem crashes_append (a b : List Effect) : crashes (a ++ b) = crashes a ++ crashes b :=
  List.filterMap_append

/-- Effects within the worker or on its log. -/
def isQuiet : Effect → Bool
  | .inner _ | .log _ => true
  | _ => false

theorem posts_quiet {es : List Effect} (h : ∀ e ∈ es, e.isQuiet = true) : posts es = [] :=
  List.filterMap_eq_nil_iff.mpr fun e he => by
    have hq := h e he
    cases e <;> simp_all [isQuiet, posted?]

theorem crashes_quiet {es : List Effect} (h : ∀ e ∈ es, e.isQuiet = true) : crashes es = [] :=
  List.filterMap_eq_nil_iff.mpr fun e he => by
    have hq := h e he
    cases e <;> simp_all [isQuiet, crash?]

end Effect

open Courier.Worker.Effect

variable {w : Worker}

/-- One effect of the pipeline is passed on. -/
def absorbOne (acc : Worker × List Effect) (e : Courier.Effect) : Worker × List Effect :=
  match e with
  | .settle s =>
    match acc.1.replies.find? (·.1 = s.call) with
    | some (k, seq) =>
      ({ acc.1 with replies := acc.1.replies.filter (·.1 ≠ k) },
        acc.2 ++ [respond .reply seq (outcomeOf s.reading)])
    | none => acc
  | .log entry => (acc.1, acc.2 ++ [.log entry])
  | e => (acc.1, acc.2 ++ [.inner e])

theorem absorb_eq (w : Worker) (effects : List Courier.Effect) :
    w.absorb effects = effects.foldl absorbOne (w, []) := rfl

/-- What is no end of a receive changes nothing and is passed on quietly. -/
theorem foldl_quiet {effects : List Courier.Effect} (h : Courier.Effect.settles effects = [])
    (acc : Worker × List Effect) : ∃ es, (∀ e ∈ es, e.isQuiet = true) ∧
      effects.foldl absorbOne acc = (acc.1, acc.2 ++ es) := by
  induction effects generalizing acc with
  | nil => exact ⟨[], by simp, by simp⟩
  | cons e effects ih =>
    rw [Courier.Effect.settles_cons, List.append_eq_nil_iff] at h
    obtain ⟨es, hes, heq⟩ := ih h.2 (absorbOne acc e)
    rw [List.foldl_cons, heq]
    cases e with
    | settle s => simp [Courier.Effect.settled?] at h
    | log entry => exact ⟨.log entry :: es, by simpa [isQuiet] using hes, by simp [absorbOne]⟩
    | wake => exact ⟨.inner .wake :: es, by simpa [isQuiet] using hes, by simp [absorbOne]⟩
    | _ => exact ⟨.inner _ :: es, by simpa [isQuiet] using hes, by simp [absorbOne]; rfl⟩

theorem absorb_quiet {effects : List Courier.Effect} (h : Courier.Effect.settles effects = []) :
    ∃ es, (∀ e ∈ es, e.isQuiet = true) ∧ w.absorb effects = (w, es) := foldl_quiet h (w, [])

/-- The end of a receive is answered under the number that its call waits under. -/
theorem absorb_settled {effects : List Courier.Effect} {s : Settled} {seq : Binary64}
    (h : Courier.Effect.settles effects = [s])
    (hf : w.replies.find? (·.1 = s.call) = some (s.call, seq)) :
    ∃ before after, (∀ e ∈ before, e.isQuiet = true) ∧ (∀ e ∈ after, e.isQuiet = true) ∧
      w.absorb effects = ({ w with replies := w.replies.filter (·.1 ≠ s.call) },
        before ++ respond .reply seq (outcomeOf s.reading) :: after) := by
  obtain ⟨before, e, after, rfl, hbefore, he, hafter⟩ := List.filterMap_eq_cons_iff.mp h
  obtain rfl : e = .settle s := by
    cases e with
    | settle t => simpa [Courier.Effect.settled?] using he
    | _ => cases he
  have hb : Courier.Effect.settles before = [] := List.filterMap_eq_nil_iff.mpr hbefore
  obtain ⟨es, hes, heq⟩ := foldl_quiet hb (w, [])
  obtain ⟨es', hes', heq'⟩ :=
    foldl_quiet hafter (absorbOne (before.foldl absorbOne (w, [])) (.settle s))
  have hone : absorbOne (before.foldl absorbOne (w, [])) (.settle s) =
      ({ w with replies := w.replies.filter (·.1 ≠ s.call) },
        es ++ [respond .reply seq (outcomeOf s.reading)]) := by
    simp only [absorbOne, heq, hf, List.nil_append]
  refine ⟨es, es', hes, hes', ?_⟩
  rw [absorb_eq, List.foldl_append, List.foldl_cons, heq', hone]
  simp

theorem absorb_same (w : Worker) (effects : List Courier.Effect) :
    (w.absorb effects).1.pipeline = w.pipeline ∧ (w.absorb effects).1.phase = w.phase := by
  have hfold : ∀ acc : Worker × List Effect,
      (effects.foldl absorbOne acc).1.pipeline = acc.1.pipeline ∧
        (effects.foldl absorbOne acc).1.phase = acc.1.phase := by
    induction effects with
    | nil => exact fun _ => ⟨rfl, rfl⟩
    | cons e effects ih =>
      intro acc
      have hone : (absorbOne acc e).1.pipeline = acc.1.pipeline ∧
          (absorbOne acc e).1.phase = acc.1.phase := by
        unfold absorbOne
        split
        · split <;> exact ⟨rfl, rfl⟩
        · exact ⟨rfl, rfl⟩
        · exact ⟨rfl, rfl⟩
      obtain ⟨hp, hphase⟩ := ih (absorbOne acc e)
      exact ⟨hp.trans hone.1, hphase.trans hone.2⟩
  exact hfold (w, [])

/-- The end of the worker posts nothing, and comes when everything is done and answered. -/
theorem wrapUp_cases (w : Worker) : posts w.wrapUp.2 = [] ∧ crashes w.wrapUp.2 = [] ∧
    ((w.wrapUp).1 = w ∨ ((w.wrapUp).1 = { w with phase := .closed } ∧ w.replies = [] ∧
      ∃ result, w.pipeline.closing = .done result)) := by
  unfold wrapUp
  split
  · rename_i result hp hc hr
    exact ⟨rfl, rfl, Or.inr ⟨rfl, hr, result, hc⟩⟩
  · exact ⟨rfl, rfl, Or.inl rfl⟩

/-- What a step of the pipeline makes of a worker: the replies that are left, and what it posts. -/
structure Lifted (w : Worker) (p : Pipeline) (left : List (Nat × Binary64)) (sent : List Value)
    (r : Worker × List Effect) : Prop where
  pipeline : r.1.pipeline = p
  replies : r.1.replies = left
  posted : posts r.2 = sent
  caught : crashes r.2 = []
  phase : r.1.phase = w.phase ∨
    r.1.phase = .closed ∧ left = [] ∧ ∃ result, p.closing = .done result

theorem lift_of_absorb {p : Pipeline} {effects : List Courier.Effect}
    {replies : List (Nat × Binary64)} {sent : List Value}
    (h : ({ w with pipeline := p }.absorb effects).1 =
      { w with pipeline := p, replies := replies })
    (hp : posts ({ w with pipeline := p }.absorb effects).2 = sent)
    (hc : crashes ({ w with pipeline := p }.absorb effects).2 = []) :
    w.Lifted p replies sent (w.lift (p, effects)) := by
  obtain ⟨hposts, hcrashes, hcase⟩ := wrapUp_cases { w with pipeline := p, replies := replies }
  have h1 : (w.lift (p, effects)).1 =
      ({ w with pipeline := p, replies := replies } : Worker).wrapUp.1 := by
    rw [← h]
    rfl
  have h2 : (w.lift (p, effects)).2 = ({ w with pipeline := p }.absorb effects).2 ++
      ({ w with pipeline := p, replies := replies } : Worker).wrapUp.2 := by
    rw [← h]
    rfl
  rcases hcase with hw | ⟨hw, hr, hd⟩
  · exact ⟨by rw [h1, hw], by rw [h1, hw], by simp [h2, hp, hposts], by simp [h2, hc, hcrashes],
      Or.inl (by rw [h1, hw])⟩
  · exact ⟨by rw [h1, hw], by rw [h1, hw], by simp [h2, hp, hposts], by simp [h2, hc, hcrashes],
      Or.inr ⟨by rw [h1, hw], hr, hd⟩⟩

theorem lift_pipeline (w : Worker) (step : Pipeline × List Courier.Effect) :
    (w.lift step).1.pipeline = step.1 := by
  have ha := (absorb_same { w with pipeline := step.1 } step.2).1
  obtain ⟨_, _, hw | ⟨hw, _⟩⟩ := wrapUp_cases ({ w with pipeline := step.1 }.absorb step.2).1
  · exact (congrArg Worker.pipeline hw).trans ha
  · exact (congrArg Worker.pipeline hw).trans ha

theorem lifted_quiet {p : Pipeline} {effects : List Courier.Effect}
    (h : Courier.Effect.settles effects = []) :
    w.Lifted p w.replies [] (w.lift (p, effects)) := by
  obtain ⟨es, hes, heq⟩ := absorb_quiet (w := { w with pipeline := p }) h
  exact lift_of_absorb (by rw [heq]) (by rw [heq, posts_quiet hes]) (by rw [heq, crashes_quiet hes])

theorem lifted_settled {p : Pipeline} {effects : List Courier.Effect} {t : Settled}
    {seq : Binary64} {v : Value} (h : Courier.Effect.settles effects = [t])
    (hf : w.replies.find? (·.1 = t.call) = some (t.call, seq))
    (hr : respond .reply seq (outcomeOf t.reading) = .reply v) :
    w.Lifted p (w.replies.filter (·.1 ≠ t.call)) [v] (w.lift (p, effects)) := by
  obtain ⟨before, after, hb, ha, heq⟩ := absorb_settled (w := { w with pipeline := p }) h hf
  rw [hr] at heq
  refine lift_of_absorb (by rw [heq]) ?_ ?_ <;> rw [heq]
  · rw [posts_append, posts_quiet hb]
    exact congrArg (v :: ·) (posts_quiet ha)
  · rw [crashes_append, crashes_quiet hb]
    show crashes after = []
    exact crashes_quiet ha

variable {s : Dispatch × List Courier.Effect}

theorem dispatched_quiet (h : Courier.Effect.settles s.2 = []) :
    w.Lifted (w.pipeline.lift Log.calm s).1 w.replies [] (w.liftDispatch s) :=
  lifted_quiet ((Pipeline.settles_lift w.pipeline s).trans h)

theorem dispatched_settled {t : Settled} {seq : Binary64} {v : Value}
    (h : Courier.Effect.settles s.2 = [t])
    (hf : w.replies.find? (·.1 = t.call) = some (t.call, seq))
    (hr : respond .reply seq (outcomeOf t.reading) = .reply v) :
    w.Lifted (w.pipeline.lift Log.calm s).1 (w.replies.filter (·.1 ≠ t.call)) [v]
      (w.liftDispatch s) :=
  lifted_settled ((Pipeline.settles_lift w.pipeline s).trans h) hf hr

end Worker

namespace Pipeline

theorem closing_lift {p : Pipeline} {s : Dispatch × List Effect}
    (h : (p.lift Log.calm s).1.closing ≠ .no) : p.closing ≠ .no ∨ s.1.loop.hand = .over := by
  unfold lift at h
  dsimp only at h
  split at h
  · rename_i result _ hl
    exact Or.inr (by rw [hl]; rfl)
  · exact Or.inl h

end Pipeline

/-! Calls of a worker -/

/-- A call of a worker waits until its unit ends; its exchange is with a client of some manner. -/
def Call.Serves (client : Manner) (c : Call Stage) : Prop :=
  c.signal = none ∧
    match c.progress with
    | .waiting => c.slot = .opened none
    | .running e => c.slot = .opened none ∧ e.Sound client
    | .ended _ | .retired _ => ∃ reading, c.slot.reader = .settled reading

/-- The statuses of a response are numbers. -/
def Response.isNumeric (r : Response) : Bool :=
  r.status.isNumber && (r.later.toOption.all Value.isNumber)

/-- The statuses that the client reports are numbers, and its failures are described by texts or by
nothing. -/
def Move.isPlain : Move → Bool
  | .answered _ (.ok (some response)) => response.isNumeric
  | .answered _ (.error v) | .bodyEnded _ (.error v) => v.isTextual
  | _ => true

/-- What the client does is of some manner. -/
def Move.Reports (client : Manner) : Move → Prop
  | .answered _ r => client.Answers r
  | .bodyEnded _ r => client.Ends r
  | .turn | .chunk .. | .conclude _ | .retire _ => True

theorem Move.reports_any (m : Move) : m.Reports .any := by
  cases m with
  | answered k r => exact Manner.any_answers r
  | bodyEnded k r => exact Manner.any_ends r
  | turn | chunk | conclude | retire => trivial

theorem Response.says_of_isNumeric {r : Response} (h : r.isNumeric = true) {cause : Value → Prop} :
    (Manner.mk (·.isNumber = true) cause).Says r := by
  simp only [isNumeric, Bool.and_eq_true] at h
  refine ⟨h.1, fun status hs => ?_⟩
  have hl := h.2
  rw [hs] at hl
  exact hl

theorem Move.reports_plain {m : Move} (h : m.isPlain = true) : m.Reports .plain := by
  cases m with
  | answered k r =>
    rcases r with v | _ | response
    · exact h
    · trivial
    · exact Response.says_of_isNumeric h
  | bodyEnded k r =>
    cases r with
    | error v => exact h
    | ok memory => trivial
  | turn | chunk | conclude | retire => trivial

section

variable {client : Manner}

theorem Call.Serves.reader {c : Call Stage} (h : c.Serves client) :
    c.slot.reader = .waiting ∨ ∃ reading, c.slot.reader = .settled reading := by
  have hs := h.2
  cases hp : c.progress with
  | waiting =>
    rw [hp] at hs
    exact Or.inl (by rw [hs]; rfl)
  | running e =>
    rw [hp] at hs
    exact Or.inl (by rw [hs.1]; rfl)
  | ended | retired =>
    rw [hp] at hs
    exact Or.inr hs

theorem Call.Serves.mapExchange {c : Call Stage} {f : Exchange → Exchange} (h : c.Serves client)
    (hf : ∀ e, e.Sound client → (f e).Sound client) :
    ({ c with progress := c.progress.mapExchange f } : Call Stage).Serves client := by
  refine ⟨h.1, ?_⟩
  have hs := h.2
  cases hp : c.progress with
  | running e =>
    rw [hp] at hs
    exact ⟨hs.1, hf e hs.2⟩
  | _ =>
    rw [hp] at hs
    exact hs

theorem Call.Serves.begun {c : Call Stage} (h : c.Serves client) (hp : c.progress = .waiting) :
    (Dispatch.begun c).Serves client := by
  obtain ⟨hsignal, hs⟩ := h
  rw [hp] at hs
  exact ⟨hsignal, hs, Exchange.sound_asking⟩

theorem Call.Serves.concluded {c : Call Stage} (h : c.Serves client) : c.concluded.Serves client := by
  unfold Call.concluded
  split
  · rename_i result hp
    have hs := h.2
    rw [hp] at hs
    refine ⟨h.1, ?_⟩
    simp only [hs.1]
    exact ⟨_, Slot.reader_concluded (Slot.sound_opened none) rfl result⟩
  · exact h

/-- The receive of a call whose exchange is over waits. -/
theorem Call.Serves.over {c : Call Stage} (h : c.Serves client) {result : Attempt Outcome}
    (hp : c.progress = .running (.over result)) : c.slot.reader = .waiting ∧
      ∀ o, result.toOption = some o → o.OfExchange client := by
  have hs := h.2
  rw [hp] at hs
  refine ⟨by rw [hs.1]; rfl, fun x hx => ?_⟩
  cases result with
  | error e => cases hx
  | ok o =>
    obtain rfl := Option.some.inj hx
    exact hs.2 o rfl

theorem Call.Serves.moved {c : Call Stage} (h : c.Serves client) {m : Move} (hm : m.Reports client) :
    (c.moved m).Serves client := by
  cases m with
  | turn => exact h
  | answered k r =>
    exact h.mapExchange fun e he => Exchange.sound_answer he hm
  | chunk k v => exact h.mapExchange fun e he => Exchange.sound_chunk he v
  | bodyEnded k r => exact h.mapExchange fun e he => Exchange.sound_bodyEnded he hm
  | conclude k => exact h.concluded
  | retire k =>
    refine ⟨h.1, ?_⟩
    have hs := h.2
    cases hp : c.progress with
    | ended failure =>
      rw [hp] at hs
      simpa [Call.moved, hp, Stage.retire] using hs
    | _ =>
      rw [hp] at hs
      simpa [Call.moved, hp, Stage.retire] using hs

namespace Dispatch

variable {d : Dispatch}

/-- The end of a unit whose exchange is over ends the receive of its call. -/
theorem Sound.settles_conclude (h : d.Sound) {k : Nat} {c : Call Stage}
    (hk : d.intake.calls[k]? = some c) (hc : c.Serves client) {result : Attempt Outcome}
    (hp : c.progress = .running (.over result)) :
    Effect.settles (d.move (.conclude k)).2 = [⟨k, .got result.toOption⟩] ∧
      ∀ x, (d.move (.conclude k)).1.intake.calls[k]? = some x → x.slot.reader ≠ .waiting := by
  have ht := touched_move h (m := .conclude k) rfl
  have hslot := hc.2
  rw [hp] at hslot
  have hr := Slot.reader_concluded (Slot.sound_opened none) rfl result
  have hmoved : (c.moved (.conclude k)).slot = (Slot.opened none).concluded result := by
    simp [Call.moved, Call.concluded, hp, hslot.1]
  have hn := Intake.mem_news (i := d.intake)
    (f := fun c => (c.moved (.conclude k)).slot) (s := ⟨k, .got result.toOption⟩) |>.mpr
      ⟨rfl, c, hk, by rw [hslot.1]; rfl, by rw [hmoved, hr]⟩
  refine ⟨by rw [ht.settles, hn]; rfl, fun x hx hwait => ?_⟩
  rw [ht.calls, Array.getElem?_modify, if_pos rfl, hk] at hx
  obtain rfl := Option.some.inj hx
  simp [hmoved, hr] at hwait

/-- A move ends a receive only by ending a unit whose exchange is over. -/
theorem Sound.settles_move (h : d.Sound)
    (hserves : ∀ (j : Nat) (c : Call Stage), d.intake.calls[j]? = some c → c.Serves client)
    (m : Move) :
    Effect.settles (d.move m).2 = [] ∨
      ∃ (j : Nat) (c : Call Stage) (result : Attempt Outcome), m = .conclude j ∧
        d.intake.calls[j]? = some c ∧ c.progress = .running (.over result) ∧
        Effect.settles (d.move m).2 = [⟨j, .got result.toOption⟩] ∧
        ∀ x, (d.move m).1.intake.calls[j]? = some x → x.slot.reader ≠ .waiting := by
  cases hm : m.own? with
  | none =>
    obtain rfl := Move.eq_turn hm
    exact Or.inl (turn_cases h).2.1
  | some j =>
    have ht := touched_move h hm
    cases m with
    | conclude k =>
      obtain rfl : k = j := Option.some.inj hm
      cases hk : d.intake.calls[k]? with
      | none => exact Or.inl (by simp [ht.settles, Intake.news, hk])
      | some c =>
        by_cases hp : ∃ result, c.progress = .running (.over result)
        · obtain ⟨result, hp⟩ := hp
          exact Or.inr ⟨k, c, result, rfl, hk, hp, h.settles_conclude hk (hserves k c hk) hp⟩
        · rw [ht.settles]
          refine Or.inl (quiet_news fun x hx => ?_)
          obtain rfl := Option.some.inj (hk.symm.trans hx)
          obtain ⟨_, hm⟩ | ⟨result, hp', _⟩ := moved_cases (.conclude k) c
          · rw [hm]
          · exact (hp ⟨result, hp'⟩).elim
    | _ =>
      rw [ht.settles]
      exact Or.inl (quiet_news fun _ _ => rfl)

/-- Calls go on serving. -/
theorem Sound.serves_move (h : d.Sound)
    (hserves : ∀ (j : Nat) (c : Call Stage), d.intake.calls[j]? = some c → c.Serves client)
    {m : Move} (hm : m.Reports client) (j : Nat) (c : Call Stage)
    (hc : (d.move m).1.intake.calls[j]? = some c) : c.Serves client := by
  obtain ⟨b, hb, hbc⟩ := h.became hc
  cases hbc with
  | own => exact (hserves j b hb).moved hm
  | begun _ _ hw => exact (hserves j b hb).begun hw
  | aside => exact hserves j _ hb

/-- A call that waits after a move has waited before. -/
theorem Sound.waited_move (h : d.Sound) {m : Move} {j : Nat} {c : Call Stage}
    (hc : (d.move m).1.intake.calls[j]? = some c) (hw : c.slot.reader = .waiting) :
    ∃ b : Call Stage, d.intake.calls[j]? = some b ∧ b.slot.reader = .waiting := by
  have hlt := (Array.getElem?_eq_some_iff.mp hc).1
  rw [move_size h] at hlt
  obtain ⟨d, hd, _, _, hf⟩ :=
    (move_kept h m).call j _ (Array.getElem?_eq_getElem hlt)
  obtain rfl := Option.some.inj (hc.symm.trans hd)
  exact ⟨_, Array.getElem?_eq_getElem hlt, hf.waiting hw⟩

/-- A parcel is offered and its receive starts. -/
def takeOn (d : Dispatch) (sender : Nat) (p : Parcel) : Dispatch :=
  { (d.offer sender p).1 with
    intake := ((d.offer sender p).1.intake.receive d.intake.calls.size none).1 }

theorem arrived_takeOn (d : Dispatch) (sender : Nat) (p : Parcel) :
    Arrived d (d.takeOn sender p) sender ⟨p, .opened none, none, .waiting⟩ := by
  have hr := Intake.receive_push
    { d.intake with channel := (d.intake.channel.send sender d.intake.calls.size).1 }
    (c := ⟨p, .new, none, .waiting⟩) rfl none
  have ho : (d.offer sender p).1 =
      ⟨{ d.intake with
          channel := (d.intake.channel.send sender d.intake.calls.size).1
          calls := d.intake.calls.push ⟨p, .new, none, .waiting⟩ },
        d.loop.take (d.intake.channel.send sender d.intake.calls.size).2.2, d.said⟩ := by
    simp only [offer]
    rw [take_eq]
    rfl
  simp only [takeOn, ho]
  refine ⟨?_, rfl, ?_, ?_⟩
  · exact congrArg (fun x => x.1.channel) hr
  · exact congrArg (fun x => x.1.calls) hr
  · exact congrArg (fun x => x.1.fired) hr

end Dispatch

end

namespace Worker

open Courier.Worker.Effect

/-! Waiting replies -/

section

variable {replies : List (Nat × Binary64)} {j k : Nat} {seq : Binary64}

theorem find_filter_ne (h : j ≠ k) :
    (replies.filter (·.1 ≠ k)).find? (·.1 = j) = replies.find? (·.1 = j) := by
  rw [List.find?_filter]
  congr 1
  funext x
  by_cases hx : x.1 = j <;> simp [hx, h]

theorem find_concat (h : ∀ x ∈ replies, x.1 < k) :
    (replies ++ [(k, seq)]).find? (·.1 = k) = some (k, seq) := by
  have hnone : replies.find? (·.1 = k) = none := List.find?_eq_none.mpr fun x hx => by
    simpa using Nat.ne_of_lt (h x hx)
  simp [List.find?_append, hnone]

theorem lt_concat (h : ∀ x ∈ replies, x.1 < k) : ∀ x ∈ replies ++ [(k, seq)], x.1 < k + 1 := by
  intro x hx
  rcases List.mem_append.mp hx with hx | hx
  · exact Nat.lt_succ_of_lt (h x hx)
  · rw [List.mem_singleton.mp hx]
    exact Nat.lt_succ_self _

end

/-- A request on an open channel is taken on, and waits for its answer under its number. -/
theorem message_taken {w : Worker} (hp : w.phase = .running)
    (ho : w.pipeline.dispatch.intake.channel.isClosed sender = false) {seq : Binary64}
    {p : PostedRequest} {v : Value} (hv : ToWorker.ofValue? v = some (.request seq p)) :
    ∃ effects, (Courier.Effect.settles effects = [] ∧ Courier.Effect.asks effects = []) ∧
      w.message v = { w with
        replies := w.replies ++ [(w.pipeline.dispatch.intake.calls.size, seq)] }.liftDispatch
        (w.pipeline.dispatch.takeOn sender (.request (received p)), effects) := by
  have ha := Dispatch.offer_accepted w.pipeline.dispatch sender (.request (received p))
  rw [ho] at ha
  refine ⟨_, Dispatch.quiet_offer w.pipeline.dispatch sender (.request (received p)), ?_⟩
  unfold Worker.message Worker.request
  simp only [hp, hv]
  exact if_pos ha

/-- A worker that is ready, with what has happened since. -/
structure Run where
  worker : Worker
  /-- What it has posted. -/
  sent : List Value
  /-- What nothing has caught. -/
  crashed : List Value
  /-- How its own receives have ended. -/
  told : List Settled

namespace Run

def start : Run := ⟨new.built.1, [], [], []⟩

def dispatch (r : Run) : Dispatch := r.worker.pipeline.dispatch

/-- The number of requests taken. -/
def size (r : Run) : Nat := r.dispatch.intake.calls.size

/-- A step of the worker, and the receives that it ends. -/
def lift (r : Run) (step : Worker × List Effect) (ended : List Settled) : Run :=
  ⟨step.1, r.sent ++ posts step.2, r.crashed ++ crashes step.2, r.told ++ ended⟩

/-- A value arrives on the port. -/
def message (r : Run) (v : Value) : Run := r.lift (r.worker.message v) []

def move (r : Run) (m : Move) : Run :=
  r.lift (r.worker.liftDispatch (r.dispatch.move m)) (Courier.Effect.settles (r.dispatch.move m).2)

/-- The client has closed, or failed to. -/
def clientClosed (r : Run) (result : Attempt Unit) : Run :=
  r.lift (r.worker.lift (r.worker.pipeline.clientClosed result)) []

theorem move_intake (r : Run) (m : Move) :
    (r.move m).dispatch.intake = (r.dispatch.move m).1.intake :=
  (congrArg (·.dispatch.intake) (lift_pipeline _ _)).trans (Pipeline.lift_intake _ _)

theorem clientClosed_intake (r : Run) (result : Attempt Unit) :
    (r.clientClosed result).dispatch.intake = r.dispatch.intake :=
  (congrArg (·.dispatch.intake) (lift_pipeline _ _)).trans
    (congrArg Dispatch.intake (r.worker.pipeline.dispatch_closed result))

/-- A response is the answer to a receive that has ended. -/
def Answers (s : Settled) (v : Value) : Prop :=
  ∃ o, s.reading = .got o ∧ (Outcome.carried o).Brings (.ofNat (s.call + 1)) v

/-- Every call that waits is going to be answered under its own number, and every other one has
been answered, once. -/
structure Serving (r : Run) : Prop where
  dispatch : r.dispatch.Sound
  intake : r.dispatch.intake.Sound r.told
  serves : ∀ (j : Nat) (c : Call Stage), r.dispatch.intake.calls[j]? = some c →
    c.Serves .plain
  replies : ∀ (j : Nat) (c : Call Stage), r.dispatch.intake.calls[j]? = some c →
    c.slot.reader = .waiting → r.worker.replies.find? (·.1 = j) = some (j, .ofNat (j + 1))
  known : ∀ x ∈ r.worker.replies, x.1 < r.size
  sent : List.Forall₂ Answers r.told r.sent
  calm : r.crashed = []
  finished : r.worker.pipeline.closing ≠ .no → r.dispatch.loop.hand = .over
  phase : r.worker.phase = .running ∨
    r.worker.phase = .closed ∧ r.worker.replies = [] ∧ r.dispatch.loop.hand = .over

theorem serving_start : start.Serving :=
  ⟨Dispatch.sound_new [], Intake.sound_new [], by simp [start, dispatch, built, new, Pipeline.new,
    Dispatch.new, Intake.new], by simp [start, dispatch, built, new, Pipeline.new,
    Dispatch.new, Intake.new], by simp [start, built, new], .nil, rfl, fun h => (h rfl).elim,
    Or.inl rfl⟩

variable {r : Run} {s : Dispatch × List Courier.Effect}

/-- A step of the pipeline that is lifted to the worker. -/
theorem Serving.lifted {d : Dispatch} {p : Pipeline} {w : Worker × List Effect}
    {left : List (Nat × Binary64)} {ended : List Settled} {out : List Value} (h : r.Serving)
    (hw : r.worker.Lifted p left out w) (hi : p.dispatch.intake = d.intake)
    (hl : p.dispatch.loop = d.loop) (hend : p.closing ≠ .no → d.loop.hand = .over)
    (hdispatch : d.Sound) (hintake : d.intake.Sound (r.told ++ ended))
    (hserves : ∀ (j : Nat) (c : Call Stage), d.intake.calls[j]? = some c →
      c.Serves .plain)
    (hreplies : ∀ (j : Nat) (c : Call Stage), d.intake.calls[j]? = some c →
      c.slot.reader = .waiting → left.find? (·.1 = j) = some (j, .ofNat (j + 1)))
    (hknown : ∀ x ∈ left, x.1 < d.intake.calls.size) (hsent : List.Forall₂ Answers ended out)
    (hphase : r.worker.phase = .closed → left = [] ∧ d.loop.hand = .over) :
    (r.lift w ended).Serving := by
  have hi' : (r.lift w ended).dispatch.intake = d.intake := by
    simp only [lift, Run.dispatch, hw.pipeline, hi]
  have hl' : (r.lift w ended).dispatch.loop = d.loop := by
    simp only [lift, Run.dispatch, hw.pipeline, hl]
  refine ⟨hdispatch.congr hi' hl', ?intake, ?serves, ?replies, ?known, ?sent, ?calm, ?finished,
    ?phase⟩
  case intake =>
    rw [hi']
    exact hintake
  case serves =>
    rw [hi']
    exact hserves
  case replies =>
    rw [hi']
    show ∀ (j : Nat) (c : Call Stage), _ → _ → w.1.replies.find? _ = _
    rw [hw.replies]
    exact hreplies
  case known =>
    show ∀ x ∈ w.1.replies, x.1 < (r.lift w ended).dispatch.intake.calls.size
    rw [hi', hw.replies]
    exact hknown
  case sent =>
    show List.Forall₂ Answers (r.told ++ ended) (r.sent ++ posts w.2)
    rw [hw.posted]
    exact List.rel_append h.sent hsent
  case calm =>
    show r.crashed ++ crashes w.2 = []
    rw [h.calm, hw.caught]
    rfl
  case finished =>
    show w.1.pipeline.closing ≠ .no → _
    rw [hw.pipeline, hl']
    exact hend
  case phase =>
    show w.1.phase = .running ∨ w.1.phase = .closed ∧ w.1.replies = [] ∧ _
    rw [hw.replies, hl']
    rcases hw.phase with hp | ⟨hp, hr, result, hd⟩
    · rw [hp]
      rcases h.phase with hrun | ⟨hclosed, _⟩
      · exact Or.inl hrun
      · exact Or.inr ⟨hclosed, hphase hclosed⟩
    · exact Or.inr ⟨hp, hr, hend (by rw [hd]; exact fun he => by cases he)⟩

/-- A step of the dispatch that is lifted to the worker. -/
theorem Serving.dispatched {w : Worker × List Effect} {left : List (Nat × Binary64)}
    {ended : List Settled} {out : List Value} (h : r.Serving)
    (hw : r.worker.Lifted (r.worker.pipeline.lift Log.calm s).1 left out w)
    (hover : r.dispatch.loop.hand = .over → s.1.loop.hand = .over) (hdispatch : s.1.Sound)
    (hintake : s.1.intake.Sound (r.told ++ ended))
    (hserves : ∀ (j : Nat) (c : Call Stage), s.1.intake.calls[j]? = some c →
      c.Serves .plain)
    (hreplies : ∀ (j : Nat) (c : Call Stage), s.1.intake.calls[j]? = some c →
      c.slot.reader = .waiting → left.find? (·.1 = j) = some (j, .ofNat (j + 1)))
    (hknown : ∀ x ∈ left, x.1 < s.1.intake.calls.size) (hsent : List.Forall₂ Answers ended out)
    (hleft : r.worker.phase = .closed → r.worker.replies = [] → left = []) :
    (r.lift w ended).Serving := by
  refine h.lifted hw (Pipeline.lift_intake _ _) (Pipeline.lift_loop _ _) (fun hc => ?_) hdispatch
    hintake hserves hreplies hknown hsent fun hc => ?_
  · rcases Pipeline.closing_lift hc with hc | hc
    · exact hover (h.finished hc)
    · exact hc
  · rcases h.phase with hp | ⟨_, hr, ho⟩
    · rw [hp] at hc
      cases hc
    · exact ⟨hleft hc hr, hover ho⟩

/-! Moves of the pipeline -/

theorem Serving.move (h : r.Serving) {m : Move} (hm : m.isPlain = true) : (r.move m).Serving := by
  have hi := Dispatch.move_sound h.dispatch h.intake m
  have hsound := (h.dispatch.move m).1
  have hover := Dispatch.move_over h.dispatch m
  have hknown : ∀ x ∈ r.worker.replies, x.1 < (r.dispatch.move m).1.intake.calls.size := by
    rw [Dispatch.move_size h.dispatch m]
    exact h.known
  have hserves := h.dispatch.serves_move h.serves (Move.reports_plain hm)
  rcases h.dispatch.settles_move h.serves m with hs | ⟨j, c, result, rfl, hj, hp, hs, hended⟩
  · refine h.dispatched (dispatched_quiet hs) hover hsound hi hserves
      (fun k x hx hw => ?_) hknown (by rw [hs]; exact .nil) fun _ hr => hr
    obtain ⟨b, hb, hbw⟩ := h.dispatch.waited_move (m := m) hx hw
    exact h.replies k b hb hbw
  · obtain ⟨hwait, ho⟩ := (h.serves j c hj).over hp
    obtain ⟨v, hr, hbrings⟩ := brings_carried (.ofNat (j + 1)) ho
    have hfind := h.replies j c hj hwait
    refine h.dispatched (dispatched_settled hs hfind (hr .reply)) hover hsound hi hserves
      (fun k x hx hw => ?_)
      (fun x hx => hknown x (List.mem_of_mem_filter hx))
      (by rw [hs]; exact .cons ⟨_, rfl, hbrings⟩ .nil) fun _ hnil => by simp [hnil] at hfind
    obtain ⟨b, hb, hbw⟩ := h.dispatch.waited_move (m := .conclude j) hx hw
    rw [find_filter_ne fun he : k = j => hended x (he ▸ hx) hw]
    exact h.replies k b hb hbw

theorem Serving.clientClosed (h : r.Serving) (result : Attempt Unit) :
    (r.clientClosed result).Serving := by
  have hquiet := r.worker.pipeline.settles_closed result
  have hd : (r.worker.pipeline.clientClosed result).1.dispatch = r.dispatch :=
    r.worker.pipeline.dispatch_closed result
  have hend : (r.worker.pipeline.clientClosed result).1.closing ≠ .no →
      r.dispatch.loop.hand = .over := by
    intro hc
    refine h.finished fun hno => hc ?_
    simp [Pipeline.clientClosed, hno]
  refine h.lifted (lifted_quiet hquiet) (congrArg Dispatch.intake hd) (congrArg Dispatch.loop hd)
    hend h.dispatch (by simpa using h.intake) h.serves h.replies h.known .nil fun hc => ?_
  rcases h.phase with hp | ⟨_, hr, ho⟩
  · rw [hp] at hc
    cases hc
  · exact ⟨hr, ho⟩

/-! Messages -/

/-- A worker that still listens has not wrapped up. -/
theorem Serving.running (h : r.Serving) (hc : r.dispatch.intake.channel.closed = false) :
    r.worker.phase = .running := by
  rcases h.phase with hp | ⟨_, _, ho⟩
  · exact hp
  · have hend := (h.dispatch.coupled.ended (Or.inl ho)).1
    rw [hc] at hend
    cases hend

/-- A request is taken on and its receive starts. -/
def admitted (d : Dispatch) (uri : String) (payload : Bytes) : Dispatch :=
  let p := Parcel.request (Request.post uri payload).toValue
  { (d.offer sender p).1 with
    intake := ((d.offer sender p).1.intake.receive d.intake.calls.size none).1 }

/-- The call that a request brings. -/
def taken (uri : String) (payload : Bytes) : Call Stage :=
  ⟨.request (Request.post uri payload).toValue, .opened none, none, .waiting⟩

theorem arrived_admitted (d : Dispatch) (uri : String) (payload : Bytes) :
    Dispatch.Arrived d (admitted d uri payload) sender (taken uri payload) :=
  d.arrived_takeOn sender _

theorem message_request (hp : r.worker.phase = .running)
    (ho : r.dispatch.intake.channel.isClosed sender = false) {seq : Binary64} {uri : String}
    {payload : Bytes} {v : Value}
    (hv : ToWorker.ofValue? v = some (.request seq (Request.post uri payload).arrived)) :
    ∃ effects, (Courier.Effect.settles effects = [] ∧ Courier.Effect.asks effects = []) ∧
      r.worker.message v = { r.worker with
        replies := r.worker.replies ++ [(r.size, seq)] }.liftDispatch
        (admitted r.dispatch uri payload, effects) := by
  have h := message_taken hp ho hv
  rw [received_arrived] at h
  exact h

/-- The owner's next request is taken under its number. -/
theorem Serving.request (h : r.Serving) (hc : r.dispatch.intake.channel.closed = false)
    (ho : r.dispatch.intake.channel.isClosed sender = false) {uri : String} {payload : Bytes}
    {v : Value} (hv : ToWorker.ofValue? v =
      some (.request (.ofNat (r.size + 1)) (Request.post uri payload).arrived)) :
    (r.message v).Serving ∧
      (r.message v).dispatch.intake.calls = r.dispatch.intake.calls.push (taken uri payload) ∧
      (r.message v).dispatch.intake.channel.gate = r.dispatch.intake.channel.gate ∧
      (r.message v).told = r.told ∧ (r.message v).sent = r.sent := by
  have hrun := h.running hc
  obtain ⟨effects, ⟨hquiet, _⟩, hm⟩ := message_request hrun ho hv
  have ha := arrived_admitted r.dispatch uri payload
  have hsent : r.dispatch.intake.sent sender (.post uri payload) none .waiting =
      taken uri payload := by
    simp [Intake.sent, ho, taken, Intake.reason?]
  obtain ⟨hsound, _⟩ := h.dispatch.arrived ha (Request.proper _) rfl
  have hintake := h.intake.sent (hsent ▸ ha.calls) ha.fired
  obtain ⟨hpipeline, hreplies, hposted, hcaught, hphase⟩ := dispatched_quiet
    (w := { r.worker with replies := r.worker.replies ++ [(r.size, .ofNat (r.size + 1))] })
    (s := (admitted r.dispatch uri payload, effects)) hquiet
  have hstep : r.message v = r.lift ({ r.worker with
      replies := r.worker.replies ++ [(r.size, Binary64.ofNat (r.size + 1))] }.liftDispatch
        (admitted r.dispatch uri payload, effects)) [] := by rw [Run.message, hm]
  have hi : (r.message v).dispatch.intake = (admitted r.dispatch uri payload).intake := by
    rw [hstep]
    exact (congrArg (·.dispatch.intake) hpipeline).trans (Pipeline.lift_intake _ _)
  refine ⟨?_, ?_, ?_, ?_, ?_⟩
  · rw [hstep]
    refine h.dispatched (s := (admitted r.dispatch uri payload, effects))
      ⟨hpipeline, hreplies, hposted, hcaught, hphase⟩ ?ends hsound ?intake ?serves ?replies ?known
      .nil ?left
    case ends =>
      intro he
      simp [(h.dispatch.coupled.ended (Or.inl he)).1] at hc
    case intake => simpa [ho, Intake.reason?] using hintake
    case serves =>
      intro j c hj
      rw [ha.calls, Array.getElem?_push] at hj
      split at hj
      · rw [← Option.some.inj hj]
        exact ⟨rfl, rfl⟩
      · exact h.serves j c hj
    case replies =>
      intro j c hj hw
      rw [ha.calls, Array.getElem?_push] at hj
      split at hj
      · rename_i he
        subst he
        exact find_concat h.known
      · rw [List.find?_append, h.replies j c hj hw]
        rfl
    case known =>
      rw [ha.calls, Array.size_push]
      exact lt_concat h.known
    case left =>
      intro hd
      rw [hrun] at hd
      cases hd
  · rw [hi, ha.calls]
  · rw [hi, ha.channel, Channel.gate_send]
  · exact List.append_nil _
  · rw [hstep, lift, hposted, List.append_nil]

/-- The owner releases the transport. -/
theorem Serving.release (h : r.Serving) (hc : r.dispatch.intake.channel.closed = false) {v : Value}
    (hv : ToWorker.ofValue? v = some .close) : (r.message v).Serving ∧
      (r.message v).dispatch.intake.calls = r.dispatch.intake.calls ∧
      (r.message v).told = r.told ∧ (r.message v).sent = r.sent := by
  have hrun := h.running hc
  have hd := Dispatch.release_eq r.dispatch sender
  obtain ⟨hpipeline, hreplies, hposted, hcaught, hphase⟩ := dispatched_quiet (w := r.worker)
    (s := r.dispatch.release sender) (Dispatch.quiet_release r.dispatch sender).1
  have hm : r.worker.message v =
      ((r.worker.liftDispatch (r.dispatch.release sender)).1,
        .log ⟨.debug, "Owner released the transport", []⟩ ::
          (r.worker.liftDispatch (r.dispatch.release sender)).2) := by
    unfold Worker.message Worker.release
    simp only [hrun, hv]
    rfl
  have hi := h.intake
  rw [Run.message, hm]
  refine ⟨?_, ?_, ?_, ?_⟩
  · refine h.dispatched (s := r.dispatch.release sender)
      ⟨hpipeline, hreplies, hposted, hcaught, hphase⟩ ?ends (h.dispatch.release sender).1 ?intake
      ?serves ?replies ?known .nil fun _ hr => hr
    case ends =>
      intro he
      simp [(h.dispatch.coupled.ended (Or.inl he)).1] at hc
    case intake =>
      rw [hd, List.append_nil]
      exact hi.congr rfl rfl
    case serves =>
      rw [hd]
      exact h.serves
    case replies =>
      rw [hd]
      exact h.replies
    case known =>
      rw [hd]
      exact h.known
  · refine (congrArg (·.dispatch.intake.calls) hpipeline).trans ?_
    rw [Pipeline.lift_intake, hd]
  · exact List.append_nil _
  · show r.sent ++ posts (.log _ :: _) = r.sent
    rw [List.append_right_eq_self]
    exact hposted

end Run
end Worker
end Courier
