import Courier.Proofs.Closing
import Courier.Proofs.Console
import Courier.Proofs.Counters

/-!
Failures stay where they happen. With a console logger no unit fails, the loop ends well, and every
unit that dies is logged once at the level of errors, whatever the client has thrown, as long as the
logger can be told of what breaks out of the units. It cannot be of a value without a JSON document
if its lines are such documents, nor of one that throws where it is displayed.
-/

namespace Courier

open Effect

/-! Alarms -/

namespace Effect

/-- An entry at the level of errors, a failure that nobody waits for, or a loop that has failed. -/
def isAlarm : Effect → Bool
  | .log entry => entry.level = .error
  | .unhandled _ => true
  | .loopEnded (.error _) => true
  | _ => false

def alarms (effects : List Effect) : List Effect := effects.filter isAlarm

@[simp] theorem alarms_append (a b : List Effect) : alarms (a ++ b) = alarms a ++ alarms b :=
  List.filter_append a b

@[simp] theorem alarms_settledEffects (s : List Settled) :
    alarms (Dispatch.settledEffects s) = [] := by
  simp [alarms, Dispatch.settledEffects, isAlarm]

theorem alarms_of_mild {es : List Effect} (h : ∀ e ∈ es, e.Mild) : alarms es = [] :=
  List.filter_eq_nil_iff.mpr fun e he => by cases h e he <;> simp_all [isAlarm]

end Effect

namespace Dispatch

variable {d : Dispatch} {k : Nat}

theorem dying_of_idle (ho : ∀ (c : Call Stage) (result : Attempt Outcome),
    d.intake.calls[k]? = some c → c.progress ≠ .running (.over result)) :
    d.dying? (.conclude k) = none := by
  simp only [dying?]
  split
  · next v hp =>
    obtain ⟨c, hk, hr⟩ := Option.map_eq_some_iff.mp hp
    exact (ho c _ hk hr).elim
  · rfl

theorem alarms_take (handoff : Option (Channel.Handoff Nat)) : alarms (d.take handoff).2 = [] := by
  obtain h | h := d.take_effects handoff <;> rw [h] <;> rfl

/-- A unit that ends is logged if something broke out of it. -/
theorem alarms_conclude (h : d.Sound) : alarms (d.conclude Log.calm k).2 =
    ((d.dying? (.conclude k)).map fun x => .log (Log.died x.2)).toList := by
  rcases d.over_or_idle k with ⟨c, result, hk, hr⟩ | hidle
  · have halarms := alarms_of_mild (mild_complete (d := d) (k := k) c.parcel result)
    cases result with
    | error v =>
      simp only [conclude, hk, hr, complete, say, dying?, Intake.progress?, Option.map_some,
        alarms_append, alarms_settledEffects]
      rfl
    | ok o =>
      obtain ⟨said, es, hc, _⟩ := complete_ok hk (h.proper k c hk) o
      rw [hc] at halarms
      simp only [conclude, hk, hr, hc, dying?, Intake.progress?, Option.map_some, alarms_append,
        alarms_settledEffects, halarms]
      rfl
  · rw [conclude_idle Log.calm hidle, dying_of_idle hidle]
    rfl

/-- A loop that waits for no unit that failed does not fail. -/
theorem alarms_of_ne (h : d.Sound) (ht : d.Tidy) {m : Move} (hm : ∀ k, m ≠ .conclude k) :
    alarms (d.move m).2 = [] := by
  refine List.filter_eq_nil_iff.mpr fun e he => ?_
  cases move_causes h he with
  | loopFailed hl => exact (ht.draining _ hl).elim
  | unhandled hp =>
    obtain ⟨c, hk, hr⟩ := Option.map_eq_some_iff.mp hp
    cases (ht.units _ c hk _ (Or.inl hr)).1
  | settle k | log k | retire k => exact (hm k rfl).elim
  | _ => simp [isAlarm]

theorem alarms_move (h : d.Sound) (ht : d.Tidy) (m : Move) : alarms (d.move m).2 =
    ((d.dying? m).map fun x => .log (Log.died x.2)).toList := by
  cases m with
  | conclude k => exact alarms_conclude h
  | turn | answered | chunk | bodyEnded | retire => exact alarms_of_ne h ht fun _ hm => by cases hm

theorem offering_accepts {react : Log.Reaction} {P : Value → Prop} (hr : Log.Accepts react P)
    (ha : d.Addressed) : d.offering? react k = d.offering? Log.calm k := by
  cases hk : d.intake.calls[k]? with
  | none => simp [offering?, hk]
  | some c =>
    obtain ⟨content, hp, url, hu⟩ := ha k c hk
    obtain ⟨parcel, slot, signal, progress⟩ := c
    obtain rfl : parcel = .request content := hp
    have hurl : (Parcel.request content).url = .ok (.string url) := by
      simpa [Parcel.url, Parcel.content, bind, Except.bind] using hu
    have hsaid (o : Outcome) := hr d.said _ (.completed url o.isSuccess)
    rcases progress with _ | (_ | _ | (v | o)) | _ | _ <;>
      simp [offering?, hk, hurl, hsaid, Log.calm]

end Dispatch

namespace Pipeline.Audit

variable {s : Audit} {react : Log.Reaction} {P : Value → Prop} {ev : Event} {r : Run} {k : Nat}

theorem alarms_lift (p : Pipeline) (t : Dispatch × List Effect) :
    alarms (p.lift Log.calm t).2 = alarms t.2 := by
  unfold Pipeline.lift
  dsimp only
  split
  · unfold shut
    split
    · simp [alarms, isAlarm]
    · simp [Dispatch.say, alarms, isAlarm]
  · rfl

/-- The unit that an event ends because something breaks out of it. -/
def dying? (s : Audit) : Event → Option (Nat × Value)
  | .move m => s.dispatch.dying? m
  | _ => none

/-- The units that died, each with what broke out of it. -/
def deaths (react : Log.Reaction) : Audit → List Event → List (Nat × Value)
  | _, [] => []
  | s, ev :: events => (s.dying? ev).toList ++ deaths react (s.step react ev) events

/-- What lasts as long as the logger accepts what is said: no unit has failed. -/
structure Contained (s : Audit) : Prop where
  sound : s.Sound
  addressed : s.dispatch.Addressed
  /-- The run without its ledger is one in which no unit has failed. -/
  tidy : ∃ r : Run, s.Follows r ∧ r.Tidy

theorem Contained.dispatch_tidy (h : s.Contained) : s.dispatch.Tidy := by
  obtain ⟨r, hf, ht⟩ := h.tidy
  have hd : s.dispatch = r.dispatch := congrArg Pipeline.dispatch hf.pipeline
  exact hd ▸ ht.dispatch

theorem contained_start (fired : List (Nat × Value)) : (start fired).Contained :=
  ⟨sound_start fired,
    by simp [start, dispatch, Pipeline.new, Dispatch.new, Intake.new, Dispatch.Addressed],
    .start fired, follows_start fired, Run.tidy_start fired⟩

/-- A logger that accepts what is said makes no difference. -/
theorem Contained.accepts (h : s.Contained) (hr : Log.Accepts react P) (ev : Event)
    (hd : ∀ x, s.dying? ev = some x → P x.2) :
    s.step react ev = s.step Log.calm ev ∧ s.effects react ev = s.effects Log.calm ev := by
  have hlift (t : Dispatch × List Effect) := lift_accepts (p := s.pipeline) (t := t) hr
  cases ev with
  | caller deed =>
    cases deed <;> simp only [step, effects, stepped, lift, hlift, and_self]
  | move m =>
    have hmove := Dispatch.moveUnder_accepts hr h.sound.dispatch h.addressed m hd
    have hcalm := Dispatch.moveUnder_calm s.dispatch m
    have hnoting : s.noting react m = s.noting Log.calm m := by
      cases m with
      | conclude k => simp only [noting, Dispatch.offering_accepts hr h.addressed]
      | _ => rfl
    simp only [step, effects, stepped, lift, hlift, hmove, hcalm, hnoting, and_self]
  | clientClosed r => exact ⟨rfl, rfl⟩

/-- A client that is not being closed does not close. -/
theorem step_clientClosed {result : Attempt Unit}
    (h : ¬ r.Lawful (.clientClosed result)) : r.step (.clientClosed result) = r := by
  have hp : (r.pipeline.clientClosed result).1 = r.pipeline := by
    unfold Pipeline.clientClosed
    split
    · next last hc => exact (h ⟨last, hc⟩).elim
    · rfl
  simp only [Run.step, hp]

theorem tidy_inner (ht : r.Tidy) (ev : Event) : (r.step ev.inner).Tidy := by
  by_cases hl : r.Lawful ev.inner
  · exact ht.step hl
  · cases ev with
    | caller deed => cases deed <;> exact (hl trivial).elim
    | move m => exact (hl trivial).elim
    | clientClosed result =>
      show (r.step (.clientClosed result)).Tidy
      rw [step_clientClosed hl]
      exact ht

theorem addressed_stepped (h : s.Sound) (ha : s.dispatch.Addressed) (ev : Event) :
    (s.stepped Log.calm ev).1.Addressed := by
  intro k c hc
  cases ev with
  | caller deed =>
    cases deed with
    | send sender uri payload signal =>
      have harrived := Dispatch.arrived_send s.dispatch sender (.post uri payload) signal
      simp only [stepped, harrived.calls, Array.getElem?_push] at hc
      split at hc
      · obtain rfl := Option.some.inj hc
        exact ⟨_, Intake.sent_parcel .., uri, rfl⟩
      · exact ha k c hc
    | clone sender => exact ha k c hc
    | release sender =>
      simp only [stepped, Dispatch.release_eq] at hc
      exact ha k c hc
    | abort signal reason =>
      obtain ⟨g, hg, hparcel, _⟩ := (Dispatch.reslotted_abort s.dispatch signal reason).calls
      simp only [stepped, hg, Array.getElem?_mapIdx] at hc
      obtain ⟨b, hb, rfl⟩ := Option.map_eq_some_iff.mp hc
      obtain ⟨content, hp, hu⟩ := ha k b hb
      exact ⟨content, (hparcel _ _).trans hp, hu⟩
  | move m =>
    simp only [stepped, Dispatch.moveUnder_calm] at hc
    exact ha.move h.dispatch m k c hc
  | clientClosed r => exact ha k c hc

theorem Contained.step (h : s.Contained) (ev : Event) : (s.step Log.calm ev).Contained := by
  obtain ⟨r, hf, ht⟩ := h.tidy
  refine ⟨h.sound.step ev, fun k c hc => ?_, r.step ev.inner, hf.step ev, tidy_inner ht ev⟩
  have hi : (s.step Log.calm ev).dispatch.intake = (s.stepped Log.calm ev).1.intake := intake_step
  rw [hi] at hc
  exact addressed_stepped h.sound h.addressed ev k c hc

/-- With a calm logger the units that are dropped are those that something breaks out of. -/
theorem dropped_noting (h : s.Sound) (m : Move) : (s.noting Log.calm m).dropped =
    s.ledger.dropped ++ ((s.dispatch.dying? m).map (·.1)).toList := by
  cases m with
  | conclude k =>
    rcases s.dispatch.over_or_idle k with ⟨c, result, hk, hr⟩ | hidle
    · have hprogress : s.dispatch.intake.progress? k = some (.running (.over result)) :=
        Option.map_eq_some_iff.mpr ⟨c, hk, hr⟩
      rw [noting_of_over hk hr, Dispatch.offering_calm hk (h.dispatch.proper k c hk) hr]
      cases result with
      | error v => simp [Dispatch.dying?, hprogress, Ledger.done, Except.toOption]
      | ok o => simp [Dispatch.dying?, hprogress, Ledger.done, Except.toOption]
    · rw [(noting_of_not_over Log.calm hidle).1, Dispatch.dying_of_idle hidle]
      exact (List.append_nil _).symm
  | turn | answered | chunk | bodyEnded | retire => exact (List.append_nil _).symm

/-- A step drops the unit that dies in it. -/
theorem Sound.dropped_step (h : s.Sound) (ev : Event) : (s.step Log.calm ev).ledger.dropped =
    s.ledger.dropped ++ ((s.dying? ev).map (·.1)).toList := by
  cases ev with
  | caller deed => cases deed <;> exact (List.append_nil _).symm
  | move m => exact dropped_noting h m
  | clientClosed r => exact (List.append_nil _).symm

/-- A step raises an alarm for the unit that dies in it, and no other. -/
theorem Contained.alarms_step (h : s.Contained) (ev : Event) :
    alarms (s.effects Log.calm ev) =
      ((s.dying? ev).map fun x => .log (Log.died x.2)).toList := by
  cases ev with
  | caller deed =>
    cases deed with
    | send sender uri payload signal =>
      simp only [effects, alarms_lift, stepped, Dispatch.send, Dispatch.alarms_take]
      rfl
    | clone sender =>
      simp only [effects, alarms_lift, stepped]
      rfl
    | release sender =>
      simp only [effects, alarms_lift, stepped, Dispatch.release, Dispatch.alarms_take]
      rfl
    | abort signal reason =>
      simp only [effects, alarms_lift, stepped, Dispatch.abort, alarms_settledEffects]
      rfl
  | move m =>
    simp only [effects, alarms_lift, stepped, Dispatch.moveUnder_calm]
    exact Dispatch.alarms_move h.sound.dispatch h.dispatch_tidy m
  | clientClosed r =>
    simp only [effects, clientClosed]
    split <;> rfl

/-! Runs -/

theorem Contained.run (h : s.Contained) (events : List Event) :
    (s.run Log.calm events).Contained := by
  induction events generalizing s with
  | nil => exact h
  | cons ev events ih => exact ih (h.step ev)

/-- Along a run a logger that accepts what is said makes no difference. -/
theorem Contained.accepts_run (h : s.Contained) (hr : Log.Accepts react P) {events : List Event}
    (hd : ∀ x ∈ s.deaths react events, P x.2) :
    s.run react events = s.run Log.calm events ∧
      s.trace react events = s.trace Log.calm events ∧
      s.deaths react events = s.deaths Log.calm events := by
  induction events generalizing s with
  | nil => exact ⟨rfl, rfl, rfl⟩
  | cons ev events ih =>
    obtain ⟨hstep, heffects⟩ := h.accepts hr ev fun x hx =>
      hd x (List.mem_append_left _ (Option.mem_toList.mpr hx))
    have hlater : ∀ x ∈ (s.step Log.calm ev).deaths react events, P x.2 := fun x hx =>
      hd x (List.mem_append_right _ (hstep ▸ hx))
    obtain ⟨hrun, htrace, hdeaths⟩ := ih (h.step ev) hlater
    refine ⟨?_, ?_, ?_⟩
    · show (s.step react ev).run react events = (s.step Log.calm ev).run Log.calm events
      rw [hstep, hrun]
    · simp only [trace, hstep, heffects, htrace]
    · simp only [deaths, hstep, hdeaths]

/-- The alarms of a run are the deaths in it, and so is what it drops. -/
theorem Contained.alarms_run (h : s.Contained) (events : List Event) :
    alarms (s.trace Log.calm events) =
        (s.deaths Log.calm events).map (fun x => .log (Log.died x.2)) ∧
      (s.run Log.calm events).ledger.dropped =
        s.ledger.dropped ++ (s.deaths Log.calm events).map (·.1) := by
  induction events generalizing s with
  | nil => exact ⟨rfl, (List.append_nil _).symm⟩
  | cons ev events ih =>
    have halarms := h.alarms_step ev
    have hdropped := h.sound.dropped_step ev
    obtain ⟨htrace, hrun⟩ := ih (h.step ev)
    constructor
    · simp only [trace, deaths, alarms_append, halarms, htrace, List.map_append]
      cases s.dying? ev <;> rfl
    · show ((s.step Log.calm ev).run Log.calm events).ledger.dropped = _
      rw [hrun, hdropped, deaths, List.map_append, List.append_assoc]
      cases s.dying? ev <;> rfl

/-! The end of the loop -/

/-- The loop stops counting the units of calls. -/
def retires (ks : List Nat) : List Event := ks.map fun k => .move (.retire k)

theorem progress_retire (h : s.Sound) (k n : Nat) :
    (s.step Log.calm (.move (.retire k))).intake.progress? n =
      if k = n then (s.intake.progress? n).map Stage.retire else s.intake.progress? n := by
  have hi : (s.step Log.calm (.move (.retire k))).intake = (s.dispatch.retire k).1.intake :=
    intake_step
  have hcalls : (s.dispatch.retire k).1.intake.calls =
      s.intake.calls.modify k (Call.moved (.retire k)) :=
    (Dispatch.touched_move h.dispatch (m := .retire k) rfl).calls
  rw [hi]
  simp only [Intake.progress?, hcalls, Array.getElem?_modify]
  split
  · simp only [Option.map_map]
    rfl
  · rfl

theorem progress_retires (h : s.Sound) (ks : List Nat) (n : Nat) :
    (s.run Log.calm (retires ks)).intake.progress? n =
      if n ∈ ks then (s.intake.progress? n).map Stage.retire else s.intake.progress? n := by
  induction ks generalizing s with
  | nil => rfl
  | cons k ks ih =>
    show ((s.step Log.calm (.move (.retire k))).run Log.calm (retires ks)).intake.progress? n = _
    rw [ih (h.step _), progress_retire h]
    have htwice (stage : Option Stage) :
        (stage.map Stage.retire).map Stage.retire = stage.map Stage.retire := by
      rcases stage with _ | _ | _ | _ | _ <;> rfl
    by_cases hk : k = n
    · by_cases hn : n ∈ ks <;> simp [hk, hn, htwice]
    · have hk' : n ≠ k := Ne.symm hk
      simp [hk, hk', List.mem_cons]

theorem Follows.run (h : s.Follows r) (events : List Event) :
    (s.run Log.calm events).Follows (r.run (events.map Event.inner)) := by
  induction events generalizing s r with
  | nil => exact h
  | cons ev events ih => exact ih (h.step ev)

/-- Whether the unit of a call has ended. -/
def hasEnded (s : Audit) (k : Nat) : Bool :=
  match s.intake.progress? k with
  | some (.ended _) | some (.retired _) => true
  | _ => false

theorem closed_run {r : Run} (h : r.Ordered) (hc : r.closed = true) (events : List Pipeline.Event) :
    (r.run events).closed = true ∧ (r.run events).accepted = r.accepted := by
  induction events generalizing r with
  | nil => exact ⟨hc, rfl⟩
  | cons e events ih =>
    obtain ⟨hclosed, haccepted⟩ := h.step_of_closed hc e
    obtain ⟨hend, hall⟩ := ih (h.step e) hclosed
    exact ⟨hend, hall.trans haccepted⟩

theorem Sound.retired (h : s.Sound)
    (ht : (s.run Log.calm (retires s.ledger.accepted)).dispatch.Tidy) (hk : k ∈ s.ledger.accepted) (he : s.hasEnded k = true) : ∃ c : Call Stage,
      (s.run Log.calm (retires s.ledger.accepted)).intake.calls[k]? = some c ∧
        c.progress = .retired none := by
  have hp := progress_retires h s.ledger.accepted k
  rw [if_pos hk] at hp
  obtain ⟨failure, hfailure⟩ : ∃ failure,
      (s.intake.progress? k).map Stage.retire = some (.retired failure) := by
    unfold hasEnded at he
    split at he
    · next failure hs => exact ⟨failure, by rw [hs]; rfl⟩
    · next failure hs => exact ⟨failure, by rw [hs]; rfl⟩
    · cases he
  obtain ⟨c, hc, hr⟩ := Option.map_eq_some_iff.mp (hp.trans hfailure)
  obtain ⟨rfl, _⟩ := ht.units k c hc failure (Or.inr hr)
  exact ⟨c, hc, hr⟩

/-- If the channel is closed and the units have ended, the loop has nothing left to wait for when it
has stopped counting them. -/
theorem Contained.settled (h : s.Contained) (hclosed : s.intake.channel.closed = true)
    (hunits : ∀ k ∈ s.ledger.accepted, s.hasEnded k = true) :
    ∃ r : Run, (s.run Log.calm (retires s.ledger.accepted)).Follows r ∧ r.Tidy ∧
      r.closed = true ∧ r.Settled := by
  have hend := h.run (retires s.ledger.accepted)
  obtain ⟨r, hf, ht⟩ := h.tidy
  obtain ⟨r', hf', ht'⟩ := hend.tidy
  -- The two ways to the state after the run agree on its pipeline and on what was accepted.
  have hrun := hf.run (retires s.ledger.accepted)
  have hpipeline := hf'.pipeline.symm.trans hrun.pipeline
  have hkeys := hf'.accepted.symm.trans hrun.accepted
  have hcl : r.closed = true := (congrArg (·.dispatch.intake.channel.closed)
    hf.pipeline).symm.trans hclosed
  obtain ⟨hcl', haccepted⟩ :=
    closed_run ht.ordered hcl ((retires s.ledger.accepted).map Event.inner)
  refine ⟨r', hf', ht', ?_, fun x hx => ?_⟩
  · exact (congrArg (·.dispatch.intake.channel.closed) hpipeline).trans hcl'
  · have hmem : x.1 ∈ s.ledger.accepted := by
      rw [hf.accepted, ← haccepted, ← hkeys]
      exact List.mem_map_of_mem hx
    obtain ⟨c, hc, hr⟩ := h.sound.retired hend.dispatch_tidy hmem (hunits x.1 hmem)
    exact ⟨c, (congrArg (·.dispatch.intake.calls[x.1]?) hf'.pipeline).symm.trans hc, hr⟩

/-- Once the channel is closed and the units have ended, the loop ends well by itself. -/
theorem Contained.ends (h : s.Contained) (hclosed : s.intake.channel.closed = true)
    (hunits : ∀ k ∈ s.ledger.accepted, s.hasEnded k = true) :
    ∃ n, (s.run Log.calm (retires s.ledger.accepted ++
      List.replicate n (.move .turn))).dispatch.loop = .ended (.ok ()) := by
  obtain ⟨r, hf, ht, hcl, hsettled⟩ := h.settled hclosed hunits
  obtain ⟨n, hn⟩ := hsettled.ends ht hcl
  refine ⟨n, ?_⟩
  have hturns := (hf.run (List.replicate n (.move .turn))).pipeline
  rw [List.map_replicate] at hturns
  rw [Audit.run, List.foldl_append]
  exact (congrArg (·.dispatch.loop) hturns).trans hn

/-- The end of a unit whose exchange is over, whatever that has come to, is no failure. -/
theorem Sound.concludes (h : s.Sound) {c : Call Stage} (hk : s.intake.calls[k]? = some c)
    {result : Attempt Outcome} (hr : c.progress = .running (.over result)) :
    (s.step Log.calm (.move (.conclude k))).intake.progress? k = some (.ended none) := by
  have hi : (s.step Log.calm (.move (.conclude k))).intake =
      (s.dispatch.move (.conclude k)).1.intake := intake_step
  have hcalls : (s.dispatch.move (.conclude k)).1.intake.calls =
      s.intake.calls.modify k (Call.moved (.conclude k)) :=
    (Dispatch.touched_move h.dispatch rfl).calls
  have hended : (c.moved (.conclude k)).progress = .ended none := by
    simp only [Call.moved, Call.concluded, hr]
  rw [hi, Intake.progress?, hcalls, Array.getElem?_modify, if_pos rfl, hk]
  exact congrArg some hended

/-- The stopping of the count of units and the turns of the loop end no unit. -/
theorem deaths_idle (react : Log.Reaction) {events : List Event}
    (h : ∀ ev ∈ events, ∀ k, ev ≠ .move (.conclude k)) : s.deaths react events = [] := by
  induction events generalizing s with
  | nil => rfl
  | cons ev events ih =>
    obtain ⟨hev, hrest⟩ := List.forall_mem_cons.mp h
    have hnone : s.dying? ev = none := by
      cases ev with
      | move m =>
        cases m with
        | conclude k => exact (hev k rfl).elim
        | turn | answered | chunk | bodyEnded | retire => rfl
      | caller | clientClosed => rfl
    rw [deaths, hnone, ih hrest]
    rfl

/-- With a console logger, whatever the client throws, and as long as the logger can be told of what
breaks out of the units that is no error of the language or of the system: every unit that ends
fulfils, and leaves no slot open; the loop never fails, and ends well once the channel is closed and
the units have ended; nothing is left unhandled; and for every unit that dies one line of an error
is printed. -/
theorem failures_contained (level : Log.Level) (json : Bool) (heading : String) (timestamp : Bool)
    (clock : Nat → String)
    (hreact : (Log.Config.named level json heading timestamp).reaction clock = react)
    (fired : List (Nat × Value)) (events : List Event)
    (hsaid : ∀ x ∈ (start fired).deaths react events, x.2.isComplaint = true ∨
      ∀ now, (Log.Config.named level json heading timestamp).say now (Log.died x.2) = .ok ())
    (hs : (start fired).run react events = s) :
    (∀ (k : Nat) (c : Call Stage), s.intake.calls[k]? = some c →
      (∀ failure, c.progress = .ended failure ∨ c.progress = .retired failure →
        failure = none ∧ c.slot.isOpen = false) ∧
      ∀ result, c.progress = .running (.over result) →
        (∀ v, result = .error v → v.isComplaint = true ∨
          ∀ now, (Log.Config.named level json heading timestamp).say now (Log.died v) = .ok ()) →
        (s.step react (.move (.conclude k))).intake.progress? k = some (.ended none)) ∧
    (∀ result, s.dispatch.loop = .ended result → result = .ok ()) ∧
    (s.intake.channel.closed = true → (∀ k ∈ s.ledger.accepted, s.hasEnded k = true) →
      ∃ n, (s.run react (retires s.ledger.accepted ++
        List.replicate n (.move .turn))).dispatch.loop = .ended (.ok ())) ∧
    alarms ((start fired).trace react events) =
      ((start fired).deaths react events).map (fun x => .log (Log.died x.2)) ∧
    ((start fired).deaths react events).map (·.1) = s.ledger.dropped ∧ s.ledger.dropped.Nodup ∧
    ∀ x ∈ (start fired).deaths react events, ∀ now, ∃ line,
      (Log.Config.named level json heading timestamp).write now (Log.died x.2) = .ok (some line) ∧
        line.stream = .error ∧ line.print = .ok () := by
  let P : Value → Prop := fun v => v.isComplaint = true ∨
    ∀ now, (Log.Config.named level json heading timestamp).say now (Log.died v) = .ok ()
  have hr : Log.Accepts react P :=
    hreact ▸ Log.accepts_named level json heading timestamp clock fun v hv => hv
  have hstart := contained_start fired
  obtain ⟨hrun, htrace, hdeaths⟩ := hstart.accepts_run hr hsaid
  obtain ⟨halarms, hdropped⟩ := hstart.alarms_run events
  have h : s.Contained := by
    rw [← hs, hrun]
    exact hstart.run events
  have hledger : ((start fired).deaths react events).map (·.1) = s.ledger.dropped := by
    rw [← hs, hrun, hdropped, hdeaths]
    rfl
  refine ⟨fun k c hk => ⟨h.dispatch_tidy.units k c hk, fun result hc hv => ?_⟩, fun result hl => ?_,
    fun hclosed hunits => ?_, ?_, hledger, ?_, fun x hx now => ?_⟩
  · rw [(h.accepts hr _ fun x hx => ?_).1]
    · exact h.sound.concludes hk hc
    · cases result with
      | error v =>
        obtain rfl := Option.some.inj ((Dispatch.dying_of_over hk hc).symm.trans hx)
        exact hv v rfl
      | ok o => exact absurd hx (by simp [dying?, Dispatch.dying_of_ok hk hc])
  · exact (h.dispatch_tidy.ended result hl).1
  · obtain ⟨n, hn⟩ := h.ends hclosed hunits
    refine ⟨n, ?_⟩
    rw [(h.accepts_run hr _).1]
    · exact hn
    · rw [deaths_idle]
      · exact fun x hx => (List.not_mem_nil hx).elim
      · intro ev hev k
        rcases List.mem_append.mp hev with hev | hev
        · obtain ⟨_, _, rfl⟩ := List.mem_map.mp hev
          simp
        · obtain rfl := List.eq_of_mem_replicate hev
          simp
  · rw [htrace, hdeaths]
    exact halarms
  · have honce := h.sound.tallied.once
    exact (List.nodup_append.mp honce).2.1
  · have hsay : (Log.Config.named level json heading timestamp).say now (Log.died x.2) = .ok () := by
      rcases hsaid x hx with hc | hsay
      · exact Log.Config.say_tame level json heading timestamp now fun v hv =>
          List.mem_singleton.mp hv ▸ Value.tame_of_isComplaint hc
      · exact hsay now
    obtain ⟨line, hw, hprint⟩ := Attempt.bind_eq_ok hsay
    obtain ⟨l, rfl, hstream⟩ := Log.Config.write_admitted level json heading timestamp
      (Log.Level.rank_le_error level) hw
    exact ⟨l, hw, hstream, hprint⟩

/-- A request whose response has no status to speak of: its body is discarded, which throws. -/
def discarding (v : Value) : List Event :=
  [.caller (.send 0 "http://a/" [] none), .move .turn, .move .turn,
    .move (.answered 0 (.ok (some (.steady (.number .nan) (.throws v))))), .caller (.release 0),
    .move (.conclude 0), .move .turn, .move .turn, .move (.retire 0), .move .turn]

/-- A text has a document: the unit fulfils, the loop ends well, and there is one error. -/
theorem text_contained : ∃ s, (start []).run
      ((Log.Config.named .error true "" false).reaction fun _ => "") (discarding "torn") = s ∧
    s.dispatch.loop = .ended (.ok ()) ∧ s.ledger.dropped = [0] ∧
    alarms ((start []).trace ((Log.Config.named .error true "" false).reaction fun _ => "")
      (discarding "torn")) = [.log (Log.died "torn")] := by
  have hsaid : ∀ x ∈ (start []).deaths ((Log.Config.named .error true "" false).reaction fun _ => "")
      (discarding "torn"), x.2.isComplaint = true ∨
        ∀ now, (Log.Config.named .error true "" false).say now (Log.died x.2) = .ok () := by
    have hdeaths : (start []).deaths ((Log.Config.named .error true "" false).reaction fun _ => "")
        (discarding "torn") = [(0, .string "torn")] := rfl
    intro x hx
    rw [hdeaths] at hx
    obtain rfl := List.mem_singleton.mp hx
    exact Or.inr fun now => rfl
  have h := failures_contained .error true "" false (fun _ => "") rfl [] (discarding "torn")
    hsaid rfl
  refine ⟨_, rfl, ?_, ?_, ?_⟩
  · obtain ⟨result, hl⟩ : ∃ result, ((start []).run
        ((Log.Config.named .error true "" false).reaction fun _ => "")
          (discarding "torn")).dispatch.loop = .ended result := ⟨_, rfl⟩
    rw [hl, h.2.1 result hl]
  · exact h.2.2.2.2.1.symm
  · exact h.2.2.2.1

/-- A large integer has no document: the logger throws when it is told of the death, the unit fails,
and the loop with it. -/
theorem integer_not_contained : ∃ s v, (start []).run
      ((Log.Config.named .error true "" false).reaction fun _ => "") (discarding (.bigint 1)) = s ∧
    (s.intake.progress? 0) = some (.retired (some v)) ∧ s.dispatch.loop = .ended (.error v) ∧
    (Log.Config.named .error true "" false).write "" (Log.died (.bigint 1)) = .error v :=
  ⟨_, _, rfl, rfl, rfl, rfl⟩

end Pipeline.Audit
end Courier
