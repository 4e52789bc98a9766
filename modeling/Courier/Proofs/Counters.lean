import Courier.Proofs.Conservation
import Courier.Proofs.Refinement

/-!
The counters of one workload, where the client is on the callers' thread and where it is in a worker.
A unit that dies is the one difference: here it drops its slot, which counts for nothing, and there
the worker posts a failure in its place, which is delivered.
-/

namespace Courier

/-! What callers make of a transport -/

/-- An idle channel with given senders. -/
def Channel.Gate.channel (g : Channel.Gate) : Channel Nat :=
  ⟨#[], 0, g.producers, g.closed, none, 0, g.released, false⟩

/-- What callers hold of a transport and what they have made of it. -/
structure Desk where
  transport : Transport
  front : Front

/-- Whether a caller gives up. -/
def Caller.aborts : Caller → Bool
  | .abort _ _ => true
  | _ => false

namespace Desk

variable {d : Desk}

def act (d : Desk) (c : Caller) : Desk :=
  let (transport, deed) := d.transport.act d.front.gate.channel c
  ⟨transport, deed.elim d.front d.front.act⟩

/-- What callers do, one after another. -/
def follow (d : Desk) (callers : List Caller) : Desk := callers.foldl act d

theorem act_of_aborts {c : Caller} (h : c.aborts = true) : d.act c = d := by
  cases c with
  | abort signal reason => rfl
  | _ => cases h

/-- Giving up changes nothing of that. -/
theorem follow_filter (d : Desk) (callers : List Caller) :
    d.follow (callers.filter (!·.aborts)) = d.follow callers := by
  induction callers generalizing d with
  | nil => rfl
  | cons c callers ih =>
    cases hc : c.aborts with
    | true =>
      rw [List.filter_cons_of_neg (by simp [hc]), ih]
      show _ = (d.act c).follow callers
      rw [act_of_aborts hc]
    | false =>
      rw [List.filter_cons_of_pos (by simp [hc])]
      exact ih (d.act c)

theorem follow_append (d : Desk) (before after : List Caller) :
    d.follow (before ++ after) = (d.follow before).follow after := List.foldl_append

end Desk

namespace Embedded

variable {e : Embedded}

def desk (e : Embedded) : Desk := ⟨e.transport, e.front⟩

theorem Sound.desk_step (h : e.Sound) (ev : Event) :
    (e.step ev).desk = e.desk.follow ev.caller?.toList := by
  cases ev with
  | caller c =>
    have hact : e.transport.act e.channel c = e.transport.act e.front.gate.channel c :=
      Transport.act_congr (show e.channel.gate = e.front.gate.channel.gate from rfl) c
    show (e.step (.caller c)).desk = e.desk.act c
    simp only [Embedded.step, Desk.act, desk, hact]
    cases (e.transport.act e.front.gate.channel c).2 with
    | none => rfl
    | some deed =>
      have ht : ({ e with transport := (e.transport.act e.front.gate.channel c).1 } :
        Embedded).Sound := ⟨h.settling, h.nodup, h.unread, h.read⟩
      exact congrArg (Desk.mk _) (ht.front_perform deed)
  | move m => exact congrArg (Desk.mk _) (h.front_move m)
  | clientClosed r =>
    refine congrArg (Desk.mk e.transport) ?_
    simp only [front, channel, Embedded.step, Pipeline.Run.dispatch_clientClosed]
    rfl

theorem Sound.desk_run (h : e.Sound) (events : List Event) :
    (e.run events).desk = e.desk.follow (events.filterMap (·.caller?)) := by
  induction events generalizing e with
  | nil => rfl
  | cons ev events ih =>
    show ((e.step ev).run events).desk = _
    rw [ih (h.step ev), h.desk_step, ← Desk.follow_append]
    cases hc : ev.caller? <;> simp [hc]

end Embedded

namespace Standalone

variable {s : Standalone}

def desk (s : Standalone) : Desk := ⟨s.transport, s.owner.front⟩

theorem Linked.desk_step (h : s.Linked) {ev : Event} (hp : s.possible ev = true) :
    (s.step ev).desk = s.desk.follow ev.caller?.toList := by
  cases ev with
  | caller c =>
    have hact : s.transport.act s.channel c = s.transport.act s.owner.front.gate.channel c :=
      Transport.act_congr (show s.channel.gate = s.owner.front.gate.channel.gate from rfl) c
    show (s.step (.caller c)).desk = s.desk.act c
    simp only [Standalone.step, Desk.act, desk, hact]
    cases (s.transport.act s.owner.front.gate.channel c).2 with
    | none => rfl
    | some deed => exact congrArg (Desk.mk _) (h.owner.front_step deed)
  | forward => exact congrArg (Desk.mk _) h.owner.front_forward
  | hear =>
    simp only [Standalone.step]
    cases s.arriving <;> rfl
  | listen =>
    simp only [Standalone.step]
    cases s.worker.sent[s.listened]? with
    | none => rfl
    | some v => exact congrArg (Desk.mk _) (h.owner.front_message v)
  | work | clientClosed => rfl
  | portClosed => exact congrArg (Desk.mk _) (h.owner.front_shutdown (h.closed_of_gone hp) _)
  | exited code => exact congrArg (Desk.mk _) (h.owner.front_shutdown (h.closed_of_gone hp) _)

theorem desk_run (fired : List (Nat × Value)) {events : List Event}
    (hv : (start fired).valid events = true)
    (hseq : ((start fired).run events).owner.bridge.seq ≤ 2 ^ 53) :
    ((start fired).run events).desk = (start fired).desk.follow (events.filterMap (·.caller?)) := by
  induction events using List.reverseRecOn with
  | nil => rfl
  | append_singleton events ev ih =>
    obtain ⟨hvalid, hpossible⟩ := valid_concat hv
    have hbound := seq_le_of_concat fired hseq
    rw [run_concat, (linked_run fired hvalid hbound).1.desk_step hpossible, ih hvalid hbound,
      ← Desk.follow_append, List.filterMap_append]
    cases hc : ev.caller? <;> simp [hc]

end Standalone

/-- Callers who do the same but give up at other moments have the same calls accepted. -/
theorem accepted_alike {fired fired' : List (Nat × Value)} {es : List Embedded.Event}
    {events : List Standalone.Event} (hv : (Standalone.start fired).valid events = true)
    (hseq : ((Standalone.start fired).run events).owner.bridge.seq ≤ 2 ^ 53)
    (hwork : (es.filterMap (·.caller?)).filter (!·.aborts) =
      (events.filterMap (·.caller?)).filter (!·.aborts)) :
    ((Embedded.start fired').run es).inner.accepted.map (·.1) =
      ((Standalone.start fired).run events).owner.accepted := by
  have hembedded := (Embedded.sound_start fired').desk_run es
  have hstandalone := Standalone.desk_run fired hv hseq
  have hstart : (Embedded.start fired').desk = (Standalone.start fired).desk := by
    simp only [Embedded.desk, Standalone.desk, Embedded.front_start]
    exact congrArg (Desk.mk _) (Bridge.Run.front_start fired).symm
  rw [← Desk.follow_filter, hwork, hstart, Desk.follow_filter, ← hstandalone] at hembedded
  exact congrArg (·.front.accepted) hembedded

/-! The dispatch side under a calm logger -/

namespace Dispatch

variable {d : Dispatch} {k : Nat}

/-- A calm logger keeps no outcome back. -/
theorem offering_calm {c : Call Stage} {result : Attempt Outcome}
    (hk : d.intake.calls[k]? = some c) (hp : c.parcel.Proper)
    (hr : c.progress = .running (.over result)) : d.offering? Log.calm k = result.toOption := by
  obtain ⟨parcel, slot, signal, progress⟩ := c
  subst hr
  obtain ⟨content, url, rfl, hu⟩ := hp
  have hurl : (Parcel.request content).url = .ok url := by
    simpa [Parcel.url, Parcel.content, bind, Except.bind] using hu
  cases result with
  | error v => simp [offering?, hk, Except.toOption]
  | ok o => simp [offering?, hk, hurl, Log.calm, Except.toOption]

/-- Nothing happens to a call unless its unit runs. -/
theorem running_of_happens {m : Move} {own : Own} (ha : d.allows m = true)
    (hh : m.happens? k = some own) : ∃ e, d.intake.progress? k = some (.running e) := by
  cases m with
  | turn | retire => cases hh
  | answered j r =>
    simp only [Move.happens?] at hh
    split at hh
    · rename_i hj
      subst hj
      exact ⟨_, Stage.any_isAsking.mp ha⟩
    · cases hh
  | chunk j v =>
    simp only [Move.happens?] at hh
    split at hh
    · rename_i hj
      subst hj
      obtain ⟨chunks, hc⟩ := Stage.any_isReading.mp ha
      exact ⟨_, hc⟩
    · cases hh
  | bodyEnded j r =>
    simp only [Move.happens?] at hh
    split at hh
    · rename_i hj
      subst hj
      obtain ⟨chunks, hc⟩ := Stage.any_isReading.mp ha
      exact ⟨_, hc⟩
    · cases hh
  | conclude j =>
    simp only [Move.happens?] at hh
    split at hh
    · rename_i hj
      subst hj
      obtain ⟨result, hc⟩ := Stage.any_isOver.mp ha
      exact ⟨_, hc⟩
    · cases hh

end Dispatch

namespace Pipeline.Audit

variable {s : Audit} {r : Pipeline.Run} {past : Nat → List Own} {k : Nat}

/-- What an event is for the pipeline. -/
def Event.inner : Event → Pipeline.Event
  | .caller deed => deed.event
  | .move m => .move m
  | .clientClosed result => .clientClosed result

/-- One run, seen with its ledger and seen without it. -/
structure Follows (s : Audit) (r : Pipeline.Run) : Prop where
  pipeline : s.pipeline = r.pipeline
  accepted : s.ledger.accepted = r.accepted.map (·.1)

theorem follows_start (fired : List (Nat × Value)) : (start fired).Follows (.start fired) :=
  ⟨rfl, rfl⟩

theorem accepted_noting {react : Log.Reaction} (m : Move) :
    (s.noting react m).accepted = s.ledger.accepted := by
  cases m with
  | conclude k =>
    simp only [noting]
    split
    · exact Ledger.accepted_done _ _ _ _
    · rfl
  | _ => rfl

theorem Follows.step (h : s.Follows r) (ev : Event) :
    (s.step Log.calm ev).Follows (r.step ev.inner) := by
  obtain ⟨pipeline, ledger, told⟩ := s
  obtain ⟨rfl, haccepted⟩ := h
  cases ev with
  | caller deed =>
    cases deed with
    | send sender uri payload signal =>
      refine ⟨rfl, ?_⟩
      show ledger.accepted ++ (if (r.dispatch.send sender (.post uri payload) signal).2.1 = true then
        [r.size] else []) = (r.accepted ++ if (r.dispatch.send sender (.post uri payload)
          signal).2.1 = true then [(r.size, (Request.post uri payload).toValue)] else []).map (·.1)
      rw [List.map_append, ← haccepted]
      split <;> rfl
    | clone | release | abort => exact ⟨rfl, haccepted⟩
  | move m =>
    refine ⟨?_, (accepted_noting m).trans haccepted⟩
    have hm := Dispatch.moveUnder_calm r.dispatch m
    exact congrArg (fun step => (r.pipeline.lift Log.calm step).1) hm
  | clientClosed result => exact ⟨rfl, haccepted⟩

/-- What the ledger says about a call is what the exchange of the call has come to. -/
structure Noted (s : Audit) (past : Nat → List Own) : Prop where
  offers : ∀ x ∈ s.ledger.offers,
    Exchange.asking.outcome? (past x.call) = some (.ok x.outcome)
  dropped : ∀ k ∈ s.ledger.dropped, ∃ v, Exchange.asking.outcome? (past k) = some (.error v)

/-- Nothing more happens to a call that is done with. -/
theorem Sound.happens_of_closed (h : s.Sound) {m : Move} (ha : s.dispatch.allows m = true)
    (hk : k ∈ s.ledger.closed) : m.happens? k = none := by
  cases hh : m.happens? k with
  | none => rfl
  | some own =>
    obtain ⟨e, he⟩ := Dispatch.running_of_happens ha hh
    obtain ⟨c, hc, hp⟩ := Option.map_eq_some_iff.mp he
    have hplaces := h.places k c hc
    rw [hp] at hplaces
    exact ((Ledger.mem_rest.mp hplaces.1).2 hk).elim

theorem Noted.same {t : Audit} {past' : Nat → List Own} (h : s.Noted past)
    (hoffers : t.ledger.offers = s.ledger.offers) (hdropped : t.ledger.dropped = s.ledger.dropped)
    (hpast : ∀ k ∈ s.ledger.closed, past' k = past k) : t.Noted past' := by
  refine ⟨fun x hx => ?_, fun k hk => ?_⟩
  · rw [hoffers] at hx
    rw [hpast _ (List.mem_append_left _ (List.mem_map_of_mem (f := (·.call)) hx))]
    exact h.offers x hx
  · rw [hdropped] at hk
    rw [hpast k (List.mem_append_right _ hk)]
    exact h.dropped k hk

/-- The end of a unit is noted as what its exchange has come to. -/
theorem Noted.conclude (h : s.Noted past) (hs : s.Sound) (hr : s.dispatch.Recalls past)
    (ha : s.dispatch.allows (.conclude k) = true) :
    (s.step Log.calm (.move (.conclude k))).Noted fun n =>
      past n ++ ((Move.conclude k).happens? n).toList := by
  obtain ⟨result, hp⟩ := Stage.any_isOver.mp ha
  obtain ⟨c, hc, hp⟩ := Option.map_eq_some_iff.mp hp
  have hoffering := Dispatch.offering_calm hc (hs.dispatch.proper k c hc) hp
  have hledger : (s.step Log.calm (.move (.conclude k))).ledger =
      s.ledger.done k (s.intake.givenUp k) result.toOption := by
    rw [← hoffering]
    exact noting_of_over hc hp
  have hown : Exchange.asking.outcome? (past k ++ ((Move.conclude k).happens? k).toList) =
      some result := by
    have hstage := (hr.call k c hc).stage
    rw [hp] at hstage
    simp only [Move.happens?, if_true, Option.toList_some]
    rw [Exchange.outcome_concluded hstage.2, ← hstage.1]
    rfl
  have hsame := h.same (t := s) rfl rfl fun n hn =>
    show past n ++ ((Move.conclude k).happens? n).toList = past n by
      rw [hs.happens_of_closed ha hn]
      exact List.append_nil _
  cases result with
  | error v =>
    refine ⟨fun x hx => ?_, fun n hn => ?_⟩
    · rw [hledger] at hx
      exact hsame.offers x hx
    · rw [hledger] at hn
      rcases List.mem_append.mp hn with hn | hn
      · exact hsame.dropped n hn
      · rw [List.mem_singleton.mp hn]
        exact ⟨v, hown⟩
  | ok o =>
    refine ⟨fun x hx => ?_, fun n hn => ?_⟩
    · rw [hledger] at hx
      rcases List.mem_append.mp hx with hx | hx
      · exact hsame.offers x hx
      · rw [List.mem_singleton.mp hx]
        exact hown
    · rw [hledger] at hn
      exact hsame.dropped n hn

theorem Noted.step (h : s.Noted past) (hs : s.Sound) (hr : s.dispatch.Recalls past) {ev : Event}
    (ha : ∀ m, ev = .move m → s.dispatch.allows m = true) :
    (s.step Log.calm ev).Noted fun k => past k ++ (ev.inner.happens? k none).toList := by
  cases ev with
  | caller deed =>
    cases deed <;> exact h.same rfl rfl fun k _ => List.append_nil _
  | clientClosed result => exact h.same rfl rfl fun k _ => List.append_nil _
  | move m =>
    have hm := ha m rfl
    have hpast : ∀ k ∈ s.ledger.closed, past k ++ (m.happens? k).toList = past k :=
      fun k hk => by rw [hs.happens_of_closed hm hk]; exact List.append_nil _
    cases m with
    | conclude k => exact h.conclude hs hr hm
    | _ => exact h.same rfl rfl hpast

/-- An audit of a run knows of every call that is done with what its exchange has come to. -/
theorem Sound.audit_run (h : s.Sound) (hf : s.Follows r) (hr : r.Settling)
    (hrecalls : r.dispatch.Recalls past) (hn : s.Noted past) {events : List Event}
    (hv : r.valid (events.map Event.inner) = true) :
    (s.run Log.calm events).Follows (r.run (events.map Event.inner)) ∧
      (s.run Log.calm events).Noted fun k =>
        past k ++ Pipeline.Run.history k none (events.map Event.inner) := by
  induction events generalizing s r past with
  | nil =>
    simp only [List.map_nil, Pipeline.Run.history, List.filterMap_nil, List.append_nil]
    exact ⟨hf, hn⟩
  | cons ev events ih =>
    obtain ⟨hp, ha, hv⟩ := Pipeline.Run.valid_cons hv
    have hd : s.dispatch = r.dispatch := congrArg Pipeline.dispatch hf.pipeline
    have hallows : ∀ m, ev = .move m → s.dispatch.allows m = true := by
      rintro m rfl
      rw [hd]
      exact ha
    have hrest := ih (h.step ev) (hf.step ev) (hr.step hp) (hr.recalls_step hrecalls hp ha)
      (hn.step h (hd ▸ hrecalls) hallows) hv
    refine ⟨hrest.1, ?_⟩
    have hpast : (fun k => past k ++ (ev.inner.happens? k none).toList ++
        Pipeline.Run.history k none (events.map Event.inner)) =
          fun k => past k ++ Pipeline.Run.history k none ((ev :: events).map Event.inner) := by
      funext k
      cases hh : ev.inner.happens? k none <;> simp [Pipeline.Run.history, hh]
    exact hpast ▸ hrest.2

/-- Once the exchange of every accepted call has come to its end, none of them is left to run. -/
theorem Sound.rest_of_ended (h : s.Sound) (hr : s.dispatch.Recalls past)
    (hended : ∀ k ∈ s.ledger.accepted, (Exchange.asking.outcome? (past k)).isSome) :
    s.ledger.rest = [] := by
  refine List.eq_nil_iff_forall_not_mem.mpr fun k hk => ?_
  obtain ⟨haccepted, hopen⟩ := Ledger.mem_rest.mp hk
  obtain ⟨c, hc, _⟩ := h.tallied.waits k hk
  have hplaces := h.places k c hc
  have hstage := (hr.call k c hc).stage
  have hsome := hended k haccepted
  cases hp : c.progress with
  | waiting =>
    rw [hp] at hstage
    rw [hstage] at hsome
    cases hsome
  | running x =>
    rw [hp] at hstage
    rw [Exchange.outcome_none hstage.2] at hsome
    cases hsome
  | ended | retired =>
    rw [hp] at hplaces
    exact hopen hplaces

end Pipeline.Audit

/-! Once every exchange has ended -/

namespace Embedded

/-- What happens in a pipeline of a transport happens in an audit of it. -/
theorem audit_trace (e : Embedded) (events : List Event) :
    ∃ audit : List Pipeline.Audit.Event, audit.map (·.inner) = e.trace events := by
  induction events generalizing e with
  | nil => exact ⟨[], rfl⟩
  | cons ev events ih =>
    obtain ⟨rest, hrest⟩ := ih (e.step ev)
    have hfirst : ∃ audit : List Pipeline.Audit.Event, audit.map (·.inner) = e.inward ev := by
      cases ev with
      | caller c =>
        refine ⟨(e.transport.act e.channel c).2.toList.map .caller, ?_⟩
        simp only [inward]
        cases (e.transport.act e.channel c).2 <;> rfl
      | move m => exact ⟨[.move m], rfl⟩
      | clientClosed r => exact ⟨[.clientClosed r], rfl⟩
    obtain ⟨first, hfirst⟩ := hfirst
    exact ⟨first ++ rest, by rw [List.map_append, hfirst, hrest, trace]⟩

/-- Whether the unit of a call has died. -/
def died (events : List Event) (k : Nat) : Bool :=
  match Exchange.asking.outcome? (history k none events) with
  | some (.error _) => true
  | _ => false

/-- The counters of an embedded transport once every accepted call's exchange has ended: a call
whose unit has died is not counted. -/
theorem stats_of_ended (fired : List (Nat × Value)) {events : List Event}
    (hv : (start fired).valid events = true)
    (hended : ∀ k ∈ ((start fired).run events).inner.accepted.map (·.1),
      (Exchange.asking.outcome? (history k none events)).isSome) :
    let i := ((start fired).run events).inner.dispatch.intake
    let accepted := ((start fired).run events).inner.accepted.map (·.1)
    i.stats = ⟨accepted.length, accepted.countP fun k => !died events k && !i.givenUp k,
      accepted.countP fun k => !died events k && i.givenUp k⟩ := by
  obtain ⟨audit, haudit⟩ := audit_trace (start fired) events
  have hstart := Pipeline.Audit.sound_start fired
  have hvalid : (start fired).inner.valid (audit.map (·.inner)) = true := by
    rw [haudit]
    exact valid_trace hv
  have hsound := hstart.run Log.calm audit
  obtain ⟨hfollows, hnoted⟩ := hstart.audit_run (Pipeline.Audit.follows_start fired)
    (Pipeline.Run.settling_start fired) (Dispatch.recalls_new fired)
    ⟨by simp [Pipeline.Audit.start, Ledger.empty], by simp [Pipeline.Audit.start, Ledger.empty]⟩
    hvalid
  rw [haudit] at hfollows hnoted
  simp only [history_trace, List.nil_append] at hnoted
  have hinner : ((start fired).run events).inner = (Pipeline.Run.start fired).run
    ((start fired).trace events) := run_inner _ _
  rw [← hinner] at hfollows
  generalize (Pipeline.Audit.start fired).run Log.calm audit = s at hsound hfollows hnoted
  have hdispatch : s.dispatch = ((start fired).run events).inner.dispatch :=
    congrArg Pipeline.dispatch hfollows.pipeline
  have hintake : s.intake = ((start fired).run events).inner.dispatch.intake :=
    congrArg Dispatch.intake hdispatch
  have hrest := hsound.rest_of_ended (hdispatch ▸ recalls_run fired hv) fun k hk =>
    hended k (hfollows.accepted ▸ hk)
  have hstats := hsound.tallied.stats_of_rest hrest (died events)
    (fun x hx => by simp [died, hnoted.offers x hx]) fun k hk => by
      obtain ⟨v, hx⟩ := hnoted.dropped k hk
      simp [died, hx]
  rw [hintake, hfollows.accepted] at hstats
  exact hstats

end Embedded

namespace Standalone

/-- The owner's side of a run is a run of the owner's side. -/
theorem audit_owner (fired : List (Nat × Value)) (events : List Event) :
    ∃ audit : Bridge.Audit, audit.Sound ∧ audit.run = ((start fired).run events).owner := by
  induction events using List.reverseRecOn with
  | nil => exact ⟨_, Bridge.Audit.sound_start fired, rfl⟩
  | append_singleton events ev ih =>
    obtain ⟨audit, hsound, hrun⟩ := ih
    rw [run_concat]
    rcases owner_step ((start fired).run events) ev with ho | ⟨own, ho⟩
    · exact ⟨audit, hsound, hrun.trans ho.symm⟩
    · exact ⟨audit.step own, hsound.step own, by rw [ho, ← hrun]; rfl⟩

/-- A worker that nobody crashes owes nothing when it is found gone. -/
theorem Linked.dropped_step {s : Standalone} (h : s.Linked) {ev : Event}
    (hp : s.possible ev = true) : (s.step ev).owner.dropped = s.owner.dropped := by
  have hshutdown : s.gone = true → ∀ reason, (s.owner.shutdown reason).dropped = s.owner.dropped := by
    intro hg reason
    show s.owner.dropped ++ (if s.owner.bridge.alive then s.owner.bridge.owed else []) = _
    rw [(h.owed_of_gone hg).2]
    split <;> exact List.append_nil _
  cases ev with
  | caller c =>
    simp only [Standalone.step]
    cases (s.transport.act s.channel c).2 with
    | none => rfl
    | some deed => cases deed <;> rfl
  | hear =>
    simp only [Standalone.step]
    cases s.arriving <;> rfl
  | listen =>
    simp only [Standalone.step]
    cases s.worker.sent[s.listened]? <;> rfl
  | work | clientClosed | forward => rfl
  | portClosed => exact hshutdown hp _
  | exited code => exact hshutdown hp _

theorem dropped_run (fired : List (Nat × Value)) {events : List Event}
    (hv : (start fired).valid events = true)
    (hseq : ((start fired).run events).owner.bridge.seq ≤ 2 ^ 53) :
    ((start fired).run events).owner.dropped = [] := by
  induction events using List.reverseRecOn with
  | nil => rfl
  | append_singleton events ev ih =>
    obtain ⟨hvalid, hpossible⟩ := valid_concat hv
    have hbound := seq_le_of_concat fired hseq
    rw [run_concat, (linked_run fired hvalid hbound).1.dropped_step hpossible, ih hvalid hbound]

/-- No request waits once every exchange has ended and every response has arrived. -/
theorem Linked.waiting_of_ended {s : Standalone} (h : s.Linked) {past : Nat → List Own}
    (hr : s.worker.dispatch.Recalls past) (hheard : s.listened = s.worker.sent.length)
    (hended : ∀ j < s.owner.accepted.length, (Exchange.asking.outcome? (past j)).isSome) :
    s.owner.bridge.queue ++ s.owner.bridge.pending.map (·.2) = [] := by
  have hknown : ∀ j < s.owner.accepted.length, j ∈ s.known := by
    intro j hj
    obtain ⟨result, hresult⟩ := Option.isSome_iff_exists.mp (hended j hj)
    obtain ⟨reading, ht⟩ := h.told_of_outcome hr hresult
    rw [known, hheard, ← h.serving.sent.length_eq, List.take_length]
    exact List.mem_map_of_mem (f := fun t : Settled => t.call) ht
  have hqueue : s.owner.bridge.queue = [] := by
    rw [← h.orderly.queue, List.drop_eq_nil_iff]
    by_contra hlt
    have hsize := h.lt_of_known (hknown s.owner.bridge.seq (Nat.lt_of_not_le hlt))
    exact Nat.lt_irrefl _ (Nat.lt_of_lt_of_le hsize h.size_le)
  have hpending : s.owner.bridge.pending = [] := by
    refine List.eq_nil_iff_forall_not_mem.mpr fun x hx => ?_
    obtain ⟨j, hj, hk⟩ := h.orderly.pending x hx
    have hn := ((h.pending j x.2 hk).mp (hj ▸ hx)).2
    exact hn (hknown j (List.getElem?_eq_some_iff.mp hk).1)
  rw [hqueue, hpending]
  rfl

/-- The counters of a standalone transport once every response has arrived: every call is
counted. -/
theorem stats_of_ended (fired : List (Nat × Value)) {events : List Event}
    (hv : (start fired).valid events = true)
    (hseq : ((start fired).run events).owner.bridge.seq ≤ 2 ^ 53)
    (hheard : ((start fired).run events).listened = ((start fired).run events).worker.sent.length)
    (hended : ∀ j < ((start fired).run events).owner.accepted.length,
      (Exchange.asking.outcome? (exchange j events)).isSome) :
    let i := ((start fired).run events).owner.bridge.intake
    let accepted := ((start fired).run events).owner.accepted
    i.stats = ⟨accepted.length, accepted.countP fun k => !i.givenUp k, accepted.countP i.givenUp⟩ := by
  obtain ⟨hlinked, hrecalls⟩ := linked_run fired hv hseq
  have hwaiting := hlinked.waiting_of_ended hrecalls hheard hended
  have hdropped := dropped_run fired hv hseq
  obtain ⟨audit, hsound, hrun⟩ := audit_owner fired events
  rw [← hrun] at hwaiting hdropped ⊢
  have hrest : audit.ledger.rest = [] := by
    refine List.eq_nil_iff_forall_not_mem.mpr fun k hk => ?_
    obtain ⟨haccepted, hopen⟩ := Ledger.mem_rest.mp hk
    have hperm := hsound.accounted.perm.mem_iff.mp haccepted
    rw [hwaiting, List.nil_append, ← hsound.delivered] at hperm
    exact hopen hperm
  have hstats := hsound.tallied.stats_of_rest hrest (fun _ => false) (fun _ _ => rfl)
    fun k hk => by rw [show audit.ledger.dropped = [] from hdropped] at hk; cases hk
  simp only [Bool.not_false, Bool.true_and] at hstats
  exact hstats

end Standalone

/-- A run of an embedded transport and a run of a standalone one with the same workload. Callers do
the same, but may give up at other moments; the client does the same for every request; the same
callers give up before their exchange is completed for them; and in the end every exchange has
ended and every response has arrived. -/
structure Alike (fired fired' : List (Nat × Value)) (es : List Embedded.Event)
    (events : List Standalone.Event) : Prop where
  embedded : (Embedded.start fired).valid es = true
  standalone : (Standalone.start fired').valid events = true
  numbers : ((Standalone.start fired').run events).owner.bridge.seq ≤ 2 ^ 53
  callers : (es.filterMap (·.caller?)).filter (!·.aborts) =
    (events.filterMap (·.caller?)).filter (!·.aborts)
  client : ∀ j k, ((Standalone.start fired').run events).owner.accepted[j]? = some k →
    Embedded.history k none es = Standalone.exchange j events
  givenUp : ∀ k ∈ ((Standalone.start fired').run events).owner.accepted,
    ((Embedded.start fired).run es).inner.dispatch.intake.givenUp k =
      ((Standalone.start fired').run events).owner.bridge.intake.givenUp k
  ended : ∀ k ∈ ((Standalone.start fired').run events).owner.accepted,
    (Exchange.asking.outcome? (Embedded.history k none es)).isSome
  heard : ((Standalone.start fired').run events).listened =
    ((Standalone.start fired').run events).worker.sent.length

theorem Alike.accepted {fired fired' : List (Nat × Value)} {es : List Embedded.Event}
    {events : List Standalone.Event} (h : Alike fired fired' es events) :
    ((Embedded.start fired).run es).inner.accepted.map (·.1) =
      ((Standalone.start fired').run events).owner.accepted :=
  accepted_alike h.standalone h.numbers h.callers

/-- One workload counts the same in both places, but for the calls whose units die: here they are
not counted, there they are counted as their callers have given up or not. -/
theorem counters_agree (fired fired' : List (Nat × Value)) (es : List Embedded.Event)
    (events : List Standalone.Event) (h : Alike fired fired' es events) :
    let here := ((Embedded.start fired).run es).inner.dispatch.intake
    let there := ((Standalone.start fired').run events).owner.bridge.intake
    let dead := ((Standalone.start fired').run events).owner.accepted.filter (Embedded.died es)
    there.stats.submitted = here.stats.submitted ∧
    there.stats.delivered = here.stats.delivered + dead.countP (fun k => !there.givenUp k) ∧
    there.stats.undelivered = here.stats.undelivered + dead.countP there.givenUp ∧
    (dead = [] → there.stats = here.stats) := by
  intro here there dead
  have hhere := Embedded.stats_of_ended fired h.embedded (h.accepted ▸ h.ended)
  have hthere := Standalone.stats_of_ended fired' h.standalone h.numbers h.heard fun j hj => by
    have hk := List.getElem?_eq_getElem hj
    rw [← h.client j _ hk]
    exact h.ended _ (List.mem_of_getElem? hk)
  simp only [h.accepted] at hhere
  have hsame : ∀ p : Bool → Bool,
      ((Standalone.start fired').run events).owner.accepted.countP (fun k => p (there.givenUp k)) =
        ((Standalone.start fired').run events).owner.accepted.countP
          (fun k => !Embedded.died es k && p (here.givenUp k)) +
        dead.countP fun k => p (there.givenUp k) := fun p => by
    rw [List.countP_eq_countP_filter_add _ _ (Embedded.died es), Nat.add_comm]
    refine congrArg (· + _) ?_
    rw [List.countP_filter]
    refine List.countP_congr fun k hk => ?_
    rw [show here.givenUp k = there.givenUp k from h.givenUp k hk, Bool.and_comm]
  have hdelivered := hsame (!·)
  have hundelivered := hsame id
  have hcounts : there.stats.submitted = here.stats.submitted ∧
      there.stats.delivered = here.stats.delivered + dead.countP (fun k => !there.givenUp k) ∧
      there.stats.undelivered = here.stats.undelivered + dead.countP there.givenUp := by
    rw [show here.stats = _ from hhere, show there.stats = _ from hthere]
    exact ⟨rfl, hdelivered, hundelivered⟩
  refine ⟨hcounts.1, hcounts.2.1, hcounts.2.2, fun hdead => ?_⟩
  rw [hdead, List.countP_nil, List.countP_nil, Nat.add_zero, Nat.add_zero] at hcounts
  obtain ⟨hs, hd, hu⟩ := hcounts
  calc there.stats = ⟨there.stats.submitted, there.stats.delivered, there.stats.undelivered⟩ := rfl
    _ = here.stats := by rw [hs, hd, hu]

/-- A response whose body cannot be discarded. -/
def stuck : Response := .steady (.number 500) (.throws .null)

/-- Of three calls the first one's unit dies, and the caller of the second one gives up. -/
def Embedded.dying : List Embedded.Event :=
  [.caller (.handle "http://a/"), .caller (.send 0 [1] none), .caller (.send 0 [2] (some 7)),
    .caller (.send 0 [3] none), .move .turn, .move .turn, .move .turn, .move .turn,
    .move (.answered 0 (.ok (some stuck))), .move (.conclude 0), .caller (.abort 7 .null),
    .move (.answered 1 (.error .null)), .move (.conclude 1), .move (.answered 2 (.error .null)),
    .move (.conclude 2)]

@[inherit_doc Embedded.dying]
def Standalone.dying : List Standalone.Event :=
  [.caller (.handle "http://a/"), .caller (.send 0 [1] none), .caller (.send 0 [2] (some 7)),
    .caller (.abort 7 .null), .caller (.send 0 [3] none), .forward, .forward, .forward, .hear, .hear,
    .hear, .work .turn, .work .turn, .work .turn, .work .turn, .work (.answered 2 (.error .null)),
    .work (.conclude 2), .listen, .work (.answered 1 (.error .null)), .work (.conclude 1), .listen,
    .work (.answered 0 (.ok (some stuck))), .work (.conclude 0), .listen]

theorem dying_alike : Alike [] [] Embedded.dying Standalone.dying := by
  have haccepted : ((Standalone.start []).run Standalone.dying).owner.accepted = [0, 1, 2] := by
    decide +kernel
  refine ⟨by decide +kernel, by decide +kernel, by decide +kernel, rfl, fun j k hk => ?_, ?_, ?_,
    by decide +kernel⟩
  · rw [haccepted] at hk
    match j with
    | 0 | 1 | 2 =>
      obtain rfl := Option.some.inj hk
      rfl
    | _ + 3 => cases hk
  · rw [haccepted]
    decide +kernel
  · rw [haccepted]
    decide +kernel

theorem counters_agree_dying : Alike [] [] Embedded.dying Standalone.dying ∧
    ((Standalone.start []).run Standalone.dying).owner.bridge.intake.stats.delivered =
      ((Embedded.start []).run Embedded.dying).inner.dispatch.intake.stats.delivered + 1 := by
  have hdead : (((Standalone.start []).run Standalone.dying).owner.accepted.filter
      (Embedded.died Embedded.dying)).countP (fun k =>
        !((Standalone.start []).run Standalone.dying).owner.bridge.intake.givenUp k) = 1 := by
    decide +kernel
  have hdelivered := (counters_agree [] [] _ _ dying_alike).2.1
  rw [hdead] at hdelivered
  exact ⟨dying_alike, hdelivered⟩

/-- What the callers and the client of `Standalone.silenced` do. -/
def Embedded.silenced : List Embedded.Event :=
  [.caller (.handle "http://a/"), .caller (.send 0 [1] none), .caller (.closeHandle 0),
    .caller .close, .move .turn, .move .turn, .move (.answered 0 (.error .speechless)),
    .move (.conclude 0)]

/-- The counters differ where a unit dies. They do so where none dies, too: if a failure has no text
for its message, and if the logger of the owner throws. -/
theorem counters_differ :
    (¬ ∀ (fired fired' : List (Nat × Value)) (es : List Embedded.Event)
      (events : List Standalone.Event), Alike fired fired' es events →
        ((Standalone.start fired').run events).owner.bridge.intake.stats =
          ((Embedded.start fired).run es).inner.dispatch.intake.stats) ∧
    ((Embedded.start []).valid Embedded.silenced = true ∧
      (Standalone.start []).admitted Standalone.silenced = true ∧
      Embedded.silenced.filterMap (·.caller?) = Standalone.silenced.filterMap (·.caller?) ∧
      Embedded.history 0 none Embedded.silenced = Standalone.exchange 0 Standalone.silenced ∧
      Embedded.died Embedded.silenced 0 = false ∧
      ((Standalone.start []).run Standalone.silenced).owner.bridge.intake.stats ≠
        ((Embedded.start []).run Embedded.silenced).inner.dispatch.intake.stats) ∧
    (Standalone.start []).valid Standalone.answering = true ∧
      ((Standalone.start []).run Standalone.answering).owner.bridge.intake.stats ≠
        ((Pipeline.Audit.start []).run Standalone.raging (.caller (.send 0 "http://a/" [1] none) ::
          Standalone.answered.map .move)).intake.stats := by
  refine ⟨fun h => ?_, ⟨by decide +kernel, by decide +kernel, rfl, rfl, rfl, by decide +kernel⟩,
    by decide +kernel, by decide +kernel⟩
  have hsame := congrArg Stats.delivered (h [] [] _ _ dying_alike)
  have hdiffer : ((Standalone.start []).run Standalone.dying).owner.bridge.intake.stats.delivered ≠
      ((Embedded.start []).run Embedded.dying).inner.dispatch.intake.stats.delivered := by
    decide +kernel
  exact hdiffer hsame

end Courier
