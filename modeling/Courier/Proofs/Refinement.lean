import Courier.Proofs.Conservation
import Courier.Proofs.Crossing
import Courier.Proofs.Mirror

/-!
What callers of a standalone transport learn is what callers of an embedded one learn. The bytes of
a reply are the same; of a failure all is the same but the cause, which is what describes it, so
that both failures have one record.
-/

namespace Courier

/-- A failure, and what it is on the other side of the port: its cause is the text of what it was,
or nothing where nothing describes that. Only then does its record have less to show, namely not
that the cause is undefined. -/
structure Fault.Crosses (f g : Fault) : Prop where
  kind : g.kind = f.kind
  message : g.message = f.message
  status : g.status = f.status
  cause : (f.cause = .undefined ∨ f.cause.describe = .ok .undefined) ∧ g.cause = .undefined ∨
    ∃ text, f.cause.HasText text ∧ g.cause = .string text
  record : ∃ record, f.post = .ok record ∧ g.post = .ok (excerpt record) ∧
    (f.cause.describe ≠ .ok .undefined → excerpt record = record)

/-- A result of `send`, and what it is on the other side of the port. -/
inductive Crosses : Attempt Value → Attempt Value → Prop where
  | body (bytes : Bytes) : Crosses (.ok (.bytes bytes)) (.ok (.bytes bytes))
  | failure {f g : Fault} (h : f.Crosses g) : Crosses (.error f.toValue) (.error g.toValue)

theorem Fault.Portable.crosses {f : Fault} (h : f.Portable) : f.Crosses f.relayed := by
  refine ⟨rfl, rfl, rfl, ?_, f.record, h.post, ?_, fun _ => h.excerpt_record⟩
  · obtain ⟨hc, ht⟩ | ⟨text, _, hd, ht⟩ := Value.asCause_cases h.cause
    · exact Or.inl ⟨Or.inl hc, ht⟩
    · exact Or.inr ⟨text, hd, ht⟩
  · rw [h.excerpt_record, h.relayed.post, h.record_relayed]

theorem Fault.OfExchange.crosses {f : Fault} (h : f.OfExchange .plain) : f.Crosses f.relayed := by
  rcases h.portable with hp | hd
  · exact hp.crosses
  · obtain ⟨message, hf, hpost, hrelayed⟩ := h.undescribed hd
    have hcause : f.relayed.cause = .undefined := by rw [hrelayed]; rfl
    exact ⟨rfl, rfl, rfl, Or.inl ⟨Or.inr hd, hcause⟩, _, hpost, by rw [hrelayed]; rfl,
      fun hn => (hn hd).elim⟩

/-- What a unit has come to crosses, also if it has come to nothing. -/
theorem crosses_carried {o : Option Outcome}
    (h : ∀ x, o = some x → x.OfExchange .plain) :
    Crosses (Handle.result (.got o)) (Handle.result (.got (some (Outcome.carried o)))) := by
  cases o with
  | none => exact .failure Fault.portable_died.crosses
  | some x =>
    cases x with
    | success body => exact .body body
    | failure f => exact .failure (Fault.OfExchange.crosses (h _ rfl))
    | foreign v => exact (h _ rfl).elim

/-- What a move of the client does to a call is of the manner of the client. -/
theorem Move.Reports.shows {client : Manner} {m : Move} (h : m.Reports client) {j : Nat} {x : Own}
    (hx : m.happens? j = some x) : client.Shows x := by
  cases m with
  | answered i r =>
    obtain ⟨_, hx⟩ := Option.ite_none_right_eq_some.mp hx
    obtain rfl := Option.some.inj hx
    exact h
  | bodyEnded i r =>
    obtain ⟨_, hx⟩ := Option.ite_none_right_eq_some.mp hx
    obtain rfl := Option.some.inj hx
    exact h
  | chunk i v =>
    obtain ⟨_, hx⟩ := Option.ite_none_right_eq_some.mp hx
    obtain rfl := Option.some.inj hx
    trivial
  | conclude i =>
    obtain ⟨_, hx⟩ := Option.ite_none_right_eq_some.mp hx
    obtain rfl := Option.some.inj hx
    trivial
  | turn | retire => cases hx

/-- The statuses that the client reports are numbers. -/
def Move.isNumeric : Move → Bool
  | .answered _ (.ok (some response)) => response.isNumeric
  | _ => true

def Embedded.Event.caller? : Embedded.Event → Option Caller
  | .caller c => some c
  | _ => none

namespace Standalone

variable {s : Standalone} {j k : Nat}

def Event.caller? : Event → Option Caller
  | .caller c => some c
  | _ => none

theorem callers_mirrored (s : Standalone) (ev : Event) :
    (s.mirrored ev).filterMap (·.caller?) = ev.caller?.toList := by
  cases ev with
  | work m =>
    simp only [mirrored]
    split <;> rfl
  | _ => rfl

theorem callers_mirror (s : Standalone) (events : List Event) :
    (s.mirror events).filterMap (·.caller?) = events.filterMap (·.caller?) := by
  induction events generalizing s with
  | nil => rfl
  | cons ev events ih =>
    rw [mirror, List.filterMap_append, callers_mirrored, ih]
    cases h : ev.caller? <;> simp [h]

theorem plain_of_valid {events : List Event} (hv : s.valid events = true) {m : Move}
    (hm : .work m ∈ events) : m.isPlain = true := by
  induction events generalizing s with
  | nil => cases hm
  | cons ev events ih =>
    simp only [valid, Bool.and_eq_true] at hv
    rcases List.mem_cons.mp hm with rfl | hm
    · have hp := hv.1
      simp only [possible, Bool.and_eq_true] at hp
      exact hp.2
    · exact ih hv.2 hm

/-- What the client does in an exchange is plain. -/
theorem plain_exchange {events : List Event} (hv : s.valid events = true) {x : Own}
    (h : x ∈ exchange j events) : Manner.plain.Shows x := by
  obtain ⟨ev, hev, he⟩ := List.mem_filterMap.mp h
  cases ev with
  | work m => exact (Move.reports_plain (plain_of_valid hv hev)).shows he
  | _ => cases he

/-- An accepted request has its slot untouched, or its response has arrived. -/
theorem Linked.waits_or_known (h : s.Linked) (hj : s.owner.accepted[j]? = some k) :
    s.owner.bridge.intake.Waits k ∨ ∃ o, ⟨j, .got o⟩ ∈ s.worker.told ∧
      s.owner.bridge.intake.Rests k (.given (Outcome.carried o)) := by
  by_cases hlt : j < s.owner.bridge.seq
  · by_cases hknown : j ∈ s.known
    · obtain ⟨⟨i, reading⟩, ht, rfl⟩ := List.mem_map.mp hknown
      obtain ⟨o, rfl, hr⟩ := h.given ⟨i, reading⟩ ht k hj
      exact Or.inr ⟨o, List.mem_of_mem_take ht, hr⟩
    · exact Or.inl (h.owner.waits_of_pending ((h.pending j k hj).mpr ⟨hlt, hknown⟩))
  · refine Or.inl (h.owner.waits k (List.mem_append_left _ ?_))
    rw [← h.orderly.queue]
    refine List.mem_of_getElem? (i := j - s.owner.bridge.seq) ?_
    rw [List.getElem?_drop, Nat.add_sub_cancel' (Nat.le_of_not_lt hlt)]
    exact hj

/-- An answer tells of the call's own signal, or of what its unit has come to. -/
theorem Linked.answer_cases (h : s.Linked) (hj : s.owner.accepted[j]? = some k)
    {a : Attempt Value} (ha : (k, a) ∈ s.owner.answers) : s.owner.bridge.intake.GaveUp k a ∨
      ∃ o, ⟨j, .got o⟩ ∈ s.worker.told ∧
        a = Handle.result (.got (some (Outcome.carried o))) := by
  rcases List.mem_append.mp ha with hr | ht
  · obtain ⟨n, hn, he⟩ := List.mem_map.mp hr
    obtain ⟨rfl, _⟩ := Prod.mk.inj he
    exact ((h.orderly.refused n hn).2 (List.mem_of_getElem? hj)).elim
  · obtain ⟨⟨n, reading⟩, htold, he⟩ := List.mem_map.mp ht
    obtain ⟨rfl, rfl⟩ := Prod.mk.inj he
    obtain ⟨c, hc, hslot⟩ := (h.owner.intake.told.mem ⟨n, reading⟩).mp htold
    cases reading with
    | refused reason =>
      exact Or.inl ⟨c, reason, hc, h.owner.intake.refused n c reason hc hslot, rfl⟩
    | got o =>
      have hopened : ∀ fired, c.slot ≠ .opened fired := by
        intro fired he
        rw [he] at hslot
        cases fired <;> cases hslot
      rcases h.waits_or_known hj with ⟨d, hd, hs⟩ | ⟨x, hx, d, hd, hs⟩
      · obtain rfl := Option.some.inj (hc.symm.trans hd)
        exact (hopened _ hs).elim
      · obtain rfl := Option.some.inj (hc.symm.trans hd)
        rcases hs with hs | ⟨reason, _, hs⟩
        · rw [hs] at hslot
          simp only [Slot.given, Slot.Reader.settled.injEq, Slot.Reading.got.injEq] at hslot
          exact Or.inr ⟨x, hx, by rw [← hslot]⟩
        · exact (hopened _ hs).elim

/-- Whoever's response has arrived has an answer. -/
theorem Linked.answered (h : s.Linked) (hj : s.owner.accepted[j]? = some k) (hk : j ∈ s.known) :
    ∃ a, (k, a) ∈ s.owner.answers := by
  obtain ⟨t, ht, rfl⟩ := List.mem_map.mp hk
  obtain ⟨o, _, hr⟩ := h.given t ht k hj
  rcases hr.told rfl h.owner.intake with ht | ⟨_, reason, _, _, ht⟩
  · exact ⟨_, Bridge.Run.mem_answers_of_told ht⟩
  · exact ⟨_, Bridge.Run.mem_answers_of_told ht⟩

/-- A unit whose exchange has come to something has been told of. -/
theorem Linked.told_of_outcome (h : s.Linked) {past : Nat → List Own}
    (hr : s.worker.dispatch.Recalls past) {result : Attempt Outcome}
    (ho : Exchange.asking.outcome? (past j) = some result) :
    ∃ reading, ⟨j, reading⟩ ∈ s.worker.told := by
  rcases Nat.lt_or_ge j s.worker.size with hlt | hge
  · have hc := Array.getElem?_eq_getElem hlt
    rcases (h.serving.serves j _ hc).reader with hw | ⟨reading, hs⟩
    · have hnone := (hr.call j _ hc).waits hw
      rw [ho] at hnone
      cases hnone
    · exact ⟨reading, (h.serving.intake.told.mem ⟨j, reading⟩).mpr ⟨_, hc, hs⟩⟩
  · rw [hr.later j hge] at ho
    cases ho

/-- What becomes of an accepted request: the client on the other thread gets it unchanged, and an
answer tells of its own signal or is the verdict on its exchange, which is told in the end. -/
structure Answers (s : Standalone) (j k : Nat) (verdict : Option (Attempt Value)) : Prop where
  request : ∀ d : Call Stage, s.worker.dispatch.intake.calls[j]? = some d →
    s.owner.front.parcels[k]? = some d.parcel
  answer : ∀ a, (k, a) ∈ s.owner.answers →
    s.owner.bridge.intake.GaveUp k a ∨ ∃ b, verdict = some b ∧ Crosses b a
  complete : s.listened = s.worker.sent.length → ∀ b, verdict = some b →
    ∃ a, (k, a) ∈ s.owner.answers

theorem Linked.answers (h : s.Linked) {past : Nat → List Own}
    (hr : s.worker.dispatch.Recalls past) (hj : s.owner.accepted[j]? = some k)
    (hplain : ∀ x ∈ past j, Manner.plain.Shows x) :
    s.Answers j k ((Exchange.asking.outcome? (past j)).map fun result =>
      Handle.result (.got result.toOption)) := by
  refine ⟨fun d hd => ?_, fun a ha => ?_, fun hall b hb => ?_⟩
  · have hc := Array.getElem?_eq_getElem (h.owner.known k (List.mem_of_getElem? hj))
    rw [h.parcels j k _ d hj hc hd]
    simp only [Bridge.Run.front, Array.getElem?_map]
    exact congrArg (Option.map _) hc
  · rcases h.answer_cases hj ha with hg | ⟨o, ht, rfl⟩
    · exact Or.inl hg
    · obtain ⟨c, hc, hslot⟩ := (h.serving.intake.told.mem ⟨j, .got o⟩).mp ht
      obtain ⟨result, ho, rfl⟩ := (hr.call j c hc).got o hslot
      refine Or.inr ⟨_, by rw [ho]; rfl, crosses_carried fun x hx => ?_⟩
      refine Exchange.sound_outcome Exchange.sound_asking hplain (o := x) ?_
      cases result with
      | ok y => exact ho.trans (by rw [Option.some.inj hx])
      | error v => cases hx
  · obtain ⟨result, ho, _⟩ := Option.map_eq_some_iff.mp hb
    obtain ⟨reading, ht⟩ := h.told_of_outcome hr ho
    refine h.answered hj ?_
    rw [known, hall, ← h.serving.sent.length_eq, List.take_length]
    exact List.mem_map_of_mem (f := fun t : Settled => t.call) ht

/-- What callers of a standalone transport learn is what callers of an embedded one learn. For
every run of the first there is a run of the second with the same callers, which accepts the same
calls and in which the client does the same to every one of them; and wherever a client does the
same to a call, the results are the same on both sides of the port. Numbers of requests are exact
up to `2 ^ 53`. -/
theorem refines_embedded (fired : List (Nat × Value)) {events : List Event}
    (hv : (start fired).valid events = true)
    (hseq : ((start fired).run events).owner.bridge.seq ≤ 2 ^ 53) :
    ((start fired).run events).worker.crashed = [] ∧
    ∃ es, (Embedded.start fired).valid es = true ∧
      es.filterMap (·.caller?) = events.filterMap (·.caller?) ∧
      ((Embedded.start fired).run es).front = ((start fired).run events).owner.front ∧
      ∀ j k, ((start fired).run events).owner.accepted[j]? = some k →
        Embedded.history k none es = exchange j events ∧
        ((start fired).run events).Answers j k
          (Embedded.verdict false none (exchange j events)) ∧
        (∀ b, Embedded.verdict false none (exchange j events) = some b →
          (k, b) ∈ ((Embedded.start fired).run es).answers ∨ ∃ a,
            ((Embedded.start fired).run es).inner.dispatch.intake.GaveUp k a ∧
              (k, a) ∈ ((Embedded.start fired).run es).answers) ∧
        ∀ (fired' : List (Nat × Value)) (es' : List Embedded.Event) (n : Nat) (b : Attempt Value),
          (Embedded.start fired').valid es' = true →
          Embedded.history n none es' = exchange j events →
          (n, b) ∈ ((Embedded.start fired').run es').answers →
          b = .error Fault.notListening.toValue ∨
            ((Embedded.start fired').run es').inner.dispatch.intake.GaveUp n b ∨
            Embedded.verdict false none (exchange j events) = some b := by
  obtain ⟨hlinked, hrecalls⟩ := linked_run fired hv hseq
  obtain ⟨hvalid, hmirrors, hhistory⟩ := mirrors_run fired hv hseq
  refine ⟨hlinked.serving.calm, beside fired events, hvalid, callers_mirror _ events,
    hmirrors.front, fun j k hj => ?_⟩
  have hsame := hhistory j k hj
  have hverdict := Embedded.verdict_history k (beside fired events)
  rw [hsame] at hverdict
  refine ⟨hsame, ?_, fun b hb => ?_, fun fired' es' n b hv' hn hb => ?_⟩
  · rw [hverdict]
    exact hlinked.answers hrecalls hj fun x => plain_exchange hv
  · refine Embedded.answered fired hvalid ?_ (hsame ▸ hb)
    have haccepted : ((Embedded.start fired).run (beside fired events)).inner.accepted.map (·.1) =
      ((start fired).run events).owner.accepted := congrArg Front.accepted hmirrors.front
    rw [haccepted]
    exact List.mem_of_getElem? hj
  · rcases Embedded.answer_cases fired' hv' hb with ⟨_, hb⟩ | hg | hb
    · exact Or.inl hb
    · exact Or.inr (Or.inl hg)
    · exact Or.inr (Or.inr (hn ▸ hb))

/-- Of two requests the second one fails first, and the unit of the first one dies. -/
def failing : List Event :=
  [.caller (.handle "http://a/"), .caller (.send 0 [1] none), .caller (.send 0 [2] none), .forward,
    .forward, .hear, .hear, .work .turn, .work .turn, .work .turn,
    .work (.answered 1 (.error .null)), .work (.conclude 1), .listen,
    .work (.answered 0 (.ok none)), .work (.conclude 0), .listen]

theorem failing_crosses : (start []).valid failing = true ∧
    ((start []).run failing).owner.bridge.seq ≤ 2 ^ 53 ∧
    (∃ a, (0, a) ∈ ((start []).run failing).owner.answers ∧
      Crosses (.error Fault.diedWithoutResponse.toValue) a) ∧
    ∃ a, (1, a) ∈ ((start []).run failing).owner.answers ∧
      Crosses (.error (Fault.ofKind .network "Network error: null" .undefined .null).toValue) a := by
  have hv : (start []).valid failing = true := by decide +kernel
  have hseq : ((start []).run failing).owner.bridge.seq ≤ 2 ^ 53 := by decide +kernel
  have hall : ((start []).run failing).listened = ((start []).run failing).worker.sent.length := by
    decide +kernel
  have haccepted : ((start []).run failing).owner.accepted = [0, 1] := by decide +kernel
  have hsignals : ∀ k < 2, (((start []).run failing).owner.bridge.intake.calls[k]?.map (·.signal)) =
    some none := by decide +kernel
  obtain ⟨_, _, _, _, _, hcalls⟩ := refines_embedded [] hv hseq
  have hcrosses : ∀ k < 2, ∀ b, Embedded.verdict false none (exchange k failing) = some b →
      ∃ a, (k, a) ∈ ((start []).run failing).owner.answers ∧ Crosses b a := by
    intro k hk b hb
    have hj : ((start []).run failing).owner.accepted[k]? = some k := by
      rw [haccepted]
      rcases k with _ | _ | k
      · rfl
      · rfl
      · omega
    obtain ⟨_, hanswers, _⟩ := hcalls k k hj
    obtain ⟨a, ha⟩ := hanswers.complete hall b hb
    refine ⟨a, ha, ?_⟩
    rcases hanswers.answer a ha with ⟨c, reason, hc, hr, _⟩ | ⟨b', hb', hcross⟩
    · have hs := hsignals k hk
      rw [hc, Option.map_some, Option.some.injEq] at hs
      rw [hs] at hr
      cases hr
    · exact Option.some.inj (hb.symm.trans hb') ▸ hcross
  exact ⟨hv, hseq, hcrosses 0 (by omega) _ rfl, hcrosses 1 (by omega) _ rfl⟩

/-! Where results differ -/

/-- As `possible`, but the client may fail with anything. -/
def admits (s : Standalone) : Event → Bool
  | .work m => s.worker.dispatch.allows m && m.isNumeric
  | .portClosed | .exited _ => s.gone
  | _ => true

/-- Every event of a run is admitted where it happens. -/
def admitted (s : Standalone) : List Event → Bool
  | [] => true
  | ev :: events => s.admits ev && admitted (s.step ev) events

/-- A request that fails with an error whose message is null; then all is closed and comes to its
end. -/
def silenced : List Event :=
  [.caller (.handle "http://a/"), .caller (.send 0 [1] none), .caller (.closeHandle 0),
    .caller .close, .forward, .forward, .hear, .hear, .work .turn, .work .turn,
    .work (.answered 0 (.error .speechless)), .work (.conclude 0), .listen, .work .turn,
    .work (.retire 0), .work .turn, .clientClosed (.ok ()), .portClosed]

/-- A request that is answered with a byte. -/
def answered : List Move :=
  [.turn, .turn, .answered 0 (.ok (some (.steady (.number 200) .absent))), .chunk 0 (.bytes [7]),
    .bodyEnded 0 (.ok ⟨1, by decide⟩), .conclude 0]

def answering : List Event :=
  [.caller (.handle "http://a/"), .caller (.send 0 [1] none), .forward, .hear] ++
    answered.map .work ++ [.listen]

/-- A logger that throws when it is told that a request is completed. -/
def raging : Log.Reaction := fun _ entry =>
  if entry.message = "Request completed:" then some .null else none

/-- A result of `send` in short. -/
def inShort : Attempt Value → Option (Bytes ⊕ String)
  | .ok (.bytes body) => some (.inl body)
  | .error (.fault (.string kind) ..) => some (.inr kind)
  | _ => none

theorem inShort_of_crosses {a b : Attempt Value} (h : Crosses a b) : inShort b = inShort a := by
  cases h with
  | body bytes => rfl
  | @failure f g h =>
    obtain ⟨kind, message, status, cause⟩ := f
    obtain ⟨kind', message', status', cause'⟩ := g
    obtain rfl : kind' = kind := h.kind
    cases kind' <;> rfl

theorem exists_of_inShort {answers : List (Nat × Attempt Value)} {k : Nat}
    {x : Option (Bytes ⊕ String)} (h : answers.map (fun a => (a.1, inShort a.2)) = [(k, x)]) :
    ∃ a, (k, a) ∈ answers ∧ inShort a = x := by
  obtain ⟨⟨n, a⟩, rfl, ha⟩ := List.map_eq_singleton_iff.mp h
  obtain ⟨rfl, rfl⟩ := Prod.mk.inj ha
  exact ⟨a, List.mem_singleton_self _, rfl⟩

/-- A failure whose message is no text does not cross, though all comes to its end. And where the
logger of the owner throws, an embedded caller loses the answer that a standalone one gets. -/
theorem results_differ :
    ((start []).admitted silenced = true ∧ ∃ a b, (0, a) ∈ ((start []).run silenced).owner.answers ∧
      Embedded.verdict false none (exchange 0 silenced) = some b ∧ ¬ Crosses b a) ∧
    (start []).valid answering = true ∧ ∃ a b, (0, a) ∈ ((start []).run answering).owner.answers ∧
      (0, b) ∈ (((Pipeline.Audit.start []).run raging (.caller (.send 0 "http://a/" [1] none) ::
        answered.map .move)).told.map fun s => (s.call, Handle.result s.reading)) ∧
      ¬ Crosses b a := by
  refine ⟨⟨by decide +kernel, ?_⟩, by decide +kernel, ?_⟩
  · have hanswers : ((start []).run silenced).owner.answers.map (fun a => (a.1, inShort a.2)) =
        [(0, some (.inr "DiedWithoutResponse"))] := by decide +kernel
    obtain ⟨a, ha, hshort⟩ := exists_of_inShort hanswers
    refine ⟨a, _, ha, rfl, fun h => ?_⟩
    rw [inShort_of_crosses h] at hshort
    exact absurd hshort (by decide +kernel)
  · have hanswers : ((start []).run answering).owner.answers.map (fun a => (a.1, inShort a.2)) =
        [(0, some (.inl [7]))] := by decide +kernel
    have htold : (((Pipeline.Audit.start []).run raging (.caller (.send 0 "http://a/" [1] none) ::
        answered.map .move)).told.map fun s => (s.call, Handle.result s.reading)).map
          (fun a => (a.1, inShort a.2)) = [(0, some (.inr "DiedWithoutResponse"))] := by
      decide +kernel
    obtain ⟨a, ha, hshort⟩ := exists_of_inShort hanswers
    obtain ⟨b, hb, hlost⟩ := exists_of_inShort htold
    refine ⟨a, b, ha, hb, fun h => ?_⟩
    rw [inShort_of_crosses h, hlost] at hshort
    cases hshort

end Standalone
end Courier
