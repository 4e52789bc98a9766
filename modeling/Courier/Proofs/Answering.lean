import Courier.Proofs.Worker

/-!
A worker from its start, whatever arrives on its port. What happens at it is a trace: the requests
as they come in, and in between all that the worker does. A book that is kept along the trace holds
the requests that are still to be answered; a worker never does what its book does not allow.
-/

namespace Courier

/-! Responses that can be posted -/

/-- What stands for the value as a cause can be copied, if there is anything. -/
def Value.isPostable (v : Value) : Bool :=
  match v.describe with
  | .ok d => d.clone.isOk
  | .error _ => true

/-- The statuses that the client reports are numbers, and what its failures have for messages can be
copied. -/
def Move.isPostable : Move → Bool
  | .answered _ (.ok (some response)) => response.isNumeric
  | .answered _ (.error v) | .bodyEnded _ (.error v) => v.isPostable
  | _ => true

/-- A client whose statuses are numbers, and whose failures have messages that can be copied. -/
def Manner.postable : Manner := ⟨(·.isNumber = true), (·.isPostable = true)⟩

theorem Move.reports_postable {m : Move} (h : m.isPostable = true) : m.Reports .postable := by
  cases m with
  | answered k r =>
    rcases r with v | _ | response
    · exact h
    · trivial
    · exact Response.says_of_isNumeric h
  | bodyEnded k r =>
    cases r with
    | error v => exact h
    | ok memory => trivial
  | turn | chunk | conclude | retire => trivial

/-- Failures that can be put into a message. -/
structure Fault.Postable (f : Fault) : Prop where
  kind : ∃ kind : FaultKind, f.kind = .string kind.name
  message : ∃ text, f.message = .string text
  status : f.status = .undefined ∨ ∃ x, f.status = .number x
  cause : f.cause = .undefined ∨ ∃ d copy, f.cause.describe = .ok d ∧ d.clone = .ok copy

theorem Fault.OfExchange.postable {f : Fault} (h : f.OfExchange .postable) : f.Postable := by
  obtain ⟨status, hs, hf⟩ | ⟨cause, hc, hf⟩ := h
  · obtain ⟨text, _, rfl⟩ := http_eq hf
    refine ⟨⟨.http, rfl⟩, ⟨_, rfl⟩, Or.inr ?_, Or.inl rfl⟩
    simp only [Manner.postable] at hs
    cases status <;> simp_all [Value.isNumber, ofKind]
  · obtain ⟨text, hw, rfl⟩ := network_eq hf
    obtain ⟨d, hd, _⟩ := Value.described_of_wording hw
    refine ⟨⟨.network, rfl⟩, ⟨_, rfl⟩, Or.inl rfl, Or.inr ⟨d, ?_⟩⟩
    simp only [Manner.postable, Value.isPostable, hd] at hc
    cases hcopy : d.clone with
    | error w => simp [hcopy, Except.isOk, Except.toBool] at hc
    | ok copy => exact ⟨copy, hd, rfl⟩

theorem Value.clone_record {fields copies : List (String × Value)}
    (h : cloneFields fields = .ok copies) : (record fields).clone = .ok (.record copies) := by
  simp only [clone, h, bind, Except.bind, pure, Except.pure]

/-- The record of a postable failure can be copied. -/
theorem Fault.Postable.posts {f : Fault} (h : f.Postable) :
    ∃ record copy, f.post = .ok record ∧ record.clone = .ok copy := by
  obtain ⟨kind, hk⟩ := h.kind
  obtain ⟨message, hm⟩ := h.message
  have hstatus : ∀ more copies : List (String × Value), Value.cloneFields more = .ok copies →
      ∃ fields, Value.cloneFields ([("kind", f.kind), ("message", f.message)] ++
        optionalField "status" f.status ++ more) = .ok fields := by
    intro more copies hmore
    obtain hs | ⟨x, hs⟩ := h.status <;>
      simp [hk, hm, hs, optionalField, Value.cloneFields, Value.clone, hmore, bind, Except.bind,
        pure, Except.pure]
  by_cases hc : f.cause = .undefined
  · obtain ⟨fields, hf⟩ := hstatus [] [] rfl
    rw [List.append_nil] at hf
    exact ⟨_, _, post_uncaused hc, Value.clone_record hf⟩
  · obtain ⟨d, copy, hd, hcopy⟩ := h.cause.resolve_left hc
    obtain ⟨fields, hf⟩ := hstatus [("cause", d)] [("cause", copy)]
      (by simp [Value.cloneFields, hcopy, bind, Except.bind, pure, Except.pure])
    exact ⟨_, _, by rw [post_caused hc, hd]; rfl, Value.clone_record hf⟩

namespace Worker

open Courier.Worker.Effect

inductive Event where
  /-- A value arrives on the port. -/
  | message (v : Value)
  /-- The client has been made. -/
  | built
  | move (m : Move)
  | clientClosed (r : Attempt Unit)

namespace Event

def isBuilt : Event → Bool
  | .built => true
  | _ => false

end Event

inductive Happening where
  /-- A request has come in, and has been put on the channel or not. -/
  | asked (seq : Binary64) (taken : Bool)
  | did (e : Effect)

/-- The number that a message answers, if it is a response. -/
def answers? (v : Value) : Option Binary64 :=
  match v.field "type", v.field "seq" with
  | .string "response", .number seq => some seq
  | _, _ => none

/-- Whether a message says that the worker is ready. -/
def announces (v : Value) : Bool :=
  match v.field "type" with
  | .string "ready" => true
  | _ => false

namespace Happening

def request? : Happening → Option Binary64
  | .asked seq _ => some seq
  | .did _ => none

def posted? : Happening → Option Value
  | .asked _ _ => none
  | .did e => e.posted?

def response? (h : Happening) : Option Binary64 := h.posted?.bind answers?

def isReady (h : Happening) : Bool := h.posted?.any announces

/-- What only a worker that is ready does: it takes a request, or answers one that it has taken. -/
def isServing : Happening → Bool
  | .asked _ taken => taken
  | .did (.reply _) => true
  | .did _ => false

def isClosing : Happening → Bool
  | .did .closePort => true
  | _ => false

end Happening

/-- The numbers of the requests of a trace. -/
def requests (t : List Happening) : List Binary64 := t.filterMap Happening.request?

/-- The numbers of the responses of a trace. -/
def responses (t : List Happening) : List Binary64 := t.filterMap Happening.response?

/-- How often the worker has said that it is ready. -/
def announced (t : List Happening) : Nat := t.countP Happening.isReady

def step (w : Worker) : Event → Worker × List Effect
  | .message v => w.message v
  | .built => w.built
  | .move m => w.liftDispatch (w.pipeline.dispatch.move m)
  | .clientClosed r => w.lift (w.pipeline.clientClosed r)

/-- Whether a request would be put on the channel. -/
def takes (w : Worker) (r : PostedRequest) : Bool :=
  match w.phase with
  | .running => (w.pipeline.dispatch.offer sender (.request (received r))).2.1
  | _ => false

/-- The request that an event brings; a closed port brings none. -/
def incoming (w : Worker) : Event → List Happening
  | .message v =>
    match w.phase with
    | .closed => []
    | _ =>
      match ToWorker.ofValue? v with
      | some (.request seq r) => [.asked seq (w.takes r)]
      | _ => []
  | _ => []

/-- What happens at an event. -/
def happenings (w : Worker) (ev : Event) : List Happening :=
  w.incoming ev ++ (w.step ev).2.map .did

/-- What happens in the course of events. -/
def trace (w : Worker) : List Event → List Happening
  | [] => []
  | ev :: events => w.happenings ev ++ (w.step ev).1.trace events

def isBuilding (w : Worker) : Bool :=
  match w.phase with
  | .building => true
  | _ => false

/-- The client is made once, reports statuses that are numbers, and fails with nothing whose message
cannot be copied. -/
def possible (w : Worker) : Event → Bool
  | .built => w.isBuilding
  | .move m => m.isPostable
  | .message _ | .clientClosed _ => true

/-- Every event of a run is possible where it happens. -/
def valid (w : Worker) : List Event → Bool
  | [] => true
  | ev :: events => w.possible ev && (w.step ev).1.valid events

/-- What the owner reads as a response answers under the same number. -/
theorem answers_of_response {v posted : Value} {seq : Binary64}
    (h : FromWorker.ofValue? v = some (.response seq posted)) :
    announces v = false ∧ answers? v = some seq := by
  unfold FromWorker.ofValue? at h
  split at h
  · cases h
  · split at h <;> cases h
  · rename_i _ htype
    split at h
    · rename_i n hseq
      split at h
      · obtain ⟨rfl, _⟩ := FromWorker.response.inj (Option.some.inj h)
        simp [announces, answers?, htype, hseq]
      · cases h
    · cases h
  · cases h

/-- A message that is a response under a number. -/
def Answers (seq : Binary64) (v : Value) : Prop := announces v = false ∧ answers? v = some seq

theorem answers_failure (seq : Binary64) {f : Fault} (h : f.Postable) : ∃ v,
    (∀ post, respond post seq (Outcome.failure f).post = post v) ∧ Answers seq v := by
  obtain ⟨record, copy, hpost, hcopy⟩ := h.posts
  exact ⟨_, respond_failure seq hpost hcopy, rfl, rfl⟩

/-- Whatever a unit has come to, its response can be posted. -/
theorem answers_carried (seq : Binary64) {o : Option Outcome}
    (h : ∀ x, o = some x → x.OfExchange .postable) : ∃ v,
    (∀ post, respond post seq (outcomeOf (.got o)) = post v) ∧ Answers seq v := by
  cases o with
  | none =>
    exact answers_failure seq ⟨⟨.diedWithoutResponse, rfl⟩, ⟨_, rfl⟩, Or.inl rfl, Or.inl rfl⟩
  | some x =>
    cases x with
    | success body => exact ⟨_, fun _ => rfl, rfl, rfl⟩
    | failure f => exact answers_failure seq (h _ rfl).postable
    | foreign v => exact (h _ rfl).elim

/-! Books -/

/-- What a worker owes to its owner. -/
structure Book where
  /-- The numbers of the requests without a response. -/
  owed : List Binary64
  /-- Whether it has said that it is ready. -/
  ready : Bool

namespace Book

/-- A message is posted: the first that says so, or a response that is owed. -/
def tell (b : Book) (v : Value) : Option Book :=
  match announces v, answers? v with
  | true, none => if b.ready then none else some { b with ready := true }
  | false, some seq => if seq ∈ b.owed then some { b with owed := b.owed.erase seq } else none
  | _, _ => none

/-- The book after one more entry, if that is allowed: a worker that is not ready takes no request,
and one that owes responses does not close its port. -/
def enter (b : Book) (h : Happening) : Option Book :=
  if h.isServing && !b.ready then none
  else
    match h with
    | .asked seq _ => some { b with owed := b.owed ++ [seq] }
    | .did (.post v) | .did (.reply v) => b.tell v
    | .did (.inner _) | .did (.log _) => some b
    | .did .closePort => if b.ready && b.owed.isEmpty then some b else none
    | .did (.crash _) | .did (.fail _) => none

/-- The book after a trace. -/
def follow (b : Book) (t : List Happening) : Option Book := t.foldlM enter b

variable {b c d : Book} {h : Happening} {s t : List Happening} {v : Value}

theorem follow_cons (b : Book) (h : Happening) (t : List Happening) :
    b.follow (h :: t) = (b.enter h).bind (·.follow t) := List.foldlM_cons

theorem follow_append (b : Book) (s t : List Happening) :
    b.follow (s ++ t) = (b.follow s).bind (·.follow t) := List.foldlM_append

theorem follow_of_append (h : b.follow (s ++ t) = some c) :
    ∃ d, b.follow s = some d ∧ d.follow t = some c := by
  rw [follow_append] at h
  exact Option.bind_eq_some_iff.mp h

/-- A book that is kept up to the end is kept up to every place before it. -/
theorem follow_prefix (h : b.follow t = some c) (hs : s <+: t) : ∃ d, b.follow s = some d := by
  obtain ⟨rest, rfl⟩ := hs
  obtain ⟨d, hd, _⟩ := follow_of_append h
  exact ⟨d, hd⟩

theorem follow_next (ht : b.follow t = some c) (hs : s ++ [h] <+: t) :
    ∃ d e, b.follow s = some d ∧ d.enter h = some e := by
  obtain ⟨e, he⟩ := follow_prefix ht hs
  obtain ⟨d, hd, hone⟩ := follow_of_append he
  rw [follow_cons] at hone
  obtain ⟨x, hx, _⟩ := Option.bind_eq_some_iff.mp hone
  exact ⟨d, x, hd, hx⟩

theorem follow_trans (hs : b.follow s = some c) (ht : c.follow t = some d) :
    b.follow (s ++ t) = some d := by
  rw [follow_append, hs]
  exact ht

theorem follow_quiet (b : Book) {es : List Effect} (h : ∀ e ∈ es, e.isQuiet = true) :
    b.follow (es.map .did) = some b := by
  induction es with
  | nil => rfl
  | cons e es ih =>
    rw [List.map_cons, follow_cons]
    have he := h e List.mem_cons_self
    have hone : b.enter (.did e) = some b := by
      cases e <;> simp_all [isQuiet, enter, Happening.isServing]
    rw [hone]
    exact ih fun x hx => h x (List.mem_cons_of_mem _ hx)

/-- The books before and after: what was owed and asked for is answered or still owed. -/
structure Balanced (b : Book) (asked answered : List Binary64) (said : Nat) (c : Book) : Prop where
  owed : ∀ n, b.owed.count n + asked.count n = c.owed.count n + answered.count n
  ready : c.ready.toNat = b.ready.toNat + said

theorem Balanced.refl (b : Book) : b.Balanced [] [] 0 b := ⟨fun _ => rfl, rfl⟩

theorem Balanced.trans {asked asked' answered answered' : List Binary64} {said said' : Nat}
    (h : b.Balanced asked answered said c) (h' : c.Balanced asked' answered' said' d) :
    b.Balanced (asked ++ asked') (answered ++ answered') (said + said') d := by
  refine ⟨fun n => ?_, by rw [h'.ready, h.ready, Nat.add_assoc]⟩
  have hn := h.owed n
  have hn' := h'.owed n
  rw [List.count_append, List.count_append]
  omega

theorem balanced_tell (hc : b.tell v = some c) :
    b.Balanced [] (answers? v).toList (announces v).toNat c := by
  unfold tell at hc
  split at hc
  · rename_i ha hn
    split at hc
    · cases hc
    · rename_i hr
      obtain rfl := Option.some.inj hc
      rw [hn, ha]
      exact ⟨fun _ => rfl, by simp [hr]⟩
  · rename_i seq ha hs
    split at hc
    · rename_i hm
      obtain rfl := Option.some.inj hc
      rw [ha, hs]
      refine ⟨fun n => ?_, rfl⟩
      have hn := (List.perm_cons_erase hm).count_eq n
      rw [List.count_cons] at hn
      simpa [List.count_singleton] using hn
    · cases hc
  · cases hc

theorem balanced_enter (hc : b.enter h = some c) :
    b.Balanced h.request?.toList h.response?.toList h.isReady.toNat c := by
  unfold enter at hc
  split at hc
  · cases hc
  · cases h with
    | asked seq taken =>
      obtain rfl := Option.some.inj hc
      exact ⟨fun n => by simp [Happening.request?, Happening.response?, Happening.posted?], rfl⟩
    | did e =>
      cases e with
      | post v => exact balanced_tell hc
      | reply v => exact balanced_tell hc
      | crash | fail => cases hc
      | inner | log =>
        obtain rfl := Option.some.inj hc
        exact .refl _
      | closePort =>
        dsimp only at hc
        split at hc
        · obtain rfl := Option.some.inj hc
          exact .refl _
        · cases hc

theorem balanced_follow (hc : b.follow t = some c) :
    b.Balanced (requests t) (responses t) (announced t) c := by
  induction t generalizing b with
  | nil =>
    obtain rfl := Option.some.inj hc
    exact .refl _
  | cons h t ih =>
    rw [follow_cons] at hc
    obtain ⟨d, hd, hc⟩ := Option.bind_eq_some_iff.mp hc
    have hb := (balanced_enter hd).trans (ih hc)
    have hreq : requests (h :: t) = h.request?.toList ++ requests t := by
      cases hr : h.request? <;> simp [requests, hr]
    have hres : responses (h :: t) = h.response?.toList ++ responses t := by
      cases hr : h.response? <;> simp [responses, hr]
    have hann : announced (h :: t) = h.isReady.toNat + announced t := by
      cases hr : h.isReady <;> simp [announced, hr, Nat.add_comm]
    rw [hreq, hres, hann]
    exact hb

/-- A response that is owed may be posted. -/
theorem tell_owed {seq : Binary64} (hv : Answers seq v) (hm : seq ∈ b.owed) :
    b.tell v = some { b with owed := b.owed.erase seq } := by
  obtain ⟨ha, hs⟩ := hv
  simp [tell, ha, hs, hm]

theorem ready_of_serving (hc : b.enter h = some c) (hs : h.isServing = true) : b.ready = true := by
  unfold enter at hc
  split at hc
  · cases hc
  · rename_i hn
    simpa [hs] using hn

theorem owed_of_closing (hc : b.enter (.did .closePort) = some c) : b.owed = [] := by
  by_contra hn
  simp [enter, Happening.isServing, hn] at hc

theorem enter_crash (b : Book) (v : Value) : b.enter (.did (.crash v)) = none := by
  simp [enter]

end Book

/-! Calls and replies -/

/-- Every call that waits has a reply that waits for it; the client is of some manner. -/
structure Attended (client : Manner) (d : Dispatch) (replies : List (Nat × Binary64)) :
    Prop where
  sound : d.Sound
  serves : ∀ (j : Nat) (c : Call Stage), d.intake.calls[j]? = some c → c.Serves client
  waits : ∀ (j : Nat) (c : Call Stage), d.intake.calls[j]? = some c → c.slot.reader = .waiting →
    ∃ seq, replies.find? (·.1 = j) = some (j, seq)
  known : ∀ x ∈ replies, x.1 < d.intake.calls.size

section

variable {client : Manner} {d e : Dispatch} {replies : List (Nat × Binary64)}

theorem attended_new : Attended client (Dispatch.new []) [] :=
  ⟨Dispatch.sound_new [], by simp [Dispatch.new, Intake.new], by simp [Dispatch.new, Intake.new],
    by simp⟩

theorem Attended.congr (h : Attended client d replies) (hi : e.intake = d.intake)
    (hl : e.loop = d.loop) : Attended client e replies :=
  ⟨h.sound.congr hi hl, hi ▸ h.serves, hi ▸ h.waits, hi ▸ h.known⟩

theorem Attended.lifted {s : Dispatch × List Courier.Effect} (h : Attended client s.1 replies)
    (p : Pipeline) : Attended client (p.lift Log.calm s).1.dispatch replies :=
  h.congr (p.lift_intake s) (p.lift_loop s)

theorem Attended.release (h : Attended client d replies) (sender : Nat) :
    Attended client (d.release sender).1 replies := by
  have hd := Dispatch.release_eq d sender
  refine ⟨(h.sound.release sender).1, ?_, ?_, ?_⟩ <;> rw [hd]
  · exact h.serves
  · exact h.waits
  · exact h.known

/-- A call that comes in waits from then on. -/
theorem Attended.takeOn (h : Attended client d replies) (sender : Nat) {p : Parcel} (hp : p.Proper)
    (seq : Binary64) :
    Attended client (d.takeOn sender p) (replies ++ [(d.intake.calls.size, seq)]) := by
  have ha := d.arrived_takeOn sender p
  refine ⟨(h.sound.arrived ha hp rfl).1, fun j c hj => ?_, fun j c hj hw => ?_, ?_⟩
  · rw [ha.calls, Array.getElem?_push] at hj
    split at hj
    · rw [← Option.some.inj hj]
      exact ⟨rfl, rfl⟩
    · exact h.serves j c hj
  · rw [ha.calls, Array.getElem?_push] at hj
    split at hj
    · rename_i he
      subst he
      exact ⟨seq, find_concat h.known⟩
    · obtain ⟨old, hold⟩ := h.waits j c hj hw
      exact ⟨old, by rw [List.find?_append, hold]; rfl⟩
  · rw [ha.calls, Array.size_push]
    exact lt_concat h.known

/-- A move leaves the replies as they are, or brings what one of them waits for. -/
theorem Attended.move (h : Attended client d replies) {m : Move} (hm : m.Reports client) :
    (Courier.Effect.settles (d.move m).2 = [] ∧ Attended client (d.move m).1 replies) ∨
      ∃ (j : Nat) (o : Option Outcome) (seq : Binary64),
        Courier.Effect.settles (d.move m).2 = [⟨j, .got o⟩] ∧
        replies.find? (·.1 = j) = some (j, seq) ∧ (∀ x, o = some x → x.OfExchange client) ∧
        Attended client (d.move m).1 (replies.filter (·.1 ≠ j)) := by
  have hsound := (h.sound.move m).1
  have hserves := h.sound.serves_move h.serves hm
  have hknown : ∀ x ∈ replies, x.1 < (d.move m).1.intake.calls.size := by
    rw [Dispatch.move_size h.sound m]
    exact h.known
  rcases h.sound.settles_move h.serves m with hs | ⟨j, c, result, rfl, hj, hp, hs, hended⟩
  · refine Or.inl ⟨hs, hsound, hserves, fun k x hx hw => ?_, hknown⟩
    obtain ⟨b, hb, hbw⟩ := h.sound.waited_move hx hw
    exact h.waits k b hb hbw
  · obtain ⟨hwait, ho⟩ := (h.serves j c hj).over hp
    obtain ⟨seq, hfind⟩ := h.waits j c hj hwait
    refine Or.inr ⟨j, result.toOption, seq, hs, hfind, ho, hsound, hserves,
      fun k x hx hw => ?_, fun x hx => hknown x (List.mem_of_mem_filter hx)⟩
    obtain ⟨b, hb, hbw⟩ := h.sound.waited_move hx hw
    -- The call that has ended does not wait any more, so its reply is nobody else's.
    rw [find_filter_ne fun he : k = j => hended x (he ▸ hx) hw]
    exact h.waits k b hb hbw

end

/-! Workers and their books -/

variable {w : Worker} {b c : Book} {v : Value} {first : List Happening}

/-- The book of a worker is what its replies wait for. -/
structure Owes (w : Worker) (b : Book) : Prop where
  nodup : (w.replies.map (·.1)).Nodup
  owed : b.owed.Perm (w.replies.map (·.2))
  ready : b.ready = !w.isBuilding
  building : w.isBuilding = true → w.replies = []

structure Keeps (w : Worker) (b : Book) : Prop where
  attended : Attended .postable w.pipeline.dispatch w.replies
  owes : w.Owes b

theorem keeps_new : new.Keeps ⟨[], false⟩ := ⟨attended_new, .nil, .refl _, rfl, fun _ => rfl⟩

theorem Owes.not_building (h : w.Owes b) (hm : w.replies ≠ []) :
    w.isBuilding = false ∧ b.ready = true := by
  have hnot : w.isBuilding = false := Bool.eq_false_iff.mpr fun hb => hm (h.building hb)
  exact ⟨hnot, by rw [h.ready, hnot]; rfl⟩

/-- What a worker does is allowed, and a book goes with what it is afterwards. -/
def Goes (b : Book) (first : List Happening) (r : Worker × List Effect) : Prop :=
  ∃ c, b.follow (first ++ r.2.map .did) = some c ∧ r.1.Keeps c

/-- A worker closes its port only when nothing is owed. -/
theorem Keeps.wrapUp (h : w.Keeps b) : Goes b [] w.wrapUp := by
  refine ⟨b, ?_⟩
  unfold Worker.wrapUp
  split
  · rename_i result hp hc hr
    have hready : b.ready = true := by rw [h.owes.ready, isBuilding, hp]; rfl
    have howed : b.owed = [] := by
      have hperm := h.owes.owed
      rw [hr] at hperm
      exact hperm.eq_nil
    refine ⟨by simp [Book.follow_cons, Book.enter, Happening.isServing, hready, howed]; rfl, ?_⟩
    exact ⟨h.attended, h.owes.nodup, h.owes.owed, hready, fun hb => by cases hb⟩
  · exact ⟨rfl, h⟩

/-- What is quiet may come first. -/
theorem Goes.after_quiet {w : Worker} {es more : List Effect} (h : Goes b [] (w, more))
    (hes : ∀ e ∈ es, e.isQuiet = true) : Goes b [] (w, es ++ more) := by
  obtain ⟨c, hc, hw⟩ := h
  refine ⟨c, ?_, hw⟩
  rw [List.nil_append, List.map_append]
  exact Book.follow_trans (Book.follow_quiet b hes) hc

theorem Goes.after (hc : b.follow first = some c) {r : Worker × List Effect} (h : Goes c [] r) :
    Goes b first r := by
  obtain ⟨d, hd, hw⟩ := h
  exact ⟨d, Book.follow_trans hc hd, hw⟩

section

variable {p : Pipeline} {effects : List Courier.Effect}

/-- A step of the pipeline that ends no receive. -/
theorem Owes.lifted_quiet (h : w.Owes b)
    (ha : Attended .postable p.dispatch w.replies)
    (hs : Courier.Effect.settles effects = []) : Goes b [] (w.lift (p, effects)) := by
  have hk : Keeps { w with pipeline := p } b := ⟨ha, h.nodup, h.owed, h.ready, h.building⟩
  obtain ⟨es, hes, heq⟩ := absorb_quiet (w := { w with pipeline := p }) hs
  have hlift : w.lift (p, effects) = (({ w with pipeline := p } : Worker).wrapUp.1,
      es ++ ({ w with pipeline := p } : Worker).wrapUp.2) := by
    unfold Worker.lift
    simp only [heq]
  rw [hlift]
  exact hk.wrapUp.after_quiet hes

/-- A step of the pipeline that ends a receive. -/
theorem Owes.lifted_settled {t : Settled} {seq : Binary64} (h : w.Owes b)
    (ha : Attended .postable p.dispatch (w.replies.filter (·.1 ≠ t.call)))
    (hs : Courier.Effect.settles effects = [t])
    (hf : w.replies.find? (·.1 = t.call) = some (t.call, seq))
    (hr : respond .reply seq (outcomeOf t.reading) = .reply v) (hv : Answers seq v) :
    Goes b [] (w.lift (p, effects)) := by
  let u : Worker := { w with pipeline := p, replies := w.replies.filter (·.1 ≠ t.call) }
  have hmem := List.mem_of_find?_eq_some hf
  have howed := h.owed.trans ((perm_cons_filter_ne h.nodup hmem).map (·.2))
  have hin : seq ∈ b.owed := howed.mem_iff.mpr List.mem_cons_self
  obtain ⟨hnot, hready⟩ := h.not_building (List.ne_nil_of_mem hmem)
  have hu : u.Keeps { b with owed := b.owed.erase seq } := by
    refine ⟨ha, h.nodup.sublist (List.filter_sublist.map _), ?_, h.ready, fun hb => ?_⟩
    · show (b.owed.erase seq).Perm ((w.replies.filter (·.1 ≠ t.call)).map (·.2))
      simpa using howed.erase seq
    · exact (Bool.false_ne_true (hnot.symm.trans hb)).elim
  -- The one response among the effects is struck out of the book; what surrounds it is quiet.
  obtain ⟨before, after, hb, ha, heq⟩ := absorb_settled (w := { w with pipeline := p }) hs hf
  rw [hr] at heq
  have hlift : w.lift (p, effects) = (u.wrapUp.1, before ++ .reply v :: after ++ u.wrapUp.2) := by
    unfold Worker.lift
    simp only [heq]
    rfl
  rw [hlift, List.append_assoc]
  refine Goes.after_quiet ?_ hb
  obtain ⟨c, hc, hk⟩ := hu.wrapUp.after_quiet ha
  refine ⟨c, ?_, hk⟩
  have htell : b.enter (.did (.reply v)) = some { b with owed := b.owed.erase seq } := by
    simp [Book.enter, hready, Book.tell_owed hv hin]
  show b.follow (.did (.reply v) :: (after ++ u.wrapUp.2).map .did) = _
  rw [Book.follow_cons, htell]
  exact hc

end

/-- A step of the dispatch that ends no receive. -/
theorem Owes.dispatched_quiet {s : Dispatch × List Courier.Effect} (h : w.Owes b)
    (ha : Attended .postable s.1 w.replies) (hs : Courier.Effect.settles s.2 = []) :
    Goes b [] (w.liftDispatch s) :=
  h.lifted_quiet (ha.lifted w.pipeline) ((w.pipeline.settles_lift s).trans hs)

theorem Keeps.move (h : w.Keeps b) {m : Move} (hm : m.isPostable = true) :
    Goes b [] (w.liftDispatch (w.pipeline.dispatch.move m)) := by
  rcases h.attended.move (Move.reports_postable hm) with ⟨hs, ha⟩ | ⟨j, o, seq, hs, hf, ho, ha⟩
  · exact h.owes.dispatched_quiet ha hs
  · obtain ⟨v, hr, hv⟩ := answers_carried seq ho
    exact h.owes.lifted_settled (t := ⟨j, .got o⟩) (ha.lifted w.pipeline)
      ((w.pipeline.settles_lift _).trans hs) hf (hr .reply) hv

theorem Keeps.clientClosed (h : w.Keeps b) (r : Attempt Unit) :
    Goes b [] (w.lift (w.pipeline.clientClosed r)) := by
  have ha : Attended .postable (w.pipeline.clientClosed r).1.dispatch w.replies := by
    rw [w.pipeline.dispatch_closed r]
    exact h.attended
  exact h.owes.lifted_quiet ha (w.pipeline.settles_closed r)

theorem Keeps.built (h : w.Keeps b) (hb : w.isBuilding = true) : Goes b [] w.built := by
  have hready : b.ready = false := by rw [h.owes.ready, hb]; rfl
  refine ⟨{ b with ready := true }, ?_, h.attended, h.owes.nodup, h.owes.owed, rfl, fun hc => ?_⟩
  · have htell : b.tell FromWorker.ready.toValue = some { b with ready := true } := by
      show (if b.ready then none else some { b with ready := true }) = _
      rw [hready]
      rfl
    show b.follow [.did (.post FromWorker.ready.toValue), .did (.log _)] = _
    rw [Book.follow_cons]
    show (b.tell FromWorker.ready.toValue).bind _ = _
    rw [htell]
    rfl
  · cases hc

theorem Keeps.release (h : w.Keeps b) : Goes b [] w.release := by
  unfold Worker.release
  split
  · have hs := (Dispatch.quiet_release w.pipeline.dispatch sender).1
    exact (h.owes.dispatched_quiet (h.attended.release sender) hs).after_quiet (by simp [isQuiet])
  · exact ⟨b, rfl, h⟩

theorem postable_notListening : Fault.notListening.Postable :=
  ⟨⟨.notListening, rfl⟩, ⟨_, rfl⟩, Or.inl rfl, Or.inl rfl⟩

theorem proper_received (r : PostedRequest) : (Parcel.request (received r)).Proper :=
  ⟨_, _, rfl, rfl⟩

section

variable {seq : Binary64} {r : PostedRequest}

/-- A request that is not taken is answered at once. -/
theorem message_refused (hv : ToWorker.ofValue? v = some (.request seq r))
    (hp : w.phase ≠ .closed) (ht : w.takes r = false) :
    w.message v = (w, [respond .post seq (Outcome.failure Fault.notListening).post]) := by
  unfold takes at ht
  unfold Worker.message Worker.request
  cases hphase : w.phase with
  | running =>
    rw [hphase] at ht
    simp only [hv]
    exact if_neg (by simp [ht])
  | closed => exact (hp hphase).elim
  | building | failed => simp only [hv]

theorem takes_iff : w.takes r = true ↔
    w.phase = .running ∧ w.pipeline.dispatch.intake.channel.isClosed sender = false := by
  unfold takes
  cases w.phase <;> simp [Dispatch.offer_accepted]

/-- Every request is owed a response from when it comes in. -/
theorem Keeps.request (h : w.Keeps b) (hv : ToWorker.ofValue? v = some (.request seq r))
    (hp : w.phase ≠ .closed) : Goes b [.asked seq (w.takes r)] (w.message v) := by
  let c : Book := { b with owed := b.owed ++ [seq] }
  cases ht : w.takes r with
  | false =>
    -- The refusal goes out in the same step, so no more is owed than before.
    have hasked : b.follow [.asked seq false] = some c := rfl
    obtain ⟨v, hr, hv'⟩ := answers_failure seq postable_notListening
    rw [message_refused hv hp ht, hr]
    refine Goes.after hasked ⟨{ c with owed := c.owed.erase seq }, ?_, h.attended, h.owes.nodup,
      ?_, h.owes.ready, h.owes.building⟩
    · have hin : seq ∈ c.owed := List.mem_append_right _ List.mem_cons_self
      have htell := Book.tell_owed hv' hin
      show (c.tell v).bind _ = _
      rw [htell]
      rfl
    · have hperm := (List.perm_append_singleton seq b.owed).erase seq
      rw [List.erase_cons_head] at hperm
      exact hperm.trans h.owes.owed
  | true =>
    obtain ⟨hrun, hopen⟩ := takes_iff.mp ht
    have hnot : w.isBuilding = false := by rw [isBuilding, hrun]
    have hready : b.ready = true := by rw [h.owes.ready, hnot]; rfl
    have hasked : b.follow [.asked seq true] = some c := by
      simp [Book.follow_cons, Book.enter, hready, c]
      rfl
    obtain ⟨effects, ⟨hs, _⟩, hm⟩ := message_taken hrun hopen hv
    rw [hm]
    -- The worker has the reply before its dispatch has the call, so only the step as a whole keeps
    -- the two together.
    have ha := h.attended.takeOn sender (proper_received r) seq
    refine Goes.after hasked (Owes.dispatched_quiet ⟨?_, ?_, h.owes.ready, fun hb => ?_⟩ ha hs)
    · show ((w.replies ++ [(w.pipeline.dispatch.intake.calls.size, seq)]).map (·.1)).Nodup
      rw [List.map_append]
      refine h.owes.nodup.append (List.nodup_singleton _) fun k hk hk' => ?_
      obtain ⟨x, hx, rfl⟩ := List.mem_map.mp hk
      exact Nat.ne_of_lt (h.attended.known x hx) (List.mem_singleton.mp hk')
    · show (b.owed ++ [seq]).Perm
        ((w.replies ++ [(w.pipeline.dispatch.intake.calls.size, seq)]).map (·.2))
      rw [List.map_append]
      exact h.owes.owed.append_right _
    · exact (Bool.false_ne_true (hnot.symm.trans hb)).elim

end

/-! Runs -/

variable {ev : Event} {events : List Event}

/-- What arrives on a port that is not closed is looked at. -/
theorem message_open (hp : w.phase ≠ .closed) (v : Value) : w.message v =
    match ToWorker.ofValue? v with
    | none => (w, [.log ⟨.warn, "Ignoring unexpected message:", [v]⟩])
    | some .close => w.release
    | some (.request seq r) => w.request seq r := by
  unfold Worker.message
  split
  · rename_i hclosed
    exact (hp hclosed).elim
  · rename_i hv _
    rw [hv]
  · rename_i hv _
    rw [hv]
  · rename_i hv _
    rw [hv]

theorem incoming_open (hp : w.phase ≠ .closed) (v : Value) : w.incoming (.message v) =
    match ToWorker.ofValue? v with
    | some (.request seq r) => [.asked seq (w.takes r)]
    | _ => [] := by
  show (match w.phase with | .closed => _ | _ => _) = _
  split
  · rename_i hclosed
    exact (hp hclosed).elim
  · rfl

theorem message_closed (hp : w.phase = .closed) (v : Value) :
    w.message v = (w, []) ∧ w.incoming (.message v) = [] := by
  simp [Worker.message, incoming, hp]

theorem Keeps.message (h : w.Keeps b) (v : Value) :
    Goes b (w.incoming (.message v)) (w.message v) := by
  by_cases hp : w.phase = .closed
  · obtain ⟨hm, hi⟩ := message_closed hp v
    rw [hm, hi]
    exact ⟨b, rfl, h⟩
  · cases hv : ToWorker.ofValue? v with
    | none =>
      rw [message_open hp, incoming_open hp, hv]
      exact ⟨b, rfl, h⟩
    | some m =>
      cases m with
      | close =>
        rw [message_open hp, incoming_open hp, hv]
        exact h.release
      | request seq r =>
        rw [incoming_open hp, hv]
        exact h.request hv hp

theorem isBuilding_wrapUp (w : Worker) : w.wrapUp.1.isBuilding = w.isBuilding := by
  unfold Worker.wrapUp
  split
  · rename_i hp _ _
    rw [isBuilding, isBuilding, hp]
  · rfl

theorem isBuilding_lift (w : Worker) (s : Pipeline × List Courier.Effect) :
    (w.lift s).1.isBuilding = w.isBuilding := by
  refine (isBuilding_wrapUp ({ w with pipeline := s.1 }.absorb s.2).1).trans ?_
  rw [isBuilding, isBuilding, (absorb_same { w with pipeline := s.1 } s.2).2]

theorem isBuilding_message (w : Worker) (v : Value) :
    (w.message v).1.isBuilding = w.isBuilding := by
  unfold Worker.message
  split
  · rfl
  · rfl
  · unfold Worker.release
    split
    · exact isBuilding_lift _ _
    · rfl
  · unfold Worker.request
    split
    · dsimp only
      split
      · exact isBuilding_lift _ _
      · rfl
    · rfl

/-- The client is made at one event and no other. -/
theorem isBuilding_step (hp : w.possible ev = true) :
    (w.step ev).1.isBuilding = (w.isBuilding && !ev.isBuilt) := by
  cases ev with
  | message v => exact (isBuilding_message w v).trans (Bool.and_true _).symm
  | built => exact (Bool.and_false _).symm
  | move | clientClosed => exact (isBuilding_lift w _).trans (Bool.and_true _).symm

theorem Keeps.step (h : w.Keeps b) (hp : w.possible ev = true) :
    Goes b (w.incoming ev) (w.step ev) := by
  cases ev with
  | message v => exact h.message v
  | built => exact h.built hp
  | move m => exact h.move hp
  | clientClosed r => exact h.clientClosed r

/-- The books along a run, and whether the worker has said that it is ready. -/
theorem Keeps.run (h : w.Keeps b) (hv : w.valid events = true) :
    ∃ c, b.follow (w.trace events) = some c ∧ c.ready = (b.ready || events.any Event.isBuilt) := by
  induction events generalizing w b with
  | nil => exact ⟨b, rfl, by simp⟩
  | cons ev events ih =>
    rw [valid, Bool.and_eq_true] at hv
    obtain ⟨c, hc, hk⟩ := h.step hv.1
    obtain ⟨d, hd, hready⟩ := ih hk hv.2
    refine ⟨d, Book.follow_trans hc hd, ?_⟩
    rw [hready, hk.owes.ready, h.owes.ready, isBuilding_step hv.1, List.any_cons]
    simp [Bool.not_and, Bool.or_assoc]

/-- What the owner of a worker can rely on, whether the client has been made or not. -/
structure Answered (t : List Happening) (made : Bool) : Prop where
  /-- No number is ever answered more often than it was asked. -/
  sparing : ∀ past, past <+: t → ∀ seq, (responses past).count seq ≤ (requests past).count seq
  /-- When the port is closed all has been answered, and nothing more than that. -/
  complete : ∀ past, past ++ [.did .closePort] <+: t → (responses past).Perm (requests past)
  /-- The worker says that it is ready once, if the client is made. -/
  once : announced t = made.toNat
  /-- When it takes a request, or answers one that it took, it has said so. -/
  ready : ∀ past h, past ++ [h] <+: t → h.isServing = true → announced past = 1
  /-- Every response can be copied. -/
  calm : ∀ v, .did (.crash v) ∉ t

/-- Whatever arrives on the port and however units end, a worker answers every request once before
it closes its port. -/
theorem answers_before_closing (hv : new.valid events = true) :
    Answered (new.trace events) (events.any Event.isBuilt) := by
  obtain ⟨last, hlast, hready⟩ := keeps_new.run hv
  refine ⟨fun past hpre seq => ?_, fun past hpre => ?_, ?_, fun past h hpre hs => ?_,
    fun v hmem => ?_⟩
  · obtain ⟨c, hc⟩ := Book.follow_prefix hlast hpre
    have hseq := (Book.balanced_follow hc).owed seq
    simp only [List.count_nil] at hseq
    omega
  · obtain ⟨c, d, hc, hd⟩ := Book.follow_next hlast hpre
    refine List.perm_iff_count.mpr fun seq => ?_
    have hseq := (Book.balanced_follow hc).owed seq
    rw [Book.owed_of_closing hd] at hseq
    simpa using hseq.symm
  · have hann := (Book.balanced_follow hlast).ready
    simpa [hready] using hann.symm
  · obtain ⟨c, d, hc, hd⟩ := Book.follow_next hlast hpre
    have hann := (Book.balanced_follow hc).ready
    rw [Book.ready_of_serving hd hs] at hann
    simpa using hann.symm
  · obtain ⟨past, rest, hsplit⟩ := List.append_of_mem hmem
    have hpre : past ++ [.did (.crash v)] <+: new.trace events := ⟨rest, by simp [hsplit]⟩
    obtain ⟨c, d, _, hd⟩ := Book.follow_next hlast hpre
    rw [Book.enter_crash] at hd
    cases hd

/-- A request under a number, as it arrives. -/
def ask (seq : Binary64) : Event :=
  .message (ToWorker.request seq ⟨"http://a/", .record [], []⟩).toValue

/-- A request comes before the client is made, two come under one number, and one comes after the
release; of the two units one fails. -/
def busy : List Event :=
  [ask 7, .built, .move .turn, ask 1, .move .turn, ask 1, .message ToWorker.close.toValue, ask 9,
    .move .turn, .move .turn, .move (.answered 1 (.error (.string "refused"))), .move (.conclude 1),
    .move (.answered 0 (.ok (some (.steady (.number 200) .absent)))), .move (.chunk 0 (.bytes [4])),
    .move (.bodyEnded 0 (.ok .small)), .move (.conclude 0), .move (.retire 0), .move (.retire 1),
    .move .turn, .clientClosed (.ok ())]

theorem busy_answered : new.valid busy = true ∧ requests (new.trace busy) = [7, 1, 1, 9] ∧
    responses (new.trace busy) = [7, 9, 1, 1] ∧
    (new.trace busy).countP Happening.isClosing = 1 ∧
    Answered (new.trace busy) (busy.any Event.isBuilt) :=
  ⟨by decide +kernel, by decide +kernel, by decide +kernel, by decide +kernel,
    answers_before_closing (by decide +kernel)⟩

/-- A client fails with an error that has a function for its message. -/
def mute : List Event :=
  [.built, .move .turn, ask 1, .message ToWorker.close.toValue, .move .turn, .move .turn,
    .move (.answered 0 (.error (.error "Error" .function .undefined))), .move (.conclude 0),
    .move (.retire 0), .move .turn, .clientClosed (.ok ())]

theorem Happening.eq_of_isClosing {h : Happening} (hc : h.isClosing = true) :
    h = .did .closePort := by
  cases h with
  | asked => cases hc
  | did e => cases e <;> first | rfl | cases hc

/-- The worker closes its port at the end, and its one request has no response. -/
theorem mute_unanswered : requests (new.trace mute) = [1] ∧ responses (new.trace mute) = [] ∧
    ¬ ∀ past, past ++ [.did .closePort] <+: new.trace mute →
      (responses past).Perm (requests past) := by
  have hreq : requests (new.trace mute) = [1] := by decide +kernel
  have hres : responses (new.trace mute) = [] := by decide +kernel
  refine ⟨hreq, hres, fun h => ?_⟩
  have hlast : (new.trace mute).getLast?.any Happening.isClosing = true := by decide +kernel
  obtain ⟨last, hl, hc⟩ := (Option.any_eq_true _ _).mp hlast
  obtain ⟨past, hsplit⟩ := List.getLast?_eq_some_iff.mp hl
  rw [Happening.eq_of_isClosing hc] at hsplit
  have hperm := h past (hsplit ▸ List.prefix_rfl)
  rw [hsplit] at hreq hres
  have hone : requests past = [1] := by
    rw [requests, List.filterMap_append] at hreq
    exact (List.append_nil _).symm.trans hreq
  have hnone : responses past = [] := by
    rw [responses, List.filterMap_append] at hres
    exact (List.append_eq_nil_iff.mp hres).1
  rw [hnone, hone] at hperm
  exact List.cons_ne_nil _ _ hperm.nil_eq.symm

end Worker
end Courier
