import Courier.Proofs.Posting

/-!
What a bridge posts, whatever becomes of its worker. The requests that its channel accepts are
posted in the order in which they were accepted, numbered from one on. The message that tells the
worker to close comes after all of them, once, and not to a worker that is known to be gone.
-/

namespace Courier

/-- Requests as they are posted, numbered from one on. -/
def numbered (requests : List Request) : List Value :=
  requests.mapIdx fun j request => request.message (j + 1)

@[simp] theorem length_numbered (requests : List Request) :
    (numbered requests).length = requests.length := List.length_mapIdx

theorem numbered_concat (requests : List Request) (request : Request) :
    numbered (requests ++ [request]) =
      numbered requests ++ [request.message (requests.length + 1)] := List.mapIdx_concat

namespace Bridge.Run

open Courier.Bridge.Effect

variable {r s : Run} {k : Nat} {accepted : List Request}

/-- The requests that the channel accepts at an event. -/
def accepts (r : Run) : Event → List Request
  | .send sender uri payload signal =>
    if (r.bridge.send sender (.post uri payload) signal).2.1 then [.post uri payload] else []
  | _ => []

/-- A call was made with a request. -/
def Holds (r : Run) (k : Nat) (request : Request) : Prop :=
  ∃ (c : Call Unit) (uri : String) (payload : Bytes), r.bridge.intake.calls[k]? = some c ∧
    c.parcel = .request (Request.post uri payload).toValue ∧ request = .post uri payload

theorem Holds.kept {request : Request} (h : r.Holds k request)
    (hk : Intake.Kept r.bridge.intake.calls s.bridge.intake.calls) : s.Holds k request := by
  obtain ⟨c, uri, payload, hc, hp, hr⟩ := h
  obtain ⟨d, hd, hdp, _⟩ := hk.call k c hc
  exact ⟨d, uri, payload, hd, hdp.trans hp, hr⟩

/-- The accepted requests are posted in order, and nothing is accepted after the message that tells
the worker to close. -/
structure Sequenced (r : Run) (accepted : List Request) : Prop where
  accounted : r.Accounted
  holds : List.Forall₂ r.Holds r.accepted accepted
  seq_le : r.bridge.seq ≤ accepted.length
  /-- What has not been posted waits, unless the worker was found gone. -/
  queue : ∃ lost, r.accepted.drop r.bridge.seq = r.bridge.queue ++ lost ∧
    (r.bridge.alive = true → lost = [])
  posted : ∃ tail, r.posted = numbered (accepted.take r.bridge.seq) ++ tail ∧
    (tail = [] ∨ tail = [ToWorker.close.toValue] ∧ r.bridge.forwarding = .ended ∧
      r.bridge.seq = accepted.length)

theorem sequenced_start (fired : List (Nat × Value)) : (start fired).Sequenced [] := by
  have hq : (start fired).bridge.queue = [] := by
    have hdrop := (orderly_start fired).queue
    rw [← hdrop]
    exact List.drop_nil
  have hb : (start fired).bridge.seq = 0 := by
    simp only [start, Bridge.start]
    rw [takeNext_eq]
    rfl
  refine ⟨accounted_start fired, .nil, Nat.le_of_eq hb, ⟨[], ?_, fun _ => rfl⟩, [], ?_, Or.inl rfl⟩
  · rw [hq]
    exact List.drop_nil
  · rw [List.take_nil]
    rfl

/-- Steps that post nothing and bring no call. -/
theorem Sequenced.lifted (h : r.Sequenced accepted) (hs : s.Accounted)
    (haccepted : s.accepted = r.accepted) (hposted : s.posted = r.posted)
    (hseq : s.bridge.seq = r.bridge.seq)
    (hqueue : ∃ dropped, r.bridge.queue = s.bridge.queue ++ dropped ∧
      (s.bridge.alive = true → dropped = []))
    (halive : s.bridge.alive = true → r.bridge.alive = true)
    (hended : r.bridge.forwarding = .ended → s.bridge.forwarding = .ended)
    (hkept : Intake.Kept r.bridge.intake.calls s.bridge.intake.calls) : s.Sequenced accepted := by
  obtain ⟨lost, hlost, hnone⟩ := h.queue
  obtain ⟨dropped, hdropped, hkeeps⟩ := hqueue
  obtain ⟨tail, htail, hclose⟩ := h.posted
  refine ⟨hs, ?_, hseq ▸ h.seq_le, ⟨dropped ++ lost, ?_, fun ha => ?_⟩, tail, ?_, ?_⟩
  · rw [haccepted]
    exact h.holds.imp fun _ _ hh => hh.kept hkept
  · rw [haccepted, hseq, hlost, hdropped, List.append_assoc]
  · rw [hkeeps ha, hnone (halive ha), List.append_nil]
  · rw [hposted, hseq, htail]
  · rw [hseq]
    exact hclose.imp_right fun ⟨ht, hf, hl⟩ => ⟨ht, hended hf, hl⟩

/-- Only the forwarding posts. -/
theorem Accounted.posted_step (h : r.Accounted) {ev : Event} (he : ev ≠ .forward) :
    (r.step ev).posted = r.posted := by
  have hdown : ∀ reason, (r.shutdown reason).posted = r.posted := by
    intro reason
    cases ha : r.bridge.alive with
    | false => rw [shutdown_of_dead ha]
    | true =>
      show r.posted ++ posts (r.bridge.shutdown reason).2 = r.posted
      rw [(shutdown_of_alive ha h.posted reason).2.2, List.append_nil]
  cases ev with
  | send sender uri payload signal => rw [step_send]
  | clone sender => exact List.append_nil _
  | release sender =>
    show r.posted ++ posts (r.bridge.release sender).2 = r.posted
    simp [Bridge.release]
  | abort signal reason =>
    show r.posted ++ posts (r.bridge.abort signal reason).2 = r.posted
    simp [Bridge.abort]
  | forward => exact (he rfl).elim
  | message v =>
    cases ha : r.bridge.answer? v with
    | none => rw [step_message_of_no_answer ha]
    | some x => exact (h.step_answered ha).2
  | portClosed => exact hdown _
  | exited code => exact hdown _

/-- An ended forwarding has closed the channel. -/
theorem Accounted.closed_of_ended (h : r.Accounted) (hf : r.bridge.forwarding = .ended) :
    r.bridge.intake.channel.closed = true :=
  (h.coupled.ended (Or.inl (by rw [hf]; rfl))).1

section
variable (sender : Nat) (uri : String) (payload : Bytes) (signal : Option Nat)

theorem bridge_send : (r.step (.send sender uri payload signal)).bridge =
    (r.bridge.send sender (.post uri payload) signal).1 := by rw [step_send]

/-- A channel that is closed takes nothing more. -/
theorem Sequenced.refused (h : r.Sequenced accepted)
    (hc : r.bridge.intake.channel.isClosed sender = true) :
    (r.step (.send sender uri payload signal)).Sequenced accepted := by
  have hq := h.accounted.queue_send sender (.post uri payload) signal
  have hcalled := called_send r sender uri payload signal
  refine h.lifted (h.accounted.send sender uri payload signal) ?_
    (h.accounted.posted_step Event.noConfusion) hcalled.seq ⟨[], ?_, fun _ => rfl⟩ ?_ (fun hf => ?_)
    hcalled.kept
  · rw [step_send]
    simp [hc]
  · rw [bridge_send, hq, hc, if_pos rfl, List.append_nil, List.append_nil]
  · rw [bridge_send, send_eq]
    exact id
  · rw [bridge_send, send_eq]
    simp only [hf]
    cases (r.bridge.intake.send sender (.post uri payload) signal ()).2.2.2 <;> rfl

/-- A channel that is open takes one request more. -/
theorem Sequenced.taken (h : r.Sequenced accepted)
    (hc : r.bridge.intake.channel.isClosed sender = false) :
    (r.step (.send sender uri payload signal)).Sequenced (accepted ++ [.post uri payload]) := by
  have hq := h.accounted.queue_send sender (.post uri payload) signal
  have hcalled := called_send r sender uri payload signal
  obtain ⟨_, _, hcalls, _⟩ :=
    Intake.send_spec r.bridge.intake sender (.post uri payload) signal ()
  have hlen := h.holds.length_eq
  have hopen : r.bridge.intake.channel.closed = false := by
    by_contra hcl
    simp [Channel.isClosed, hcl] at hc
  have hlive : r.bridge.alive = true := by
    by_contra ha
    rw [(h.accounted.dead (Bool.eq_false_of_not_eq_true ha)).1] at hopen
    cases hopen
  have haccepted :
      (r.step (.send sender uri payload signal)).accepted = r.accepted ++ [r.size] := by
    rw [step_send]
    simp [hc]
  obtain ⟨lost, hlost, hnone⟩ := h.queue
  obtain ⟨tail, htail, hclose⟩ := h.posted
  refine ⟨h.accounted.send sender uri payload signal, ?_, ?_, ⟨[], ?_, fun _ => rfl⟩, [], ?_,
    Or.inl rfl⟩
  · rw [haccepted]
    refine List.rel_append (h.holds.imp fun _ _ hh => hh.kept hcalled.kept) (.cons ?_ .nil)
    refine ⟨r.bridge.intake.sent sender (.post uri payload) signal (), uri, payload, ?_,
      Intake.sent_parcel _ _ _ _, rfl⟩
    rw [bridge_send, send_eq]
    simp only [hcalls]
    exact Array.getElem?_push_size
  · rw [hcalled.seq, List.length_append]
    exact Nat.le_add_right_of_le h.seq_le
  · rw [haccepted, hcalled.seq, List.drop_append_of_le_length (hlen ▸ h.seq_le), hlost,
      hnone hlive, bridge_send, hq, hc, if_neg Bool.false_ne_true, List.append_nil, List.append_nil]
  · rw [h.accounted.posted_step Event.noConfusion, hcalled.seq,
      List.take_append_of_le_length h.seq_le, htail]
    rcases hclose with rfl | ⟨_, hf, _⟩
    · rfl
    · rw [h.accounted.closed_of_ended hf] at hopen
      cases hopen

theorem Sequenced.send (h : r.Sequenced accepted) :
    (r.step (.send sender uri payload signal)).Sequenced
      (accepted ++ r.accepts (.send sender uri payload signal)) := by
  rw [accepts, send_accepted]
  cases hc : r.bridge.intake.channel.isClosed sender with
  | true =>
    rw [Bool.not_true, if_neg Bool.false_ne_true, List.append_nil]
    exact h.refused sender uri payload signal hc
  | false =>
    rw [Bool.not_false, if_pos rfl]
    exact h.taken sender uri payload signal hc

end

/-- The request that is being handed over is the oldest one that has not been posted. -/
theorem Sequenced.next (h : r.Sequenced accepted) (hf : r.bridge.forwarding = .handed (some k)) :
    ∃ (c : Call Unit) (uri : String) (payload : Bytes), r.bridge.intake.calls[k]? = some c ∧
      c.parcel = .request (Request.post uri payload).toValue ∧
      accepted[r.bridge.seq]? = some (.post uri payload) := by
  obtain ⟨lost, hlost, _⟩ := h.queue
  rw [(h.accounted.queue_posting hf).1] at hlost
  have hget : r.accepted[r.bridge.seq]? = some k := by
    rw [← List.head?_drop, hlost]
    rfl
  obtain ⟨hlt, hk⟩ := List.getElem?_eq_some_iff.mp hget
  have hlt' : r.bridge.seq < accepted.length := h.holds.length_eq ▸ hlt
  obtain ⟨c, uri, payload, hc, hp, hr⟩ :=
    (List.forall₂_iff_get.mp h.holds).2 r.bridge.seq hlt hlt'
  simp only [List.get_eq_getElem] at hc hr
  exact ⟨c, uri, payload, hk ▸ hc, hp, hr ▸ List.getElem?_eq_getElem hlt'⟩

/-- While something is at hand everything posted is a request. -/
theorem Sequenced.posted_of_handed (h : r.Sequenced accepted) {held : Option Nat}
    (hf : r.bridge.forwarding = .handed held) :
    r.posted = numbered (accepted.take r.bridge.seq) := by
  obtain ⟨tail, htail, rfl | ⟨_, he, _⟩⟩ := h.posted
  · rw [htail, List.append_nil]
  · rw [hf] at he
    cases he

theorem Sequenced.length_posted (h : r.Sequenced accepted) {held : Option Nat}
    (hf : r.bridge.forwarding = .handed held) : r.posted.length = r.bridge.seq := by
  rw [h.posted_of_handed hf, length_numbered, List.length_take, Nat.min_eq_left h.seq_le]

/-- The oldest request that has not been posted is posted next. -/
theorem Sequenced.posting (h : r.Sequenced accepted)
    (hf : r.bridge.forwarding = .handed (some k)) : (r.step .forward).Sequenced accepted ∧
      (r.step .forward).bridge.seq = r.bridge.seq + 1 ∧
      (r.step .forward).bridge.queue = r.bridge.queue.tail := by
  obtain ⟨c, uri, payload, hk, hp, hget⟩ := h.next hf
  have hs := h.accounted.step .forward
  obtain ⟨hq, hq'⟩ := h.accounted.queue_posting hf
  obtain ⟨lost, hlost, hnone⟩ := h.queue
  have hlt := (List.getElem?_eq_some_iff.mp hget).1
  have hb : (r.step .forward).bridge = (r.bridge.posting k).asking := by
    show r.bridge.turn.1 = _
    rw [turn_handed hf hk hp]
  have hseq : (r.step .forward).bridge.seq = r.bridge.seq + 1 := by
    rw [hb]
    rfl
  have hposted : (r.step .forward).posted =
      r.posted ++ [(Request.post uri payload).message (r.bridge.seq + 1)] := by
    show r.posted ++ posts r.bridge.turn.2 = _
    rw [turn_handed hf hk hp]
    simp [posted?]
  refine ⟨⟨hs, ?_, ?_, ⟨lost, ?_, ?_⟩, [], ?_, Or.inl rfl⟩, hseq, ?_⟩
  · refine h.holds.imp fun _ _ hh => hh.kept ?_
    rw [hb]
    exact .refl _
  · rw [hseq]
    exact hlt
  · show r.accepted.drop (r.step .forward).bridge.seq = _
    rw [hseq, ← List.tail_drop, hlost, hq, hb, hq']
    rfl
  · rw [hb]
    exact hnone
  · rw [hposted, hseq, h.posted_of_handed hf, List.append_nil, List.take_add_one, hget,
      Option.toList_some, numbered_concat, List.length_take, Nat.min_eq_left h.seq_le]
  · rw [hb, hq', hq]
    rfl

/-- With nothing at hand, and a worker that is not known to be gone, all is posted. -/
theorem Sequenced.seq_of_idle (h : r.Sequenced accepted) (ha : r.bridge.alive = true)
    (hn : r.handing = false) : r.bridge.seq = accepted.length := by
  have hlive : r.bridge.intake.channel.live = [] := by
    cases hf : r.bridge.forwarding with
    | waiting => exact h.accounted.coupled.live_of_waits (by rw [hf]; rfl)
    | ended => exact (h.accounted.coupled.ended (Or.inl (by rw [hf]; rfl))).2
    | handed held =>
      cases held with
      | none => exact (h.accounted.coupled.ended (Or.inr (by rw [hf]; rfl))).2
      | some k => simp [handing, hf] at hn
  obtain ⟨lost, hlost, hnone⟩ := h.queue
  rw [hnone ha, Bridge.queue, Hand.queue, hlive, values_of_not_handing hn] at hlost
  have hle := List.drop_eq_nil_iff.mp hlost
  rw [h.holds.length_eq] at hle
  exact Nat.le_antisymm h.seq_le hle

/-- At the end of the channel every accepted request has been posted, unless the worker is gone. -/
theorem Sequenced.closing (h : r.Sequenced accepted) (hf : r.bridge.forwarding = .handed none) :
    (r.step .forward).Sequenced accepted ∧ (r.step .forward).bridge.seq = r.bridge.seq ∧
      r.bridge.intake.channel.closed = true ∧
      (r.bridge.alive = true → r.bridge.seq = accepted.length) := by
  have hs := h.accounted.step .forward
  obtain ⟨hb, _, hp⟩ := turn_handed_none hf
  have hb : (r.step .forward).bridge = { r.bridge with forwarding := .ended } := hb
  obtain ⟨hclosed, hlive⟩ := h.accounted.coupled.ended (Or.inr (by rw [hf]; rfl))
  have hqueue : r.bridge.queue = [] := by
    rw [Bridge.queue, Hand.queue, hf, hlive]
    rfl
  obtain ⟨lost, hlost, hnone⟩ := h.queue
  have hall : r.bridge.alive = true → r.bridge.seq = accepted.length := fun ha =>
    h.seq_of_idle ha (by simp [handing, hf])
  have hposted : (r.step .forward).posted =
      r.posted ++ if r.bridge.alive then [ToWorker.close.toValue] else [] := by
    show r.posted ++ posts r.bridge.turn.2 = _
    rw [hp]
  refine ⟨⟨hs, ?_, ?_, ⟨lost, ?_, ?_⟩, if r.bridge.alive then [ToWorker.close.toValue] else [], ?_,
    ?_⟩, ?_, hclosed, hall⟩
  · refine h.holds.imp fun _ _ hh => hh.kept ?_
    rw [hb]
    exact .refl _
  · rw [hb]
    exact h.seq_le
  · show r.accepted.drop (r.step .forward).bridge.seq = _
    rw [hb]
    show r.accepted.drop r.bridge.seq = _
    rw [hlost, hqueue, Bridge.queue, Hand.queue, hlive]
    rfl
  · rw [hb]
    exact hnone
  · rw [hposted, h.posted_of_handed hf, hb]
  · rw [hb]
    cases ha : r.bridge.alive with
    | false => exact Or.inl rfl
    | true => exact Or.inr ⟨rfl, rfl, hall ha⟩
  · rw [hb]

theorem Sequenced.message (h : r.Sequenced accepted) (v : Value) :
    (r.step (.message v)).Sequenced accepted ∧
      (r.step (.message v)).bridge.seq = r.bridge.seq := by
  cases ha : r.bridge.answer? v with
  | none =>
    rw [step_message_of_no_answer ha]
    exact ⟨h, rfl⟩
  | some x =>
    obtain ⟨⟨seq, k⟩, o⟩ := x
    obtain ⟨c, hk, _⟩ := h.accounted.waits_of_pending (mem_of_answer ha)
    obtain ⟨hchannel, _⟩ := Intake.deliver_spec hk o
    obtain ⟨hbridge, hposted⟩ := h.accounted.step_answered ha
    have hqueue : (r.step (.message v)).bridge.queue = r.bridge.queue := by
      rw [hbridge]
      show Hand.queue (r.bridge.intake.deliver k o).1.channel _ = _
      rw [hchannel]
      rfl
    have hseq : (r.step (.message v)).bridge.seq = r.bridge.seq := by
      rw [hbridge]
      rfl
    refine ⟨h.lifted (h.accounted.step _) rfl hposted hseq ⟨[], ?_, fun _ => rfl⟩ ?_ ?_ ?_, hseq⟩
    · rw [hqueue, List.append_nil]
    · rw [hbridge]
      exact id
    · rw [hbridge]
      exact id
    · rw [hbridge]
      exact Intake.kept_deliver r.bridge.intake k o

theorem seq_shutdown (h : r.Accounted) (reason : String) :
    (r.shutdown reason).bridge.seq = r.bridge.seq := by
  cases ha : r.bridge.alive with
  | false => rw [shutdown_of_dead ha]
  | true =>
    show (r.bridge.shutdown reason).1.seq = r.bridge.seq
    rw [(shutdown_of_alive ha h.posted reason).1]

/-- What waits in the channel is lost when the worker is found gone. -/
theorem Sequenced.shutdown (h : r.Sequenced accepted) (reason : String) :
    (r.shutdown reason).Sequenced accepted := by
  cases ha : r.bridge.alive with
  | false => rwa [shutdown_of_dead ha]
  | true =>
    obtain ⟨hb, _, hp⟩ := shutdown_of_alive ha h.accounted.posted reason
    have hbridge : (r.shutdown reason).bridge = (r.bridge.shutdown reason).1 := rfl
    have hdead : (r.shutdown reason).bridge.alive = false := alive_shutdown reason
    refine h.lifted (h.accounted.shutdown reason) rfl ?_ ?_
      ⟨r.bridge.intake.channel.live, ?_, fun hl => ?_⟩ (fun _ => ha) (fun hf => ?_) ?_
    · show r.posted ++ posts (r.bridge.shutdown reason).2 = r.posted
      rw [hp, List.append_nil]
    · exact seq_shutdown h.accounted reason
    · rw [hbridge, h.accounted.queue_shutdown ha]
      rfl
    · rw [hdead] at hl
      cases hl
    · rw [hbridge, hb]
      simp only [hf]
      cases r.bridge.intake.channel.close.2.2 <;> rfl
    · rw [hbridge, hb]
      exact Intake.kept_dropAll h.accounted.owed_nodup r.bridge.closedIntake

theorem Sequenced.clone (h : r.Sequenced accepted) (sender : Nat) :
    (r.step (.clone sender)).Sequenced accepted :=
  h.lifted (h.accounted.clone sender) rfl (List.append_nil _) rfl
    ⟨[], (List.append_nil _).symm, fun _ => rfl⟩ id id (.refl _)

theorem Sequenced.release (h : r.Sequenced accepted) (sender : Nat) :
    (r.step (.release sender)).Sequenced accepted := by
  have hb := Bridge.release_eq r.bridge sender
  have hbridge : (r.step (.release sender)).bridge = (r.bridge.release sender).1 := rfl
  refine h.lifted (h.accounted.release sender) rfl (h.accounted.posted_step Event.noConfusion)
    (called_release r sender).seq ⟨[], ?_, fun _ => rfl⟩ ?_ (fun hf => ?_)
    (called_release r sender).kept
  · rw [hbridge, queue_release h.accounted.coupled, List.append_nil]
  · rw [hbridge, hb]
    exact id
  · rw [hbridge, hb]
    simp only [hf]
    cases (r.bridge.intake.channel.release sender).2 <;> rfl

theorem Sequenced.abort (h : r.Sequenced accepted) (signal : Nat) (reason : Value) :
    (r.step (.abort signal reason)).Sequenced accepted := by
  refine h.lifted (h.accounted.abort signal reason) rfl (h.accounted.posted_step Event.noConfusion)
    rfl ⟨[], ?_, fun _ => rfl⟩ id id (called_abort r signal reason).kept
  rw [List.append_nil]
  exact (queue_abort r.bridge signal reason).symm

/-- A number is given out only while everything posted is a request. -/
theorem Sequenced.forward (h : r.Sequenced accepted) : (r.step .forward).Sequenced accepted ∧
    ((r.step .forward).bridge.seq = r.bridge.seq ∨ r.posted.length = r.bridge.seq) := by
  obtain ht | hf | ⟨k, hf⟩ := r.bridge.turn_cases
  · have hr : r.step .forward = r := by
      show r.lift r.bridge.turn = r
      rw [ht]
      simp [lift]
    rw [hr]
    exact ⟨h, Or.inl rfl⟩
  · obtain ⟨hs, hseq, _⟩ := h.closing hf
    exact ⟨hs, Or.inl hseq⟩
  · exact ⟨(h.posting hf).1, Or.inr (h.length_posted hf)⟩

theorem Sequenced.step (h : r.Sequenced accepted) (ev : Event) :
    (r.step ev).Sequenced (accepted ++ r.accepts ev) ∧
      ((r.step ev).bridge.seq = r.bridge.seq ∨ r.posted.length = r.bridge.seq) := by
  have hquiet : r.accepts ev = [] → (r.step ev).Sequenced accepted →
      (r.step ev).Sequenced (accepted ++ r.accepts ev) := by
    intro he hs
    rwa [he, List.append_nil]
  cases ev with
  | send sender uri payload signal =>
    exact ⟨h.send sender uri payload signal, Or.inl (called_send r sender uri payload signal).seq⟩
  | clone sender => exact ⟨hquiet rfl (h.clone sender), Or.inl rfl⟩
  | release sender => exact ⟨hquiet rfl (h.release sender), Or.inl (called_release r sender).seq⟩
  | abort signal reason => exact ⟨hquiet rfl (h.abort signal reason), Or.inl rfl⟩
  | forward => exact ⟨hquiet rfl h.forward.1, h.forward.2⟩
  | message v => exact ⟨hquiet rfl (h.message v).1, Or.inl (h.message v).2⟩
  | portClosed => exact ⟨hquiet rfl (h.shutdown _), Or.inl (seq_shutdown h.accounted _)⟩
  | exited code => exact ⟨hquiet rfl (h.shutdown _), Or.inl (seq_shutdown h.accounted _)⟩

/-! Places in what is posted -/

theorem Sequenced.posted_request (h : r.Sequenced accepted) {j : Nat} (hj : j < r.bridge.seq) :
    ∃ uri payload, accepted[j]? = some (.post uri payload) ∧
      r.posted[j]? = some ((Request.post uri payload).message (j + 1)) := by
  have hlt := Nat.lt_of_lt_of_le hj h.seq_le
  obtain ⟨c, uri, payload, _, _, hr⟩ :=
    (List.forall₂_iff_get.mp h.holds).2 j (h.holds.length_eq ▸ hlt) hlt
  have hget : accepted[j]? = some (.post uri payload) := hr ▸ List.getElem?_eq_getElem hlt
  obtain ⟨tail, htail, _⟩ := h.posted
  have hnumbered : (numbered (accepted.take r.bridge.seq))[j]? =
      some ((Request.post uri payload).message (j + 1)) := by
    rw [numbered, List.getElem?_mapIdx, List.getElem?_take_of_lt hj, hget]
    rfl
  refine ⟨uri, payload, hget, ?_⟩
  rw [htail, List.getElem?_append_left (List.getElem?_eq_some_iff.mp hnumbered).1, hnumbered]

theorem Sequenced.posted_close (h : r.Sequenced accepted) {j : Nat} (hj : r.bridge.seq ≤ j)
    (hlt : j < r.posted.length) : j = r.bridge.seq ∧
      r.posted[j]? = some ToWorker.close.toValue := by
  obtain ⟨tail, htail, hclose⟩ := h.posted
  have hlen : (numbered (accepted.take r.bridge.seq)).length = r.bridge.seq := by
    rw [length_numbered, List.length_take, Nat.min_eq_left h.seq_le]
  rw [htail, List.length_append, hlen] at hlt
  rcases hclose with rfl | ⟨rfl, _⟩
  · rw [List.length_nil] at hlt
    omega
  · rw [List.length_singleton] at hlt
    obtain rfl : j = r.bridge.seq := by omega
    refine ⟨rfl, ?_⟩
    rw [htail, List.getElem?_append_right (Nat.le_of_eq hlen), hlen, Nat.sub_self]
    rfl

/-- The worker is told to close when the channel has closed and all that it accepted has been
posted, and not when the worker is known to be gone. -/
theorem Sequenced.closes (h : r.Sequenced accepted) {ev : Event}
    (hc : ToWorker.close.toValue ∈ (r.step ev).posted.drop r.posted.length) :
    r.bridge.intake.channel.closed = true ∧ r.bridge.alive = true ∧
      r.posted = numbered accepted := by
  by_cases he : ev = .forward
  · subst he
    have hposted : (r.step .forward).posted = r.posted ++ posts r.bridge.turn.2 := rfl
    rw [hposted, List.drop_left] at hc
    obtain ht | hf | ⟨k, hf⟩ := r.bridge.turn_cases
    · rw [ht] at hc
      cases hc
    · obtain ⟨_, _, hclosed, hall⟩ := h.closing hf
      rw [(turn_handed_none hf).2.2] at hc
      have ha : r.bridge.alive = true := by
        by_contra ha
        rw [if_neg ha] at hc
        cases hc
      refine ⟨hclosed, ha, ?_⟩
      rw [h.posted_of_handed hf, hall ha, List.take_length]
    · obtain ⟨c, uri, payload, hk, hp, _⟩ := h.next hf
      rw [turn_handed hf hk hp] at hc
      simp [posted?, Request.message, ToWorker.carry, ToWorker.toValue] at hc
  · rw [h.accounted.posted_step he, List.drop_length] at hc
    cases hc

end Bridge.Run
end Courier
