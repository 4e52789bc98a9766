import Courier.Proofs.Forwarding
import Courier.Proofs.Wire

/-!
What a bridge posts. Requests are posted in the order in which they were accepted, each under its
place in that order, and the message that tells the worker to close comes last.
-/

namespace Courier

namespace Forwarding

def isEnded : Forwarding → Bool
  | .ended => true
  | _ => false

@[simp] theorem isEnded_take (f : Forwarding) (handoff : Option (Channel.Handoff Nat)) :
    (f.take handoff).isEnded = f.isEnded := by
  cases handoff <;> cases f <;> rfl

@[simp] theorem isEnded_ofNext (n : Channel.Next Nat) : (ofNext n).isEnded = false := by
  cases n <;> rfl

theorem isEnded_iff {f : Forwarding} : f.isEnded = true ↔ f = .ended := by
  cases f <;> simp [isEnded]

end Forwarding

namespace Bridge.Run

open Courier.Bridge.Effect

variable {r s : Run} {j k : Nat}

/-- The message at a place is the request of a call. -/
def Posts (r : Run) (j k : Nat) : Prop :=
  ∃ (c : Call Unit) (uri : String) (payload : Bytes), r.bridge.intake.calls[k]? = some c ∧
    c.parcel = .request (Request.post uri payload).toValue ∧
    r.posted[j]? = some ((Request.post uri payload).message (j + 1))

/-- Requests are posted in order, and wait under their places. -/
structure Orderly (r : Run) : Prop where
  seq_le : r.bridge.seq ≤ r.accepted.length
  queue : r.accepted.drop r.bridge.seq = r.bridge.queue
  pending : ∀ x ∈ r.bridge.pending, ∃ j, x.1 = j + 1 ∧ r.accepted[j]? = some x.2
  length : r.posted.length = r.bridge.seq + if r.bridge.forwarding.isEnded then 1 else 0
  requests : ∀ j k, j < r.bridge.seq → r.accepted[j]? = some k → r.Posts j k
  close : r.bridge.forwarding.isEnded = true →
    r.posted[r.bridge.seq]? = some ToWorker.close.toValue
  alive : r.bridge.alive = false → r.bridge.forwarding.isEnded = true
  refused : ∀ k ∈ r.refused, k < r.size ∧ k ∉ r.accepted

theorem orderly_start (fired : List (Nat × Value)) : (start fired).Orderly := by
  have hb : (start fired).bridge = asking ⟨.new fired, .ended, [], 0, true⟩ := by
    simp only [start, Bridge.start]
    rw [takeNext_eq]
  have hq : (start fired).bridge.queue = [] := by
    have hnil := List.perm_nil.mp (accounted_start fired).perm.symm
    simp only [List.append_assoc, List.append_eq_nil_iff] at hnil
    exact hnil.1
  have he : (start fired).bridge.forwarding.isEnded = false := by
    rw [hb]
    simp [asking]
  refine ⟨?seq_le, ?queue, ?pending, ?length, ?requests, ?close, ?alive, ?refused⟩
  case seq_le =>
    rw [hb]
    exact Nat.le_refl _
  case queue =>
    rw [hq]
    simp [start]
  case pending =>
    rw [hb]
    simp [asking]
  case length =>
    rw [he, hb]
    rfl
  case requests =>
    rw [hb]
    exact fun j k hj => absurd hj (Nat.not_lt_zero j)
  case close =>
    rw [he]
    exact fun h => by cases h
  case alive =>
    intro h
    rw [alive_start] at h
    cases h
  case refused => simp [start]

theorem Posts.kept (h : r.Posts j k) (hk : Intake.Kept r.bridge.intake.calls s.bridge.intake.calls)
    (hp : s.posted[j]? = r.posted[j]?) : s.Posts j k := by
  obtain ⟨c, uri, payload, hc, hparcel, hposted⟩ := h
  obtain ⟨d, hd, hdp, _⟩ := hk.call k c hc
  exact ⟨d, uri, payload, hd, hdp.trans hparcel, hp.trans hposted⟩

/-- Steps that post nothing and bring no call. -/
theorem Orderly.lifted (h : r.Orderly) (haccepted : s.accepted = r.accepted)
    (hrefused : s.refused = r.refused) (hposted : s.posted = r.posted)
    (hseq : s.bridge.seq = r.bridge.seq) (hqueue : s.bridge.queue = r.bridge.queue)
    (hpending : ∀ x ∈ s.bridge.pending, x ∈ r.bridge.pending)
    (hended : s.bridge.forwarding.isEnded = r.bridge.forwarding.isEnded)
    (halive : s.bridge.alive = false → r.bridge.forwarding.isEnded = true)
    (hkept : Intake.Kept r.bridge.intake.calls s.bridge.intake.calls) : s.Orderly := by
  refine ⟨?seq_le, ?queue, ?pending, ?length, ?requests, ?close, ?alive, ?refused⟩
  case seq_le =>
    rw [hseq, haccepted]
    exact h.seq_le
  case queue =>
    rw [hseq, haccepted, hqueue]
    exact h.queue
  case pending =>
    rw [haccepted]
    exact fun x hx => h.pending x (hpending x hx)
  case length =>
    rw [hposted, hseq, hended]
    exact h.length
  case requests =>
    rw [hseq, haccepted]
    exact fun j k hj hk => (h.requests j k hj hk).kept hkept (by rw [hposted])
  case close =>
    rw [hended, hposted, hseq]
    exact h.close
  case alive =>
    rw [hended]
    exact halive
  case refused =>
    rw [hrefused, haccepted]
    exact fun k hk => ⟨Nat.lt_of_lt_of_le (h.refused k hk).1 hkept.size_le, (h.refused k hk).2⟩

/-- What callers do brings requests at most, and leaves what waits or is at rest as it is. -/
structure Called (r s : Run) : Prop where
  seq : s.bridge.seq = r.bridge.seq
  pending : s.bridge.pending = r.bridge.pending
  posted : r.posted.length ≤ s.posted.length
  accepted : ∃ more, s.accepted = r.accepted ++ more
  kept : Intake.Kept r.bridge.intake.calls s.bridge.intake.calls
  rests : ∀ (k : Nat) (slot : Slot Outcome) (reading : Slot.Reading Outcome),
    slot.reader = .settled reading → r.bridge.intake.Rests k slot → s.bridge.intake.Rests k slot

theorem Orderly.send (h : r.Orderly) (hr : r.Accounted) (sender : Nat) (uri : String)
    (payload : Bytes) (signal : Option Nat) : (r.step (.send sender uri payload signal)).Orderly := by
  obtain ⟨_, _, hcalls, _⟩ :=
    Intake.send_spec r.bridge.intake sender (.post uri payload) signal ()
  have hq := hr.queue_send sender (.post uri payload) signal
  have hkept : Intake.Kept r.bridge.intake.calls
      (r.bridge.intake.send sender (.post uri payload) signal ()).1.calls := by
    rw [hcalls]
    exact Intake.kept_push _ _
  have hold : ∀ {j : Nat} (more : List Nat), j < r.bridge.seq →
      (r.accepted ++ more)[j]? = r.accepted[j]? := fun more hj =>
    List.getElem?_append_left (Nat.lt_of_lt_of_le hj h.seq_le)
  rw [step_send]
  refine ⟨?seq_le, ?queue, ?pending, ?length, ?requests, ?close, ?alive, ?refused⟩ <;>
    simp only [send_eq] at hq ⊢
  case seq_le =>
    rw [List.length_append]
    exact Nat.le_add_right_of_le h.seq_le
  case queue => rw [List.drop_append_of_le_length h.seq_le, h.queue, hq]
  case pending =>
    intro x hx
    obtain ⟨j, hj, hk⟩ := h.pending x hx
    exact ⟨j, hj, (List.getElem?_append_left (List.getElem?_eq_some_iff.mp hk).1).trans hk⟩
  case length =>
    rw [Forwarding.isEnded_take]
    exact h.length
  case requests =>
    intro j k hj hk
    rw [hold _ hj] at hk
    exact (h.requests j k hj hk).kept hkept rfl
  case close =>
    rw [Forwarding.isEnded_take]
    exact h.close
  case alive =>
    rw [Forwarding.isEnded_take]
    exact h.alive
  case refused =>
    have hsize : r.size < (r.bridge.intake.send sender (.post uri payload) signal ()).1.calls.size := by
      rw [hcalls, Array.size_push]
      exact Nat.lt_succ_self _
    intro k hk
    rw [size]
    cases hc : r.bridge.intake.channel.isClosed sender with
    | true =>
      simp only [hc, if_true, List.append_nil, List.mem_append, List.mem_singleton] at hk ⊢
      rcases hk with hk | rfl
      · exact ⟨Nat.lt_trans (h.refused k hk).1 hsize, (h.refused k hk).2⟩
      · exact ⟨hsize, hr.size_notMem⟩
    | false =>
      simp only [hc, Bool.false_eq_true, if_false, List.append_nil, List.mem_append,
        List.mem_singleton] at hk ⊢
      refine ⟨Nat.lt_trans (h.refused k hk).1 hsize, ?_⟩
      rintro (hm | rfl)
      · exact (h.refused k hk).2 hm
      · exact Nat.lt_irrefl _ (h.refused _ hk).1

/-- Up to its close message the owner has posted as many messages as it has given out numbers. -/
theorem Orderly.open_of_handed (h : r.Orderly) {held : Option Nat}
    (hf : r.bridge.forwarding = .handed held) :
    r.posted.length = r.bridge.seq ∧ r.bridge.alive ≠ false := by
  refine ⟨?_, fun ha => ?_⟩
  · have hl := h.length
    rw [hf] at hl
    exact hl
  · have he := h.alive ha
    rw [hf] at he
    cases he

/-- The request that the loop holds is the oldest accepted one without a number. -/
theorem Orderly.next_accepted (h : r.Orderly) (hr : r.Accounted)
    (hf : r.bridge.forwarding = .handed (some k)) : r.accepted[r.bridge.seq]? = some k := by
  have hdrop := h.queue
  rw [(hr.queue_posting hf).1] at hdrop
  rw [← List.head?_drop, hdrop]
  rfl

/-- At the end of the channel the worker is told, after every request. -/
theorem Orderly.closing (h : r.Orderly) (hf : r.bridge.forwarding = .handed none) :
    (r.lift r.bridge.turn).Orderly := by
  obtain ⟨hlength, halive⟩ := h.open_of_handed hf
  obtain ⟨hb, _, hp⟩ := turn_handed_none hf
  have hposted : (r.lift r.bridge.turn).posted = r.posted ++ [ToWorker.close.toValue] := by
    rw [lift, hp, if_pos (Bool.of_not_eq_false halive)]
  have hcalls : Intake.Kept r.bridge.intake.calls
      (r.lift r.bridge.turn).bridge.intake.calls := by
    rw [lift, hb]
    exact .refl _
  have hsame : ∀ j < r.bridge.seq, (r.lift r.bridge.turn).posted[j]? = r.posted[j]? := by
    intro j hj
    rw [hposted, List.getElem?_append_left (hlength ▸ hj)]
  refine ⟨?seq_le, ?queue, ?pending, ?length, ?requests, ?close, ?alive, ?refused⟩
  case seq_le =>
    rw [lift, hb]
    exact h.seq_le
  case queue =>
    have hq := h.queue
    rw [lift, hb]
    simp only [Bridge.queue, hf, Forwarding.hand, Hand.queue, Hand.values] at hq ⊢
    exact hq
  case pending =>
    rw [lift, hb]
    exact h.pending
  case length =>
    rw [hposted, List.length_append, hlength, lift, hb]
    rfl
  case requests =>
    intro j k hj hk
    rw [lift, hb] at hj
    exact (h.requests j k hj hk).kept hcalls (hsame j hj)
  case close =>
    intro _
    rw [hposted, lift, hb]
    exact hlength ▸ List.getElem?_concat_length
  case alive =>
    rw [lift, hb]
    exact fun _ => rfl
  case refused =>
    rw [lift, size, hb]
    exact h.refused

/-- A request that the loop holds is posted under the next number, and waits for its response. -/
theorem Orderly.posting (h : r.Orderly) (hr : r.Accounted)
    (hf : r.bridge.forwarding = .handed (some k)) : (r.lift r.bridge.turn).Orderly := by
  obtain ⟨hlength, halive⟩ := h.open_of_handed hf
  obtain ⟨c, uri, payload, hk, hp⟩ := hr.held hf
  obtain ⟨hq, hq'⟩ := hr.queue_posting hf
  have hdrop := h.queue
  rw [hq] at hdrop
  have hget := h.next_accepted hr hf
  have hlt := (List.getElem?_eq_some_iff.mp hget).1
  rw [turn_handed hf hk hp]
  have hposted : (r.lift ((r.bridge.posting k).asking,
      .post ((Request.post uri payload).message (r.bridge.seq + 1)) ::
        (r.bridge.posting k).takeNext.2)).posted =
      r.posted ++ [(Request.post uri payload).message (r.bridge.seq + 1)] := by
    simp [lift, posted?]
  have hended : (r.bridge.posting k).asking.forwarding.isEnded = false :=
    Forwarding.isEnded_ofNext _
  refine ⟨hlt, ?queue, ?pending, ?length, ?requests, ?close, ?alive, h.refused⟩
  case queue =>
    show r.accepted.drop (r.bridge.seq + 1) = (r.bridge.posting k).asking.queue
    rw [hq', ← List.tail_drop, hdrop]
    rfl
  case pending =>
    intro x hx
    rcases List.mem_append.mp hx with hx | hx
    · exact h.pending x hx
    · rw [List.mem_singleton.mp hx]
      exact ⟨r.bridge.seq, rfl, hget⟩
  case length =>
    rw [hposted, List.length_append, hlength]
    show r.bridge.seq + 1 = r.bridge.seq + 1 + if (r.bridge.posting k).asking.forwarding.isEnded
      then 1 else 0
    rw [hended]
    rfl
  case requests =>
    intro j n hj hn
    rcases Nat.lt_succ_iff_lt_or_eq.mp hj with hj | rfl
    · refine (h.requests j n hj hn).kept (.refl _) ?_
      rw [hposted, List.getElem?_append_left (hlength ▸ hj)]
    · obtain rfl := Option.some.inj (hget.symm.trans hn)
      refine ⟨c, uri, payload, hk, hp, ?_⟩
      rw [hposted]
      exact hlength ▸ List.getElem?_concat_length
  case close =>
    intro he
    exact Bool.noConfusion (hended.symm.trans he)
  case alive => exact fun ha => (halive ha).elim

/-- The oldest request that has not been posted is posted next. -/
theorem Orderly.forward (h : r.Orderly) (hr : r.Accounted) : (r.step .forward).Orderly := by
  show (r.lift r.bridge.turn).Orderly
  obtain ht | hf | ⟨k, hf⟩ := r.bridge.turn_cases
  · rw [ht]
    exact h.lifted rfl rfl (List.append_nil _) rfl rfl (fun _ hx => hx) rfl h.alive (.refl _)
  · exact h.closing hf
  · exact h.posting hr hf

/-- A request that waits for a response has its slot untouched. -/
theorem Accounted.waits_of_pending (h : r.Accounted) {x : Nat × Nat} (hx : x ∈ r.bridge.pending) :
    r.bridge.intake.Waits x.2 :=
  h.waits x.2 (List.mem_append_right _ (List.mem_map_of_mem (f := (·.2)) hx))

/-- A number of a request that waits is the number of no other one. -/
theorem Accounted.waitingFor (h : r.Accounted) (hseq : r.bridge.seq ≤ 2 ^ 53) {n : Nat}
    (hx : (n, k) ∈ r.bridge.pending) : r.bridge.waitingFor? (.ofNat n) = some (n, k) := by
  obtain ⟨c, hk, _⟩ := h.waits_of_pending hx
  have hn : n ≤ 2 ^ 53 := Nat.le_trans (h.seq_le _ hx) hseq
  have hstranger : r.bridge.intake.stranger? k = none := by
    simp [Intake.stranger?, hk, (h.posted k c hk).stranger]
  cases hf : r.bridge.waitingFor? (.ofNat n) with
  | none =>
    have hno := List.find?_eq_none.mp hf (n, k) hx
    simp [hstranger, (Binary64.same_ofNat hn hn).mpr rfl] at hno
  | some x =>
    have hmem := List.mem_of_find?_eq_some hf
    have hsame := List.find?_some hf
    simp only [Bool.and_eq_true] at hsame
    have hxn := (Binary64.same_ofNat (Nat.le_trans (h.seq_le _ hmem) hseq) hn).mp hsame.1
    exact congrArg some (List.inj_on_of_nodup_map h.seqs hmem hx hxn)

/-- What the answer to a request does. -/
theorem Accounted.step_answered {v : Value} {seq : Nat} {o : Outcome} (h : r.Accounted)
    (ha : r.bridge.answer? v = some ((seq, k), o)) :
    (r.step (.message v)).bridge =
        { r.bridge.answered seq with intake := (r.bridge.intake.deliver k o).1 } ∧
      (r.step (.message v)).posted = r.posted := by
  obtain ⟨c, hk, _⟩ := h.waits_of_pending (mem_of_answer ha)
  obtain ⟨hb, _, hp⟩ := deliver_of_posted (b := r.bridge.answered seq) hk (h.posted k c hk) o
  constructor
  · show (r.bridge.message v).1 = _
    rw [message_of_answer ha]
    exact hb
  · show r.posted ++ posts (r.bridge.message v).2 = r.posted
    rw [message_of_answer ha, hp, List.append_nil]

theorem Orderly.message (h : r.Orderly) (hr : r.Accounted) (v : Value) :
    (r.step (.message v)).Orderly := by
  cases ha : r.bridge.answer? v with
  | none => rwa [step_message_of_no_answer ha]
  | some x =>
    obtain ⟨⟨seq, k⟩, o⟩ := x
    obtain ⟨c, hk, _⟩ := hr.waits_of_pending (mem_of_answer ha)
    obtain ⟨hchannel, _⟩ := Intake.deliver_spec hk o
    obtain ⟨hbridge, hposted⟩ := hr.step_answered ha
    refine h.lifted rfl rfl hposted ?seq ?queue ?pending ?ended ?alive ?kept <;> rw [hbridge]
    case seq => rfl
    case queue =>
      show Hand.queue (r.bridge.intake.deliver k o).1.channel _ = _
      rw [hchannel]
      rfl
    case pending => exact fun x hx => List.mem_of_mem_filter hx
    case ended => rfl
    case alive => exact h.alive
    case kept => exact Intake.kept_deliver r.bridge.intake k o

/-- The worker is found gone after the forwarding has ended. -/
theorem Orderly.shutdown (h : r.Orderly) (hr : r.Accounted)
    (he : r.bridge.forwarding.isEnded = true) (reason : String) : (r.shutdown reason).Orderly := by
  cases ha : r.bridge.alive with
  | false => rwa [shutdown_of_dead ha]
  | true =>
    obtain ⟨hb, _, hp⟩ := shutdown_of_alive ha hr.posted reason
    have hover : r.bridge.forwarding.hand = .over := by
      rw [Forwarding.isEnded_iff.mp he]
      rfl
    have hbridge : (r.shutdown reason).bridge = (r.bridge.shutdown reason).1 := rfl
    refine h.lifted rfl rfl ?posted ?seq ?queue ?pending ?ended (fun _ => he) ?kept
    case posted =>
      show r.posted ++ posts (r.bridge.shutdown reason).2 = r.posted
      rw [hp, List.append_nil]
    case seq => rw [hbridge, hb]
    case queue =>
      rw [hbridge, hr.queue_shutdown ha, Bridge.queue, Hand.queue, hover,
        (hr.coupled.ended (Or.inl hover)).2]
      rfl
    case pending =>
      rw [hbridge, hb]
      exact fun x hx => by cases hx
    case ended =>
      rw [hbridge, hb]
      exact Forwarding.isEnded_take _ _
    case kept =>
      rw [hbridge, hb]
      exact Intake.kept_dropAll hr.owed_nodup r.bridge.closedIntake

theorem Orderly.step (h : r.Orderly) (hr : r.Accounted) {ev : Event}
    (he : ev.ends = true → r.bridge.forwarding.isEnded = true) : (r.step ev).Orderly := by
  cases ev with
  | send sender uri payload signal => exact h.send hr sender uri payload signal
  | clone sender =>
    exact h.lifted rfl rfl (List.append_nil _) rfl rfl (fun _ hx => hx) rfl h.alive (.refl _)
  | release sender =>
    have hb := Bridge.release_eq r.bridge sender
    have hp : posts (r.bridge.release sender).2 = [] := by simp [Bridge.release]
    have hbridge : (r.step (.release sender)).bridge = (r.bridge.release sender).1 := rfl
    refine h.lifted rfl rfl ?posted ?seq ?queue ?pending ?ended ?alive ?kept
    case posted =>
      show r.posted ++ posts (r.bridge.release sender).2 = r.posted
      rw [hp, List.append_nil]
    case seq => rw [hbridge, hb]
    case queue => rw [hbridge, queue_release hr.coupled]
    case pending =>
      rw [hbridge, hb]
      exact fun _ hx => hx
    case ended =>
      rw [hbridge, hb]
      exact Forwarding.isEnded_take _ _
    case alive =>
      rw [hbridge, hb]
      exact h.alive
    case kept =>
      rw [hbridge, hb]
      exact .refl _
  | abort signal reason =>
    refine h.lifted rfl rfl ?_ rfl (queue_abort r.bridge signal reason) (fun _ hx => hx) rfl h.alive
      (Intake.kept_abort r.bridge.intake signal reason)
    show r.posted ++ posts (r.bridge.abort signal reason).2 = r.posted
    simp [Bridge.abort]
  | forward => exact h.forward hr
  | message v => exact h.message hr v
  | portClosed => exact h.shutdown hr (he rfl) _
  | exited code => exact h.shutdown hr (he rfl) _

theorem called_send (r : Run) (sender : Nat) (uri : String) (payload : Bytes)
    (signal : Option Nat) : r.Called (r.step (.send sender uri payload signal)) := by
  obtain ⟨_, _, hcalls, hfired, _⟩ :=
    Intake.send_spec r.bridge.intake sender (.post uri payload) signal ()
  rw [step_send]
  refine ⟨?_, ?_, Nat.le_refl _, ⟨_, rfl⟩, ?_, ?_⟩ <;> simp only [send_eq]
  · rw [hcalls]
    exact Intake.kept_push _ _
  · intro k slot reading _ hk
    refine hk.congr ?_ hfired
    rw [hcalls, Intake.getElem_push_of_lt hk.size_lt]

theorem called_release (r : Run) (sender : Nat) : r.Called (r.step (.release sender)) := by
  have hb := Bridge.release_eq r.bridge sender
  have hbridge : (r.step (.release sender)).bridge = (r.bridge.release sender).1 := rfl
  refine ⟨?seq, ?pending, ?posted, ⟨[], (List.append_nil _).symm⟩, ?kept, ?rests⟩
  case seq => rw [hbridge, hb]
  case pending => rw [hbridge, hb]
  case posted => exact List.length_append ▸ Nat.le_add_right _ _
  case kept =>
    rw [hbridge, hb]
    exact .refl _
  case rests =>
    rw [hbridge, hb]
    exact fun _ _ _ _ hk => hk

theorem called_abort (r : Run) (signal : Nat) (reason : Value) :
    r.Called (r.step (.abort signal reason)) :=
  ⟨rfl, rfl, List.length_append ▸ Nat.le_add_right _ _, ⟨[], (List.append_nil _).symm⟩,
    Intake.kept_abort r.bridge.intake signal reason,
    fun _ _ _ hr hk => hk.abort hr signal reason⟩

theorem called_clone (r : Run) (sender : Nat) : r.Called (r.step (.clone sender)) :=
  ⟨rfl, rfl, List.length_append ▸ Nat.le_add_right _ _, ⟨[], (List.append_nil _).symm⟩, .refl _,
    fun _ _ _ _ hk => hk⟩

/-- A worker that owes nothing is found gone. -/
theorem Accounted.called_shutdown (h : r.Accounted) (howed : r.bridge.owed = []) (reason : String) :
    r.Called (r.shutdown reason) := by
  cases ha : r.bridge.alive with
  | false =>
    rw [shutdown_of_dead ha]
    exact ⟨rfl, rfl, Nat.le_refl _, ⟨[], (List.append_nil _).symm⟩, .refl _, fun _ _ _ _ hk => hk⟩
  | true =>
    obtain ⟨hb, _⟩ := shutdown_of_alive ha h.posted reason
    have hbridge : (r.shutdown reason).bridge = (r.bridge.shutdown reason).1 := rfl
    have hpending : r.bridge.pending = [] :=
      List.map_eq_nil_iff.mp (List.append_eq_nil_iff.mp howed).2
    rw [howed] at hb
    refine ⟨?seq, ?pending, ?posted, ⟨[], (List.append_nil _).symm⟩, ?kept, ?rests⟩
    case seq => rw [hbridge, hb]
    case pending => rw [hbridge, hb, hpending]
    case posted => exact List.length_append ▸ Nat.le_add_right _ _
    case kept =>
      rw [hbridge, hb]
      exact .refl _
    case rests =>
      rw [hbridge, hb]
      exact fun _ _ _ _ hk => hk.congr rfl rfl

/-- Numbers of requests go up. -/
theorem Accounted.seq_le_step (h : r.Accounted) (ev : Event) :
    r.bridge.seq ≤ (r.step ev).bridge.seq := by
  have hdown : ∀ reason, r.bridge.seq ≤ (r.shutdown reason).bridge.seq := by
    intro reason
    cases ha : r.bridge.alive with
    | false => rw [shutdown_of_dead ha]
    | true =>
      show r.bridge.seq ≤ (r.bridge.shutdown reason).1.seq
      rw [(shutdown_of_alive ha h.posted reason).1]
  cases ev with
  | send sender uri payload signal =>
    exact Nat.le_of_eq (called_send r sender uri payload signal).seq.symm
  | clone sender => exact Nat.le_refl _
  | release sender => exact Nat.le_of_eq (called_release r sender).seq.symm
  | abort signal reason => exact Nat.le_refl _
  | forward =>
    show r.bridge.seq ≤ r.bridge.turn.1.seq
    obtain ht | hf | ⟨k, hf⟩ := r.bridge.turn_cases
    · rw [ht]
    · rw [(turn_handed_none hf).1]
    · obtain ⟨c, uri, payload, hk, hp⟩ := h.held hf
      rw [turn_handed hf hk hp]
      exact Nat.le_succ _
  | message v =>
    cases ha : r.bridge.answer? v with
    | none => rw [step_message_of_no_answer ha]
    | some x =>
      obtain ⟨⟨seq, k⟩, o⟩ := x
      rw [(h.step_answered ha).1]
      exact Nat.le_refl _
  | portClosed => exact hdown _
  | exited code => exact hdown _

end Bridge.Run
end Courier
