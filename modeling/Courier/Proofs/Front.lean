import Courier.Proofs.Embedded
import Courier.Proofs.Posting

/-!
What callers have made of a transport: who may send, what was sent and which calls were accepted.
This does not depend on where the client runs, and nobody but the callers changes it.
-/

namespace Courier

/-- The side of a transport that takes requests. -/
structure Front where
  gate : Channel.Gate
  /-- What every call has sent. -/
  parcels : Array Parcel
  accepted : List Nat
  refused : List Nat

/-- What a deed does to it. -/
def Front.act (f : Front) : Deed → Front
  | .clone sender => { f with gate := f.gate.clone sender }
  | .release sender => { f with gate := f.gate.release sender }
  | .abort _ _ => f
  | .send sender uri payload _ =>
    { f with
      parcels := f.parcels.push (.request (Request.post uri payload).toValue)
      accepted := f.accepted ++ if f.gate.isClosed sender then [] else [f.parcels.size]
      refused := f.refused ++ if f.gate.isClosed sender then [f.parcels.size] else [] }

/-- At most one call is accepted, the newest one. -/
theorem Front.accepted_act {f : Front} {deed : Deed} {j k : Nat}
    (h : (f.act deed).accepted[j]? = some k) : f.accepted[j]? = some k ∨
      j = f.accepted.length ∧ k = f.parcels.size ∧ ∃ sender uri payload signal,
        deed = .send sender uri payload signal ∧ f.gate.isClosed sender = false := by
  cases deed with
  | send sender uri payload signal =>
    simp only [act] at h
    cases hc : f.gate.isClosed sender with
    | true =>
      rw [hc, if_pos rfl, List.append_nil] at h
      exact Or.inl h
    | false =>
      rw [hc, if_neg Bool.false_ne_true, List.getElem?_append] at h
      split at h
      · exact Or.inl h
      · rename_i hj
        obtain ⟨hlt, hk⟩ := List.getElem?_eq_some_iff.mp h
        have hone : j - f.accepted.length < 1 := hlt
        refine Or.inr ⟨by omega, ?_, sender, uri, payload, signal, rfl, hc⟩
        rw [← hk, List.getElem_singleton]
  | clone | release | abort => exact Or.inl h

namespace Embedded

variable {e : Embedded}

def front (e : Embedded) : Front :=
  ⟨e.channel.gate, e.inner.dispatch.intake.calls.map (·.parcel), e.inner.accepted.map (·.1),
    e.refused⟩

theorem Sound.front_perform (h : e.Sound) (deed : Deed) :
    (e.perform deed).front = e.front.act deed := by
  have hc := h.settling.ordered.sound.coupled.sound
  cases deed with
  | clone sender =>
    simp only [front, channel, Embedded.perform, refusal, Deed.event, Pipeline.Run.step,
      Pipeline.Run.lift_intake, List.append_nil]
    rfl
  | release sender =>
    simp only [front, channel, Embedded.perform, refusal, Deed.event, Pipeline.Run.step,
      Pipeline.Run.lift_intake, Dispatch.release_eq, List.append_nil, Channel.gate_release hc]
    rfl
  | abort signal reason =>
    obtain ⟨hchannel, _, hsize⟩ := Intake.abort_spec e.inner.dispatch.intake signal reason
    have hparcels := (Intake.kept_abort e.inner.dispatch.intake signal reason).map_parcel hsize
    simp only [front, channel, Embedded.perform, refusal, Deed.event, Pipeline.Run.step,
      Pipeline.Run.lift_intake, Dispatch.abort, List.append_nil, hchannel, hparcels]
    rfl
  | send sender uri payload signal =>
    have ha := Dispatch.arrived_send e.inner.dispatch sender (.post uri payload) signal
    have hr := refusal_send e sender uri payload signal
    simp only [front, channel, Embedded.perform, hr, Deed.event, Pipeline.Run.step,
      Pipeline.Run.lift_intake, ha.channel, ha.calls, Channel.gate_send, Array.map_push,
      Intake.sent_parcel, Pipeline.Run.lift_accepted, Pipeline.Run.note, Dispatch.send_accepted,
      Front.act, Array.size_map, List.map_append]
    congr 2
    show _ = if e.inner.dispatch.intake.channel.isClosed sender then _ else _
    cases e.inner.dispatch.intake.channel.isClosed sender <;> rfl

theorem front_start (fired : List (Nat × Value)) :
    (start fired).front = ⟨(Channel.new : Channel Nat).gate, #[], [], []⟩ := by
  have hcalls : (start fired).inner.dispatch.intake.calls = #[] := rfl
  simp only [front, hcalls, Array.map_empty]
  rfl

theorem Sound.front_move (h : e.Sound) (m : Move) : (e.step (.move m)).front = e.front := by
  have hs := h.settling.ordered.sound
  have hparcels := (Dispatch.move_kept hs m).map_parcel (Dispatch.move_size hs m)
  simp only [front, channel, Embedded.step, Pipeline.Run.step, Pipeline.Run.lift_intake,
    Dispatch.move_gate hs, hparcels]
  rfl

end Embedded

/-- The owner's part of a deed. -/
def Deed.owned : Deed → Bridge.Event
  | .clone sender => .clone sender
  | .send sender uri payload signal => .send sender uri payload signal
  | .release sender => .release sender
  | .abort signal reason => .abort signal reason

namespace Bridge.Run

variable {r : Run}

def front (r : Run) : Front :=
  ⟨r.bridge.intake.channel.gate, r.bridge.intake.calls.map (·.parcel), r.accepted, r.refused⟩

theorem front_start (fired : List (Nat × Value)) :
    (start fired).front = ⟨(Channel.new : Channel Nat).gate, #[], [], []⟩ := by
  simp only [front, start, Bridge.start]
  rw [takeNext_eq]
  simp only [asking, Channel.gate_next, Intake.new, Array.map_empty]

theorem Accounted.front_step (h : r.Accounted) (deed : Deed) :
    (r.step deed.owned).front = r.front.act deed := by
  have hc := h.coupled.sound
  cases deed with
  | clone sender => rfl
  | release sender =>
    have hb : (r.step (.release sender)).bridge = (r.bridge.release sender).1 := rfl
    simp only [front, Deed.owned, hb, release_eq, Channel.gate_release hc]
    rfl
  | abort signal reason =>
    obtain ⟨hchannel, _, hsize⟩ := Intake.abort_spec r.bridge.intake signal reason
    have hparcels := (Intake.kept_abort r.bridge.intake signal reason).map_parcel hsize
    have hb : (r.step (.abort signal reason)).bridge.intake =
      (r.bridge.intake.abort signal reason).1 := rfl
    simp only [front, Deed.owned, hb, hchannel, hparcels]
    rfl
  | send sender uri payload signal =>
    obtain ⟨hchannel, _, hcalls, _⟩ :=
      Intake.send_spec r.bridge.intake sender (.post uri payload) signal ()
    simp only [front, Deed.owned, step_send, send_eq, hchannel, hcalls, Channel.gate_send,
      Array.map_push, Intake.sent_parcel, Front.act, Array.size_map]
    rfl

theorem Accounted.front_forward (h : r.Accounted) : (r.step .forward).front = r.front := by
  show (⟨r.bridge.turn.1.intake.channel.gate, r.bridge.turn.1.intake.calls.map (·.parcel),
    r.accepted, r.refused⟩ : Front) = r.front
  obtain ht | hf | ⟨k, hf⟩ := r.bridge.turn_cases
  · rw [ht]
    rfl
  · rw [(turn_handed_none hf).1]
    rfl
  · obtain ⟨c, uri, payload, hk, hp⟩ := h.held hf
    rw [turn_handed hf hk hp]
    simp only [asking, Channel.gate_next]
    rfl

theorem Accounted.front_message (h : r.Accounted) (v : Value) :
    (r.step (.message v)).front = r.front := by
  cases ha : r.bridge.answer? v with
  | none => rw [step_message_of_no_answer ha]
  | some x =>
    obtain ⟨⟨seq, k⟩, o⟩ := x
    obtain ⟨c, hk, _⟩ := h.waits_of_pending (mem_of_answer ha)
    obtain ⟨hchannel, _, hsize, _⟩ := Intake.deliver_spec hk o
    have hparcels := (Intake.kept_deliver r.bridge.intake k o).map_parcel hsize
    simp only [front, (h.step_answered ha).1, hchannel, hparcels]
    rfl

/-- Finding the worker gone refuses nobody if the channel was closed before. -/
theorem Accounted.front_shutdown (h : r.Accounted) (hc : r.bridge.intake.channel.closed = true)
    (reason : String) : (r.shutdown reason).front = r.front := by
  cases ha : r.bridge.alive with
  | false => rw [shutdown_of_dead ha]
  | true =>
    obtain ⟨hb, _⟩ := shutdown_of_alive ha h.posted reason
    obtain ⟨hchannel, _, _, hsize, _⟩ := Intake.dropAll_spec h.owed_nodup r.bridge.closedIntake
    have hparcels := (Intake.kept_dropAll h.owed_nodup r.bridge.closedIntake).map_parcel hsize
    have hgate : r.bridge.intake.channel.close.1.gate = r.bridge.intake.channel.gate := by
      rw [Channel.close_eq, Channel.gate, Channel.gate, hc]
    have hbridge : (r.shutdown reason).bridge = (r.bridge.shutdown reason).1 := rfl
    simp only [front, hbridge, hb, hchannel, hparcels]
    exact congrArg (fun gate => (⟨gate, _, _, _⟩ : Front)) hgate

end Bridge.Run
end Courier
