import Courier.Proofs.Channel

/-!
The one task that takes values off a channel. What it holds and what the channel keeps make up one
queue, whichever way a value went to the task.
-/

namespace Courier

/-- How the task stands to its channel. -/
inductive Hand (α : Type) where
  /-- It has not asked yet. -/
  | apart
  | waits
  /-- Its `next` call was answered, at the end of the channel with none. -/
  | holds (value : Option α)
  /-- It does not ask again. -/
  | over

namespace Hand

variable {α : Type} {c : Channel α} {h : Hand α} {sender : Nat} {a : α}

/-- The values taken but not looked at. -/
def values : Hand α → List α
  | .holds (some a) => [a]
  | _ => []

/-- The answer to the waiting `next` call. -/
def take (h : Hand α) (handoff : Option (Channel.Handoff α)) : Hand α :=
  match handoff, h with
  | some handoff, .waits => .holds handoff.value
  | _, h => h

/-- The task after a `next` call. -/
def ofNext : Channel.Next α → Hand α
  | .value a => .holds (some a)
  | .done => .holds none
  | .waits _ => .waits

/-- The values accepted but not looked at, the oldest one first. -/
def queue (c : Channel α) (h : Hand α) : List α := h.values ++ c.live

/-- The task waits where the channel says so, and knows the end only where there is one. -/
structure Coupled (c : Channel α) (h : Hand α) : Prop where
  sound : c.Sound
  waits : h = .waits ↔ c.waiter.isSome
  ended : h = .over ∨ h = .holds none → c.closed = true ∧ c.live = []

@[simp] theorem take_none : h.take none = h := by cases h <;> rfl

theorem take_waits (handoff : Channel.Handoff α) :
    (waits : Hand α).take (some handoff) = .holds handoff.value := rfl

theorem coupled_new : Coupled (Channel.new : Channel α) .apart :=
  ⟨Channel.sound_new, by simp [Channel.new], by simp⟩

@[simp] theorem queue_new : queue (Channel.new : Channel α) .apart = [] := rfl

theorem Coupled.waiter_of_ne (hc : Coupled c h) (hw : h ≠ .waits) : c.waiter = none := by
  cases hs : c.waiter with
  | none => rfl
  | some t => exact (hw (hc.waits.mpr (by simp [hs]))).elim

theorem Coupled.live_of_waits (hc : Coupled c h) (hw : h = .waits) : c.live = [] :=
  hc.sound.live_nil (hc.waits.mp hw)

theorem Coupled.send (hc : Coupled c h) :
    Coupled (c.send sender a).1 (h.take (c.send sender a).2.2) := by
  refine ⟨Channel.sound_send hc.sound, ?_, ?_⟩
  · obtain ⟨_, he⟩ | ⟨_, hw, he⟩ | ⟨t, _, hw, he⟩ := Channel.send_cases c sender a
    · simpa [he] using hc.waits
    · simpa [he] using hc.waits
    · have hh := hc.waits.mpr (by simp [hw])
      simp [he, hh, take]
  · obtain ⟨_, he⟩ | ⟨ho, hw, he⟩ | ⟨t, _, hw, he⟩ := Channel.send_cases c sender a
    · simpa [he] using hc.ended
    · intro hh
      have hcl := (hc.ended (by simpa [he] using hh)).1
      simp [Channel.isClosed, hcl] at ho
    · have hh := hc.waits.mpr (by simp [hw])
      simp [he, hh, take]

/-- An accepted value comes last. -/
theorem Coupled.queue_send (hc : Coupled c h) (ho : c.isClosed sender = false) :
    queue (c.send sender a).1 (h.take (c.send sender a).2.2) = queue c h ++ [a] := by
  have hl := Channel.send_live (a := a) hc.sound ho
  cases hw : c.waiter with
  | none =>
    rw [Channel.send_buffered ho hw] at hl ⊢
    simp only [take_none, queue, List.append_assoc]
    exact congrArg _ (by simpa [Channel.handed] using hl)
  | some t =>
    have hh := hc.waits.mpr (by simp [hw])
    rw [Channel.send_waiting ho hw] at hl ⊢
    rw [hh, take_waits]
    simpa [queue, values, Channel.handed] using hl

theorem Coupled.clone (hc : Coupled c h) : Coupled (c.clone sender).1 h :=
  ⟨Channel.sound_clone hc.sound, hc.waits, hc.ended⟩

theorem Coupled.release (hc : Coupled c h) :
    Coupled (c.release sender).1 (h.take (c.release sender).2) := by
  have hl := Channel.release_live hc.sound sender
  refine ⟨Channel.sound_release hc.sound, ?_, ?_⟩
  · obtain ⟨he, hw⟩ | ⟨t, hw, he, hn, _⟩ := Channel.release_serves hc.sound sender
    · rw [he, hw, take_none]
      exact hc.waits
    · have hh := hc.waits.mpr (by simp [hw])
      simp [he, hn, hh, take]
  · obtain ⟨he, _⟩ | ⟨t, hw, he, _, hcl⟩ := Channel.release_serves hc.sound sender
    · rw [he, take_none]
      intro hh
      have hend := hc.ended hh
      exact ⟨Channel.release_closed_of_closed hc.sound hend.1, hl.trans hend.2⟩
    · have hh := hc.waits.mpr (by simp [hw])
      exact fun _ => ⟨hcl, hl.trans (hc.live_of_waits hh)⟩

theorem Coupled.queue_release (hc : Coupled c h) :
    queue (c.release sender).1 (h.take (c.release sender).2) = queue c h := by
  unfold queue
  rw [Channel.release_live hc.sound]
  obtain ⟨he, _⟩ | ⟨t, hw, he, _⟩ := Channel.release_serves hc.sound sender
  · rw [he, take_none]
  · have hh := hc.waits.mpr (by simp [hw])
    simp [he, hh, take, values]

/-- A `next` call takes nothing out of the queue. -/
theorem coupled_next (hs : c.Sound) (hw : c.waiter = none) :
    Coupled c.next.1 (ofNext c.next.2) ∧ queue c.next.1 (ofNext c.next.2) = c.live := by
  obtain ⟨a, d, he, hl, _, hdw, hd⟩ | ⟨d, he, hl, _, hdl, hdc, hdw, hd⟩ |
    ⟨d, t, he, hl, _, hdl, _, hdw, hd⟩ := Channel.next_cases hs hw
  · rw [he]
    exact ⟨⟨hd, by simp [ofNext, hdw], by simp [ofNext]⟩, hl.symm⟩
  · rw [he]
    exact ⟨⟨hd, by simp [ofNext, hdw], fun _ => ⟨hdc, hdl⟩⟩, by simp [queue, ofNext, values, hl, hdl]⟩
  · rw [he]
    exact ⟨⟨hd, by simp [ofNext, hdw], by simp [ofNext]⟩, by simp [queue, ofNext, values, hl, hdl]⟩

/-- A task that has learned of the end does not ask again. -/
theorem Coupled.finish (hc : Coupled c (.holds none)) : Coupled c .over :=
  ⟨hc.sound, by simp [hc.waiter_of_ne], fun _ => hc.ended (Or.inr rfl)⟩

theorem Coupled.close (hc : Coupled c h) :
    Coupled c.close.1 (h.take c.close.2.2) ∧ c.close.2.1 = c.live ∧
      queue c.close.1 (h.take c.close.2.2) = h.values ∧ c.close.1.closed = true ∧
        c.close.1.live = [] := by
  have hs : c.close.1.Sound := Channel.sound_close
  rw [Channel.close_eq] at hs ⊢
  cases hw : c.waiter with
  | none =>
    have hh : h ≠ .waits := fun hh => by simpa [hw] using hc.waits.mp hh
    exact ⟨⟨hs, by simp [hh], fun _ => ⟨rfl, rfl⟩⟩, rfl, by simp [queue, Channel.live], rfl, rfl⟩
  | some t =>
    have hh := hc.waits.mpr (by simp [hw])
    subst hh
    exact ⟨⟨hs, by simp [take], fun _ => ⟨rfl, rfl⟩⟩, rfl, rfl, rfl, rfl⟩

end Hand
end Courier
