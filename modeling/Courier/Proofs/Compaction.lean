import Courier.Proofs.Queue

/-!
What the buffer of a channel keeps. The values in front of the head were handed out already. They
are dropped when the buffer is drained, and when they are many and make up half of it, so there is
never much more of them than of values that still wait.
-/

namespace Courier.Channel

variable {α : Type} {c : Channel α}

/-- The head stands at a value unless the buffer is fresh, and what it has passed is little, or
less than what is left. -/
structure Compact (c : Channel α) : Prop where
  head : c.head = 0 ∨ c.head < c.buffer.size
  kept : c.head < compactThreshold ∨ 2 * c.head < c.buffer.size

theorem compact_of_head (h : c.head = 0) : c.Compact := ⟨Or.inl h, Or.inl (h ▸ by decide)⟩

/-- A longer buffer behind the same head. -/
theorem Compact.push (h : c.Compact) (a : α) :
    ({ c with buffer := c.buffer.push a } : Channel α).Compact := by
  obtain ⟨hhead, hkept⟩ := h
  have hsize : (c.buffer.push a).size = c.buffer.size + 1 := Array.size_push a
  constructor
  · show c.head = 0 ∨ c.head < (c.buffer.push a).size
    omega
  · show c.head < compactThreshold ∨ 2 * c.head < (c.buffer.push a).size
    omega

theorem Compact.send (h : c.Compact) (sender : Nat) (a : α) : (c.send sender a).1.Compact := by
  obtain ⟨_, he⟩ | ⟨_, _, he⟩ | ⟨t, _, _, he⟩ := send_cases c sender a
  · rwa [he]
  · rw [he]
    exact h.push a
  · rw [he]
    exact ⟨h.head, h.kept⟩

theorem Compact.release (h : c.Compact) (hs : c.Sound) (sender : Nat) :
    (c.release sender).1.Compact := by
  rw [release_eq hs]
  split_ifs <;> exact ⟨h.head, h.kept⟩

/-- Whatever the head had passed, one step past a value leaves little behind. -/
theorem compact_advance (h : c.head < c.buffer.size) : c.advance.Compact := by
  unfold advance
  simp only
  split
  · exact compact_of_head rfl
  · rename_i hlast
    split
    · exact compact_of_head rfl
    · rename_i hlong
      have hhead : c.head + 1 < c.buffer.size := by omega
      have hkept : c.head + 1 < compactThreshold ∨ 2 * (c.head + 1) < c.buffer.size := by
        by_contra hn
        apply hlong
        omega
      exact ⟨Or.inr hhead, hkept⟩

theorem Compact.next (h : c.Compact) : c.next.1.Compact := by
  cases hb : c.buffer[c.head]? with
  | some a =>
    obtain ⟨hlt, -⟩ := Array.getElem?_eq_some_iff.mp hb
    have he : c.next.1 = ({ c with asked := c.asked + 1 } : Channel α).advance := by
      simp [Channel.next, hb]
    rw [he]
    exact compact_advance hlt
  | none =>
    have he : c.next.1.buffer = c.buffer ∧ c.next.1.head = c.head := by
      cases hc : c.closed <;> simp [Channel.next, hb, hc]
    constructor
    · rw [he.1, he.2]
      exact h.head
    · rw [he.1, he.2]
      exact h.kept

theorem Compact.use (h : c.Compact) (hs : c.Sound) (u : Use α) : (c.use u).1.Compact := by
  cases u with
  | send sender a => exact h.send sender a
  | clone sender => exact ⟨h.head, h.kept⟩
  | release sender => exact h.release hs sender
  | next => exact use_next_fst c ▸ h.next
  | close telling =>
    have he : (c.use (.close telling)).1.head = 0 := by simp [Channel.use, close_eq]
    exact compact_of_head he

theorem compact_after (uses : List (Use α)) : (after use (new : Channel α) uses).Compact := by
  induction uses using List.reverseRecOn with
  | nil => exact compact_of_head rfl
  | append_singleton uses u ih => exact after_concat use new uses u ▸ ih.use (sound_after uses) u

/-- A call that finds a value reads it where the head stands; there is nothing to read elsewhere. -/
theorem answers_next_iff (c : Channel α) (t : Nat) (a : α) :
    (t, some a) ∈ (c.use .next).2.answers ↔
      t = c.asked ∧ ∃ h : c.head < c.buffer.size, c.buffer[c.head] = a := by
  rw [← Array.getElem?_eq_some_iff]
  cases hb : c.buffer[c.head]? with
  | some b => simp [use, next, hb, eq_comm]
  | none => cases hc : c.closed <;> simp [use, next, hb, hc]

/-- What may be said of the buffer of a channel at any time. -/
structure Bounded (c : Channel α) : Prop where
  head : c.head = 0 ∨ c.head < c.buffer.size
  /-- A drained channel keeps nothing. -/
  drained : c.live = [] → c.buffer = #[] ∧ c.head = 0
  kept : c.head < 1024 ∨ 2 * c.head < c.buffer.size
  /-- The buffer holds what was handed out and is still kept, and what waits. -/
  size : c.buffer.size = c.head + c.live.length
  garbage : c.head ≤ max 1023 c.live.length
  /-- A `next` call reads one value at most, at a place within the buffer, and finds one for as long
  as a value waits. -/
  reads (t : Nat) (a : α) : (t, some a) ∈ (c.use .next).2.answers ↔
    t = c.asked ∧ ∃ h : c.head < c.buffer.size, c.buffer[c.head] = a
  finds : c.live ≠ [] → c.head < c.buffer.size

theorem Compact.bounded (h : c.Compact) : c.Bounded := by
  have hlive : c.live.length = c.buffer.size - c.head := by simp [live]
  have hhead := h.head
  have hkept : c.head < 1024 ∨ 2 * c.head < c.buffer.size := h.kept
  refine ⟨hhead, fun hnil => ?_, hkept, by omega, by omega, answers_next_iff c, fun hne => ?_⟩
  · have hzero : c.live.length = 0 := by simp [hnil]
    exact ⟨Array.eq_empty_of_size_eq_zero (by omega), by omega⟩
  · have hpos : 0 < c.live.length := List.length_pos_iff.mpr hne
    omega

/-- However a channel is used, what its buffer keeps of the values that were handed out is bounded
by a constant and by what waits. -/
theorem garbage_bounded (uses : List (Use α)) : (after use (new : Channel α) uses).Bounded :=
  (compact_after uses).bounded

end Courier.Channel
