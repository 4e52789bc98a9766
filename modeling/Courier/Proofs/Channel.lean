import Courier.Channel
import Mathlib.Tactic

/-!
Channels as queues. `live` is the queue behind the head and the waiting call: a send appends to
it, a `next` call takes from its front, a release leaves it alone.
-/

namespace Courier.Channel

variable {α : Type} {c : Channel α} {sender : Nat} {a : α}

/-- The head stays within the buffer, and a call waits only where there is nothing to hand out and
more may come. -/
structure Sound (c : Channel α) : Prop where
  head_le : c.head ≤ c.buffer.size
  live_nil : c.waiter.isSome → c.live = []
  opened : c.waiter.isSome → c.closed = false

/-- The value that a served call gets, if any. -/
def handed (handoff : Option (Handoff α)) : List α := (handoff.bind (·.value)).toList

theorem sound_new : (new : Channel α).Sound := ⟨Nat.le_refl _, by simp [new], by simp [new]⟩

@[simp] theorem live_new : (new : Channel α).live = [] := rfl

/-- Without a waiting call only the place of the head matters. -/
theorem Sound.of_idle (hb : c.head ≤ c.buffer.size) (hw : c.waiter = none) : c.Sound :=
  ⟨hb, by simp [hw], by simp [hw]⟩

/-- What decides whether a send is accepted: the senders, and whether the channel is closed. -/
structure Gate where
  released : Array Bool
  producers : Nat
  closed : Bool

def gate (c : Channel α) : Gate := ⟨c.released, c.producers, c.closed⟩

def Gate.isClosed (g : Gate) (sender : Nat) : Bool := g.released[sender]?.getD true || g.closed

def Gate.clone (g : Gate) (sender : Nat) : Gate :=
  ⟨g.released.push (g.isClosed sender),
    if g.isClosed sender then g.producers else g.producers + 1, g.closed⟩

/-- The last release closes. -/
def Gate.release (g : Gate) (sender : Nat) : Gate :=
  if g.released[sender]?.getD true then g
  else ⟨g.released.setIfInBounds sender true, g.producers - 1, g.closed || g.producers - 1 = 0⟩

theorem isClosed_of_gate {β : Type} {d : Channel β} (h : c.gate = d.gate) (sender : Nat) :
    c.isClosed sender = d.isClosed sender := congrArg (Gate.isClosed · sender) h

theorem closed_of_gate {β : Type} {d : Channel β} (h : c.gate = d.gate) : c.closed = d.closed :=
  congrArg Gate.closed h

/-! Sending -/

theorem send_refused (h : c.isClosed sender = true) : c.send sender a = (c, false, none) := by
  simp [send, h]

theorem send_waiting {t : Nat} (h : c.isClosed sender = false) (hw : c.waiter = some t) :
    c.send sender a = ({ c with waiter := none }, true, some ⟨t, some a⟩) := by
  simp [send, h, hw]

theorem send_buffered (h : c.isClosed sender = false) (hw : c.waiter = none) :
    c.send sender a = ({ c with buffer := c.buffer.push a }, true, none) := by
  simp [send, h, hw]

/-- A send is refused, serves the waiting call or goes into the buffer. -/
theorem send_cases (c : Channel α) (sender : Nat) (a : α) :
    (c.isClosed sender = true ∧ c.send sender a = (c, false, none)) ∨
      (c.isClosed sender = false ∧ c.waiter = none ∧
        c.send sender a = ({ c with buffer := c.buffer.push a }, true, none)) ∨
      ∃ t, c.isClosed sender = false ∧ c.waiter = some t ∧
        c.send sender a = ({ c with waiter := none }, true, some ⟨t, some a⟩) := by
  rcases Bool.eq_false_or_eq_true (c.isClosed sender) with hc | hc
  · exact Or.inl ⟨hc, send_refused hc⟩
  · rcases Option.eq_none_or_eq_some c.waiter with hw | ⟨t, hw⟩
    · exact Or.inr (Or.inl ⟨hc, hw, send_buffered hc hw⟩)
    · exact Or.inr (Or.inr ⟨t, hc, hw, send_waiting hc hw⟩)

@[simp] theorem send_accepted : (c.send sender a).2.1 = !c.isClosed sender := by
  obtain ⟨hc, h⟩ | ⟨hc, _, h⟩ | ⟨t, hc, _, h⟩ := send_cases c sender a <;> simp [h, hc]

@[simp] theorem send_closed : (c.send sender a).1.closed = c.closed := by
  obtain ⟨_, h⟩ | ⟨_, _, h⟩ | ⟨t, _, _, h⟩ := send_cases c sender a <;> rw [h]

@[simp] theorem gate_send : (c.send sender a).1.gate = c.gate := by
  obtain ⟨_, h⟩ | ⟨_, _, h⟩ | ⟨t, _, _, h⟩ := send_cases c sender a <;> rw [h] <;> rfl

theorem sound_send (h : c.Sound) : (c.send sender a).1.Sound := by
  obtain ⟨_, he⟩ | ⟨_, hw, he⟩ | ⟨t, _, _, he⟩ := send_cases c sender a
  · rwa [he]
  · rw [he]
    exact .of_idle (by simpa using Nat.le_succ_of_le h.head_le) hw
  · rw [he]
    exact .of_idle h.head_le rfl

/-- An accepted value comes last, behind what is live. -/
theorem send_live (h : c.Sound) (hc : c.isClosed sender = false) :
    handed (c.send sender a).2.2 ++ (c.send sender a).1.live = c.live ++ [a] := by
  cases hw : c.waiter with
  | some t =>
    have hl : c.live = [] := h.live_nil (by simp [hw])
    rw [send_waiting hc hw, hl]
    simpa [handed, live] using hl
  | none =>
    have hb : c.head ≤ c.buffer.toList.length := by simpa using h.head_le
    rw [send_buffered hc hw]
    simp [handed, live, List.drop_append_of_le_length hb]

/-! Senders -/

@[simp] theorem clone_live : (c.clone sender).1.live = c.live := rfl

@[simp] theorem clone_closed : (c.clone sender).1.closed = c.closed := rfl

@[simp] theorem clone_waiter : (c.clone sender).1.waiter = c.waiter := rfl

/-- New senders are numbered. -/
theorem clone_eq_of_gate {β : Type} {d : Channel β} (h : c.gate = d.gate) (sender : Nat) :
    (c.clone sender).2 = (d.clone sender).2 := congrArg (·.released.size) h

theorem sound_clone (h : c.Sound) : (c.clone sender).1.Sound := ⟨h.head_le, h.live_nil, h.opened⟩

/-- Releasing the last sender closes the channel and serves the waiting call. -/
theorem release_eq (h : c.Sound) (sender : Nat) : c.release sender =
    if c.isReleased sender then (c, none)
    else if c.producers - 1 = 0 then
      ({ c with
          released := c.released.setIfInBounds sender true
          producers := c.producers - 1
          closed := true
          waiter := none }, c.waiter.map fun t => ⟨t, none⟩)
    else
      ({ c with
          released := c.released.setIfInBounds sender true
          producers := c.producers - 1 }, none) := by
  unfold release
  split
  · rfl
  · simp only
    split
    · cases hw : c.waiter with
      | none => split <;> simp [serve]
      | some t =>
        have hl : c.buffer.size - c.head = 0 := by
          simpa [live, Nat.sub_eq_zero_iff_le] using h.live_nil (by simp [hw])
        simp [size, serve, hl]
    · rfl

@[simp] theorem release_live (h : c.Sound) (sender : Nat) : (c.release sender).1.live = c.live := by
  rw [release_eq h]
  split_ifs <;> rfl

theorem sound_release (h : c.Sound) : (c.release sender).1.Sound := by
  rw [release_eq h]
  split_ifs
  · exact h
  · exact .of_idle h.head_le rfl
  · exact ⟨h.head_le, h.live_nil, h.opened⟩

theorem release_closed_of_closed (h : c.Sound) (hc : c.closed = true) :
    (c.release sender).1.closed = true := by
  rw [release_eq h]
  split_ifs <;> simp [hc]

theorem gate_release (h : c.Sound) (sender : Nat) :
    (c.release sender).1.gate = c.gate.release sender := by
  rw [release_eq h]
  cases hr : c.isReleased sender with
  | true => simp_all [Gate.release, gate, isReleased]
  | false =>
    by_cases hp : c.producers - 1 = 0 <;> simp_all [Gate.release, gate, isReleased]

/-- A release serves the waiting call with the end of the channel, or leaves it waiting. -/
theorem release_serves (h : c.Sound) (sender : Nat) :
    ((c.release sender).2 = none ∧ (c.release sender).1.waiter = c.waiter) ∨
      ∃ t, c.waiter = some t ∧ (c.release sender).2 = some ⟨t, none⟩ ∧
        (c.release sender).1.waiter = none ∧ (c.release sender).1.closed = true := by
  rw [release_eq h]
  split_ifs
  · exact Or.inl ⟨rfl, rfl⟩
  · cases c.waiter with
    | none => exact Or.inl ⟨rfl, rfl⟩
    | some t => exact Or.inr ⟨t, rfl, rfl, rfl, rfl⟩
  · exact Or.inl ⟨rfl, rfl⟩

/-! Taking -/

theorem live_advance (c : Channel α) : c.advance.live = c.live.tail := by
  unfold advance
  simp only
  split
  · rename_i he
    simp [live, he]
  · split
    · simp [live]
    · simp [live]

theorem head_advance (h : c.head < c.buffer.size) :
    c.advance.head ≤ c.advance.buffer.size := by
  unfold advance
  simp only
  split
  · exact Nat.le_refl _
  · split
    · exact Nat.zero_le _
    · exact h

/-- The buffer and the head move, and nothing else does. -/
theorem advance_eq (c : Channel α) :
    c.advance = { c with buffer := c.advance.buffer, head := c.advance.head } := by
  unfold advance
  simp only
  split
  · rfl
  · split <;> rfl

theorem advance_closed : c.advance.closed = c.closed := by rw [advance_eq]

theorem advance_waiter : c.advance.waiter = c.waiter := by rw [advance_eq]

theorem gate_advance : c.advance.gate = c.gate := by
  rw [advance_eq]
  rfl

@[simp] theorem gate_next : c.next.1.gate = c.gate := by
  unfold next
  simp only
  split
  · exact gate_advance
  · split <;> rfl

/-- A `next` call takes the first live value, learns of the end or waits. -/
theorem next_cases (h : c.Sound) (hw : c.waiter = none) :
    (∃ a d, c.next = (d, .value a) ∧ c.live = a :: d.live ∧ d.closed = c.closed ∧
        d.waiter = none ∧ d.Sound) ∨
      (∃ d, c.next = (d, .done) ∧ c.live = [] ∧ c.closed = true ∧ d.live = [] ∧ d.closed = true ∧
        d.waiter = none ∧ d.Sound) ∨
      ∃ d t, c.next = (d, .waits t) ∧ c.live = [] ∧ c.closed = false ∧ d.live = [] ∧
        d.closed = false ∧ d.waiter = some t ∧ d.Sound := by
  cases hb : c.buffer[c.head]? with
  | some a =>
    obtain ⟨hlt, ha⟩ := Array.getElem?_eq_some_iff.mp hb
    let asked : Channel α := { c with asked := c.asked + 1 }
    have hlive : c.live = a :: asked.advance.live := by
      rw [live_advance asked]
      have hlt' : c.head < c.buffer.toList.length := by simpa using hlt
      simp [asked, live, List.drop_eq_getElem_cons hlt', ha]
    refine Or.inl ⟨a, asked.advance, by simp [next, hb, asked], hlive, advance_closed, ?_, ?_⟩
    · exact advance_waiter.trans hw
    · exact .of_idle (head_advance (c := asked) hlt) (advance_waiter.trans hw)
  | none =>
    have hl : c.live = [] := by simpa [live] using hb
    cases hc : c.closed with
    | true =>
      refine Or.inr (Or.inl ⟨{ c with asked := c.asked + 1 }, ?_, hl, rfl, hl, hc, hw, ?_⟩)
      · simp [next, hb, hc]
      · exact .of_idle h.head_le hw
    | false =>
      refine Or.inr (Or.inr ⟨{ c with asked := c.asked + 1, waiter := some c.asked }, c.asked, ?_,
        hl, rfl, hl, hc, rfl, ?_⟩)
      · simp [next, hb, hc]
      · exact ⟨h.head_le, fun _ => hl, fun _ => hc⟩

/-! Closing -/

theorem close_eq : c.close =
    ({ c with closed := true, buffer := #[], head := 0, waiter := none }, c.live,
      c.waiter.map fun t => ⟨t, none⟩) := by
  cases hw : c.waiter <;> simp [close, serve, hw]

theorem sound_close : c.close.1.Sound := by
  rw [close_eq]
  exact .of_idle (Nat.le_refl _) rfl

end Courier.Channel
