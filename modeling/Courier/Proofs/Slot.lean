import Courier.Slot
import Mathlib.Tactic

/-!
Slots with one reader and one writer. A reader that waits does so at an empty slot, and whoever
fills, drops or gives up the slot ends the waiting for good.
-/

namespace Courier.Slot

variable {ρ : Type} {s t u : Slot ρ}

/-- A reader waits at an empty slot only. -/
def Sound (s : Slot ρ) : Prop := s.reader = .waiting → s.state = .empty

/-- The reader stays as it is, or a waiting one settles. -/
def Follows (s t : Slot ρ) : Prop :=
  t.reader = s.reader ∨ (s.reader = .waiting ∧ ∃ r, t.reader = .settled r)

theorem Follows.refl (s : Slot ρ) : s.Follows s := Or.inl rfl

theorem Follows.trans (h : s.Follows t) (h' : t.Follows u) : s.Follows u := by
  rcases h with h | ⟨hw, r, hr⟩
  · rcases h' with h' | ⟨hw, hr⟩
    · exact Or.inl (h'.trans h)
    · exact Or.inr ⟨h ▸ hw, hr⟩
  · rcases h' with h' | ⟨hw', _⟩
    · exact Or.inr ⟨hw, r, h'.trans hr⟩
    · simp [hr] at hw'

theorem Follows.settled (h : s.Follows t) {r : Reading ρ} (hr : s.reader = .settled r) :
    t.reader = .settled r := by
  rcases h with h | ⟨hw, _⟩
  · exact h.trans hr
  · simp [hr] at hw

theorem Follows.waiting (h : s.Follows t) (ht : t.reader = .waiting) : s.reader = .waiting := by
  rcases h with h | ⟨hw, _⟩
  · exact h ▸ ht
  · exact hw

theorem Follows.unread (h : s.Follows t) (hs : s.reader = .unread) : t.reader = .unread := by
  rcases h with h | ⟨hw, _⟩
  · exact h.trans hs
  · simp [hs] at hw

theorem Follows.read (h : s.Follows t) (hs : s.reader ≠ .unread) : t.reader ≠ .unread := by
  rcases h with h | ⟨_, r, hr⟩
  · rwa [h]
  · simp [hr]

theorem settledSince_eq_some {r : Reading ρ} :
    settledSince s t = some r ↔ s.reader = .waiting ∧ t.reader = .settled r := by
  unfold settledSince
  split <;> simp_all

theorem notify_follows (s : Slot ρ) (r : Reading ρ) : s.Follows (s.notify r) := by
  unfold notify
  split
  · exact Or.inr ⟨by assumption, r, rfl⟩
  · exact .refl s

theorem send_follows (s : Slot ρ) (o : ρ) : s.Follows (s.send o).1 := by
  unfold send
  split
  · exact notify_follows { s with state := .sent o } _
  · exact .refl s

theorem drop_follows (s : Slot ρ) : s.Follows s.drop := by
  unfold drop
  split
  · exact notify_follows { s with state := .dropped } _
  · exact .refl s

theorem abort_follows (s : Slot ρ) (reason : Value) : s.Follows (s.abort reason) := by
  unfold abort
  split
  · exact Or.inr ⟨by assumption, _, rfl⟩
  · exact .refl s

theorem sound_new : (new : Slot ρ).Sound := fun _ => rfl

theorem sound_send (h : s.Sound) (o : ρ) : (s.send o).1.Sound := by
  obtain ⟨state, reader⟩ := s
  cases state <;> cases reader <;> simp_all [Sound, send, notify]

theorem sound_drop (h : s.Sound) : s.drop.Sound := by
  obtain ⟨state, reader⟩ := s
  cases state <;> cases reader <;> simp_all [Sound, drop, notify]

theorem sound_abort (h : s.Sound) (reason : Value) : (s.abort reason).Sound := by
  obtain ⟨state, reader⟩ := s
  cases reader <;> simp_all [Sound, abort]

/-- A reader that waits learns what is sent. -/
theorem reader_send (h : s.Sound) (hw : s.reader = .waiting) (o : ρ) :
    (s.send o).1.reader = .settled (.got (some o)) := by
  simp [send, h hw, notify, hw]

theorem reader_drop (h : s.Sound) (hw : s.reader = .waiting) :
    s.drop.reader = .settled (.got none) := by
  simp [drop, h hw, notify, hw]

theorem reader_abort (hw : s.reader = .waiting) (reason : Value) :
    (s.abort reason).reader = .settled (.refused reason) := by
  simp [abort, hw]

/-- Only the signal of a reader refuses. -/
theorem refused_of_send {o : ρ} {reason : Value}
    (h : (s.send o).1.reader = .settled (.refused reason)) :
    s.reader = .settled (.refused reason) := by
  obtain ⟨state, reader⟩ := s
  cases state <;> cases reader <;> simp_all [send, notify]

theorem refused_of_drop {reason : Value} (h : s.drop.reader = .settled (.refused reason)) :
    s.reader = .settled (.refused reason) := by
  obtain ⟨state, reader⟩ := s
  cases state <;> cases reader <;> simp_all [drop, notify]

/-- A slot whose receive has started, with the reason of a signal that has fired already. -/
def opened : Option Value → Slot ρ
  | none => ⟨.empty, .waiting⟩
  | some reason => ⟨.abandoned, .settled (.refused reason)⟩

theorem receive_new (fired : Option Value) :
    (new : Slot ρ).receive fired = (opened fired, fired.map .refused) := by
  cases fired <;> rfl

theorem sound_opened (fired : Option Value) : (opened fired : Slot ρ).Sound := by
  cases fired <;> simp [Sound, opened]

/-- How a receive ends at a slot that is dropped: unless its signal had fired before, with
nothing. -/
def forsaken : Option Value → Reading ρ
  | none => .got none
  | some reason => .refused reason

theorem reader_drop_opened (fired : Option Value) :
    (opened fired : Slot ρ).drop.reader = .settled (forsaken fired) := by
  cases fired <;> rfl

/-- A slot that has been dropped, and whose reader knows. -/
def fallen : Slot ρ := ⟨.dropped, .settled (.got none)⟩

/-- A slot whose outcome has been sent, and whose reader has it. -/
def given (o : ρ) : Slot ρ := ⟨.sent o, .settled (.got (some o))⟩

/-- What the end of a unit does to the slot of its call: it sends the outcome, and a slot that is
still empty is dropped. -/
def concluded (s : Slot ρ) : Attempt ρ → Slot ρ
  | .ok o => (s.send o).1
  | .error _ => s.drop

theorem concluded_follows (s : Slot ρ) (r : Attempt ρ) : s.Follows (s.concluded r) := by
  cases r with
  | ok o => exact send_follows s o
  | error _ => exact drop_follows s

theorem sound_concluded (h : s.Sound) (r : Attempt ρ) : (s.concluded r).Sound := by
  cases r with
  | ok o => exact sound_send h o
  | error _ => exact sound_drop h

theorem refused_of_concluded {r : Attempt ρ} {reason : Value}
    (h : (s.concluded r).reader = .settled (.refused reason)) :
    s.reader = .settled (.refused reason) := by
  cases r with
  | ok o => exact refused_of_send h
  | error _ => exact refused_of_drop h

/-- What a waiting reader learns from the end of a unit. -/
theorem reader_concluded (h : s.Sound) (hw : s.reader = .waiting) (r : Attempt ρ) :
    (s.concluded r).reader = .settled (.got r.toOption) := by
  cases r with
  | ok o => exact reader_send h hw o
  | error _ => exact reader_drop h hw

theorem drop_send (s : Slot ρ) (o : ρ) : (s.send o).1.drop = (s.send o).1 := by
  obtain ⟨state, reader⟩ := s
  cases state <;> cases reader <;> rfl

end Courier.Slot
