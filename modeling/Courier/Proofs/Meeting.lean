import Courier.Proofs.Intake

/-!
A slot over everything that its writer and its reader do, and that signals do meanwhile, in any
order. What the first receive comes to is told from three things alone: how the slot was closed,
which signal the receive was called with, and with what reason that signal fired first.
-/

namespace Courier

namespace Slot

variable {ρ : Type} {s : Slot ρ}

/-- Whether the writer has closed the slot. -/
def State.isAnswered : State ρ → Bool
  | .sent _ | .dropped => true
  | .empty | .abandoned => false

theorem State.isAnswered_eq_false {state : State ρ} :
    state.isAnswered = false ↔ state = .empty ∨ state = .abandoned := by
  cases state <;> simp [isAnswered]

theorem isOpen_eq_true : s.isOpen = true ↔ s.state = .empty := by
  unfold isOpen
  split <;> simp_all

theorem not_isOpen_of_answered (h : s.state.isAnswered = true) : s.isOpen = false := by
  obtain ⟨state, reader⟩ := s
  cases state <;> simp_all [State.isAnswered, isOpen]

theorem state_notify (s : Slot ρ) (reading : Reading ρ) : (s.notify reading).state = s.state := by
  unfold notify
  split <;> rfl

theorem send_of_not_isOpen (h : s.isOpen = false) (o : ρ) : (s.send o).1 = s := by
  unfold isOpen at h
  unfold send
  split <;> simp_all

theorem drop_of_not_isOpen (h : s.isOpen = false) : s.drop = s := by
  unfold isOpen at h
  unfold drop
  split <;> simp_all

theorem abandon_of_not_isOpen (h : s.isOpen = false) : s.abandon = s := by
  unfold isOpen at h
  unfold abandon
  split <;> simp_all

theorem state_abort (h : s.isOpen = false) (reason : Value) : (s.abort reason).state = s.state := by
  unfold abort
  split
  · rw [abandon_of_not_isOpen h]
  · rfl

theorem state_receive (h : s.isOpen = false) (fired : Option Value) :
    (s.receive fired).1.state = s.state := by
  obtain ⟨state, reader⟩ := s
  cases state <;> cases reader <;> cases fired <;> simp_all [receive, abandon, isOpen]

theorem reader_receive (h : s.reader = .unread) (fired : Option Value) :
    (s.receive fired).1.reader = (s.receive fired).2.elim .waiting .settled := by
  obtain ⟨state, reader⟩ := s
  obtain rfl : reader = .unread := h
  cases state <;> cases fired <;> rfl

/-! Only the writer answers -/

theorem answered_abandon (s : Slot ρ) : s.abandon.state.isAnswered = s.state.isAnswered := by
  unfold abandon
  split <;> simp_all [State.isAnswered]

theorem answered_abort (s : Slot ρ) (reason : Value) :
    (s.abort reason).state.isAnswered = s.state.isAnswered := by
  unfold abort
  split
  · exact answered_abandon s
  · rfl

theorem answered_receive (s : Slot ρ) (fired : Option Value) :
    (s.receive fired).1.state.isAnswered = s.state.isAnswered := by
  obtain ⟨state, reader⟩ := s
  cases state <;> cases reader <;> cases fired <;> simp [receive, abandon, State.isAnswered]

end Slot

/-- A slot that is in use, with the signal that its reader listens to and the signals that have
fired, each with its reason. -/
structure Meeting (ρ : Type) where
  slot : Slot ρ
  signal : Option Nat
  fired : List (Nat × Value)

namespace Meeting

variable {ρ : Type}

/-- What is done at a slot. -/
inductive Use (ρ : Type) where
  | send (outcome : ρ)
  | drop
  | receive (signal : Option Nat)
  | abandon
  | abort (signal : Nat) (reason : Value)

namespace Use

/-- The signal that a receive is called with. -/
def received? : Use ρ → Option (Option Nat)
  | .receive signal => some signal
  | _ => none

/-- The reason with which a signal fires. -/
def fires? (signal : Option Nat) : Use ρ → Option Value
  | .abort s reason => if signal = some s then some reason else none
  | _ => none

/-- Whether the writer does it. -/
def isWriting : Use ρ → Bool
  | .send _ | .drop => true
  | _ => false

end Use

def start : Meeting ρ := ⟨.new, none, []⟩

/-- The reason of a signal that has fired. -/
def reason? (m : Meeting ρ) (signal : Option Nat) : Option Value := Signals.reason? m.fired signal

/-- A receive listens to its signal only while it waits. -/
def step (m : Meeting ρ) : Use ρ → Meeting ρ
  | .send o => { m with slot := (m.slot.send o).1 }
  | .drop => { m with slot := m.slot.drop }
  | .receive signal =>
    let (slot, reading) := m.slot.receive (m.reason? signal)
    { m with slot := slot, signal := if reading.isNone then signal else m.signal }
  | .abandon => { m with slot := m.slot.abandon }
  | .abort signal reason =>
    match Signals.fire? m.fired signal reason with
    | none => m
    | some fired =>
      { m with
        fired := fired
        slot := if m.signal = some signal then m.slot.abort reason else m.slot }

def run (uses : List (Use ρ)) : Meeting ρ := uses.foldl step start

/-- Whether the outcome of a send is taken. -/
def takes (m : Meeting ρ) (o : ρ) : Bool := (m.slot.send o).2

theorem takes_eq (m : Meeting ρ) (o : ρ) : m.takes o = m.slot.isOpen := by
  unfold takes Slot.send Slot.isOpen
  split <;> rfl

theorem run_concat (uses : List (Use ρ)) (u : Use ρ) : run (uses ++ [u]) = (run uses).step u := by
  simp [run]

/-! What the uses say by themselves -/

/-- The signal of the first receive. -/
def firstSignal? (uses : List (Use ρ)) : Option (Option Nat) := uses.findSome? Use.received?

/-- The reason with which a signal fires first. -/
def firstReason? (signal : Option Nat) (uses : List (Use ρ)) : Option Value :=
  uses.findSome? (Use.fires? signal)

/-- What the first receive has come to at a slot of some state. -/
def readerOf (state : Slot.State ρ) (uses : List (Use ρ)) : Slot.Reader ρ :=
  match firstSignal? uses, state with
  | none, _ => .unread
  | some _, .sent o => .settled (.got (some o))
  | some _, .dropped => .settled (.got none)
  | some signal, .empty | some signal, .abandoned =>
    (firstReason? signal uses).elim .waiting fun reason => .settled (.refused reason)

/-- A slot that is abandoned is open to its reader: nothing has come. -/
theorem readerOf_abandoned (uses : List (Use ρ)) :
    readerOf (.abandoned : Slot.State ρ) uses = readerOf .empty uses := by
  unfold readerOf
  cases firstSignal? uses <;> rfl

theorem readerOf_unread {state : Slot.State ρ} {uses : List (Use ρ)} :
    readerOf state uses = .unread ↔ firstSignal? uses = none := by
  unfold readerOf
  cases firstSignal? uses with
  | none => simp
  | some signal =>
    cases state with
    | sent | dropped => simp
    | empty | abandoned => cases h : firstReason? signal uses <;> simp [h]

theorem readerOf_waiting {state : Slot.State ρ} {uses : List (Use ρ)} :
    readerOf state uses = .waiting ↔ state.isAnswered = false ∧
      ∃ signal, firstSignal? uses = some signal ∧ firstReason? signal uses = none := by
  unfold readerOf
  cases firstSignal? uses with
  | none => simp
  | some signal =>
    cases state with
    | sent | dropped => simp [Slot.State.isAnswered]
    | empty | abandoned => cases h : firstReason? signal uses <;> simp [h, Slot.State.isAnswered]

theorem readerOf_refused {state : Slot.State ρ} {uses : List (Use ρ)} {reason : Value} :
    readerOf state uses = .settled (.refused reason) ↔ state.isAnswered = false ∧
      ∃ signal, firstSignal? uses = some signal ∧ firstReason? signal uses = some reason := by
  unfold readerOf
  cases firstSignal? uses with
  | none => simp
  | some signal =>
    cases state with
    | sent | dropped => simp [Slot.State.isAnswered]
    | empty | abandoned => cases h : firstReason? signal uses <;> simp [h, Slot.State.isAnswered]

theorem firstSignal_concat (uses : List (Use ρ)) (u : Use ρ) :
    firstSignal? (uses ++ [u]) = (firstSignal? uses).or u.received? := by
  simp only [firstSignal?, List.findSome?_append]
  cases h : u.received? <;> simp [h]

theorem firstReason_concat (signal : Option Nat) (uses : List (Use ρ)) (u : Use ρ) :
    firstReason? signal (uses ++ [u]) = (firstReason? signal uses).or (u.fires? signal) := by
  simp only [firstReason?, List.findSome?_append]
  cases h : u.fires? signal <;> simp [h]

/-- A meeting is as its uses say. -/
structure Agrees (m : Meeting ρ) (uses : List (Use ρ)) : Prop where
  fired : ∀ signal, m.reason? signal = firstReason? signal uses
  reader : m.slot.reader = readerOf m.slot.state uses
  listens : m.slot.reader = .waiting → firstSignal? uses = some m.signal
  /-- The signal of a receive has not fired while the slot is open. -/
  quiet : m.slot.state = .empty →
    ∀ signal, firstSignal? uses = some signal → firstReason? signal uses = none
  /-- A slot is abandoned by its reader or by the signal. -/
  abandoned : m.slot.state = .abandoned → .abandon ∈ uses ∨
    ∃ signal reason, firstSignal? uses = some signal ∧ firstReason? signal uses = some reason

theorem agrees_start : (start : Meeting ρ).Agrees [] where
  fired signal := by cases signal <;> rfl
  reader := rfl
  listens hw := by cases hw
  quiet _ signal hs := by cases hs
  abandoned hs := by cases hs

section

variable {m : Meeting ρ} {uses : List (Use ρ)} {u : Use ρ} {signal : Option Nat}

/-- Uses that say nothing new about a meeting that stays as it is. -/
theorem Agrees.same (h : m.Agrees uses) (hs : firstSignal? (uses ++ [u]) = firstSignal? uses)
    (hr : ∀ signal, firstReason? signal (uses ++ [u]) = firstReason? signal uses) :
    m.Agrees (uses ++ [u]) where
  fired signal := by rw [hr, h.fired]
  reader := by
    rw [h.reader]
    unfold readerOf
    rw [hs]
    simp only [hr]
  listens hw := by rw [hs, h.listens hw]
  quiet ho signal hf := by
    rw [hr]
    exact h.quiet ho signal (hs ▸ hf)
  abandoned ha := by
    rcases h.abandoned ha with hm | ⟨signal, reason, hf, hreason⟩
    · exact Or.inl (List.mem_append_left _ hm)
    · exact Or.inr ⟨signal, reason, hs.trans hf, (hr signal).trans hreason⟩

/-- A use that neither receives nor fires. -/
theorem Agrees.still (h : m.Agrees uses) (hs : u.received? = none)
    (hr : ∀ signal, u.fires? signal = none) : m.Agrees (uses ++ [u]) := by
  apply h.same
  · rw [firstSignal_concat, hs, Option.or_none]
  · intro signal
    rw [firstReason_concat, hr, Option.or_none]

/-- The reader of an open slot waits once it receives. -/
theorem Agrees.reader_open (h : m.Agrees uses) (ho : m.slot.state = .empty) :
    m.slot.reader = if (firstSignal? uses).isSome then .waiting else .unread := by
  rw [h.reader, ho]
  unfold readerOf
  cases hs : firstSignal? uses with
  | none => rfl
  | some signal => simp [h.quiet ho signal hs]

/-- At a slot that its writer has closed nothing but the reader is left to look at. -/
theorem agrees_of_answered (hfired : ∀ signal, m.reason? signal = firstReason? signal uses)
    (ha : m.slot.state.isAnswered = true) (hr : m.slot.reader = readerOf m.slot.state uses) :
    m.Agrees uses where
  fired := hfired
  reader := hr
  listens hw := by
    rw [hr, readerOf_waiting, ha] at hw
    cases hw.1
  quiet ho := by
    rw [ho] at ha
    cases ha
  abandoned ho := by
    rw [ho] at ha
    cases ha

/-- The writer closes an open slot, and a reader that waits learns what it may. -/
theorem Agrees.closed (h : m.Agrees uses) (ho : m.slot.state = .empty) (hs : u.received? = none)
    (hr : ∀ signal, u.fires? signal = none) {state : Slot.State ρ} {reading : Slot.Reading ρ}
    (hread : ∀ uses signal, firstSignal? uses = some signal →
      readerOf state uses = .settled reading) (ha : state.isAnswered = true) :
    ({ m with slot := { m.slot with state := state }.notify reading } : Meeting ρ).Agrees
      (uses ++ [u]) := by
  have hsame : firstSignal? (uses ++ [u]) = firstSignal? uses := by
    rw [firstSignal_concat, hs, Option.or_none]
  have hreader := h.reader_open ho
  apply agrees_of_answered
  · intro signal
    rw [firstReason_concat, hr, Option.or_none, ← h.fired]
    rfl
  · simp only [Slot.state_notify, ha]
  · simp only [Slot.state_notify]
    cases hf : firstSignal? uses with
    | none =>
      rw [hf] at hreader
      simp [Slot.notify, hreader, readerOf, hsame, hf]
    | some signal =>
      rw [hf] at hreader
      simp [Slot.notify, hreader, hread _ signal (hsame.trans hf)]

theorem readerOf_sent (o : ρ) (uses : List (Use ρ)) (signal : Option Nat)
    (h : firstSignal? uses = some signal) :
    readerOf (.sent o) uses = .settled (.got (some o)) := by simp [readerOf, h]

theorem readerOf_dropped (uses : List (Use ρ)) (signal : Option Nat)
    (h : firstSignal? uses = some signal) :
    readerOf (.dropped : Slot.State ρ) uses = .settled (.got none) := by simp [readerOf, h]

theorem Agrees.send (h : m.Agrees uses) (o : ρ) :
    (m.step (.send o)).Agrees (uses ++ [.send o]) := by
  cases ho : m.slot.isOpen with
  | true =>
    rw [Slot.isOpen_eq_true] at ho
    have hc := h.closed (u := .send o) ho rfl (fun _ => rfl) (readerOf_sent o) rfl
    simpa [step, Slot.send, ho] using hc
  | false =>
    have hm : m.step (.send o) = m := by simp only [step, Slot.send_of_not_isOpen ho]
    rw [hm]
    exact h.still rfl fun _ => rfl

theorem Agrees.drop (h : m.Agrees uses) : (m.step .drop).Agrees (uses ++ [.drop]) := by
  cases ho : m.slot.isOpen with
  | true =>
    rw [Slot.isOpen_eq_true] at ho
    have hc := h.closed (u := .drop) ho rfl (fun _ => rfl) readerOf_dropped rfl
    simpa [step, Slot.drop, ho] using hc
  | false =>
    have hm : m.step .drop = m := by simp only [step, Slot.drop_of_not_isOpen ho]
    rw [hm]
    exact h.still rfl fun _ => rfl

theorem Agrees.abandon (h : m.Agrees uses) : (m.step .abandon).Agrees (uses ++ [.abandon]) := by
  have hstill := h.still (u := .abandon) rfl fun _ => rfl
  cases ho : m.slot.isOpen with
  | true =>
    rw [Slot.isOpen_eq_true] at ho
    have hm : m.step .abandon = { m with slot := { m.slot with state := .abandoned } } := by
      simp [step, Slot.abandon, ho]
    rw [hm]
    have hreader := hstill.reader
    rw [ho] at hreader
    exact ⟨hstill.fired, hreader.trans (readerOf_abandoned _).symm, hstill.listens, nofun,
      fun _ => Or.inl (by simp)⟩
  | false =>
    have hm : m.step .abandon = m := by simp only [step, Slot.abandon_of_not_isOpen ho]
    rw [hm]
    exact hstill

/-- A first receive learns what it may at once, gives up at once, or waits. -/
theorem Agrees.firstReceive (h : m.Agrees uses) (hf : firstSignal? uses = none)
    (signal : Option Nat) : (m.step (.receive signal)).Agrees (uses ++ [.receive signal]) := by
  have hunread : m.slot.reader = .unread := by
    rw [h.reader]
    simp [readerOf, hf]
  have hs : firstSignal? (uses ++ [.receive signal]) = some signal := by
    rw [firstSignal_concat, hf]
    rfl
  have hr (s : Option Nat) : firstReason? s (uses ++ [.receive signal]) = firstReason? s uses := by
    rw [firstReason_concat]
    exact Option.or_none
  have hfired (s : Option Nat) :
      m.reason? s = firstReason? s (uses ++ [.receive signal]) := by rw [hr, h.fired]
  cases ho : m.slot.state with
  | sent o =>
    have hm : m.step (.receive signal) =
        { m with slot := ⟨.sent o, .settled (.got (some o))⟩ } := by
      simp [step, Slot.receive, hunread, ho]
    rw [hm]
    exact agrees_of_answered hfired rfl (readerOf_sent o _ signal hs).symm
  | dropped =>
    have hm : m.step (.receive signal) = { m with slot := ⟨.dropped, .settled (.got none)⟩ } := by
      simp [step, Slot.receive, hunread, ho]
    rw [hm]
    exact agrees_of_answered hfired rfl (readerOf_dropped _ signal hs).symm
  | empty | abandoned =>
    cases hreason : m.reason? signal with
    | some reason =>
      have hm : m.step (.receive signal) =
          { m with slot := ⟨.abandoned, .settled (.refused reason)⟩ } := by
        simp [step, Slot.receive, Slot.abandon, hunread, ho, hreason]
      rw [hm]
      rw [hfired] at hreason
      refine ⟨hfired, ?_, nofun, nofun, fun _ => Or.inr ⟨signal, reason, hs, hreason⟩⟩
      simp [readerOf, hs, hreason]
    | none =>
      have hm : m.step (.receive signal) =
          { m with slot := { m.slot with reader := .waiting }, signal := signal } := by
        simp [step, Slot.receive, hunread, ho, hreason]
      rw [hm]
      rw [hfired] at hreason
      refine ⟨hfired, ?_, fun _ => hs, fun _ s hs' => ?_, fun ha => ?_⟩
      · simp [readerOf, ho, hs, hreason]
      · rw [hs, Option.some.injEq] at hs'
        rw [← hs', hreason]
      · rcases h.abandoned ha with hmem | ⟨s, _, hs', _⟩
        · exact Or.inl (List.mem_append_left _ hmem)
        · rw [hf] at hs'
          cases hs'

/-- A later receive changes nothing. -/
theorem Agrees.again (h : m.Agrees uses) {first : Option Nat} (hf : firstSignal? uses = some first)
    (signal : Option Nat) : m.step (.receive signal) = m ∧
      (m.slot.receive (m.reason? signal)).2 = some (.refused Slot.alreadyReceived) := by
  have hread : m.slot.reader ≠ .unread := by
    rw [h.reader, Ne, readerOf_unread, hf]
    exact nofun
  have hreceive : m.slot.receive (m.reason? signal) =
      (m.slot, some (.refused Slot.alreadyReceived)) := by
    unfold Slot.receive
    split
    · contradiction
    · rfl
  simp [step, hreceive]

/-! Signals -/

theorem reason_fired {k : Meeting ρ} {s : Nat} {reason : Value}
    (h : k.fired = m.fired ++ [(s, reason)]) (signal : Option Nat) :
    k.reason? signal = (m.reason? signal).or (if signal = some s then some reason else none) :=
  (congrArg (Signals.reason? · signal) h).trans (Signals.reason_append m.fired s reason signal)

theorem Agrees.receive (h : m.Agrees uses) (signal : Option Nat) :
    (m.step (.receive signal)).Agrees (uses ++ [.receive signal]) := by
  cases hf : firstSignal? uses with
  | none => exact h.firstReceive hf signal
  | some first =>
    rw [(h.again hf signal).1]
    apply h.same
    · rw [firstSignal_concat, hf]
      rfl
    · intro s
      rw [firstReason_concat]
      exact Option.or_none

/-- A signal that fires again changes nothing. -/
theorem Agrees.abortAgain (h : m.Agrees uses) {s : Nat} (hf : m.fired.any (·.1 = s) = true)
    (reason : Value) : (m.step (.abort s reason)).Agrees (uses ++ [.abort s reason]) := by
  have hm : m.step (.abort s reason) = m := by simp [step, Signals.fire?, hf]
  rw [hm]
  apply h.same
  · rw [firstSignal_concat]
    exact Option.or_none
  · intro signal
    rw [firstReason_concat, Use.fires?]
    split
    · rename_i hs
      rw [Signals.any_fired, ← reason?, h.fired, ← hs] at hf
      obtain ⟨first, hfirst⟩ := Option.isSome_iff_exists.mp hf
      rw [hfirst, Option.some_or]
    · exact Option.or_none

/-- What a signal that fires for the first time adds. -/
theorem firstReason_abort {s : Nat} {reason : Value} {first : Option Nat}
    (h : first = some s → firstReason? first uses ≠ none) :
    firstReason? first (uses ++ [.abort s reason]) = firstReason? first uses := by
  rw [firstReason_concat]
  cases hr : firstReason? first uses with
  | some reason => rfl
  | none =>
    have hne : first ≠ some s := fun he => h he hr
    simp [Use.fires?, hne]

/-- A signal fires that no reader listens to. -/
theorem Agrees.elsewhere (h : m.Agrees uses) {s : Nat} (reason : Value)
    (hw : m.slot.reader = .waiting → m.signal ≠ some s) :
    ({ m with fired := m.fired ++ [(s, reason)] } : Meeting ρ).Agrees
      (uses ++ [.abort s reason]) := by
  have hs : firstSignal? (uses ++ [.abort s reason]) = firstSignal? uses := by
    rw [firstSignal_concat]
    exact Option.or_none
  have hkeep (ho : m.slot.state.isAnswered = false) (first : Option Nat)
      (hf : firstSignal? uses = some first) :
      firstReason? first (uses ++ [.abort s reason]) = firstReason? first uses := by
    refine firstReason_abort fun he hr => ?_
    have hwait : m.slot.reader = .waiting := by
      rw [h.reader, readerOf_waiting]
      exact ⟨ho, first, hf, hr⟩
    have hlisten := h.listens hwait
    rw [hf, Option.some.injEq] at hlisten
    exact hw hwait (hlisten ▸ he)
  refine ⟨?fired, ?reader, ?listens, ?quiet, ?abandoned⟩
  case fired =>
    intro signal
    rw [reason_fired rfl, firstReason_concat, h.fired]
    rfl
  case reader =>
    show m.slot.reader = readerOf m.slot.state _
    rw [h.reader]
    unfold readerOf
    rw [hs]
    cases hf : firstSignal? uses with
    | none => rfl
    | some first =>
      cases ho : m.slot.state with
      | sent | dropped => rfl
      | empty | abandoned => simp only [hkeep (by rw [ho]; rfl) first hf]
  case listens =>
    intro hwait
    rw [hs, h.listens hwait]
  case quiet =>
    intro ho first hf
    rw [hs] at hf
    rw [hkeep (by rw [ho]; rfl) first hf]
    exact h.quiet ho first hf
  case abandoned =>
    intro ha
    rcases h.abandoned ha with hm | ⟨first, reason', hf, hreason⟩
    · exact Or.inl (List.mem_append_left _ hm)
    · exact Or.inr ⟨first, reason', hs.trans hf, (hkeep (by rw [ha]; rfl) first hf).trans hreason⟩

/-- The signal fires that the reader listens to. -/
theorem Agrees.refuse (h : m.Agrees uses) {s : Nat} (reason : Value)
    (hw : m.slot.reader = .waiting) (hlisten : m.signal = some s) :
    ({ m with
        fired := m.fired ++ [(s, reason)]
        slot := ⟨.abandoned, .settled (.refused reason)⟩ } : Meeting ρ).Agrees
      (uses ++ [.abort s reason]) := by
  have hs : firstSignal? (uses ++ [.abort s reason]) = some (some s) := by
    rw [firstSignal_concat, h.listens hw, hlisten]
    rfl
  have hr : firstReason? (some s) (uses ++ [.abort s reason]) = some reason := by
    obtain ⟨_, first, hf, hnone⟩ := readerOf_waiting.mp (h.reader.symm.trans hw)
    rw [h.listens hw, hlisten, Option.some.injEq] at hf
    rw [firstReason_concat, hf, hnone]
    simp [Use.fires?, hf]
  refine ⟨fun signal => ?_, ?_, nofun, nofun, fun _ => Or.inr ⟨some s, reason, hs, hr⟩⟩
  · rw [reason_fired rfl, firstReason_concat, h.fired]
    rfl
  · simp [readerOf, hs, hr]

theorem Agrees.abort (h : m.Agrees uses) (s : Nat) (reason : Value) :
    (m.step (.abort s reason)).Agrees (uses ++ [.abort s reason]) := by
  cases hfire : m.fired.any (·.1 = s) with
  | true => exact h.abortAgain hfire reason
  | false =>
    by_cases hw : m.slot.reader = .waiting ∧ m.signal = some s
    · obtain ⟨hw, hlisten⟩ := hw
      have hstate := (readerOf_waiting.mp (h.reader.symm.trans hw)).1
      have hslot : m.slot.abort reason = ⟨.abandoned, .settled (.refused reason)⟩ := by
        rcases Slot.State.isAnswered_eq_false.mp hstate with ho | ho <;>
          simp [Slot.abort, Slot.abandon, hw, ho]
      have hm := h.refuse reason hw hlisten
      simpa [step, Signals.fire?, hfire, hlisten, hslot] using hm
    · have hslot : (if m.signal = some s then m.slot.abort reason else m.slot) = m.slot := by
        split
        · rename_i hlisten
          unfold Slot.abort
          split
          · rename_i hwait
            exact (hw ⟨hwait, hlisten⟩).elim
          · rfl
        · rfl
      have hm := h.elsewhere reason fun hwait hlisten => hw ⟨hwait, hlisten⟩
      simpa [step, Signals.fire?, hfire, hslot] using hm

theorem Agrees.step (h : m.Agrees uses) (u : Use ρ) : (m.step u).Agrees (uses ++ [u]) := by
  cases u with
  | send o => exact h.send o
  | drop => exact h.drop
  | receive signal => exact h.receive signal
  | abandon => exact h.abandon
  | abort s reason => exact h.abort s reason

theorem agrees_run (uses : List (Use ρ)) : (run uses).Agrees uses := by
  induction uses using List.reverseRecOn with
  | nil => exact agrees_start
  | append_singleton uses u ih =>
    rw [run_concat]
    exact ih.step u

/-! What stays -/

/-- A slot that is not open keeps its state. -/
theorem step_state (h : m.slot.isOpen = false) (u : Use ρ) :
    (m.step u).slot.state = m.slot.state := by
  cases u with
  | send o => exact congrArg Slot.state (Slot.send_of_not_isOpen h o)
  | drop => exact congrArg Slot.state (Slot.drop_of_not_isOpen h)
  | receive signal => exact Slot.state_receive h _
  | abandon => exact congrArg Slot.state (Slot.abandon_of_not_isOpen h)
  | abort s reason =>
    simp only [step]
    split
    · rfl
    · dsimp only
      split
      · exact Slot.state_abort h reason
      · rfl

/-- A receive that has ended stays as it is. -/
theorem step_reader {r : Slot.Reading ρ} (h : m.slot.reader = .settled r) (u : Use ρ) :
    (m.step u).slot.reader = .settled r := by
  obtain ⟨⟨state, reader⟩, listening, fired⟩ := m
  obtain rfl : reader = .settled r := h
  cases u with
  | send | drop | abandon => cases state <;> rfl
  | receive signal => rfl
  | abort s reason =>
    simp only [step, Slot.abort]
    repeat' split
    all_goals rfl

/-- Only the writer answers. -/
theorem step_answered (hu : u.isWriting = false) :
    (m.step u).slot.state.isAnswered = m.slot.state.isAnswered := by
  cases u with
  | send | drop => cases hu
  | receive signal => exact Slot.answered_receive m.slot _
  | abandon => exact Slot.answered_abandon m.slot
  | abort s reason =>
    simp only [step]
    split
    · rfl
    · dsimp only
      split
      · exact Slot.answered_abort m.slot reason
      · rfl

/-- What a step keeps, a run keeps. -/
theorem keeps {P : Meeting ρ → Prop} (hstep : ∀ m u, P m → P (m.step u)) {before : List (Use ρ)}
    (h : P (run before)) (after : List (Use ρ)) : P (run (before ++ after)) := by
  induction after using List.reverseRecOn with
  | nil => rwa [List.append_nil]
  | append_singleton after u ih =>
    rw [← List.append_assoc, run_concat]
    exact hstep _ u ih

theorem run_state {state : Slot.State ρ} {before : List (Use ρ)}
    (h : (run before).slot.state = state) (hclosed : state ≠ .empty) (after : List (Use ρ)) :
    (run (before ++ after)).slot.state = state := by
  refine keeps (P := fun m => m.slot.state = state) (fun m u hm => ?_) h after
  have ho : m.slot.isOpen = false := by
    rw [Bool.eq_false_iff, Ne, Slot.isOpen_eq_true, hm]
    exact hclosed
  rw [step_state ho, hm]

theorem run_reader {r : Slot.Reading ρ} {before : List (Use ρ)}
    (h : (run before).slot.reader = .settled r) (after : List (Use ρ)) :
    (run (before ++ after)).slot.reader = .settled r :=
  keeps (P := fun m => m.slot.reader = .settled r) (fun _ u hm => step_reader hm u) h after

/-! The order of the uses -/

variable {before : List (Use ρ)} {reason : Value}

/-- The next use is the one by which the first receive gives up: the signal had fired when it was
called, or fires while it waits, and nothing had been sent or dropped. -/
def GivesUp (before : List (Use ρ)) (reason : Value) : Use ρ → Prop
  | .receive signal => (run before).slot.state.isAnswered = false ∧
      firstSignal? before = none ∧ firstReason? signal before = some reason
  | .abort s fired => (run before).slot.state.isAnswered = false ∧
      firstSignal? before = some (some s) ∧ firstReason? (some s) before = none ∧ fired = reason
  | _ => False

theorem GivesUp.refused (h : GivesUp before reason u) :
    (run (before ++ [u])).slot.reader = .settled (.refused reason) := by
  rw [(agrees_run _).reader, readerOf_refused]
  cases u with
  | receive signal =>
    obtain ⟨ho, hf, hr⟩ := h
    refine ⟨?_, signal, ?_, ?_⟩
    · rw [run_concat, step_answered rfl, ho]
    · rw [firstSignal_concat, hf]
      rfl
    · rw [firstReason_concat, hr]
      rfl
  | abort s fired =>
    obtain ⟨ho, hf, hr, rfl⟩ := h
    refine ⟨?_, some s, ?_, ?_⟩
    · rw [run_concat, step_answered rfl, ho]
    · rw [firstSignal_concat, hf]
      rfl
    · rw [firstReason_concat, hr]
      simp [Use.fires?]
  | send | drop | abandon => exact h.elim

theorem givesUp_of_refused (hn : (run before).slot.reader ≠ .settled (.refused reason))
    (h : (run (before ++ [u])).slot.reader = .settled (.refused reason)) :
    GivesUp before reason u := by
  rw [(agrees_run _).reader, readerOf_refused, firstSignal_concat] at h
  obtain ⟨hs, signal, hf, hr⟩ := h
  rw [run_concat] at hs
  have ho : (run before).slot.state.isAnswered = false := by
    by_contra hc
    rw [Bool.not_eq_false] at hc
    rw [step_state (Slot.not_isOpen_of_answered hc), hc] at hs
    cases hs
  rw [(agrees_run _).reader, Ne, readerOf_refused] at hn
  rw [firstReason_concat] at hr
  cases hb : firstSignal? before with
  | none =>
    rw [hb, Option.none_or] at hf
    cases u with
    | receive =>
      obtain rfl := Option.some.inj hf
      exact ⟨ho, hb, by simpa [Use.fires?] using hr⟩
    | send | drop | abandon | abort => cases hf
  | some first =>
    rw [hb, Option.some_or, Option.some.injEq] at hf
    subst first
    cases hq : firstReason? signal before with
    | some reason' =>
      rw [hq, Option.some_or] at hr
      exact (hn ⟨ho, signal, hb, hq.trans hr⟩).elim
    | none =>
      rw [hq, Option.none_or] at hr
      cases u with
      | abort s fired =>
        simp only [Use.fires?, Option.ite_none_right_eq_some, Option.some.injEq] at hr
        obtain ⟨rfl, rfl⟩ := hr
        exact ⟨ho, hb, hq, rfl⟩
      | send | drop | abandon | receive => cases hr

/-- Whoever has been refused, was so by one of the uses. -/
theorem refused_iff (uses : List (Use ρ)) (reason : Value) :
    (run uses).slot.reader = .settled (.refused reason) ↔
      ∃ before u after, uses = before ++ u :: after ∧ GivesUp before reason u := by
  constructor
  · intro h
    induction uses using List.reverseRecOn with
    | nil => cases h
    | append_singleton uses u ih =>
      by_cases hp : (run uses).slot.reader = .settled (.refused reason)
      · obtain ⟨before, v, after, rfl, hg⟩ := ih hp
        exact ⟨before, v, after ++ [u], by simp, hg⟩
      · exact ⟨uses, u, [], rfl, givesUp_of_refused hp h⟩
  · rintro ⟨before, u, after, rfl, hg⟩
    rw [List.append_cons]
    exact run_reader hg.refused after

/-- A receive that has ended has found the slot closed, or has closed it. -/
theorem not_isOpen_of_settled {r : Slot.Reading ρ} (h : (run before).slot.reader = .settled r) :
    (run before).slot.isOpen = false := by
  rw [Bool.eq_false_iff, Ne, Slot.isOpen_eq_true]
  intro ho
  rw [(agrees_run _).reader_open ho] at h
  split at h <;> cases h

theorem run_send {o : ρ} (h : (run before).slot.isOpen = true) (after : List (Use ρ)) :
    (run (before ++ .send o :: after)).slot.state = .sent o := by
  rw [Slot.isOpen_eq_true] at h
  have hs : (run (before ++ [.send o])).slot.state = .sent o := by
    rw [run_concat]
    simp only [step, Slot.send, h, Slot.state_notify]
  rw [List.append_cons]
  exact run_state hs (by simp) after

theorem run_drop (h : (run before).slot.isOpen = true) (after : List (Use ρ)) :
    (run (before ++ .drop :: after)).slot.state = .dropped := by
  rw [Slot.isOpen_eq_true] at h
  have hs : (run (before ++ [.drop])).slot.state = .dropped := by
    rw [run_concat]
    simp only [step, Slot.drop, h, Slot.state_notify]
  rw [List.append_cons]
  exact run_state hs (by simp) after

/-- Only at a slot that it has abandoned a reader waits once the writer has used it. -/
theorem abandoned_of_waiting (hu : u.isWriting = true) {after : List (Use ρ)}
    (h : (run (before ++ u :: after)).slot.reader = .waiting) : .abandon ∈ before := by
  have hstate := (readerOf_waiting.mp ((agrees_run _).reader.symm.trans h)).1
  cases hb : (run before).slot.state with
  | empty =>
    have ho := Slot.isOpen_eq_true.mpr hb
    cases u with
    | send o =>
      rw [run_send ho] at hstate
      cases hstate
    | drop =>
      rw [run_drop ho] at hstate
      cases hstate
    | receive | abandon | abort => cases hu
  | sent | dropped =>
    rw [run_state hb nofun] at hstate
    cases hstate
  | abandoned =>
    refine ((agrees_run before).abandoned hb).resolve_right ?_
    rintro ⟨signal, reason, hf, hr⟩
    have hrefused : (run before).slot.reader = .settled (.refused reason) := by
      rw [(agrees_run _).reader, hb, readerOf_refused]
      exact ⟨rfl, signal, hf, hr⟩
    rw [run_reader hrefused] at h
    cases h

/-! One outcome -/

/-- The outcome of a receive, if it ends at once. -/
def answer? (m : Meeting ρ) (signal : Option Nat) : Option (Slot.Reading ρ) :=
  (m.slot.receive (m.reason? signal)).2

/-- What can be said about a slot after any uses of it, whatever comes later. -/
structure Decided (before : List (Use ρ)) : Prop where
  /-- The state changes once. -/
  stays : (run before).slot.isOpen = false → ∀ after : List (Use ρ),
    (run (before ++ after)).slot.state = (run before).slot.state
  /-- The outcome that is taken is the one that finds the slot open. It closes the slot. -/
  taken : ∀ o, (run before).takes o = (run before).slot.isOpen
  closes : ∀ o, (run before).takes o = true → ∀ after : List (Use ρ),
    (run (before ++ .send o :: after)).slot.state = .sent o
  /-- One outcome at most is taken. -/
  once : ∀ o, (run before).takes o = true → ∀ (after : List (Use ρ)) p,
    (run (before ++ .send o :: after)).takes p = false
  /-- The first receive resolves with the outcome that was taken. -/
  sent : ∀ o, (run before).takes o = true → ∀ (after : List (Use ρ)) signal,
    firstSignal? (before ++ .send o :: after) = some signal →
      (run (before ++ .send o :: after)).slot.reader = .settled (.got (some o))
  /-- It resolves with nothing once the writer has closed the slot by a drop. -/
  dropped : (run before).slot.isOpen = true → ∀ (after : List (Use ρ)) signal,
    firstSignal? (before ++ .drop :: after) = some signal →
      (run (before ++ .drop :: after)).slot.reader = .settled (.got none)
  /-- It is refused, with the reason of its signal, by giving up and only so. -/
  refused : ∀ reason, (run before).slot.reader = .settled (.refused reason) ↔
    ∃ earlier u after, before = earlier ++ u :: after ∧ GivesUp earlier reason u
  /-- Nothing is taken after that. -/
  late : ∀ reason u, GivesUp before reason u → ∀ (after : List (Use ρ)) o,
    (run (before ++ u :: after)).takes o = false
  /-- It waits after a use by the writer only if the reader had abandoned the slot. -/
  pending : ∀ u : Use ρ, u.isWriting = true → ∀ after : List (Use ρ),
    (run (before ++ u :: after)).slot.reader = .waiting → .abandon ∈ before
  /-- It ends once, at once or later. -/
  first : firstSignal? before = none → ∀ signal,
    (run (before ++ [.receive signal])).slot.reader =
      ((run before).answer? signal).elim .waiting .settled
  ended : ∀ r, (run before).slot.reader = .settled r → ∀ after : List (Use ρ),
    (run (before ++ after)).slot.reader = .settled r
  /-- A later receive is refused and changes nothing. -/
  again : firstSignal? before ≠ none → ∀ signal,
    (run before).answer? signal = some (.refused Slot.alreadyReceived) ∧
      run (before ++ [.receive signal]) = run before

/-- A slot is decided by the first use that ends it, for its writer and for its reader, and never
again. -/
theorem decided_once (before : List (Use ρ)) : Decided before where
  stays h after := by
    refine run_state rfl ?_ after
    rwa [Bool.eq_false_iff, Ne, Slot.isOpen_eq_true] at h
  taken o := takes_eq _ o
  closes o h := run_send (takes_eq _ o ▸ h)
  once o h after p := by
    rw [takes_eq] at h ⊢
    apply Slot.not_isOpen_of_answered
    rw [run_send h]
    rfl
  sent o h after signal hs := by
    rw [takes_eq] at h
    rw [(agrees_run _).reader, run_send h]
    exact readerOf_sent o _ signal hs
  dropped h after signal hs := by
    rw [(agrees_run _).reader, run_drop h]
    exact readerOf_dropped _ signal hs
  refused := refused_iff before
  late reason u h after o := by
    rw [takes_eq, List.append_cons]
    exact not_isOpen_of_settled (run_reader h.refused after)
  pending u hu after h := abandoned_of_waiting hu h
  first h signal := by
    have hunread := (agrees_run before).reader.trans (readerOf_unread.mpr h)
    rw [run_concat]
    exact Slot.reader_receive hunread _
  ended r h := run_reader h
  again h signal := by
    obtain ⟨first, hf⟩ := Option.ne_none_iff_exists'.mp h
    obtain ⟨hm, hanswer⟩ := (agrees_run before).again hf signal
    exact ⟨hanswer, (run_concat before _).trans hm⟩

end

end Meeting
end Courier
