import Courier.Proofs.Channel

/-!
Channels as plain queues. Whatever its users do, a channel reports to them what a list of values
would report, with a gate for the senders and the ticket of the newest waiting call beside it:
neither the head nor the compaction of the buffer nor the way past the buffer shows. Every accepted
value is handed out once and in order, or removed when the receiver closes, or still there.
-/

namespace Courier.Channel

variable {α σ : Type}

theorem Gate.closed_release {g : Gate} (h : g.closed = true) (sender : Nat) :
    (g.release sender).closed = true := by
  unfold Gate.release
  split <;> simp [h]

theorem Gate.open_of_isClosed {g : Gate} {sender : Nat} (h : g.isClosed sender = false) :
    g.closed = false := by
  simp only [Gate.isClosed, Bool.or_eq_false_iff] at h
  exact h.2

/-- What the users of a channel do with it. -/
inductive Use (α : Type) where
  | send (sender : Nat) (a : α)
  | clone (sender : Nat)
  | release (sender : Nat)
  | next
  /-- The receiver closes, also by ending its iteration. Somebody may be told what it drops. -/
  | close (telling : Bool)

/-- What comes of one use. -/
structure Report (α : Type) where
  accepted : List α := []
  /-- The number of a new sender. -/
  copy : Option Nat := none
  /-- The `next` calls that were answered, at the end of the channel with none. -/
  answers : List (Nat × Option α) := []
  /-- The values that were dropped, and those among them that somebody was told of. -/
  removed : List α := []
  told : List α := []

def answers (handoff : Option (Handoff α)) : List (Nat × Option α) :=
  (handoff.map fun h => (h.ticket, h.value)).toList

def use (c : Channel α) : Use α → Channel α × Report α
  | .send sender a =>
    let (d, accepted, handoff) := c.send sender a
    (d, { accepted := if accepted then [a] else [], answers := answers handoff })
  | .clone sender =>
    let (d, copy) := c.clone sender
    (d, { copy := some copy })
  | .release sender =>
    let (d, handoff) := c.release sender
    (d, { answers := answers handoff })
  | .next =>
    match c.next with
    | (d, .value a) => (d, { answers := [(c.asked, some a)] })
    | (d, .done) => (d, { answers := [(c.asked, none)] })
    | (d, .waits _) => (d, {})
  | .close telling =>
    let (d, dropped, handoff) := c.close
    (d, { answers := answers handoff, removed := dropped, told := if telling then dropped else [] })

/-- The state after some uses. -/
def after (use : σ → Use α → σ × Report α) (s : σ) (uses : List (Use α)) : σ :=
  uses.foldl (fun s u => (use s u).1) s

/-- What comes of each use, in order. -/
def reports (use : σ → Use α → σ × Report α) : σ → List (Use α) → List (Report α)
  | _, [] => []
  | s, u :: uses => (use s u).2 :: reports use (use s u).1 uses

/-- The answers to `next` calls, in the order in which they were given. -/
def answered (rs : List (Report α)) : List (Nat × Option α) := rs.flatMap (·.answers)

/-- The values handed to `next` calls, in the order in which they were handed out. -/
def handedOut (rs : List (Report α)) : List α := (answered rs).filterMap (·.2)

def accepted (rs : List (Report α)) : List α := rs.flatMap (·.accepted)

def removed (rs : List (Report α)) : List α := rs.flatMap (·.removed)

section
variable {rs : List (Report α)} {r : Report α}

@[simp] theorem answered_concat : answered (rs ++ [r]) = answered rs ++ r.answers := by
  simp [answered]

@[simp] theorem handedOut_concat :
    handedOut (rs ++ [r]) = handedOut rs ++ r.answers.filterMap (·.2) := by
  simp [handedOut]

@[simp] theorem accepted_concat : accepted (rs ++ [r]) = accepted rs ++ r.accepted := by
  simp [accepted]

@[simp] theorem removed_concat : removed (rs ++ [r]) = removed rs ++ r.removed := by
  simp [removed]

end

theorem after_concat (use : σ → Use α → σ × Report α) (s : σ) (uses : List (Use α)) (u : Use α) :
    after use s (uses ++ [u]) = (use (after use s uses) u).1 := by
  simp [after]

theorem reports_concat (use : σ → Use α → σ × Report α) (s : σ) (uses : List (Use α)) (u : Use α) :
    reports use s (uses ++ [u]) = reports use s uses ++ [(use (after use s uses) u).2] := by
  induction uses generalizing s with
  | nil => rfl
  | cons v uses ih => exact congrArg ((use s v).2 :: ·) (ih _)

end Courier.Channel

namespace Courier

open Channel (Use Report Gate answered handedOut accepted removed)

/-- A plain queue. -/
structure Plain (α : Type) where
  items : List α
  gate : Gate
  /-- The ticket of the newest call that waits for a value. -/
  waiting : Option Nat
  asked : Nat

namespace Plain

variable {α : Type} {p : Plain α}

def new : Plain α := ⟨[], ⟨#[false], 1, false⟩, none, 0⟩

/-- The waiting call is answered, if there is one. -/
def answer (p : Plain α) (value : Option α) : Plain α × List (Nat × Option α) :=
  ({ p with waiting := none }, (p.waiting.map fun t => (t, value)).toList)

def use (p : Plain α) : Use α → Plain α × Report α
  | .send sender a =>
    if p.gate.isClosed sender then (p, {})
    else if p.waiting.isSome then
      ((p.answer (some a)).1, { accepted := [a], answers := (p.answer (some a)).2 })
    else ({ p with items := p.items ++ [a] }, { accepted := [a] })
  | .clone sender =>
    ({ p with gate := p.gate.clone sender }, { copy := some p.gate.released.size })
  | .release sender =>
    let p := { p with gate := p.gate.release sender }
    if p.gate.closed then ((p.answer none).1, { answers := (p.answer none).2 }) else (p, {})
  | .next =>
    match p.items with
    | a :: rest =>
      ({ p with items := rest, asked := p.asked + 1 }, { answers := [(p.asked, some a)] })
    | [] =>
      if p.gate.closed then ({ p with asked := p.asked + 1 }, { answers := [(p.asked, none)] })
      else ({ p with asked := p.asked + 1, waiting := some p.asked }, {})
  | .close telling =>
    let q : Plain α := { p with items := [], gate := { p.gate with closed := true } }
    ((q.answer none).1,
      { answers := (q.answer none).2, removed := p.items, told := if telling then p.items else [] })

/-! What the plain queue does -/

theorem send_refused {sender : Nat} {a : α} (h : p.gate.isClosed sender = true) :
    p.use (.send sender a) = (p, {}) := by
  simp only [use, h, if_true]

theorem send_waiting {sender t : Nat} {a : α} (h : p.gate.isClosed sender = false)
    (hw : p.waiting = some t) :
    p.use (.send sender a) =
      ({ p with waiting := none }, { accepted := [a], answers := [(t, some a)] }) := by
  simp [use, h, hw, answer]

theorem send_appended {sender : Nat} {a : α} (h : p.gate.isClosed sender = false)
    (hw : p.waiting = none) :
    p.use (.send sender a) = ({ p with items := p.items ++ [a] }, { accepted := [a] }) := by
  simp [use, h, hw]

theorem release_ending {sender : Nat} (h : (p.gate.release sender).closed = true) :
    p.use (.release sender) = ({ p with gate := p.gate.release sender, waiting := none },
      { answers := (p.waiting.map fun t => (t, none)).toList }) := by
  simp only [use, h, if_true]
  rfl

theorem release_open {sender : Nat} (h : (p.gate.release sender).closed = false) :
    p.use (.release sender) = ({ p with gate := p.gate.release sender }, {}) := by
  simp [use, h]

theorem next_value {a : α} {rest : List α} (h : p.items = a :: rest) :
    p.use .next =
      ({ p with items := rest, asked := p.asked + 1 }, { answers := [(p.asked, some a)] }) := by
  simp only [use, h]

theorem next_done (h : p.items = []) (hc : p.gate.closed = true) :
    p.use .next = ({ p with asked := p.asked + 1 }, { answers := [(p.asked, none)] }) := by
  simp only [use, h, hc, if_true]

theorem next_waits (h : p.items = []) (hc : p.gate.closed = false) :
    p.use .next = ({ p with asked := p.asked + 1, waiting := some p.asked }, {}) := by
  simp [use, h, hc]

/-- What one use comes to. -/
inductive Step (p : Plain α) : Use α → Plain α → Report α → Prop where
  | refused {sender : Nat} {a : α} (h : p.gate.isClosed sender = true) :
    p.Step (.send sender a) p {}
  | served {sender t : Nat} {a : α} (h : p.gate.isClosed sender = false)
    (hw : p.waiting = some t) :
    p.Step (.send sender a) { p with waiting := none }
      { accepted := [a], answers := [(t, some a)] }
  | appended {sender : Nat} {a : α} (h : p.gate.isClosed sender = false)
    (hw : p.waiting = none) :
    p.Step (.send sender a) { p with items := p.items ++ [a] } { accepted := [a] }
  | cloned {sender : Nat} :
    p.Step (.clone sender) { p with gate := p.gate.clone sender }
      { copy := some p.gate.released.size }
  | ended {sender : Nat} (h : (p.gate.release sender).closed = true) :
    p.Step (.release sender) { p with gate := p.gate.release sender, waiting := none }
      { answers := (p.waiting.map fun t => (t, none)).toList }
  | released {sender : Nat} (h : (p.gate.release sender).closed = false) :
    p.Step (.release sender) { p with gate := p.gate.release sender } {}
  | taken {a : α} {rest : List α} (h : p.items = a :: rest) :
    p.Step .next { p with items := rest, asked := p.asked + 1 }
      { answers := [(p.asked, some a)] }
  | done (h : p.items = []) (hc : p.gate.closed = true) :
    p.Step .next { p with asked := p.asked + 1 } { answers := [(p.asked, none)] }
  | waits (h : p.items = []) (hc : p.gate.closed = false) :
    p.Step .next { p with asked := p.asked + 1, waiting := some p.asked } {}
  | closed {telling : Bool} :
    p.Step (.close telling)
      { p with items := [], gate := { p.gate with closed := true }, waiting := none }
      { answers := (p.waiting.map fun t => (t, none)).toList
        removed := p.items
        told := if telling then p.items else [] }

theorem step_use (p : Plain α) (u : Use α) : p.Step u (p.use u).1 (p.use u).2 := by
  cases u with
  | send sender a =>
    cases hc : p.gate.isClosed sender with
    | true => rw [send_refused hc]; exact .refused hc
    | false =>
      cases hw : p.waiting with
      | some t => rw [send_waiting hc hw]; exact .served hc hw
      | none => rw [send_appended hc hw]; exact .appended hc hw
  | clone sender => exact .cloned
  | release sender =>
    cases hc : (p.gate.release sender).closed with
    | true => rw [release_ending hc]; exact .ended hc
    | false => rw [release_open hc]; exact .released hc
  | next =>
    cases hi : p.items with
    | cons a rest => rw [next_value hi]; exact .taken hi
    | nil =>
      cases hc : p.gate.closed with
      | true => rw [next_done hi hc]; exact .done hi hc
      | false => rw [next_waits hi hc]; exact .waits hi hc
  | close telling => exact .closed

/-- Nobody waits where there is something to hand out, or where nothing more can come. -/
structure Idle (p : Plain α) : Prop where
  items : p.waiting.isSome → p.items = []
  opened : p.waiting.isSome → p.gate.closed = false

/-- Nothing accepted is lost, doubled or reordered, and what is removed leaves nothing behind. -/
structure Conserved (p : Plain α) (rs : List (Report α)) : Prop where
  all : handedOut rs ++ removed rs ++ p.items = accepted rs
  finished : removed rs ≠ [] → p.gate.closed = true ∧ p.items = []

/-- Every `next` call is answered once at most: those that were answered, and the one that waits,
are different calls. -/
structure Tickets (asked : Nat) (waiting : Option Nat) (given : List Nat) : Prop where
  once : (given ++ waiting.toList).Nodup
  below : ∀ t ∈ given ++ waiting.toList, t < asked

/-- Once a call was answered at the end, nothing is left and nothing more comes. -/
def Ended (p : Plain α) (rs : List (Report α)) : Prop :=
  ∀ t, (t, none) ∈ answered rs → p.gate.closed = true ∧ p.items = []

section Tickets
variable {asked : Nat} {waiting : Option Nat} {given : List Nat}

theorem Tickets.answer (h : Tickets asked waiting given) :
    Tickets asked none (given ++ waiting.toList) :=
  ⟨by simpa using h.once, by simpa using h.below⟩

theorem Tickets.fresh (h : Tickets asked waiting given) : asked ∉ given ++ waiting.toList :=
  fun hm => Nat.lt_irrefl _ (h.below _ hm)

theorem Tickets.ask (h : Tickets asked waiting given) :
    Tickets (asked + 1) waiting (given ++ [asked]) := by
  have hperm : (given ++ [asked] ++ waiting.toList).Perm (asked :: (given ++ waiting.toList)) := by
    simp
  refine ⟨hperm.nodup_iff.mpr (List.nodup_cons.mpr ⟨h.fresh, h.once⟩), fun t ht => ?_⟩
  rcases List.mem_cons.mp (hperm.mem_iff.mp ht) with rfl | ht
  · exact Nat.lt_succ_self _
  · exact Nat.lt_succ_of_lt (h.below t ht)

/-- The older call is displaced. -/
theorem Tickets.wait (h : Tickets asked waiting given) :
    Tickets (asked + 1) (some asked) given := by
  have hgiven : given ⊆ given ++ waiting.toList := List.subset_append_left _ _
  refine ⟨List.nodup_append.mpr ⟨(List.nodup_append.mp h.once).1, by simp, ?_⟩, fun t ht => ?_⟩
  · rintro t ht _ hs rfl
    obtain rfl : t = asked := by simpa using hs
    exact h.fresh (hgiven ht)
  · rcases List.mem_append.mp ht with ht | ht
    · exact Nat.lt_succ_of_lt (h.below t (hgiven ht))
    · simp_all

end Tickets

section
variable {q : Plain α} {u : Use α} {r : Report α} {rs : List (Report α)}

theorem Step.idle (hs : p.Step u q r) (h : p.Idle) : q.Idle := by
  cases hs with
  | refused => exact h
  | served => exact ⟨by simp, by simp⟩
  | appended hc hw => exact ⟨by simp [hw], by simp [hw]⟩
  | cloned => exact ⟨h.items, h.opened⟩
  | ended => exact ⟨by simp, by simp⟩
  | released hc => exact ⟨h.items, fun _ => hc⟩
  | taken hi => exact ⟨fun hw => by simp [h.items hw] at hi, h.opened⟩
  | done hi hc => exact ⟨h.items, h.opened⟩
  | waits hi hc => exact ⟨fun _ => hi, fun _ => hc⟩
  | closed => exact ⟨by simp, by simp⟩

/-- Once closed, it stays closed, and what is gone stays gone. -/
theorem Step.finished (hs : p.Step u q r) (hc : p.gate.closed = true) :
    q.gate.closed = true ∧ (p.items = [] → q.items = [] ∧ r.accepted = [] ∧ r.removed = []) := by
  have hclosed (sender : Nat) : p.gate.isClosed sender = true := by simp [Gate.isClosed, hc]
  cases hs with
  | refused => exact ⟨hc, fun hi => ⟨hi, rfl, rfl⟩⟩
  | served h => simp [hclosed] at h
  | appended h => simp [hclosed] at h
  | cloned => exact ⟨hc, fun hi => ⟨hi, rfl, rfl⟩⟩
  | ended h => exact ⟨h, fun hi => ⟨hi, rfl, rfl⟩⟩
  | released h => exact ⟨Gate.closed_release hc _, fun hi => ⟨hi, rfl, rfl⟩⟩
  | taken h => exact ⟨hc, fun hi => by simp [h] at hi⟩
  | done => exact ⟨hc, fun hi => ⟨hi, rfl, rfl⟩⟩
  | waits _ h => exact ⟨hc, fun hi => ⟨hi, rfl, rfl⟩⟩
  | closed => exact ⟨rfl, fun hi => ⟨rfl, rfl, hi⟩⟩

/-- A call that is answered at the end gets no value. -/
theorem filterMap_end (waiting : Option Nat) :
    (waiting.map fun t => (t, (none : Option α))).toList.filterMap (·.2) = [] := by
  cases waiting <;> rfl

theorem map_end (waiting : Option Nat) :
    (waiting.map fun t => (t, (none : Option α))).toList.map (·.1) = waiting.toList := by
  cases waiting <;> rfl

theorem Step.conserved (hs : p.Step u q r) (hi : p.Idle) (h : p.Conserved rs) :
    q.Conserved (rs ++ [r]) := by
  have hopen (hc : p.gate.closed = false) : removed rs = [] := by
    by_contra hne
    simp [(h.finished hne).1] at hc
  have hall := h.all
  cases hs with
  | served hc hw =>
    have hrem : removed rs = [] := hopen (hi.opened (by simp [hw]))
    have hitems : p.items = [] := hi.items (by simp [hw])
    exact ⟨by simpa [hrem, hitems] using hall, by simp [hrem]⟩
  | appended hc hw =>
    have hrem : removed rs = [] := hopen (Gate.open_of_isClosed hc)
    exact ⟨by simp [← hall, hrem], by simp [hrem]⟩
  | taken hitems =>
    have hrem : removed rs = [] := by
      by_contra hne
      simp [(h.finished hne).2] at hitems
    exact ⟨by simpa [hrem, hitems] using hall, by simp [hrem]⟩
  | ended hc =>
    refine ⟨by simpa [filterMap_end] using hall, fun hne => ?_⟩
    exact ⟨hc, (h.finished (by simpa using hne)).2⟩
  | closed => exact ⟨by simpa [filterMap_end] using hall, fun _ => ⟨rfl, rfl⟩⟩
  | released hc =>
    refine ⟨by simpa using hall, fun hne => ?_⟩
    obtain ⟨hcl, hnil⟩ := h.finished (by simpa using hne)
    exact ⟨Gate.closed_release hcl _, hnil⟩
  | _ => exact ⟨by simpa using hall, fun hne => h.finished (by simpa using hne)⟩

theorem Step.tickets (hs : p.Step u q r)
    (h : Tickets p.asked p.waiting ((answered rs).map (·.1))) :
    Tickets q.asked q.waiting ((answered (rs ++ [r])).map (·.1)) := by
  cases hs with
  | served _ hw => simpa [hw] using (hw ▸ h).answer
  | ended => simpa [map_end] using h.answer
  | closed => simpa [map_end] using h.answer
  | taken => simpa using h.ask
  | done => simpa using h.ask
  | waits => simpa using h.wait
  | _ => simpa using h

theorem Step.ends (hs : p.Step u q r) (hi : p.Idle) {t : Nat} (ht : (t, none) ∈ r.answers) :
    q.gate.closed = true ∧ q.items = [] := by
  cases hs with
  | ended hc =>
    have hw : p.waiting.isSome := by
      cases hw : p.waiting <;> simp_all
    exact ⟨hc, hi.items hw⟩
  | done hitems hc => exact ⟨hc, hitems⟩
  | closed => exact ⟨rfl, rfl⟩
  | _ => simp at ht

theorem Step.stays_ended (hs : p.Step u q r) (hi : p.Idle) (h : p.Ended rs) :
    q.Ended (rs ++ [r]) := by
  intro t ht
  rcases List.mem_append.mp (Channel.answered_concat ▸ ht) with ht | ht
  · obtain ⟨hc, hnil⟩ := h t ht
    exact ⟨(hs.finished hc).1, ((hs.finished hc).2 hnil).1⟩
  · exact hs.ends hi ht

end

/-- What holds of a queue after the uses that were reported as `rs`. -/
structure Kept (p : Plain α) (rs : List (Report α)) : Prop where
  idle : p.Idle
  conserved : p.Conserved rs
  tickets : Tickets p.asked p.waiting ((answered rs).map (·.1))
  ended : p.Ended rs

theorem kept_new : (new : Plain α).Kept [] where
  idle := ⟨by simp [new], by simp [new]⟩
  conserved := ⟨rfl, by simp [removed]⟩
  tickets := ⟨by simp [new, answered], by simp [new, answered]⟩
  ended := by simp [Ended, answered]

theorem Kept.use {rs : List (Report α)} (h : p.Kept rs) (u : Use α) :
    (p.use u).1.Kept (rs ++ [(p.use u).2]) :=
  have hs := p.step_use u
  ⟨hs.idle h.idle, hs.conserved h.idle h.conserved, hs.tickets h.tickets,
    hs.stays_ended h.idle h.ended⟩

theorem kept_after (uses : List (Use α)) :
    (Channel.after use new uses).Kept (Channel.reports use new uses) := by
  induction uses using List.reverseRecOn with
  | nil => exact kept_new
  | append_singleton uses u ih =>
    rw [Channel.after_concat, Channel.reports_concat]
    exact ih.use u

end Plain

namespace Channel

variable {α : Type} {c : Channel α}

/-- What shows of a channel. -/
def plain (c : Channel α) : Plain α := ⟨c.live, c.gate, c.waiter, c.asked⟩

theorem advance_asked : c.advance.asked = c.asked := by rw [advance_eq]

theorem plain_advance : c.advance.plain = { c.plain with items := c.live.tail } := by
  simp only [plain, live_advance, gate_advance, advance_waiter, advance_asked]

/-! The plain queue takes each use as the channel does -/

theorem plain_send (h : c.Sound) (sender : Nat) (a : α) :
    c.plain.use (.send sender a) =
      ((c.use (.send sender a)).1.plain, (c.use (.send sender a)).2) := by
  obtain ⟨hc, he⟩ | ⟨hc, hw, he⟩ | ⟨t, hc, hw, he⟩ := send_cases c sender a
  · rw [Plain.send_refused (p := c.plain) hc]
    simp only [use, he]
    rfl
  · have hl : ({ c with buffer := c.buffer.push a } : Channel α).live = c.live ++ [a] := by
      simpa [he, handed] using send_live (a := a) h hc
    rw [Plain.send_appended (p := c.plain) hc hw]
    simp only [use, he, plain, hl]
    rfl
  · rw [Plain.send_waiting (p := c.plain) hc hw]
    simp only [use, he]
    rfl

theorem release_asked (h : c.Sound) (sender : Nat) :
    (c.release sender).1.asked = c.asked := by
  rw [release_eq h]
  split_ifs <;> rfl

theorem plain_release (h : c.Sound) (sender : Nat) :
    c.plain.use (.release sender) =
      ((c.use (.release sender)).1.plain, (c.use (.release sender)).2) := by
  have hg : c.plain.gate.release sender = (c.release sender).1.gate := (gate_release h sender).symm
  have hp (w : Option Nat) (hw : (c.release sender).1.waiter = w) :
      ({ c.plain with gate := (c.release sender).1.gate, waiting := w } : Plain α) =
        (c.release sender).1.plain := by
    subst hw
    simp only [plain, release_live h, release_asked h]
  cases hc : (c.release sender).1.closed with
  | false =>
    obtain ⟨he, hw⟩ | ⟨t, -, -, -, hc'⟩ := release_serves h sender
    · rw [Plain.release_open (hg ▸ hc), hg]
      exact Prod.ext (hp _ hw) (by simp [use, he, answers])
    · simp [hc] at hc'
  | true =>
    rw [Plain.release_ending (hg ▸ hc), hg]
    obtain ⟨he, hw⟩ | ⟨t, hw, he, hw', -⟩ := release_serves h sender
    · have hn : c.waiter = none := by
        rw [← hw, ← Option.not_isSome_iff_eq_none]
        intro hs
        simp [(sound_release h).opened hs] at hc
      exact Prod.ext (hp _ (hw.trans hn)) (by simp [use, plain, hn, he, answers])
    · exact Prod.ext (hp _ hw') (by simp [use, plain, hw, he, answers])

/-- Whether or not an older call waits. -/
theorem plain_next (c : Channel α) :
    c.plain.use .next = ((c.use .next).1.plain, (c.use .next).2) := by
  cases hb : c.buffer[c.head]? with
  | some a =>
    obtain ⟨hlt, ha⟩ := Array.getElem?_eq_some_iff.mp hb
    have hlt' : c.head < c.buffer.toList.length := by simpa using hlt
    have hlive : c.live = a :: c.live.tail := by
      simp [live, List.drop_eq_getElem_cons hlt', ha]
    rw [Plain.next_value (p := c.plain) hlive]
    simp only [use, next, hb, plain_advance]
    rfl
  | none =>
    have hl : c.live = [] := by simpa [live] using hb
    cases hc : c.closed with
    | true =>
      have he : c.next = ({ c with asked := c.asked + 1 }, .done) := by simp [next, hb, hc]
      rw [Plain.next_done (p := c.plain) hl hc]
      simp only [use, he]
      rfl
    | false =>
      have he : c.next =
          ({ c with asked := c.asked + 1, waiter := some c.asked }, .waits c.asked) := by
        simp [next, hb, hc]
      rw [Plain.next_waits (p := c.plain) hl hc]
      simp only [use, he]
      rfl

theorem plain_close (c : Channel α) (telling : Bool) :
    c.plain.use (.close telling) =
      ((c.use (.close telling)).1.plain, (c.use (.close telling)).2) := by
  have hl : ({ c with closed := true, buffer := #[], head := 0, waiter := none } : Channel α).live =
      [] := rfl
  cases hw : c.waiter <;>
    simp [use, close_eq, Plain.use, Plain.answer, plain, answers, gate, hw, hl]

theorem plain_use (h : c.Sound) (u : Use α) :
    c.plain.use u = ((c.use u).1.plain, (c.use u).2) := by
  cases u with
  | send sender a => exact plain_send h sender a
  | clone sender => rfl
  | release sender => exact plain_release h sender
  | next => exact plain_next c
  | close telling => exact plain_close c telling

theorem sound_next (h : c.Sound) : c.next.1.Sound := by
  cases hw : c.waiter with
  | none =>
    obtain ⟨a, d, he, -, -, -, hd⟩ | ⟨d, he, -, -, -, -, -, hd⟩ | ⟨d, t, he, -, -, -, -, -, hd⟩ :=
      next_cases h hw <;> rwa [he]
  | some t =>
    have hl : c.live = [] := h.live_nil (by simp [hw])
    have hc : c.closed = false := h.opened (by simp [hw])
    have hb : c.buffer[c.head]? = none := by simpa [live] using hl
    have he : c.next =
        ({ c with asked := c.asked + 1, waiter := some c.asked }, .waits c.asked) := by
      simp [next, hb, hc]
    rw [he]
    exact ⟨h.head_le, fun _ => hl, fun _ => hc⟩

theorem use_next_fst (c : Channel α) : (c.use .next).1 = c.next.1 := by
  unfold use
  simp only
  split <;> simp_all

theorem sound_use (h : c.Sound) (u : Use α) : (c.use u).1.Sound := by
  cases u with
  | send sender a => exact sound_send h
  | clone sender => exact sound_clone h
  | release sender => exact sound_release h
  | next => exact use_next_fst c ▸ sound_next h
  | close telling => exact sound_close

theorem sound_after (uses : List (Use α)) : (after use (new : Channel α) uses).Sound := by
  induction uses using List.reverseRecOn with
  | nil => exact sound_new
  | append_singleton uses u ih => exact after_concat use new uses u ▸ sound_use ih u

/-- Run for run the channel shows what its plain queue shows. -/
theorem plain_after (uses : List (Use α)) :
    after Plain.use .new uses = (after use new uses).plain ∧
      reports Plain.use .new uses = reports use new uses := by
  induction uses using List.reverseRecOn with
  | nil => exact ⟨rfl, rfl⟩
  | append_singleton uses u ih =>
    obtain ⟨hp, hr⟩ := ih
    have hu := plain_use (sound_after uses) u
    rw [after_concat, after_concat, reports_concat, reports_concat, hp, hr, hu]
    exact ⟨rfl, rfl⟩

/-- What the users of a channel may rely on after the uses that were reported as `rs`. -/
structure Queued (c : Channel α) (rs : List (Report α)) : Prop where
  /-- Nothing accepted is lost, doubled or reordered. -/
  fifo : handedOut rs ++ removed rs ++ c.live = accepted rs
  size : c.size = c.live.length
  /-- No `next` call is answered twice. -/
  once : ((answered rs).map (·.1)).Nodup
  /-- Closing removes what waits, and tells of all of it, in order. -/
  closing (telling : Bool) : (c.use (.close telling)).2.removed = c.live ∧
    (c.use (.close telling)).2.told = if telling then c.live else []
  /-- Who is told finds the channel as it is after the closing. -/
  telling : c.live ≠ [] → { c with closed := true, buffer := #[], head := 0 } = c.close.1
  /-- After one `next` call was answered at the end, so is every later one, at once. -/
  ended : (∃ t, (t, none) ∈ answered rs) → (c.use .next).2.answers = [(c.asked, none)]

theorem size_eq (c : Channel α) : c.size = c.live.length := by simp [size, live]

theorem queued_of_kept {rs : List (Report α)} (h : c.Sound) (hk : c.plain.Kept rs) :
    c.Queued rs where
  fifo := hk.conserved.all
  size := c.size_eq
  once := (List.nodup_append.mp hk.tickets.once).1
  closing telling := by simp [use, close_eq]
  telling hl := by
    have hw : c.waiter = none := by
      rw [← Option.not_isSome_iff_eq_none]
      exact fun hs => hl (h.live_nil hs)
    simp [close_eq, hw]
  ended := fun ⟨t, ht⟩ => by
    obtain ⟨hc, hi⟩ := hk.ended t ht
    have hu := Plain.next_done hi hc
    rw [plain_next] at hu
    exact congrArg (·.2.answers) hu

/-- However a channel is used, it reports what a plain queue reports that is used in the same way,
and keeps every accepted value until it is handed out or removed. -/
theorem serves_as_queue (uses : List (Use α)) :
    reports use new uses = reports Plain.use .new uses ∧
      (after use new uses).plain = after Plain.use .new uses ∧
      (after use (new : Channel α) uses).Queued (reports use new uses) := by
  obtain ⟨hp, hr⟩ := plain_after uses
  have hk := Plain.kept_after uses
  rw [hp, hr] at hk
  exact ⟨hr.symm, hp.symm, queued_of_kept (sound_after uses) hk⟩

/-- Of two calls that wait, the newer one is answered. -/
example : (reports use new [.next, .next, .send 0 'a', .next, .release 0, .next]).map (·.answers) =
    [[], [], [(1, some 'a')], [], [(2, none)], [(3, none)]] := rfl

end Channel
end Courier
