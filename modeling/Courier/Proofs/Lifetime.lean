import Courier.Proofs.Queue
import Courier.Proofs.Caller

/-!
How long channels stay open. A channel counts the senders that are not released and is closed once
there are none, or once its receiver has closed it. So a transport and its handles, each with a
sender of its own, keep their channel open until the last of them is released.
-/

namespace Courier.Channel

variable {α : Type} {c : Channel α} {g : Gate} {shut : Bool} {sender : Nat}

/-! Counting senders -/

def Gate.isReleased (g : Gate) (sender : Nat) : Bool := g.released[sender]?.getD true

/-- The senders that are not released are counted, and the gate is closed when there are none or
when the receiver has shut it. -/
structure Gate.Counted (g : Gate) (shut : Bool) : Prop where
  producers : g.producers = g.released.count false
  closed : g.closed = (shut || g.producers = 0)

theorem Gate.counted_new : (new : Channel α).gate.Counted false := ⟨rfl, rfl⟩

theorem Gate.counted_clone (h : g.Counted shut) (sender : Nat) : (g.clone sender).Counted shut := by
  obtain ⟨hp, hc⟩ := h
  cases hs : g.isClosed sender with
  | true => exact ⟨by simp [clone, hs, hp], by simp [clone, hs, hc]⟩
  | false =>
    have hopen : g.closed = false := open_of_isClosed hs
    exact ⟨by simp [clone, hs, hp], by simp_all [clone]⟩

theorem Gate.counted_release (h : g.Counted shut) (sender : Nat) :
    (g.release sender).Counted shut := by
  obtain ⟨hp, hc⟩ := h
  unfold release
  split
  · exact ⟨hp, hc⟩
  · rename_i hr
    obtain ⟨hlt, hget⟩ : ∃ hlt : sender < g.released.size, g.released[sender] = false := by
      by_cases hlt : sender < g.released.size
      · exact ⟨hlt, by simpa [hlt] using hr⟩
      · simp [hlt] at hr
    have hpos : 0 < g.released.count false :=
      Array.count_pos_iff.mpr (hget ▸ Array.getElem_mem hlt)
    refine ⟨?_, ?_⟩
    · simp [Array.setIfInBounds, hlt, Array.count_set, hget, hp]
    · have hne : g.producers ≠ 0 := by omega
      simp [hc, hne]

theorem Gate.counted_shut (h : g.Counted shut) : ({ g with closed := true } : Gate).Counted true :=
  ⟨h.producers, by simp⟩

/-- No sender is left when all are released. -/
theorem Gate.Counted.closed_iff (h : g.Counted shut) :
    g.closed = true ↔ shut = true ∨ ∀ sender, g.isReleased sender = true := by
  rw [h.closed, Bool.or_eq_true, decide_eq_true_iff, h.producers, Array.count_eq_zero]
  refine or_congr_right ⟨fun hn sender => ?_, fun hall hm => ?_⟩
  · cases hs : g.released[sender]? with
    | none => simp [isReleased, hs]
    | some b =>
      have hb : b ≠ false := fun hb => hn (hb ▸ Array.mem_of_getElem? hs)
      simpa [isReleased, hs] using hb
  · obtain ⟨sender, hs⟩ := Array.getElem?_of_mem hm
    simpa [isReleased, hs] using hall sender

def Use.closes : Use α → Bool
  | .close _ => true
  | _ => false

theorem counted_step {p q : Plain α} {u : Use α} {r : Report α} (hs : p.Step u q r)
    (h : p.gate.Counted shut) : q.gate.Counted (shut || u.closes) := by
  cases hs with
  | cloned => simpa [Use.closes] using Gate.counted_clone h _
  | ended => simpa [Use.closes] using Gate.counted_release h _
  | released => simpa [Use.closes] using Gate.counted_release h _
  | closed => simpa [Use.closes] using Gate.counted_shut h
  | _ => simpa [Use.closes] using h

theorem counted_use (h : c.Sound) (hg : c.gate.Counted shut) (u : Use α) :
    (c.use u).1.gate.Counted (shut || u.closes) := by
  have hs := c.plain.step_use u
  rw [plain_use h u] at hs
  exact counted_step hs hg

theorem counted_after (uses : List (Use α)) :
    (after use new uses).gate.Counted (uses.any (·.closes)) := by
  induction uses using List.reverseRecOn with
  | nil => exact Gate.counted_new
  | append_singleton uses u ih =>
    rw [after_concat, List.any_append, List.any_cons, List.any_nil, Bool.or_false]
    exact counted_use (sound_after uses) ih u

theorem closed_after (h : c.Sound) (hc : c.closed = true) (uses : List (Use α)) :
    (after use c uses).closed = true := by
  induction uses generalizing c with
  | nil => exact hc
  | cons u uses ih =>
    have hs := c.plain.step_use u
    rw [plain_use h u] at hs
    exact ih (sound_use h u) (hs.finished hc).1

theorem released_release (h : c.Sound) (sender : Nat) :
    (c.release sender).1.released = c.released.setIfInBounds sender true := by
  have hg : (c.release sender).1.released = (c.gate.release sender).released :=
    congrArg Gate.released (gate_release h sender)
  rw [hg, Gate.release]
  split
  · rename_i hr
    refine Array.ext_getElem? fun n => ?_
    rw [Array.getElem?_setIfInBounds]
    by_cases he : sender = n
    · subst he
      by_cases hlt : sender < c.released.size <;> simp_all [gate]
    · simp [he, gate]
  · rfl

theorem isReleased_release (h : c.Sound) (sender other : Nat) :
    (c.release sender).1.isReleased other = (c.isReleased other || (sender == other)) := by
  simp only [isReleased, released_release h, Array.getElem?_setIfInBounds]
  by_cases he : sender = other
  · subst he
    by_cases hlt : sender < c.released.size <;> simp [hlt]
  · simp [he]

theorem isReleased_clone (c : Channel α) (sender other : Nat) :
    (c.clone sender).1.isReleased other =
      if other = (c.clone sender).2 then c.isClosed sender else c.isReleased other := by
  simp only [clone, isReleased, Array.getElem?_push]
  split <;> simp_all

/-- What keeps a channel open, after its receiver has closed it or not. -/
structure Lives (c : Channel α) (shut : Bool) : Prop where
  /-- The senders that are not released are counted. -/
  producers : c.producers = c.released.count false
  closed : c.closed = true ↔ shut = true ∨ ∀ sender, c.isReleased sender = true
  /-- Once closed, it stays closed. -/
  stays : c.closed = true → ∀ uses, (after use c uses).closed = true
  /-- A release is for good, and for one sender. -/
  release (sender other : Nat) : (c.release sender).1.isReleased other =
    (c.isReleased other || (sender == other))
  /-- A clone has the next number, and is as closed as the sender that it is made from. -/
  clone (sender other : Nat) : (c.clone sender).1.isReleased other =
    if other = (c.clone sender).2 then c.isClosed sender else c.isReleased other
  /-- Only the clone of an open sender counts. -/
  counts (sender : Nat) : (c.clone sender).1.producers =
    if c.isClosed sender then c.producers else c.producers + 1
  /-- A call waits only where there is nothing to hand out and more may come. -/
  waiter : c.waiter.isSome → c.live = [] ∧ c.closed = false
  idle : c.closed = true → c.waiter = none

theorem lives_of_counted (h : c.Sound) (hg : c.gate.Counted shut) : c.Lives shut where
  producers := hg.producers
  closed := hg.closed_iff
  stays := closed_after h
  release := isReleased_release h
  clone := isReleased_clone c
  counts sender := rfl
  waiter hw := ⟨h.live_nil hw, h.opened hw⟩
  idle hc := by
    rw [← Option.not_isSome_iff_eq_none]
    intro hw
    simp [h.opened hw] at hc

end Courier.Channel

namespace Courier

open Channel (Use)

/-- What a deed comes to for the channel. -/
def Deed.use? : Deed → Option (Use Request)
  | .clone sender => some (.clone sender)
  | .send sender uri payload _ => some (.send sender (.post uri payload))
  | .release sender => some (.release sender)
  | .abort _ _ => none

/-- A transport and its channel. -/
structure Lease where
  transport : Transport
  channel : Channel Request

namespace Lease

/-- What callers do on one side and the receiver on the other. -/
inductive Event where
  | caller (c : Caller)
  | next
  | shut (telling : Bool)

def start : Lease := ⟨.new 0, .new⟩

def moved (l : Lease) : Event → Transport
  | .caller c => (l.transport.act l.channel c).1
  | _ => l.transport

def use? (l : Lease) : Event → Option (Use Request)
  | .caller c => (l.transport.act l.channel c).2.bind Deed.use?
  | .next => some .next
  | .shut telling => some (.close telling)

def step (l : Lease) (e : Event) : Lease :=
  ⟨l.moved e, (l.use? e).elim l.channel fun u => (l.channel.use u).1⟩

def run (l : Lease) (events : List Event) : Lease := events.foldl step l

end Lease

/-- A roll of what was called: whether the receiver has shut the channel, whether the transport is
closed and, for each handle, whether it is released. -/
structure Roll where
  shut : Bool
  closed : Bool
  handles : Array Bool

namespace Roll

def start : Roll := ⟨false, false, #[]⟩

/-- The transport or a handle is left, and the receiver has not closed. -/
def isOpen (r : Roll) : Bool := !r.shut && (!r.closed || r.handles.contains false)

/-- Adds a handle, released from the start or not. -/
def add (r : Roll) (released : Bool) : Roll := { r with handles := r.handles.push released }

/-- A handle of a closed channel is released from the start, and so is the clone of a released
one. -/
def step (r : Roll) : Lease.Event → Roll
  | .caller (.handle uri) =>
    if r.closed || (target uri).toOption.isNone then r else r.add !r.isOpen
  | .caller (.clone place) =>
    (r.handles[place]?).elim r fun released => r.add (released || !r.isOpen)
  | .caller (.closeHandle place) => { r with handles := r.handles.setIfInBounds place true }
  | .caller .close => { r with closed := true }
  | .shut _ => { r with shut := true }
  | _ => r

def run (r : Roll) (events : List Lease.Event) : Roll := events.foldl step r

end Roll

namespace Lease

variable {l : Lease} {r : Roll}

/-- The transport has the first sender and its handles have the next ones. -/
structure Enrolled (t : Transport) (r : Roll) : Prop where
  closed : t.closed = r.closed
  own : t.sender = 0
  size : t.handles.members.size = r.handles.size
  senders : ∀ place h, t.handles.members[place]? = some h → h.sender = place + 1

/-- The channel counts the senders that the roll knows. -/
structure Counts (c : Channel Request) (r : Roll) : Prop where
  sound : c.Sound
  counted : c.gate.Counted r.shut
  released : c.released = #[r.closed] ++ r.handles

structure Follows (l : Lease) (r : Roll) : Prop where
  enrolled : Enrolled l.transport r
  counts : Counts l.channel r

theorem follows_start : start.Follows .start where
  enrolled := ⟨rfl, rfl, rfl, fun place h hm => by simp [start, Transport.new, Handles.none] at hm⟩
  counts := ⟨Channel.sound_new, Channel.Gate.counted_new, rfl⟩

section
variable {t : Transport} {c : Channel Request}

theorem Enrolled.add (h : Enrolled t r) (uri : String) (released : Bool) :
    Enrolled { t with handles := (t.handles.add ⟨r.handles.size + 1, uri⟩).1 }
      (r.add released) where
  closed := h.closed
  own := h.own
  size := by simp [Handles.add, Roll.add, h.size]
  senders place m hm := by
    rcases Array.getElem?_push ▸ hm with hm
    split at hm
    · rename_i he
      obtain rfl := Option.some.inj hm
      rw [he, h.size]
    · exact h.senders place m hm

theorem Counts.closed_eq (h : Counts c r) : c.closed = !r.isOpen := by
  have hz : decide (c.released.count false = 0) = !(!r.closed || r.handles.contains false) := by
    rw [h.released, Array.count_append, Bool.eq_iff_iff, decide_eq_true_iff, Nat.add_eq_zero_iff]
    cases r.closed <;> simp [Array.count_eq_zero]
  have hc : c.closed = (r.shut || decide (c.released.count false = 0)) :=
    h.counted.producers ▸ h.counted.closed
  rw [hc, hz, Roll.isOpen]
  cases r.shut <;> simp

theorem Counts.isReleased (h : Counts c r) (place : Nat) :
    c.isReleased (place + 1) = r.handles[place]?.getD true := by
  simp [Channel.isReleased, h.released, Array.getElem?_append]

theorem Counts.isReleased_own (h : Counts c r) : c.isReleased 0 = r.closed := by
  simp [Channel.isReleased, h.released]

theorem Counts.clone (h : Counts c r) (sender : Nat) :
    Counts (c.clone sender).1 (r.add (c.isClosed sender)) where
  sound := Channel.sound_clone h.sound
  counted := Channel.Gate.counted_clone h.counted sender
  released := by simp [Channel.clone, Roll.add, h.released]

theorem Counts.clone_snd (h : Counts c r) (sender : Nat) :
    (c.clone sender).2 = r.handles.size + 1 := by
  simp [Channel.clone, h.released, Nat.add_comm]

theorem Counts.release (h : Counts c r) (place : Nat) :
    Counts (c.release (place + 1)).1
      { r with handles := r.handles.setIfInBounds place true } where
  sound := Channel.sound_release h.sound
  counted := Channel.gate_release h.sound _ ▸ Channel.Gate.counted_release h.counted _
  released := by
    rw [Channel.released_release h.sound, h.released]
    simp

theorem Counts.release_own (h : Counts c r) :
    Counts (c.release 0).1 { r with closed := true } where
  sound := Channel.sound_release h.sound
  counted := Channel.gate_release h.sound _ ▸ Channel.Gate.counted_release h.counted _
  released := by
    rw [Channel.released_release h.sound, h.released]
    simp

/-- Sending and taking leave the senders alone. -/
theorem Counts.of_gate {d : Channel Request} (h : Counts c r) (hd : d.Sound)
    (hg : d.gate = c.gate) : Counts d r :=
  ⟨hd, hg ▸ h.counted, (congrArg Channel.Gate.released hg).trans h.released⟩

theorem Counts.next (h : Counts c r) : Counts (c.use .next).1 r :=
  h.of_gate (Channel.sound_use h.sound _) (Channel.use_next_fst c ▸ Channel.gate_next)

theorem Counts.close (h : Counts c r) (telling : Bool) :
    Counts (c.use (.close telling)).1 { r with shut := true } where
  sound := Channel.sound_close
  counted := by
    simpa [Use.closes] using Channel.counted_use h.sound h.counted (.close telling)
  released := by
    simpa [Channel.use, Channel.close_eq] using h.released

end

theorem step_of_act {c : Caller} {t : Transport} {deed : Option Deed}
    (ha : l.transport.act l.channel c = (t, deed)) :
    l.step (.caller c) =
      ⟨t, (deed.bind Deed.use?).elim l.channel fun u => (l.channel.use u).1⟩ := by
  simp only [step, moved, use?, ha]

theorem Follows.step_handle (h : l.Follows r) (uri : String) :
    (l.step (.caller (.handle uri))).Follows (r.step (.caller (.handle uri))) := by
  have hown : l.channel.isClosed l.transport.sender = (r.closed || !r.isOpen) := by
    rw [Channel.isClosed, h.enrolled.own, h.counts.isReleased_own, h.counts.closed_eq]
  cases ht : target uri with
  | error fault =>
    have ha : l.transport.act l.channel (.handle uri) = (l.transport, none) := by
      simp [Transport.act, Transport.handle, ht, bind, Except.bind]
    rw [step_of_act ha]
    simpa [Roll.step, ht, Except.toOption] using h
  | ok href =>
    cases hc : r.closed with
    | true =>
      have ha : l.transport.act l.channel (.handle uri) = (l.transport, none) := by
        simp [Transport.act, Transport.handle, ht, h.enrolled.closed, hc, bind, Except.bind, throw,
          throwThe, MonadExceptOf.throw]
      rw [step_of_act ha]
      simpa [Roll.step, hc] using h
    | false =>
      have ha : l.transport.act l.channel (.handle uri) =
          ({ l.transport with handles := (l.transport.handles.add ⟨r.handles.size + 1, href⟩).1 },
            some (.clone l.transport.sender)) := by
        simp [Transport.act, Transport.handle, ht, h.enrolled.closed, hc, bind, Except.bind, pure,
          Except.pure, h.counts.clone_snd]
      have hr : r.step (.caller (.handle uri)) = r.add (l.channel.isClosed l.transport.sender) := by
        simp [Roll.step, ht, hc, hown, Except.toOption]
      rw [step_of_act ha, hr]
      exact ⟨h.enrolled.add href _, h.counts.clone _⟩

theorem Follows.step_clone (h : l.Follows r) (place : Nat) :
    (l.step (.caller (.clone place))).Follows (r.step (.caller (.clone place))) := by
  cases hm : l.transport.handles.members[place]? with
  | none =>
    have hn : r.handles[place]? = none := by
      simpa [h.enrolled.size] using hm
    have ha : l.transport.act l.channel (.clone place) = (l.transport, none) := by
      simp [Transport.act, hm]
    rw [step_of_act ha]
    simpa [Roll.step, hn] using h
  | some m =>
    have hlt : place < r.handles.size :=
      h.enrolled.size ▸ (Array.getElem?_eq_some_iff.mp hm).1
    have hclosed : l.channel.isClosed m.sender = (r.handles[place] || !r.isOpen) := by
      rw [Channel.isClosed, h.enrolled.senders place m hm, h.counts.isReleased, h.counts.closed_eq]
      simp [hlt]
    have ha : l.transport.act l.channel (.clone place) =
        ({ l.transport with handles := (l.transport.handles.add ⟨r.handles.size + 1, m.uri⟩).1 },
          some (.clone m.sender)) := by
      simp [Transport.act, hm, Handles.clone, h.counts.clone_snd]
    have hr : r.step (.caller (.clone place)) = r.add (l.channel.isClosed m.sender) := by
      simp [Roll.step, hlt, hclosed]
    rw [step_of_act ha, hr]
    exact ⟨h.enrolled.add m.uri _, h.counts.clone _⟩

theorem Follows.step_send (h : l.Follows r) (place : Nat) (payload : Bytes) (signal : Option Nat) :
    (l.step (.caller (.send place payload signal))).Follows r := by
  refine ⟨h.enrolled, ?_⟩
  cases hm : l.transport.handles.members[place]? with
  | none =>
    have ha : l.transport.act l.channel (.send place payload signal) = (l.transport, none) := by
      simp [Transport.act, hm]
    rw [step_of_act ha]
    exact h.counts
  | some m =>
    have ha : l.transport.act l.channel (.send place payload signal) =
        (l.transport, some (.send m.sender m.uri payload signal)) := by
      simp [Transport.act, hm]
    rw [step_of_act ha]
    exact h.counts.of_gate (Channel.sound_send h.counts.sound) Channel.gate_send

theorem Follows.step_closeHandle (h : l.Follows r) (place : Nat) :
    (l.step (.caller (.closeHandle place))).Follows (r.step (.caller (.closeHandle place))) := by
  have he : Enrolled l.transport { r with handles := r.handles.setIfInBounds place true } :=
    ⟨h.enrolled.closed, h.enrolled.own, by simpa using h.enrolled.size, h.enrolled.senders⟩
  refine ⟨he, ?_⟩
  cases hm : l.transport.handles.members[place]? with
  | none =>
    have hn : r.handles.setIfInBounds place true = r.handles :=
      Array.setIfInBounds_eq_of_size_le (by simpa [h.enrolled.size] using hm)
    have ha : l.transport.act l.channel (.closeHandle place) = (l.transport, none) := by
      simp [Transport.act, hm]
    rw [step_of_act ha]
    simpa [Roll.step, hn] using h.counts
  | some m =>
    have ha : l.transport.act l.channel (.closeHandle place) =
        (l.transport, some (.release m.sender)) := by
      simp [Transport.act, hm]
    rw [step_of_act ha]
    exact h.enrolled.senders place m hm ▸ h.counts.release place

theorem Follows.step_close (h : l.Follows r) :
    (l.step (.caller .close)).Follows (r.step (.caller .close)) := by
  cases hc : l.transport.closed with
  | true =>
    have hr : r.step (.caller .close) = r := by
      have hrc : r.closed = true := h.enrolled.closed ▸ hc
      simp [Roll.step, ← hrc]
    have ha : l.transport.act l.channel .close = (l.transport, none) := by
      simp [Transport.act, Transport.close, hc]
    rw [hr, step_of_act ha]
    exact h
  | false =>
    have ha : l.transport.act l.channel .close =
        ({ l.transport with closed := true }, some (.release l.transport.sender)) := by
      simp [Transport.act, Transport.close, hc]
    rw [step_of_act ha]
    exact ⟨⟨rfl, h.enrolled.own, h.enrolled.size, h.enrolled.senders⟩,
      h.enrolled.own ▸ h.counts.release_own⟩

theorem Follows.step (h : l.Follows r) (e : Event) : (l.step e).Follows (r.step e) := by
  cases e with
  | caller c =>
    cases c with
    | handle uri => exact h.step_handle uri
    | clone place => exact h.step_clone place
    | send place payload signal => exact h.step_send place payload signal
    | closeHandle place => exact h.step_closeHandle place
    | close => exact h.step_close
    | abort signal reason => exact h
  | next => exact ⟨h.enrolled, h.counts.next⟩
  | shut telling =>
    obtain ⟨⟨hc, ho, hs, hm⟩, hcounts⟩ := h
    exact ⟨⟨hc, ho, hs, hm⟩, hcounts.close telling⟩

theorem follows_run (events : List Event) : (start.run events).Follows (Roll.start.run events) := by
  induction events using List.reverseRecOn with
  | nil => exact follows_start
  | append_singleton events e ih =>
    rw [run, Roll.run, List.foldl_append, List.foldl_append]
    exact ih.step e

/-- The roll decides when the channel of a transport is open and who may send. -/
structure Ruled (l : Lease) (r : Roll) : Prop where
  closed : l.channel.closed = !r.isOpen
  /-- A handle that is not released may send for as long as the channel is open. -/
  accepted (place : Nat) (h : Handle) (request : Request) :
    l.transport.handles.members[place]? = some h →
      (l.channel.send h.sender request).2.1 = (r.handles[place]? == some false && r.isOpen)
  /-- The channel closes when the receiver closes it, or when the last of transport and handles is
  released. -/
  closing (e : Event) : l.channel.closed = false → ((l.step e).channel.closed = true ↔
    (∃ telling, e = .shut telling) ∨
      (e = .caller .close ∧ false ∉ r.handles) ∨
      ∃ place, e = .caller (.closeHandle place) ∧ r.closed = true ∧
        ∀ other, r.handles[other]? = some false ↔ other = place)

/-- What is left when a handle is released. -/
theorem mem_release_iff (handles : Array Bool) (place : Nat) :
    false ∈ handles.setIfInBounds place true ↔
      ∃ other, handles[other]? = some false ∧ other ≠ place := by
  simp only [Array.mem_iff_getElem?, Array.getElem?_setIfInBounds]
  refine exists_congr fun other => ?_
  by_cases he : place = other
  · subst he
    by_cases hlt : place < handles.size <;> simp [hlt]
  · simp [he, Ne.symm he]

theorem isOpen_eq_true :
    r.isOpen = true ↔ r.shut = false ∧ (r.closed = true → false ∈ r.handles) := by
  cases hc : r.closed <;> simp [Roll.isOpen, hc]

/-- The transport closes an open channel exactly when no handle is left. -/
theorem isOpen_close (hr : r.isOpen = true) :
    (r.step (.caller .close)).isOpen = false ↔ false ∉ r.handles := by
  simp [Roll.step, Roll.isOpen, (isOpen_eq_true.mp hr).1]

/-- A handle closes an open channel exactly when nobody else is left. -/
theorem isOpen_closeHandle (hr : r.isOpen = true) (place : Nat) :
    (r.step (.caller (.closeHandle place))).isOpen = false ↔
      r.closed = true ∧ ∀ other, r.handles[other]? = some false ↔ other = place := by
  obtain ⟨hshut, hleft⟩ := isOpen_eq_true.mp hr
  have hstep : (r.step (.caller (.closeHandle place))).isOpen = false ↔
      r.closed = true ∧ false ∉ r.handles.setIfInBounds place true := by
    simp [Roll.step, Roll.isOpen, hshut]
  rw [hstep, mem_release_iff]
  refine and_congr_right fun hc => ⟨fun hn other => ?_, fun hall ⟨other, ho, hne⟩ => ?_⟩
  · have honly (other : Nat) (ho : r.handles[other]? = some false) : other = place := by
      by_contra hne
      exact hn ⟨other, ho, hne⟩
    refine ⟨honly other, fun he => ?_⟩
    obtain ⟨last, hlast⟩ := Array.mem_iff_getElem?.mp (hleft hc)
    rw [he, ← honly last hlast, hlast]
  · exact hne ((hall other).mp ho)

theorem isOpen_add (hr : r.isOpen = true) (released : Bool) : (r.add released).isOpen = true := by
  obtain ⟨shut, closed, handles⟩ := r
  simp only [Roll.isOpen, Roll.add, Bool.and_eq_true, Bool.or_eq_true, Array.contains_iff_mem,
    Array.mem_push] at hr ⊢
  exact ⟨hr.1, hr.2.imp_right Or.inl⟩

theorem Follows.ruled (h : l.Follows r) : l.Ruled r where
  closed := h.counts.closed_eq
  accepted place m request hm := by
    rw [Channel.send_accepted, Channel.isClosed, h.enrolled.senders place m hm,
      h.counts.isReleased, h.counts.closed_eq]
    cases hr : r.handles[place]? with
    | none => simp
    | some b => cases b <;> simp
  closing e hc := by
    have hr : r.isOpen = true := by simpa [h.counts.closed_eq] using hc
    rw [(h.step e).counts.closed_eq, Bool.not_eq_true']
    cases e with
    | caller c =>
      cases c with
      | handle uri =>
        simp only [Roll.step]
        split <;> simp [hr, isOpen_add hr]
      | clone place =>
        cases hm : r.handles[place]? <;> simp [Roll.step, hm, hr, isOpen_add hr]
      | close => simpa using isOpen_close hr
      | closeHandle place => simpa using isOpen_closeHandle hr place
      | send place payload signal => simp [Roll.step, hr]
      | abort signal reason => simp [Roll.step, hr]
    | next => simp [Roll.step, hr]
    | shut telling => simp [Roll.step, Roll.isOpen]

/-- Channels stay open for as long as a sender is left and the receiver has not closed. So does the
channel of a transport for as long as the transport or one of its handles is left. -/
theorem open_until_released (α : Type) :
    (∀ uses : List (Use α),
      (Channel.after Channel.use Channel.new uses).Lives (uses.any (·.closes))) ∧
    ∀ events : List Event, (start.run events).Ruled (Roll.start.run events) :=
  ⟨fun uses => Channel.lives_of_counted (Channel.sound_after uses) (Channel.counted_after uses),
    fun events => (follows_run events).ruled⟩

end Lease
end Courier
