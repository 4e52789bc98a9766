import Courier.Proofs.Intake

/-!
What the counters of an intake count. A ledger notes the calls that were accepted, the outcomes
that were passed to `deliver` and the calls that were dropped without one. Whatever order things
happen in, the counters agree with the ledger, and so do the slots.
-/

namespace Courier

/-- An outcome that was passed to `deliver`. -/
structure Offer where
  call : Nat
  outcome : Outcome
  /-- Its caller had given up before. -/
  late : Bool

structure Ledger where
  accepted : List Nat
  offers : List Offer
  /-- The calls whose slots were dropped and that nothing was passed to `deliver` for. -/
  dropped : List Nat

namespace Ledger

variable {l : Ledger}

def empty : Ledger := ⟨[], [], []⟩

/-- The calls that the other side is done with. -/
def closed (l : Ledger) : List Nat := l.offers.map (·.call) ++ l.dropped

/-- The accepted calls that nothing was passed to `deliver` for and that were not dropped. -/
def rest (l : Ledger) : List Nat := l.accepted.filter (· ∉ l.closed)

theorem mem_rest {k : Nat} : k ∈ l.rest ↔ k ∈ l.accepted ∧ k ∉ l.closed := by simp [rest]

/-- An accepted call is done with, or it is not. -/
theorem perm_rest (ha : l.accepted.Nodup) (hc : l.closed.Nodup)
    (ht : ∀ k ∈ l.closed, k ∈ l.accepted) : l.accepted.Perm (l.rest ++ l.closed) := by
  have hclosed : (l.accepted.filter fun k => !decide (k ∉ l.closed)).Perm l.closed := by
    refine (List.perm_ext_iff_of_nodup (ha.filter _) hc).mpr fun k => ?_
    have hk := ht k
    simp only [List.mem_filter, Bool.not_eq_true', decide_eq_false_iff_not, not_not]
    tauto
  exact (List.filter_append_perm (fun k => decide (k ∉ l.closed)) l.accepted).symm.trans
    (hclosed.append_left _)

/-- The ledger when the other side is done with a call, by an outcome or without one. -/
def done (l : Ledger) (k : Nat) (late : Bool) : Option Outcome → Ledger
  | some o => { l with offers := l.offers ++ [⟨k, o, late⟩] }
  | none => { l with dropped := l.dropped ++ [k] }

@[simp] theorem accepted_done (l : Ledger) (k : Nat) (late : Bool) (o : Option Outcome) :
    (l.done k late o).accepted = l.accepted := by cases o <;> rfl

theorem closed_done (l : Ledger) (k : Nat) (late : Bool) (o : Option Outcome) :
    (l.done k late o).closed.Perm (k :: l.closed) := by
  cases o with
  | some o =>
    simp only [done, closed, List.map_append, List.map_cons, List.map_nil, List.append_assoc]
    exact List.perm_middle
  | none =>
    simp only [done, closed, ← List.append_assoc]
    exact List.perm_append_singleton _ _

theorem mem_rest_done {k n : Nat} {late : Bool} {o : Option Outcome} :
    n ∈ (l.done k late o).rest ↔ n ∈ l.rest ∧ n ≠ k := by
  rw [mem_rest, mem_rest, accepted_done, (closed_done l k late o).mem_iff, List.mem_cons]
  tauto

end Ledger

namespace Slot

variable {ρ : Type}

/-- Whether the reader has given up. -/
def givenUp (s : Slot ρ) : Bool :=
  match s.reader with
  | .settled (.refused _) => true
  | _ => false

/-- Whether a receive ended with an outcome. -/
def Reading.brings : Reading ρ → Bool
  | .got (some _) => true
  | _ => false

/-- Whether the reader has received an outcome. -/
def received (s : Slot ρ) : Bool :=
  match s.reader with
  | .settled reading => reading.brings
  | _ => false

end Slot

namespace Intake

variable {P : Type} {i j : Intake P} {l : Ledger} {k : Nat}

def slot? (i : Intake P) (k : Nat) : Option (Slot Outcome) := (i.calls[k]?).map (·.slot)

/-- Whether the caller of a call has given up. -/
def givenUp (i : Intake P) (k : Nat) : Bool := (i.slot? k).any Slot.givenUp

/-- The slot of a call that an outcome was offered for. -/
def Offered (i : Intake P) (x : Offer) : Prop :=
  if x.late then ∃ reason, i.slot? x.call = some (.opened (some reason))
  else i.slot? x.call = some (.given x.outcome)

/-- The slot of a call that was dropped. -/
def Dropped (i : Intake P) (k : Nat) : Prop :=
  i.slot? k = some .fallen ∨ ∃ reason, i.slot? k = some (.opened (some reason))

/-- The counters and the slots agree with a ledger. -/
structure Tallied (i : Intake P) (l : Ledger) : Prop where
  known : ∀ k ∈ l.accepted, k < i.calls.size
  nodup : l.accepted.Nodup
  once : l.closed.Nodup
  taken : ∀ k ∈ l.closed, k ∈ l.accepted
  submitted : i.stats.submitted = l.accepted.length
  delivered : i.stats.delivered = (l.offers.filter (!·.late)).length
  undelivered : i.stats.undelivered = (l.offers.filter (·.late)).length
  waits : ∀ k ∈ l.rest, i.Waits k
  offered : ∀ x ∈ l.offers, i.Offered x
  dropped : ∀ k ∈ l.dropped, i.Dropped k

theorem tallied_new (fired : List (Nat × Value)) : (new fired : Intake P).Tallied .empty :=
  ⟨by simp [Ledger.empty], List.nodup_nil, List.nodup_nil, by simp [Ledger.empty, Ledger.closed],
    rfl, rfl, rfl, by simp [Ledger.rest, Ledger.empty], by simp [Ledger.empty],
    by simp [Ledger.empty]⟩

theorem Offered.congr {x : Offer} (h : i.Offered x) (hs : j.slot? x.call = i.slot? x.call) :
    j.Offered x := by
  unfold Offered at h ⊢
  rwa [hs]

theorem Dropped.congr (h : i.Dropped k) (hs : j.slot? k = i.slot? k) : j.Dropped k := by
  unfold Dropped at h ⊢
  rwa [hs]

theorem Tallied.size_notMem (h : i.Tallied l) : i.calls.size ∉ l.accepted :=
  fun hm => Nat.lt_irrefl _ (h.known _ hm)

/-- A call that is done with waits for nothing. -/
theorem Tallied.reader_of_closed (h : i.Tallied l) (hk : k ∈ l.closed) :
    ∃ s, i.slot? k = some s ∧ s.reader ≠ .waiting := by
  rcases List.mem_append.mp hk with hk | hk
  · obtain ⟨x, hx, rfl⟩ := List.mem_map.mp hk
    have ho := h.offered x hx
    unfold Offered at ho
    split at ho
    · obtain ⟨reason, hs⟩ := ho
      exact ⟨_, hs, by simp [Slot.opened]⟩
    · exact ⟨_, ho, by simp [Slot.given]⟩
  · obtain hs | ⟨reason, hs⟩ := h.dropped k hk
    · exact ⟨_, hs, by simp [Slot.fallen]⟩
    · exact ⟨_, hs, by simp [Slot.opened]⟩

/-- Steps that count nothing, and leave calls that are done with as they are. -/
theorem Tallied.kept (h : i.Tallied l) (hsize : i.calls.size ≤ j.calls.size)
    (hstats : j.stats = i.stats) (hclosed : ∀ k ∈ l.closed, j.slot? k = i.slot? k)
    (hwaits : ∀ k, i.Waits k → j.Waits k) : j.Tallied l where
  known k hk := Nat.lt_of_lt_of_le (h.known k hk) hsize
  nodup := h.nodup
  once := h.once
  taken := h.taken
  submitted := by rw [hstats, h.submitted]
  delivered := by rw [hstats, h.delivered]
  undelivered := by rw [hstats, h.undelivered]
  waits k hk := hwaits k (h.waits k hk)
  offered x hx := (h.offered x hx).congr
    (hclosed x.call (List.mem_append_left _ (List.mem_map_of_mem (f := (·.call)) hx)))
  dropped k hk := (h.dropped k hk).congr (hclosed k (List.mem_append_right _ hk))

/-- What the other side keeps about calls makes no difference. -/
theorem Tallied.mapIdx {g : Nat → Call P → Call P} (h : i.Tallied l)
    (hcalls : j.calls = i.calls.mapIdx g) (hslot : ∀ n c, (g n c).slot = c.slot)
    (hsignal : ∀ n c, (g n c).signal = c.signal) (hfired : j.fired = i.fired)
    (hstats : j.stats = i.stats) : j.Tallied l := by
  refine h.kept (by simp [hcalls]) hstats (fun k _ => ?_) fun k ⟨c, hk, hs⟩ => ?_
  · simp only [slot?, hcalls, Array.getElem?_mapIdx, Option.map_map]
    exact congrArg (Option.map · _) (funext fun c => hslot k c)
  · refine ⟨g k c, by simp [hcalls, hk], ?_⟩
    rw [hslot, hsignal, reason_congr hfired, hs]

theorem Tallied.modify {f : Call P → Call P} (h : i.Tallied l)
    (hcalls : j.calls = i.calls.modify k f) (hslot : ∀ c, (f c).slot = c.slot)
    (hsignal : ∀ c, (f c).signal = c.signal) (hfired : j.fired = i.fired)
    (hstats : j.stats = i.stats) : j.Tallied l := by
  refine h.mapIdx (hcalls.trans (modify_eq_mapIdx _ _ _)) (fun n c => ?_) (fun n c => ?_) hfired
    hstats
  · split
    · exact hslot c
    · rfl
  · split
    · exact hsignal c
    · rfl

theorem Tallied.congr (h : i.Tallied l) (hcalls : j.calls = i.calls) (hfired : j.fired = i.fired)
    (hstats : j.stats = i.stats) : j.Tallied l :=
  h.mapIdx (hcalls.trans (mapIdx_same _).symm) (fun _ _ => rfl) (fun _ _ => rfl) hfired hstats

theorem slot_push (hk : k < i.calls.size) {c : Call P} (hcalls : j.calls = i.calls.push c) :
    j.slot? k = i.slot? k := by
  rw [slot?, hcalls, getElem_push_of_lt hk, slot?]

theorem Waits.push (h : i.Waits k) {c : Call P} (hcalls : j.calls = i.calls.push c)
    (hfired : j.fired = i.fired) : j.Waits k :=
  h.congr (by rw [hcalls, getElem_push_of_lt h.size_lt]) hfired

/-- A call that is refused is counted nowhere. -/
theorem Tallied.refused (h : i.Tallied l) {c : Call P} (hcalls : j.calls = i.calls.push c)
    (hfired : j.fired = i.fired) (hstats : j.stats = i.stats) : j.Tallied l :=
  h.kept (by simp [hcalls]) hstats
    (fun k hk => slot_push (h.known k (h.taken k hk)) hcalls) fun _ hw => hw.push hcalls hfired

/-- An accepted call is counted, and waits. -/
theorem Tallied.accepted (h : i.Tallied l) {c : Call P} (hcalls : j.calls = i.calls.push c)
    (hfired : j.fired = i.fired) (hw : j.Waits i.calls.size)
    (hstats : j.stats = { i.stats with submitted := i.stats.submitted + 1 }) :
    j.Tallied { l with accepted := l.accepted ++ [i.calls.size] } := by
  have hslot : ∀ k ∈ l.closed, j.slot? k = i.slot? k := fun k hk =>
    slot_push (h.known k (h.taken k hk)) hcalls
  refine ⟨?known, ?nodup, h.once, fun k hk => List.mem_append_left _ (h.taken k hk), ?submitted,
    ?delivered, ?undelivered, ?waits, ?offered, ?dropped⟩
  case known =>
    intro k hk
    rw [hcalls, Array.size_push]
    rcases List.mem_append.mp hk with hk | hk
    · exact Nat.lt_succ_of_lt (h.known k hk)
    · exact List.mem_singleton.mp hk ▸ Nat.lt_succ_self _
  case nodup =>
    refine h.nodup.append (List.nodup_singleton _) fun k hk hk' => ?_
    exact h.size_notMem (List.mem_singleton.mp hk' ▸ hk)
  case submitted => rw [hstats, List.length_append, List.length_singleton, ← h.submitted]
  case delivered =>
    rw [hstats]
    exact h.delivered
  case undelivered =>
    rw [hstats]
    exact h.undelivered
  case waits =>
    intro k hk
    obtain ⟨ha, hc⟩ := Ledger.mem_rest.mp hk
    rcases List.mem_append.mp ha with ha | ha
    · exact (h.waits k (Ledger.mem_rest.mpr ⟨ha, hc⟩)).push hcalls hfired
    · exact List.mem_singleton.mp ha ▸ hw
  case offered =>
    intro x hx
    exact (h.offered x hx).congr
      (hslot x.call (List.mem_append_left _ (List.mem_map_of_mem (f := (·.call)) hx)))
  case dropped =>
    intro k hk
    exact (h.dropped k hk).congr (hslot k (List.mem_append_right _ hk))

/-- A `send` is noted if it is accepted. -/
theorem Tallied.send (h : i.Tallied l) (sender : Nat) (request : Request) (signal : Option Nat)
    (start : P) : (i.send sender request signal start).1.Tallied { l with
      accepted := l.accepted ++ if i.channel.isClosed sender then [] else [i.calls.size] } := by
  obtain ⟨_, _, hcalls, hfired, _⟩ := send_spec i sender request signal start
  cases hc : i.channel.isClosed sender with
  | true =>
    rw [send_eq_of_closed request signal start hc] at hcalls hfired ⊢
    simpa using h.refused hcalls hfired rfl
  | false =>
    have hw := waits_sent hc hcalls hfired
    rw [send_eq_of_open request signal start hc] at hcalls hfired hw ⊢
    simpa using h.accepted hcalls hfired hw rfl

/-- A signal that fires counts nothing. -/
theorem Tallied.abort (h : i.Tallied l) (signal : Nat) (reason : Value) :
    (i.abort signal reason).1.Tallied l := by
  obtain ⟨_, hstats, hsize⟩ := abort_spec i signal reason
  refine h.kept (Nat.le_of_eq hsize.symm) hstats (fun k hk => ?_) fun k hw => hw.abort signal reason
  obtain ⟨s, hs, hr⟩ := h.reader_of_closed hk
  cases hf : i.fired.any (·.1 = signal) with
  | true => rw [abort_of_fired hf]
  | false =>
    rw [abort_eq hf]
    obtain ⟨c, hc, rfl⟩ := Option.map_eq_some_iff.mp hs
    have hsame : aborted signal reason c = c.slot := by
      unfold aborted Slot.abort
      split
      · split
        · exact absurd (by assumption) hr
        · rfl
      · rfl
    simp [slot?, hc, Call.reslot, hsame]

/-- What a call is that the other side is not done with. -/
theorem Waits.slot_eq (h : i.Waits k) : ∃ fired, i.slot? k = some (.opened fired) := by
  obtain ⟨c, hk, hs⟩ := h
  exact ⟨i.reason? c.signal, by simp [slot?, hk, hs]⟩

theorem slot_deliver (i : Intake P) (k : Nat) (o : Outcome) :
    (i.deliver k o).1.slot? k = (i.slot? k).map fun s => (s.send o).1 := by
  rw [deliver_eq]
  cases hk : i.calls[k]? with
  | none => simp [slot?, hk]
  | some c => simp [slot?, hk, Array.getElem?_modify, Call.reslot]

theorem stats_deliver {s : Slot Outcome} (hs : i.slot? k = some s) (o : Outcome) :
    (i.deliver k o).1.stats = i.stats.countDelivery (s.send o).2 := by
  obtain ⟨c, hk, rfl⟩ := Option.map_eq_some_iff.mp hs
  rw [deliver_eq, hk]

/-- A delivery counts for the call that it is for, and is late if the caller had given up. -/
theorem Tallied.deliver (h : i.Tallied l) (hk : k ∈ l.rest) (o : Outcome) :
    (i.deliver k o).1.Tallied (l.done k (i.givenUp k) (some o)) := by
  obtain ⟨haccepted, hopen⟩ := Ledger.mem_rest.mp hk
  obtain ⟨fired, hslot⟩ := (h.waits k hk).slot_eq
  obtain ⟨c, hc, _⟩ := h.waits k hk
  obtain ⟨_, hfired, hsize, hother, _⟩ := deliver_spec hc o
  have hstats := stats_deliver hslot o
  have hsame : ∀ n ∈ l.closed, (i.deliver k o).1.slot? n = i.slot? n := fun n hn => by
    have hne : n ≠ k := fun he => hopen (he ▸ hn)
    simp [slot?, hother n hne]
  have hclosed := Ledger.closed_done l k (i.givenUp k) (some o)
  refine ⟨by rw [hsize]; exact h.known, h.nodup, ?once, ?taken, ?submitted, ?delivered,
    ?undelivered, ?waits, ?offered, ?dropped⟩
  case once => exact hclosed.nodup_iff.mpr (List.nodup_cons.mpr ⟨hopen, h.once⟩)
  case taken =>
    intro n hn
    rcases List.mem_cons.mp (hclosed.mem_iff.mp hn) with rfl | hn
    · exact haccepted
    · exact h.taken n hn
  case submitted =>
    rw [hstats, Ledger.accepted_done, ← h.submitted]
    unfold Stats.countDelivery
    split <;> rfl
  case delivered =>
    rw [hstats, Ledger.done, List.filter_append, List.length_append, ← h.delivered]
    cases fired <;> simp [givenUp, hslot, Slot.opened, Slot.givenUp, Slot.send, Stats.countDelivery]
  case undelivered =>
    rw [hstats, Ledger.done, List.filter_append, List.length_append, ← h.undelivered]
    cases fired <;> simp [givenUp, hslot, Slot.opened, Slot.givenUp, Slot.send, Stats.countDelivery]
  case waits =>
    intro n hn
    obtain ⟨hn, hne⟩ := Ledger.mem_rest_done.mp hn
    exact (h.waits n hn).congr (hother n hne) hfired
  case offered =>
    intro x hx
    rcases List.mem_append.mp hx with hx | hx
    · exact (h.offered x hx).congr
        (hsame x.call (List.mem_append_left _ (List.mem_map_of_mem (f := (·.call)) hx)))
    · obtain rfl := List.mem_singleton.mp hx
      unfold Offered
      rw [slot_deliver, hslot]
      cases fired with
      | none => simp [givenUp, hslot, Slot.opened, Slot.givenUp, Slot.send, Slot.notify, Slot.given]
      | some reason => simp [givenUp, hslot, Slot.opened, Slot.givenUp, Slot.send]
  case dropped =>
    intro n hn
    exact (h.dropped n hn).congr (hsame n (List.mem_append_right _ hn))

/-- Calls that are dropped are counted nowhere. -/
theorem Tallied.dropAll {ks : List Nat} (h : i.Tallied l) (hks : ks.Nodup)
    (hopen : ∀ k ∈ ks, k ∈ l.rest) :
    (i.dropAll ks).1.Tallied { l with dropped := l.dropped ++ ks } := by
  obtain ⟨_, hfired, hstats, hsize, hcalls⟩ := dropAll_spec hks i
  have hfree : ∀ n ∈ l.closed, n ∉ ks := fun n hn hm =>
    (Ledger.mem_rest.mp (hopen n hm)).2 hn
  have hsame : ∀ n, n ∉ ks → (i.dropAll ks).1.calls[n]? = i.calls[n]? := fun n hn => by
    rw [hcalls]
    simp [hn]
  have hslot : ∀ n ∈ l.closed, (i.dropAll ks).1.slot? n = i.slot? n := fun n hn => by
    simp [slot?, hsame n (hfree n hn)]
  have hclosed : ({ l with dropped := l.dropped ++ ks } : Ledger).closed = l.closed ++ ks := by
    simp [Ledger.closed]
  refine ⟨by rw [hsize]; exact h.known, h.nodup, ?once, ?taken, by rw [hstats]; exact h.submitted,
    by rw [hstats]; exact h.delivered, by rw [hstats]; exact h.undelivered, ?waits, ?offered,
    ?dropped⟩
  case once =>
    rw [hclosed]
    exact h.once.append hks hfree
  case taken =>
    intro n hn
    rw [hclosed] at hn
    rcases List.mem_append.mp hn with hn | hn
    · exact h.taken n hn
    · exact (Ledger.mem_rest.mp (hopen n hn)).1
  case waits =>
    intro n hn
    obtain ⟨ha, hn⟩ := Ledger.mem_rest.mp hn
    rw [hclosed, List.mem_append, not_or] at hn
    exact (h.waits n (Ledger.mem_rest.mpr ⟨ha, hn.1⟩)).congr (hsame n hn.2) hfired
  case offered =>
    intro x hx
    exact (h.offered x hx).congr
      (hslot x.call (List.mem_append_left _ (List.mem_map_of_mem (f := (·.call)) hx)))
  case dropped =>
    intro n hn
    rcases List.mem_append.mp hn with hn | hn
    · exact (h.dropped n hn).congr (hslot n (List.mem_append_right _ hn))
    · obtain ⟨fired, hs⟩ := (h.waits n (hopen n hn)).slot_eq
      have hd : (i.dropAll ks).1.slot? n = (i.slot? n).map Slot.drop := by
        simp only [slot?, hcalls, hn, if_true, Option.map_map]
        rfl
      unfold Dropped
      rw [hd, hs]
      cases fired with
      | none => exact Or.inl rfl
      | some reason => exact Or.inr ⟨reason, rfl⟩

theorem drop_eq_dropAll (i : Intake P) (k : Nat) : i.drop k = i.dropAll [k] := by
  simp [dropAll]

theorem Tallied.drop (h : i.Tallied l) (hk : k ∈ l.rest) (late : Bool) :
    (i.drop k).1.Tallied (l.done k late none) := by
  rw [drop_eq_dropAll]
  exact h.dropAll (List.nodup_singleton k) fun n hn => List.mem_singleton.mp hn ▸ hk

theorem Sound.drop {told : List Settled} (h : i.Sound told) (k : Nat) :
    (i.drop k).1.Sound (told ++ (i.drop k).2) := by
  rw [drop_eq_dropAll]
  exact h.dropAll (List.nodup_singleton k)

/-- What the other side keeps about calls is nothing that callers see. -/
theorem Sound.mapIdx {told : List Settled} {g : Nat → Call P → Call P} (h : i.Sound told)
    (hcalls : j.calls = i.calls.mapIdx g) (hparcel : ∀ n c, (g n c).parcel = c.parcel)
    (hslot : ∀ n c, (g n c).slot = c.slot) (hsignal : ∀ n c, (g n c).signal = c.signal)
    (hfired : j.fired = i.fired) : j.Sound told := by
  have hr := h.reslot (f := (·.slot)) (List.nodup_nil : ([] : List Nat).Nodup) hcalls hfired hparcel
    hsignal (fun n c => by simp [hslot]) (fun _ => .refl _) (fun _ hc => hc) fun _ _ hr => hr
  simpa using hr

/-- Whether the caller of a call that an outcome was passed to `deliver` for had given up. -/
theorem Offered.givenUp {i : Intake P} {x : Offer} (h : i.Offered x) :
    i.givenUp x.call = x.late := by
  unfold Offered at h
  cases hl : x.late with
  | true =>
    rw [if_pos hl] at h
    obtain ⟨reason, hk⟩ := h
    simp [Intake.givenUp, hk, Slot.opened, Slot.givenUp]
  | false =>
    rw [hl, if_neg Bool.false_ne_true] at h
    simp [Intake.givenUp, h, Slot.given, Slot.givenUp]

/-- The counters when the other side is done with every call: those that it has dropped are not
counted, the others are as their callers had given up or not. -/
theorem Tallied.stats_of_rest (h : i.Tallied l) (hrest : l.rest = []) (dies : Nat → Bool)
    (hoffers : ∀ x ∈ l.offers, dies x.call = false) (hdropped : ∀ k ∈ l.dropped, dies k = true) :
    i.stats = ⟨l.accepted.length, l.accepted.countP fun k => !dies k && !i.givenUp k,
      l.accepted.countP fun k => !dies k && i.givenUp k⟩ := by
  have hcount : ∀ p : Bool → Bool, l.accepted.countP (fun k => !dies k && p (i.givenUp k)) =
      (l.offers.filter fun x => p x.late).length := fun p => by
    have hperm := Ledger.perm_rest h.nodup h.once h.taken
    rw [hrest, List.nil_append, Ledger.closed] at hperm
    have hnone : l.dropped.countP (fun k => !dies k && p (i.givenUp k)) = 0 :=
      List.countP_eq_zero.mpr fun k hk => by simp [hdropped k hk]
    rw [hperm.countP_eq, List.countP_append, hnone, List.countP_map, ← List.countP_eq_length_filter]
    refine List.countP_congr fun x hx => ?_
    simp [hoffers x hx, (h.offered x hx).givenUp]
  have hdelivered := h.delivered.trans (hcount (!·)).symm
  have hundelivered := h.undelivered.trans (hcount id).symm
  rw [← h.submitted, ← hdelivered]
  exact congrArg (Stats.mk _ _) hundelivered

end Intake

/-! What the counters say -/

/-- What the caller of a call has learned is an outcome. -/
def Settled.brings (told : List Settled) (k : Nat) : Bool :=
  told.any fun s => s.call = k && s.reading.brings

/-- The counters say what a ledger and the callers say. -/
structure Conserved {P : Type} (i : Intake P) (told : List Settled) (l : Ledger) : Prop where
  once : l.accepted.Nodup
  places : l.accepted.Perm (l.rest ++ l.offers.map (·.call) ++ l.dropped)
  submitted : i.stats.submitted = l.accepted.length
  total : i.stats.submitted =
    i.stats.delivered + i.stats.undelivered + l.rest.length + l.dropped.length
  delivered : i.stats.delivered = (l.accepted.filter (Settled.brings told)).length
  /-- They got the outcome that was passed to `deliver`, and nothing else. -/
  received : ∀ k ∈ l.accepted, Settled.brings told k = true → ∃ o, ⟨k, o, false⟩ ∈ l.offers ∧
    ∀ reading, ⟨k, reading⟩ ∈ told ↔ reading = .got (some o)
  undelivered : i.stats.undelivered = (l.offers.filter (·.late)).length
  late : ∀ x ∈ l.offers, x.late = true → ∃ reason,
    ∀ reading, ⟨x.call, reading⟩ ∈ told ↔ reading = .refused reason

namespace Intake

variable {P : Type} {i : Intake P} {l : Ledger} {k : Nat} {told : List Settled}

theorem mem_told {s : Slot Outcome} (h : i.Sound told) (hk : i.slot? k = some s)
    (reading : Slot.Reading Outcome) : ⟨k, reading⟩ ∈ told ↔ s.reader = .settled reading := by
  obtain ⟨c, hc, rfl⟩ := Option.map_eq_some_iff.mp hk
  rw [h.told.mem ⟨k, reading⟩]
  simp [hc]

theorem brings_eq {s : Slot Outcome} (h : i.Sound told) (hk : i.slot? k = some s) :
    Settled.brings told k = s.received := by
  rw [Bool.eq_iff_iff]
  simp only [Settled.brings, List.any_eq_true, Bool.and_eq_true, decide_eq_true_eq]
  constructor
  · rintro ⟨⟨n, reading⟩, hm, rfl, hr⟩
    have hs := (mem_told h hk reading).mp hm
    unfold Slot.received
    rw [hs]
    exact hr
  · intro hr
    unfold Slot.received at hr
    split at hr
    · rename_i reading hs
      exact ⟨⟨k, reading⟩, (mem_told h hk _).mpr hs, rfl, hr⟩
    · cases hr

theorem Offered.brings {x : Offer} (hs : i.Sound told) (h : i.Offered x) :
    Settled.brings told x.call = !x.late := by
  unfold Offered at h
  cases hl : x.late with
  | true =>
    rw [if_pos hl] at h
    obtain ⟨reason, hk⟩ := h
    rw [brings_eq hs hk]
    rfl
  | false =>
    rw [hl, if_neg Bool.false_ne_true] at h
    rw [brings_eq hs h]
    rfl

theorem Tallied.not_brings (h : i.Tallied l) (hs : i.Sound told) (hk : k ∈ l.rest ∨ k ∈ l.dropped) :
    Settled.brings told k = false := by
  have hopened : ∀ fired, i.slot? k = some (.opened fired) → Settled.brings told k = false := by
    intro fired hslot
    rw [brings_eq hs hslot]
    cases fired <;> rfl
  rcases hk with hk | hk
  · obtain ⟨fired, hslot⟩ := (h.waits k hk).slot_eq
    exact hopened fired hslot
  · obtain hslot | ⟨reason, hslot⟩ := h.dropped k hk
    · rw [brings_eq hs hslot]
      rfl
    · exact hopened _ hslot

theorem Tallied.perm (h : i.Tallied l) :
    l.accepted.Perm (l.rest ++ l.offers.map (·.call) ++ l.dropped) := by
  rw [List.append_assoc]
  exact Ledger.perm_rest h.nodup h.once h.taken

/-- Those whose callers get an outcome are those that were not offered it too late. -/
theorem Tallied.filter_brings (h : i.Tallied l) (hs : i.Sound told) :
    (l.accepted.filter (Settled.brings told)).Perm ((l.offers.filter (!·.late)).map (·.call)) := by
  have hnone : ∀ ks : List Nat, (∀ k ∈ ks, k ∈ l.rest ∨ k ∈ l.dropped) →
      ks.filter (Settled.brings told) = [] := fun ks hks =>
    List.filter_eq_nil_iff.mpr fun k hk => by simp [h.not_brings hs (hks k hk)]
  have hoffers : (l.offers.map (·.call)).filter (Settled.brings told) =
      (l.offers.filter (!·.late)).map (·.call) := by
    rw [List.filter_map]
    exact congrArg _ (List.filter_congr fun x hx => (h.offered x hx).brings hs)
  have hperm := h.perm.filter (Settled.brings told)
  rwa [List.filter_append, List.filter_append, hnone l.rest fun _ => Or.inl,
    hnone l.dropped fun _ => Or.inr, hoffers, List.nil_append, List.append_nil] at hperm

theorem Tallied.conserved (h : i.Tallied l) (hs : i.Sound told) : Conserved i told l where
  once := h.nodup
  places := h.perm
  submitted := h.submitted
  total := by
    have hlength := h.perm.length_eq
    have hsplit := (List.filter_append_perm (·.late) l.offers).length_eq
    simp only [List.length_append, List.length_map] at hlength hsplit
    rw [h.submitted, h.delivered, h.undelivered]
    omega
  delivered := by
    rw [h.delivered, (h.filter_brings hs).length_eq, List.length_map]
  received k hk hb := by
    have hm := (h.filter_brings hs).mem_iff.mp (List.mem_filter.mpr ⟨hk, hb⟩)
    obtain ⟨⟨n, o, late⟩, hx, rfl⟩ := List.mem_map.mp hm
    obtain ⟨hx, hl⟩ := List.mem_filter.mp hx
    obtain rfl : late = false := by simpa using hl
    refine ⟨o, hx, fun reading => ?_⟩
    rw [mem_told hs (h.offered _ hx)]
    simp [Slot.given, eq_comm]
  undelivered := h.undelivered
  late x hx hl := by
    have ho := h.offered x hx
    unfold Offered at ho
    rw [if_pos hl] at ho
    obtain ⟨reason, hk⟩ := ho
    refine ⟨reason, fun reading => ?_⟩
    rw [mem_told hs hk]
    simp [Slot.opened, eq_comm]

end Intake
end Courier
