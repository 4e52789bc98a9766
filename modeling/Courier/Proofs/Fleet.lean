import Courier.Proofs.Course
import Courier.Proofs.Lifetime

/-!
Call ids of transports side by side. The handles of one transport, however they were made and
whether or not they are closed, draw from one counter, and nothing else moves it: so the ids of a
transport are 1, 2, 3 and so on, up to the last whole number that binary64 counts exactly.
-/

namespace Courier

namespace Binary64

theorem addOne_of_units {x : Binary64} {a : Nat} (hx : x.units? = some (a : Int)) :
    x.addOne = round false (a + unit) 1 := by
  have hneg : ¬ (a : Int) + (unit : Int) < 0 := by omega
  have habs : ((a : Int) + (unit : Int)).natAbs = a + unit := by omega
  simp only [addOne, hx, hneg, habs, decide_false]

theorem addOne_ofNat {n : Nat} (h : n ≤ 2 ^ 53) : (ofNat n).addOne = ofNat (n + 1) := by
  rw [addOne_of_units (units_ofNat h), ofNat_eq, Nat.succ_mul]

/-- One more than the largest exact count lies halfway, and is rounded back. -/
theorem ofNat_top : ofNat (2 ^ 53 + 1) = ofNat (2 ^ 53) := by decide +kernel

theorem ofNat_inj {m n : Nat} (hm : m ≤ 2 ^ 53) (hn : n ≤ 2 ^ 53) (h : ofNat m = ofNat n) :
    m = n := by
  have hunits : (ofNat m).units? = (ofNat n).units? := by rw [h]
  rw [units_ofNat hm, units_ofNat hn, Option.some.injEq, Int.natCast_inj] at hunits
  exact Nat.eq_of_mul_eq_mul_right unit_pos hunits

end Binary64

namespace CallId

/-- The id of the call that comes after `n` others. -/
def after (n : Nat) : Binary64 := .ofNat (min (n + 1) (2 ^ 53))

theorem after_eq {n : Nat} (h : n < 2 ^ 53) : after n = .ofNat (n + 1) := by
  rw [after, Nat.min_eq_left h]

theorem addOne_after (n : Nat) : (after n).addOne = after (n + 1) := by
  rw [after, Binary64.addOne_ofNat (Nat.min_le_right _ _), after]
  rcases Nat.lt_or_ge (n + 1) (2 ^ 53) with hn | hn
  · rw [Nat.min_eq_left (Nat.le_of_lt hn), Nat.min_eq_left hn]
  · rw [Nat.min_eq_right hn, Nat.min_eq_right (Nat.le_succ_of_le hn)]
    exact Binary64.ofNat_top

theorem draw_after (n : Nat) :
    (number (after n)).draw = (.number (after n), number (after (n + 1))) := by
  rw [draw, addOne_after]

end CallId

namespace Transport

variable {α : Type}

/-- Callers who draw no id leave the counter alone. -/
theorem ids_act (t : Transport) (c : Channel α) (caller : Caller) :
    (t.act c caller).1.handles.ids = t.handles.ids := by
  cases caller with
  | handle uri =>
    simp only [act, handle]
    cases target uri with
    | error fault => rfl
    | ok href =>
      cases hc : t.closed
      · rfl
      · rfl
  | clone place =>
    simp only [act]
    cases t.handles.members[place]? <;> rfl
  | close => cases hc : t.closed <;> simp [act, close, hc]
  | _ => rfl

end Transport

theorem Lease.ids_step (l : Lease) (e : Lease.Event) :
    (l.step e).transport.handles.ids = l.transport.handles.ids := by
  cases e with
  | caller c => exact l.transport.ids_act l.channel c
  | _ => rfl

/-- The handle at a place, open or closed, draws an id. -/
def Lease.draw (l : Lease) (place : Nat) : Lease × Option Value :=
  match l.transport.handles.members[place]? with
  | some _ =>
    let (handles, id) := l.transport.handles.nextId
    ({ l with transport := { l.transport with handles := handles } }, some id)
  | none => (l, none)

/-- Transports side by side, each with its channel. -/
structure Fleet where
  leases : Array Lease

namespace Fleet

inductive Event where
  /-- One more transport is built. -/
  | build
  /-- Something happens to one transport. -/
  | on (transport : Nat) (e : Lease.Event)
  /-- A handle of a transport draws an id. -/
  | draw (transport place : Nat)

def Event.drawsFrom (t : Nat) : Event → Bool
  | .draw transport _ => transport = t
  | _ => false

def empty : Fleet := ⟨#[]⟩

def step (f : Fleet) : Event → Fleet × Option Value
  | .build => (⟨f.leases.push .start⟩, none)
  | .on t e => (⟨f.leases.modify t (·.step e)⟩, none)
  | .draw t place =>
    match f.leases[t]? with
    | some l => (⟨f.leases.setIfInBounds t (l.draw place).1⟩, (l.draw place).2)
    | none => (f, none)

def run (f : Fleet) (events : List Event) : Fleet := events.foldl (fun f e => (f.step e).1) f

/-- The ids drawn from one transport, in order. -/
def drawn (t : Nat) : Fleet → List Event → List Value
  | _, [] => []
  | f, e :: events =>
    (if e.drawsFrom t then (f.step e).2.toList else []) ++ drawn t (f.step e).1 events

variable {f : Fleet} {t n : Nat}

theorem run_concat (f : Fleet) (events : List Event) (e : Event) :
    f.run (events ++ [e]) = ((f.run events).step e).1 := by
  simp [run]

theorem drawn_concat (t : Nat) (f : Fleet) (events : List Event) (e : Event) :
    drawn t f (events ++ [e]) =
      drawn t f events ++ if e.drawsFrom t then ((f.run events).step e).2.toList else [] := by
  induction events generalizing f with
  | nil => simp [drawn, run]
  | cons e' events ih => simp [drawn, ih, run]

/-- The counter of a transport after `n` ids were drawn from it. One that is yet to be built has
had none drawn from it. -/
structure Counts (f : Fleet) (t n : Nat) : Prop where
  ids : ∀ l, f.leases[t]? = some l → l.transport.handles.ids = .number (CallId.after n)
  fresh : f.leases.size ≤ t → n = 0

theorem counts_empty (t : Nat) : empty.Counts t 0 := ⟨by simp [empty], fun _ => rfl⟩

theorem Counts.build (h : f.Counts t n) : (f.step .build).1.Counts t n := by
  constructor
  · intro l hl
    rcases Nat.lt_or_ge t f.leases.size with ht | ht
    · exact h.ids l (by simpa [step, Array.getElem?_push, Nat.ne_of_lt ht] using hl)
    · rw [h.fresh ht]
      obtain rfl : l = .start := by
        simp only [step, Array.getElem?_push] at hl
        split at hl
        · exact (Option.some.inj hl).symm
        · simp [ht] at hl
      rfl
  · intro hle
    exact h.fresh (by simp [step] at hle; omega)

theorem Counts.on (h : f.Counts t n) (other : Nat) (e : Lease.Event) :
    (f.step (.on other e)).1.Counts t n := by
  constructor
  · intro l hl
    simp only [step, Array.getElem?_modify] at hl
    split at hl
    · obtain ⟨l', hl', rfl⟩ := Option.map_eq_some_iff.mp hl
      rw [Lease.ids_step]
      exact h.ids l' hl'
    · exact h.ids l hl
  · simpa [step] using h.fresh

/-- The id that is drawn, and the counter after it. -/
theorem Counts.draw_handle {l : Lease} {place : Nat} {m : Handle} (h : f.Counts t n)
    (hl : f.leases[t]? = some l) (hm : l.transport.handles.members[place]? = some m) :
    (f.step (.draw t place)).2 = some (.number (CallId.after n)) ∧
      (f.step (.draw t place)).1.Counts t (n + 1) := by
  have hlt : t < f.leases.size := (Array.getElem?_eq_some_iff.mp hl).1
  have hd : l.draw place = ({ l with transport.handles.ids := .number (CallId.after (n + 1)) },
      some (.number (CallId.after n))) := by
    simp [Lease.draw, hm, Handles.nextId, h.ids l hl, CallId.draw_after]
  simp only [step, hl, hd, true_and]
  constructor
  · intro l' hl'
    rw [Array.getElem?_setIfInBounds_self_of_lt hlt] at hl'
    obtain rfl := Option.some.inj hl'
    rfl
  · intro hle
    simp at hle
    omega

/-- Other transports, and places without a handle, draw nothing here. -/
theorem Counts.draw_aside {other place : Nat} (h : f.Counts t n)
    (ha : other = t → ∀ l, f.leases[t]? = some l → l.transport.handles.members[place]? = none) :
    (f.step (.draw other place)).1.Counts t n ∧
      (other = t → (f.step (.draw other place)).2 = none) := by
  cases hl : f.leases[other]? with
  | none =>
    have hs : f.step (.draw other place) = (f, none) := by simp [step, hl]
    rw [hs]
    exact ⟨h, fun _ => rfl⟩
  | some l =>
    have hlt : other < f.leases.size := (Array.getElem?_eq_some_iff.mp hl).1
    by_cases he : other = t
    · subst he
      have hd : l.draw place = (l, none) := by simp [Lease.draw, ha rfl l hl]
      have hset : f.leases.setIfInBounds other l = f.leases := by
        obtain ⟨_, hget⟩ := Array.getElem?_eq_some_iff.mp hl
        simp [Array.setIfInBounds, hlt, ← hget]
      simp only [step, hl, hd, hset]
      exact ⟨h, fun _ => trivial⟩
    · refine ⟨⟨fun l' hl' => ?_, ?_⟩, fun h => absurd h he⟩
      · simp only [step, hl, Array.getElem?_setIfInBounds_ne he] at hl'
        exact h.ids l' hl'
      · simpa [step, hl] using h.fresh

/-- The ids that a counter hands out first. -/
def firstIds (count : Nat) : List Value :=
  (List.range count).map fun n => .number (CallId.after n)

theorem firstIds_succ (n : Nat) : firstIds (n + 1) = firstIds n ++ [.number (CallId.after n)] := by
  simp [firstIds, List.range_succ]

/-- A step hands out the next id of a transport, or none of its ids. -/
theorem Counts.step (h : f.Counts t n) (e : Event) : ∃ k, (f.step e).1.Counts t k ∧
    firstIds k = firstIds n ++ if e.drawsFrom t then (f.step e).2.toList else [] := by
  cases e with
  | build => exact ⟨n, h.build, by simp [Event.drawsFrom]⟩
  | on other e => exact ⟨n, h.on other e, by simp [Event.drawsFrom]⟩
  | draw other place =>
    by_cases hd : other = t ∧ ∃ l m, f.leases[t]? = some l ∧
        l.transport.handles.members[place]? = some m
    · obtain ⟨rfl, l, m, hl, hm⟩ := hd
      obtain ⟨hid, hcounts⟩ := h.draw_handle hl hm
      exact ⟨n + 1, hcounts, by simp [Event.drawsFrom, hid, firstIds_succ]⟩
    · have ha : other = t → ∀ l, f.leases[t]? = some l →
          l.transport.handles.members[place]? = none := by
        intro he l hl
        by_contra hn
        obtain ⟨m, hm⟩ := Option.ne_none_iff_exists'.mp hn
        exact hd ⟨he, l, m, hl, hm⟩
      obtain ⟨hcounts, hnone⟩ := h.draw_aside ha
      refine ⟨n, hcounts, ?_⟩
      by_cases he : other = t
      · simp [hnone he]
      · simp [Event.drawsFrom, he]

theorem counts_run (events : List Event) (t : Nat) :
    ∃ n, (empty.run events).Counts t n ∧ drawn t empty events = firstIds n := by
  induction events using List.reverseRecOn with
  | nil => exact ⟨0, counts_empty t, rfl⟩
  | append_singleton events e ih =>
    obtain ⟨n, hcounts, hids⟩ := ih
    obtain ⟨k, hcounts', hnext⟩ := hcounts.step e
    rw [run_concat, drawn_concat, hids, ← hnext]
    exact ⟨k, hcounts', rfl⟩

theorem getElem?_firstIds {count k : Nat} (h : k < count) :
    (firstIds count)[k]? = some (.number (CallId.after k)) := by
  simp [firstIds, h]

theorem nodup_take_firstIds (count : Nat) : ((firstIds count).take (2 ^ 53)).Nodup := by
  rw [firstIds, ← List.map_take, List.take_range]
  refine List.Nodup.map_on (fun m hm k hk he => ?_) List.nodup_range
  rw [List.mem_range, Nat.lt_min] at hm hk
  rw [CallId.after_eq hm.1, CallId.after_eq hk.1, Value.number.injEq] at he
  exact Nat.succ.inj (Binary64.ofNat_inj hm.1 hk.1 he)

/-- The ids of a transport, and what it will answer next. -/
structure Numbered (f : Fleet) (t : Nat) (ids : List Value) : Prop where
  /-- Counted from 1 the n-th id is n, until the counter stays. -/
  nth (n : Nat) : n < ids.length → ids[n]? = some (.number (.ofNat (min (n + 1) (2 ^ 53))))
  /-- A handle that is asked has an answer, whatever happened to it or to its transport. -/
  next (l : Lease) (place : Nat) (m : Handle) : f.leases[t]? = some l →
    l.transport.handles.members[place]? = some m →
      (f.step (.draw t place)).2 = some (.number (.ofNat (min (ids.length + 1) (2 ^ 53))))
  distinct : (ids.take (2 ^ 53)).Nodup
  consecutive (k count : Nat) : k + count ≤ ids.length → k + count ≤ 2 ^ 53 →
    (ids.drop k).take count = (List.range' (k + 1) count).map fun n => .number (.ofNat n)

theorem Counts.numbered (h : f.Counts t n) : f.Numbered t (firstIds n) where
  nth k hk := getElem?_firstIds (by simpa [firstIds] using hk)
  next l place m hl hm := by
    rw [(h.draw_handle hl hm).1]
    simp [firstIds, CallId.after]
  distinct := nodup_take_firstIds n
  consecutive k count hlen htop := by
    have hlen' : k + count ≤ n := by simpa [firstIds] using hlen
    refine List.ext_getElem? fun i => ?_
    rcases Nat.lt_or_ge i count with hi | hi
    · have he : k + 1 + i = k + i + 1 := by omega
      rw [List.getElem?_take_of_lt hi, List.getElem?_drop, getElem?_firstIds (by omega),
        CallId.after_eq (by omega)]
      simp [hi, he]
    · simp [firstIds, hi]

/-- Whatever happens to transports and their handles, each transport numbers its calls from 1 on
without a gap. -/
theorem ids_gap_free (events : List Event) (t : Nat) :
    (empty.run events).Numbered t (drawn t empty events) := by
  obtain ⟨n, hcounts, hids⟩ := counts_run events t
  rw [hids]
  exact hcounts.numbered

end Fleet
end Courier
