import Courier.Intake
import Courier.Proofs.Channel
import Courier.Proofs.Slot

/-!
What the operations of an intake do to its calls. Each of them changes slots by a function of the
call alone, and tells exactly the receives that it has ended.
-/

namespace Courier

namespace Signals

@[simp] theorem reason_none (fired : List (Nat × Value)) : reason? fired none = none := rfl

/-- A signal keeps its first reason. -/
theorem reason_append (fired : List (Nat × Value)) (signal : Nat) (reason : Value)
    (s : Option Nat) : reason? (fired ++ [(signal, reason)]) s =
      (reason? fired s).or (if s = some signal then some reason else none) := by
  cases s with
  | none => rfl
  | some n =>
    simp only [reason?, List.find?_append, bind, Option.bind_some, Option.some.injEq]
    cases List.find? (fun x => decide (x.1 = n)) fired with
    | some x => rfl
    | none =>
      by_cases hn : signal = n
      · simp [hn]
      · have hn' : ¬ n = signal := fun he => hn he.symm
        simp [hn, hn']

theorem any_fired (fired : List (Nat × Value)) (signal : Nat) :
    fired.any (·.1 = signal) = (reason? fired (some signal)).isSome := by
  have hs : (fired.find? fun x => decide (x.1 = signal)).isSome ↔
      ∃ x ∈ fired, decide (x.1 = signal) = true := List.find?_isSome
  rw [← List.any_eq_true] at hs
  simp only [reason?, bind, Option.bind_some, Option.isSome_map]
  exact (Bool.eq_iff_iff.mpr hs).symm

end Signals

/-- A call with another slot. -/
def Call.reslot {P : Type} (f : Call P → Slot Outcome) (c : Call P) : Call P :=
  { c with slot := f c }

/-- Of distinct entries one with a key is the only one. -/
theorem perm_cons_filter_ne {β : Type} {l : List (Nat × β)} (hl : (l.map (·.1)).Nodup)
    {x : Nat × β} (hx : x ∈ l) : l.Perm (x :: l.filter (·.1 ≠ x.1)) := by
  induction l with
  | nil => cases hx
  | cons y l ih =>
    rw [List.map_cons, List.nodup_cons] at hl
    rcases List.mem_cons.mp hx with rfl | hx
    · have hf : l.filter (·.1 ≠ x.1) = l := List.filter_eq_self.mpr fun z hz => by
        have hne : z.1 ≠ x.1 := fun he => hl.1 (he ▸ List.mem_map_of_mem (f := (·.1)) hz)
        simp [hne]
      rw [List.filter_cons_of_neg (by simp), hf]
    · have hne : y.1 ≠ x.1 := fun he => hl.1 (he ▸ List.mem_map_of_mem (f := (·.1)) hx)
      simp only [hne, ne_eq, not_false_eq_true, decide_true, List.filter_cons_of_pos]
      exact ((ih hl.2 hx).cons y).trans (List.Perm.swap _ _ _)

theorem modify_congr {α : Type} {a : Array α} {k : Nat} {f g : α → α}
    (h : ∀ x, a[k]? = some x → f x = g x) : a.modify k f = a.modify k g := by
  apply Array.ext_getElem?
  intro n
  simp only [Array.getElem?_modify]
  split
  · subst n
    cases hx : a[k]? with
    | none => rfl
    | some x => exact congrArg some (h x hx)
  · rfl

theorem modify_same {α : Type} {a : Array α} {k : Nat} {f : α → α}
    (h : ∀ x, a[k]? = some x → f x = x) : a.modify k f = a := by
  rw [modify_congr (g := id) h]
  exact Array.ext_getElem? fun n => by simp [Array.getElem?_modify]

theorem modify_modify {α : Type} (a : Array α) (k : Nat) (f g : α → α) :
    (a.modify k f).modify k g = a.modify k (g ∘ f) := by
  apply Array.ext_getElem?
  intro n
  simp only [Array.getElem?_modify]
  split <;> simp

theorem modify_eq_mapIdx {α : Type} (a : Array α) (k : Nat) (f : α → α) :
    a.modify k f = a.mapIdx fun n x => if n = k then f x else x := by
  apply Array.ext_getElem?
  intro n
  rw [Array.getElem?_modify, Array.getElem?_mapIdx]
  by_cases hn : n = k
  · simp [hn]
  · have hn' : k ≠ n := fun h => hn h.symm
    cases a[n]? <;> simp [hn, hn']

theorem map_eq_mapIdx {α : Type} (a : Array α) (f : α → α) : a.map f = a.mapIdx fun _ => f := by
  apply Array.ext_getElem?
  simp

theorem mapIdx_same {α : Type} (a : Array α) : (a.mapIdx fun _ x => x) = a := by
  apply Array.ext_getElem?
  simp

theorem modify_push_size {α : Type} (a : Array α) (x : α) (f : α → α) :
    (a.push x).modify a.size f = a.push (f x) := by
  apply Array.ext_getElem?
  intro n
  rw [Array.getElem?_modify, Array.getElem?_push, Array.getElem?_push]
  by_cases hn : n = a.size
  · simp [hn]
  · have hn' : a.size ≠ n := fun h => hn h.symm
    simp [hn, hn']

theorem setIfInBounds_eq_modify {α : Type} (a : Array α) (k : Nat) (x : α) :
    a.setIfInBounds k x = a.modify k fun _ => x := by
  apply Array.ext_getElem?
  intro n
  rw [Array.getElem?_modify, Array.getElem?_setIfInBounds]
  split
  · subst n
    split <;> simp_all
  · rfl

namespace Intake

variable {P : Type} {i : Intake P} {k : Nat} {f : Call P → Slot Outcome}

theorem calls_setProgress (i : Intake P) (k : Nat) (p : P) :
    (i.setProgress k p).calls = i.calls.modify k fun c => { c with progress := p } := rfl

/-- Changes the slot of one call. -/
def touch (f : Call P → Slot Outcome) (i : Intake P) (k : Nat) : Intake P × List Settled :=
  match i.calls[k]? with
  | none => (i, [])
  | some call => i.withSlot k (f call)

/-- What a change of slots has to tell about one call. -/
def news (f : Call P → Slot Outcome) (i : Intake P) (k : Nat) : Option Settled :=
  (i.calls[k]?.bind fun c => Slot.settledSince c.slot (f c)).map fun r => ⟨k, r⟩

theorem touch_eq (f : Call P → Slot Outcome) (i : Intake P) (k : Nat) :
    i.touch f k = ({ i with calls := i.calls.modify k (Call.reslot f) }, (i.news f k).toList) := by
  unfold touch news withSlot
  cases h : i.calls[k]? with
  | none =>
    have hm : i.calls.modify k (Call.reslot f) = i.calls := modify_same (by simp [h])
    simp [hm]
  | some c =>
    have hm : i.calls.modify k (fun _ => c.reslot f) = i.calls.modify k (Call.reslot f) :=
      modify_congr (by simp [h])
    simp [← hm, setIfInBounds_eq_modify, Call.reslot]

/-- Changes the slot of one more call. -/
def touchMore (f : Call P → Slot Outcome) (acc : Intake P × List Settled) (k : Nat) :
    Intake P × List Settled :=
  ((acc.1.touch f k).1, acc.2 ++ (acc.1.touch f k).2)

theorem foldl_touchMore (f : Call P → Slot Outcome) {ks : List Nat} (hk : ks.Nodup) (i : Intake P)
    (told : List Settled) : ks.foldl (touchMore f) (i, told) =
      ({ i with calls := i.calls.mapIdx fun n c => if n ∈ ks then c.reslot f else c },
        told ++ ks.filterMap (i.news f)) := by
  induction ks generalizing i told with
  | nil =>
    simp [mapIdx_same]
  | cons k ks ih =>
    obtain ⟨hn, hk⟩ := List.nodup_cons.mp hk
    let j : Intake P := { i with calls := i.calls.modify k (Call.reslot f) }
    have hcalls : (j.calls.mapIdx fun n c => if n ∈ ks then c.reslot f else c) =
        i.calls.mapIdx fun n c => if n ∈ k :: ks then c.reslot f else c := by
      apply Array.ext_getElem?
      intro n
      by_cases he : n = k
      · subst n
        simp [j, Array.getElem?_modify, hn, Function.comp_def]
      · have he' : k ≠ n := fun h => he h.symm
        simp [j, Array.getElem?_modify, he, he']
    have hnews : ks.filterMap (j.news f) = ks.filterMap (i.news f) := by
      apply List.filterMap_congr
      intro n hm
      have he : k ≠ n := fun h => hn (h ▸ hm)
      simp [j, news, Array.getElem?_modify, he]
    have hstep : touchMore f (i, told) k = (j, told ++ (i.news f k).toList) := by
      simp [touchMore, touch_eq, j]
    rw [List.foldl_cons, hstep, ih hk j, hcalls, hnews]
    cases hi : i.news f k <;> simp [j, hi]

theorem deliver_eq (i : Intake P) (k : Nat) (o : Outcome) : i.deliver k o =
    match i.calls[k]? with
    | none => (i, false, [])
    | some c =>
      ({ i with
          calls := i.calls.modify k (Call.reslot fun c => (c.slot.send o).1)
          stats := i.stats.countDelivery (c.slot.send o).2 }, (c.slot.send o).2,
        (i.news (fun c => (c.slot.send o).1) k).toList) := by
  have ht := touch_eq (fun c => (c.slot.send o).1) i k
  unfold deliver
  unfold touch at ht
  cases h : i.calls[k]? with
  | none => rfl
  | some c =>
    simp only [h] at ht ⊢
    simp [ht]

theorem drop_eq (i : Intake P) (k : Nat) : i.drop k =
    ({ i with calls := i.calls.modify k (Call.reslot (·.slot.drop)) },
      (i.news (·.slot.drop) k).toList) := by
  rw [← touch_eq]
  rfl

theorem dropAll_eq {ks : List Nat} (hk : ks.Nodup) (i : Intake P) : i.dropAll ks =
    ({ i with calls := i.calls.mapIdx fun n c => if n ∈ ks then c.reslot (·.slot.drop) else c },
      ks.filterMap (i.news (·.slot.drop))) := by
  exact foldl_touchMore (·.slot.drop) hk i []

/-- What a signal that fires does to the slot of a call. -/
def aborted (signal : Nat) (reason : Value) (c : Call P) : Slot Outcome :=
  if c.signal = some signal then c.slot.abort reason else c.slot

theorem abort_of_fired {signal : Nat} {reason : Value}
    (h : i.fired.any (·.1 = signal) = true) : i.abort signal reason = (i, []) := by
  simp [abort, Signals.fire?, h]

theorem touch_same {c : Call P} (h : i.calls[k]? = some c) (hf : f c = c.slot) :
    i.touch f k = (i, []) := by
  have hm : i.calls.modify k (Call.reslot f) = i.calls :=
    modify_same (by simp [h, Call.reslot, hf])
  have hn : i.news f k = none := by
    simp only [news, h, hf, Option.bind_some, Option.map_eq_none_iff]
    unfold Slot.settledSince
    split <;> simp_all
  rw [touch_eq, hm, hn]
  rfl

/-- A call meets the signal that fires. -/
def abortOne (signal : Nat) (reason : Value) (acc : Intake P × List Settled) (k : Nat) :
    Intake P × List Settled :=
  match acc.1.calls[k]? with
  | some call =>
    if call.signal = some signal then
      ((acc.1.withSlot k (call.slot.abort reason)).1,
        acc.2 ++ (acc.1.withSlot k (call.slot.abort reason)).2)
    else (acc.1, acc.2)
  | none => (acc.1, acc.2)

theorem abort_eq {signal : Nat} {reason : Value} (h : i.fired.any (·.1 = signal) = false) :
    i.abort signal reason =
      ({ i with
          fired := i.fired ++ [(signal, reason)]
          calls := i.calls.map (Call.reslot (aborted signal reason)) },
        (List.range i.calls.size).filterMap (i.news (aborted signal reason))) := by
  have hstep : abortOne signal reason = touchMore (P := P) (aborted signal reason) := by
    funext acc k
    unfold touchMore abortOne
    cases hc : acc.1.calls[k]? with
    | none => simp [touch, hc]
    | some c =>
      by_cases hs : c.signal = some signal
      · simp [touch, hc, hs, aborted]
      · simp [touch_same hc, hs, aborted]
  have hall : (i.calls.mapIdx fun n c =>
      if n ∈ List.range i.calls.size then c.reslot (aborted signal reason) else c) =
        i.calls.map (Call.reslot (aborted signal reason)) := by
    apply Array.ext_getElem?
    intro n
    cases hn : i.calls[n]? with
    | none => simp [hn]
    | some c => simp [(Array.getElem?_eq_some_iff.mp hn).1]
  have hfold := foldl_touchMore (aborted signal reason) (List.nodup_range (n := i.calls.size))
    { i with fired := i.fired ++ [(signal, reason)] } []
  rw [← hstep, hall] at hfold
  simp only [abort, Signals.fire?, h]
  exact hfold

/-! Sending -/

/-- The first receive on an untouched slot. -/
theorem receive_eq {c : Call P} (hk : i.calls[k]? = some c) (hc : c.slot = .new)
    (signal : Option Nat) : i.receive k signal =
      ({ i with
          calls := i.calls.modify k fun c =>
            { c with slot := .opened (i.reason? signal), signal := signal } },
        (i.reason? signal).map .refused) := by
  have hm : i.calls.modify k (fun _ =>
      { c with slot := .opened (i.reason? signal), signal := signal }) = i.calls.modify k fun c =>
        { c with slot := .opened (i.reason? signal), signal := signal } :=
    modify_congr (by simp [hk])
  simp only [receive, hk, hc, Slot.receive_new, setIfInBounds_eq_modify, ← hm]

theorem receive_push (i : Intake P) {c : Call P} (hc : c.slot = .new) (signal : Option Nat) :
    ({ i with calls := i.calls.push c } : Intake P).receive i.calls.size signal =
      ({ i with
          calls := i.calls.push ⟨c.parcel, .opened (i.reason? signal), signal, c.progress⟩ },
        (i.reason? signal).map .refused) := by
  rw [receive_eq (c := c) (by simp) hc, modify_push_size]
  rfl

/-- The call that a `send` adds. -/
def sent (i : Intake P) (sender : Nat) (request : Request) (signal : Option Nat) (start : P) :
    Call P :=
  if i.channel.isClosed sender then ⟨.request request.toValue, .new, none, start⟩
  else ⟨.request request.toValue, .opened (i.reason? signal), signal, start⟩

@[simp] theorem sent_parcel (sender : Nat) (request : Request) (signal : Option Nat) (start : P) :
    (i.sent sender request signal start).parcel = .request request.toValue := by
  unfold sent
  split <;> rfl

@[simp] theorem sent_progress (sender : Nat) (request : Request) (signal : Option Nat) (start : P) :
    (i.sent sender request signal start).progress = start := by
  unfold sent
  split <;> rfl

/-- A `send` that is refused adds its call and does nothing else. -/
theorem send_eq_of_closed {sender : Nat} (request : Request) (signal : Option Nat) (start : P)
    (h : i.channel.isClosed sender = true) : i.send sender request signal start =
      ({ i with calls := i.calls.push (i.sent sender request signal start) }, false, none,
        none) := by
  simp [send, offer, sent, Channel.send_refused h, h]

theorem send_eq_of_open {sender : Nat} (request : Request) (signal : Option Nat) (start : P)
    (h : i.channel.isClosed sender = false) : i.send sender request signal start =
      ({ i with
          channel := (i.channel.send sender i.calls.size).1
          calls := i.calls.push (i.sent sender request signal start)
          stats := { i.stats with submitted := i.stats.submitted + 1 } }, true,
        (i.reason? signal).map .refused, (i.channel.send sender i.calls.size).2.2) := by
  have ha : (i.channel.send sender i.calls.size).2.1 = true := by simp [h]
  have hr := receive_push ⟨(i.channel.send sender i.calls.size).1, i.calls,
    { i.stats with submitted := i.stats.submitted + 1 }, i.fired⟩
    (c := ⟨.request request.toValue, .new, none, start⟩) rfl signal
  simp only [send, offer, ha, sent, h, if_true]
  exact congrArg (fun r : Intake P × Option (Slot.Reading Outcome) => (r.1, true, r.2, _)) hr

/-- A `send` as a whole: the channel takes or refuses the number of the new call. -/
theorem send_spec (i : Intake P) (sender : Nat) (request : Request) (signal : Option Nat)
    (start : P) :
    (i.send sender request signal start).1.channel = (i.channel.send sender i.calls.size).1 ∧
      (i.send sender request signal start).2.2.2 = (i.channel.send sender i.calls.size).2.2 ∧
      (i.send sender request signal start).1.calls =
        i.calls.push (i.sent sender request signal start) ∧
      (i.send sender request signal start).1.fired = i.fired ∧
      (i.send sender request signal start).1.stats.delivered = i.stats.delivered ∧
      (i.send sender request signal start).1.stats.undelivered = i.stats.undelivered := by
  cases hc : i.channel.isClosed sender with
  | true =>
    rw [send_eq_of_closed request signal start hc, Channel.send_refused hc]
    exact ⟨rfl, rfl, rfl, rfl, rfl, rfl⟩
  | false =>
    rw [send_eq_of_open request signal start hc]
    exact ⟨rfl, rfl, rfl, rfl, rfl, rfl⟩

/-! What is told -/

/-- Between two states of the calls exactly the receives of `settled` have ended. -/
structure Tells (old new : Array (Call P)) (settled : List Settled) : Prop where
  nodup : (settled.map (·.call)).Nodup
  mem : ∀ s : Settled, s ∈ settled ↔ ∃ c d : Call P, old[s.call]? = some c ∧ new[s.call]? = some d ∧
    c.slot.reader = .waiting ∧ d.slot.reader = .settled s.reading

theorem mem_news {s : Settled} : i.news f k = some s ↔ s.call = k ∧
    ∃ c, i.calls[k]? = some c ∧ c.slot.reader = .waiting ∧ (f c).reader = .settled s.reading := by
  obtain ⟨n, r⟩ := s
  simp only [news, Option.map_eq_some_iff, Option.bind_eq_some_iff, Slot.settledSince_eq_some,
    Settled.mk.injEq]
  constructor
  · rintro ⟨_, ⟨c, hc, hw, hr⟩, rfl, rfl⟩
    exact ⟨rfl, c, hc, hw, hr⟩
  · rintro ⟨rfl, c, hc, hw, hr⟩
    exact ⟨r, ⟨c, hc, hw, hr⟩, rfl, rfl⟩

theorem tells_touch {ks : List Nat} (hk : ks.Nodup) {new : Array (Call P)}
    (hnew : ∀ n, (new[n]?).map (·.slot) =
      (i.calls[n]?).map fun c => if n ∈ ks then f c else c.slot) :
    Tells i.calls new (ks.filterMap (i.news f)) := by
  have hcalls : (ks.filterMap (i.news f)).map (·.call) = ks.filter fun k => (i.news f k).isSome := by
    clear hk hnew
    induction ks with
    | nil => rfl
    | cons k ks ih =>
      cases h : i.news f k with
      | none => simp [h, ih]
      | some s =>
        have hs := (mem_news.mp h).1
        simp [h, ih, hs]
  refine ⟨hcalls ▸ hk.filter _, fun s => ?_⟩
  simp only [List.mem_filterMap, mem_news]
  have hn := hnew s.call
  constructor
  · rintro ⟨k, hm, rfl, c, hc, hw, hr⟩
    rw [hc] at hn
    obtain ⟨d, hd, hs⟩ := Option.map_eq_some_iff.mp hn
    exact ⟨c, d, hc, hd, hw, by simpa [hs, hm] using hr⟩
  · rintro ⟨c, d, hc, hd, hw, hr⟩
    have hs : d.slot = if s.call ∈ ks then f c else c.slot := by simpa [hc, hd] using hn
    by_cases hm : s.call ∈ ks
    · exact ⟨s.call, hm, rfl, c, hc, hw, by simpa [hs, hm] using hr⟩
    · simp [hs, hm, hw] at hr

/-- Calls keep their parcels and signals, and their readers only go on. -/
structure Kept (old new : Array (Call P)) : Prop where
  size_le : old.size ≤ new.size
  call : ∀ (n : Nat) (c : Call P), old[n]? = some c → ∃ d : Call P, new[n]? = some d ∧
    d.parcel = c.parcel ∧ d.signal = c.signal ∧ c.slot.Follows d.slot

theorem Kept.refl (calls : Array (Call P)) : Kept calls calls :=
  ⟨Nat.le_refl _, fun _ c hc => ⟨c, hc, rfl, rfl, .refl _⟩⟩

theorem Kept.trans {a b c : Array (Call P)} (h : Kept a b) (h' : Kept b c) : Kept a c := by
  refine ⟨Nat.le_trans h.size_le h'.size_le, fun n x hx => ?_⟩
  obtain ⟨y, hy, hp, hs, hf⟩ := h.call n x hx
  obtain ⟨z, hz, hp', hs', hf'⟩ := h'.call n y hy
  exact ⟨z, hz, hp'.trans hp, hs'.trans hs, hf.trans hf'⟩

theorem kept_push (calls : Array (Call P)) (c : Call P) : Kept calls (calls.push c) := by
  refine ⟨by simp, fun n x hx => ⟨x, ?_, rfl, rfl, .refl _⟩⟩
  have hn := (Array.getElem?_eq_some_iff.mp hx).1
  rw [Array.getElem?_push, if_neg (Nat.ne_of_lt hn), hx]

theorem kept_mapIdx {calls : Array (Call P)} {g : Nat → Call P → Call P}
    (hp : ∀ n c, (g n c).parcel = c.parcel) (hs : ∀ n c, (g n c).signal = c.signal)
    (hf : ∀ n (c : Call P), c.slot.Follows (g n c).slot) : Kept calls (calls.mapIdx g) := by
  refine ⟨by simp, fun n c hc => ⟨g n c, by simp [hc], hp n c, hs n c, hf n c⟩⟩

/-- What holds of the parcels of all calls goes on to hold of them. -/
theorem Kept.parcel {old new : Array (Call P)} {p : Parcel → Prop} (h : Kept old new)
    (hsize : new.size = old.size) (hp : ∀ (n : Nat) (c : Call P), old[n]? = some c → p c.parcel)
    (n : Nat) (d : Call P) (hd : new[n]? = some d) : p d.parcel := by
  have hlt : n < old.size := hsize ▸ (Array.getElem?_eq_some_iff.mp hd).1
  obtain ⟨e, he, hparcel, _⟩ := h.call n _ (Array.getElem?_eq_getElem hlt)
  obtain rfl := Option.some.inj (hd.symm.trans he)
  rw [hparcel]
  exact hp n _ (Array.getElem?_eq_getElem hlt)

theorem Kept.map_parcel {old new : Array (Call P)} (h : Kept old new)
    (hsize : new.size = old.size) : new.map (·.parcel) = old.map (·.parcel) := by
  refine Array.ext_getElem? fun n => ?_
  rw [Array.getElem?_map, Array.getElem?_map]
  cases hc : old[n]? with
  | none =>
    rw [Array.getElem?_eq_none (hsize ▸ Array.getElem?_eq_none_iff.mp hc)]
  | some c =>
    obtain ⟨d, hd, hp, _⟩ := h.call n c hc
    rw [hd, Option.map_some, Option.map_some, hp]

/-- The receives that have ended are told, each once. -/
structure Told (calls : Array (Call P)) (told : List Settled) : Prop where
  nodup : (told.map (·.call)).Nodup
  mem : ∀ s : Settled, s ∈ told ↔
    ∃ c : Call P, calls[s.call]? = some c ∧ c.slot.reader = .settled s.reading

theorem Told.append {old new : Array (Call P)} {told settled : List Settled} (h : Told old told)
    (ht : Tells old new settled) (hk : Kept old new) (hsize : new.size = old.size) :
    Told new (told ++ settled) := by
  refine ⟨?_, fun s => ?_⟩
  · rw [List.map_append]
    refine h.nodup.append ht.nodup fun k hk hk' => ?_
    obtain ⟨s, hs, rfl⟩ := List.mem_map.mp hk
    obtain ⟨s', hs', he⟩ := List.mem_map.mp hk'
    obtain ⟨c, hc, hr⟩ := (h.mem s).mp hs
    obtain ⟨c', _, hc', _, hw, _⟩ := (ht.mem s').mp hs'
    rw [he, hc] at hc'
    simp [Option.some.inj hc', hw] at hr
  · rw [List.mem_append, h.mem, ht.mem]
    constructor
    · rintro (⟨c, hc, hr⟩ | ⟨_, d, _, hd, _, hr⟩)
      · obtain ⟨d, hd, _, _, hf⟩ := hk.call _ c hc
        exact ⟨d, hd, hf.settled hr⟩
      · exact ⟨d, hd, hr⟩
    · rintro ⟨d, hd, hr⟩
      have hlt : s.call < old.size := hsize ▸ (Array.getElem?_eq_some_iff.mp hd).1
      have hc : old[s.call]? = some old[s.call] := Array.getElem?_eq_getElem hlt
      obtain ⟨d', hd', _, _, hf⟩ := hk.call _ _ hc
      obtain rfl := Option.some.inj (hd'.symm.trans hd)
      rcases hf with he | ⟨hw, _⟩
      · exact Or.inl ⟨_, hc, he ▸ hr⟩
      · exact Or.inr ⟨_, d', hc, hd, hw, hr⟩

theorem Told.push {calls : Array (Call P)} {told : List Settled} (h : Told calls told)
    (c : Call P) (reading : Option (Slot.Reading Outcome))
    (hr : ∀ r, c.slot.reader = .settled r ↔ reading = some r) :
    Told (calls.push c) (told ++ (reading.map fun r => ⟨calls.size, r⟩).toList) := by
  have hlt : ∀ s ∈ told, s.call < calls.size := fun s hs => by
    obtain ⟨d, hd, _⟩ := (h.mem s).mp hs
    exact (Array.getElem?_eq_some_iff.mp hd).1
  refine ⟨?_, fun s => ?_⟩
  · rw [List.map_append]
    refine h.nodup.append (by cases reading <;> simp) fun k hk hk' => ?_
    obtain ⟨s, hs, rfl⟩ := List.mem_map.mp hk
    have hn := hlt s hs
    cases reading with
    | none => simp at hk'
    | some r => simp at hk'; omega
  · rw [List.mem_append]
    by_cases hn : s.call = calls.size
    · have hout : s ∉ told := fun hs => by have := hlt s hs; omega
      obtain ⟨n, r⟩ := s
      subst hn
      cases reading <;> simp_all [eq_comm]
    · have hnew : s ∉ (reading.map fun r => (⟨calls.size, r⟩ : Settled)).toList := by
        cases reading with
        | none => simp
        | some r => intro hs; simp at hs; simp [hs] at hn
      rw [Array.getElem?_push, if_neg hn, h.mem]
      simp [hnew]

/-- What callers have been told is what has become of their slots. Nobody waits any longer whose
signal has fired, and nobody has given up whose signal has not. -/
structure Sound (i : Intake P) (told : List Settled) : Prop where
  told : Told i.calls told
  slots : ∀ (n : Nat) (c : Call P), i.calls[n]? = some c → c.slot.Sound
  aware : ∀ (n : Nat) (c : Call P), i.calls[n]? = some c → c.slot.reader = .waiting →
    i.reason? c.signal = none
  refused : ∀ (n : Nat) (c : Call P) (reason : Value), i.calls[n]? = some c →
    c.slot.reader = .settled (.refused reason) → i.reason? c.signal = some reason

theorem sound_new (fired : List (Nat × Value)) : (new fired : Intake P).Sound [] :=
  ⟨⟨List.nodup_nil, by simp [new]⟩, by simp [new], by simp [new], by simp [new]⟩

theorem reason_congr {Q : Type} {j : Intake Q} (h : j.fired = i.fired) (s : Option Nat) :
    j.reason? s = i.reason? s := by
  simp [reason?, h]

theorem Sound.congr {j : Intake P} {told : List Settled} (h : i.Sound told)
    (hc : j.calls = i.calls) (hf : j.fired = i.fired) : j.Sound told := by
  refine ⟨hc ▸ h.told, hc ▸ h.slots, ?_, ?_⟩ <;> simp only [hc, reason_congr hf]
  · exact h.aware
  · exact h.refused

/-- Changes of slots, and of nothing else that callers see, are told. -/
theorem Sound.reslot {j : Intake P} {told : List Settled} {ks : List Nat} {g : Nat → Call P → Call P}
    (h : i.Sound told) (hk : ks.Nodup) (hcalls : j.calls = i.calls.mapIdx g)
    (hfired : j.fired = i.fired) (hparcel : ∀ n c, (g n c).parcel = c.parcel)
    (hsignal : ∀ n c, (g n c).signal = c.signal)
    (hslot : ∀ n c, (g n c).slot = if n ∈ ks then f c else c.slot)
    (hfollows : ∀ c : Call P, c.slot.Follows (f c))
    (hsound : ∀ c : Call P, c.slot.Sound → (f c).Sound)
    (hrefused : ∀ (c : Call P) (reason : Value), (f c).reader = .settled (.refused reason) →
      c.slot.reader = .settled (.refused reason)) :
    j.Sound (told ++ ks.filterMap (i.news f)) := by
  have hgf : ∀ n (c : Call P), c.slot.Follows (g n c).slot := by
    intro n c
    rw [hslot]
    split
    · exact hfollows c
    · exact .refl _
  have htells : Tells i.calls j.calls (ks.filterMap (i.news f)) := by
    refine tells_touch hk fun n => ?_
    rw [hcalls]
    cases hn : i.calls[n]? <;> simp [hn, hslot]
  have hkept : Kept i.calls j.calls := hcalls ▸ kept_mapIdx hparcel hsignal hgf
  refine ⟨h.told.append htells hkept (by simp [hcalls]), fun n d hd => ?_, fun n d hd hw => ?_,
    fun n d reason hd hr => ?_⟩
  · rw [hcalls, Array.getElem?_mapIdx] at hd
    obtain ⟨c, hc, rfl⟩ := Option.map_eq_some_iff.mp hd
    rw [hslot]
    split
    · exact hsound c (h.slots n c hc)
    · exact h.slots n c hc
  · rw [hcalls, Array.getElem?_mapIdx] at hd
    obtain ⟨c, hc, rfl⟩ := Option.map_eq_some_iff.mp hd
    rw [hsignal, reason_congr hfired]
    exact h.aware n c hc ((hgf n c).waiting hw)
  · rw [hcalls, Array.getElem?_mapIdx] at hd
    obtain ⟨c, hc, rfl⟩ := Option.map_eq_some_iff.mp hd
    rw [hsignal, reason_congr hfired]
    rw [hslot] at hr
    split at hr
    · exact h.refused n c reason hc (hrefused c reason hr)
    · exact h.refused n c reason hc hr

/-- A `send` tells its caller at once if its signal has fired already. -/
theorem Sound.sent {j : Intake P} {told : List Settled} {sender : Nat} {request : Request}
    {signal : Option Nat} {start : P} (h : i.Sound told)
    (hcalls : j.calls = i.calls.push (i.sent sender request signal start))
    (hfired : j.fired = i.fired) :
    j.Sound (told ++ ((if i.channel.isClosed sender then none
      else (i.reason? signal).map .refused).map fun r => (⟨i.calls.size, r⟩ : Settled)).toList) := by
  have hread : ∀ r, (i.sent sender request signal start).slot.reader = .settled r ↔
      (if i.channel.isClosed sender then none else (i.reason? signal).map .refused) = some r := by
    intro r
    unfold Intake.sent
    split
    · simp [Slot.new]
    · cases i.reason? signal <;> simp [Slot.opened]
  refine ⟨hcalls ▸ h.told.push _ _ hread, fun n c hc => ?_, fun n c hc hw => ?_,
    fun n c reason hc hr => ?_⟩
  · rw [hcalls, Array.getElem?_push] at hc
    split at hc
    · rw [← Option.some.inj hc]
      unfold Intake.sent
      split
      · exact Slot.sound_new
      · exact Slot.sound_opened _
    · exact h.slots n c hc
  · rw [hcalls, Array.getElem?_push] at hc
    rw [reason_congr hfired]
    split at hc
    · obtain rfl := Option.some.inj hc
      unfold Intake.sent at hw ⊢
      split at hw
      · simp [Slot.new] at hw
      · rename_i hopen
        rw [if_neg hopen]
        cases hr : i.reason? signal with
        | none => rfl
        | some reason => simp [hr, Slot.opened] at hw
    · exact h.aware n c hc hw
  · rw [hcalls, Array.getElem?_push] at hc
    rw [reason_congr hfired]
    split at hc
    · obtain rfl := Option.some.inj hc
      unfold Intake.sent at hr ⊢
      split at hr
      · simp [Slot.new] at hr
      · rename_i hopen
        rw [if_neg hopen]
        cases hf : i.reason? signal with
        | none => simp [hf, Slot.opened] at hr
        | some first => simpa [hf, Slot.opened] using hr
    · exact h.refused n c reason hc hr

theorem reason_fired {j : Intake P} {signal : Nat} {reason : Value}
    (h : j.fired = i.fired ++ [(signal, reason)]) (s : Option Nat) :
    j.reason? s = (i.reason? s).or (if s = some signal then some reason else none) := by
  rw [reason?, h]
  exact Signals.reason_append i.fired signal reason s

theorem aborted_follows (signal : Nat) (reason : Value) (c : Call P) :
    c.slot.Follows (aborted signal reason c) := by
  unfold aborted
  split
  · exact Slot.abort_follows _ _
  · exact .refl _

theorem kept_abort (i : Intake P) (signal : Nat) (reason : Value) :
    Kept i.calls (i.abort signal reason).1.calls := by
  cases hf : i.fired.any (·.1 = signal) with
  | true => rw [abort_of_fired hf]; exact .refl _
  | false =>
    rw [abort_eq hf, map_eq_mapIdx]
    exact kept_mapIdx (fun _ _ => rfl) (fun _ _ => rfl) fun _ c => aborted_follows signal reason c

/-- A signal that fires touches neither the channel nor the counters. -/
theorem abort_spec (i : Intake P) (signal : Nat) (reason : Value) :
    (i.abort signal reason).1.channel = i.channel ∧ (i.abort signal reason).1.stats = i.stats ∧
      (i.abort signal reason).1.calls.size = i.calls.size := by
  cases hf : i.fired.any (·.1 = signal) with
  | true => rw [abort_of_fired hf]; exact ⟨rfl, rfl, rfl⟩
  | false => rw [abort_eq hf]; exact ⟨rfl, rfl, by simp⟩

theorem Sound.abort {told : List Settled} (h : i.Sound told) (signal : Nat) (reason : Value) :
    (i.abort signal reason).1.Sound (told ++ (i.abort signal reason).2) := by
  cases hf : i.fired.any (·.1 = signal) with
  | true =>
    rw [abort_of_fired hf]
    simpa using h
  | false =>
    have hkept := kept_abort i signal reason
    rw [abort_eq hf] at hkept ⊢
    have htells : Tells i.calls (i.calls.map (Call.reslot (aborted signal reason)))
        ((List.range i.calls.size).filterMap (i.news (aborted signal reason))) := by
      refine tells_touch List.nodup_range fun n => ?_
      cases hn : i.calls[n]? with
      | none => simp [hn]
      | some c =>
        have hlt := (Array.getElem?_eq_some_iff.mp hn).1
        rw [Array.getElem?_map, hn]
        simp [hlt, Call.reslot]
    refine ⟨h.told.append htells hkept (by simp), fun n d hd => ?_, fun n d hd hw => ?_,
      fun n d r hd hr => ?_⟩
    · rw [Array.getElem?_map] at hd
      obtain ⟨c, hc, rfl⟩ := Option.map_eq_some_iff.mp hd
      simp only [Call.reslot, aborted]
      split
      · exact Slot.sound_abort (h.slots n c hc) reason
      · exact h.slots n c hc
    · rw [Array.getElem?_map] at hd
      obtain ⟨c, hc, rfl⟩ := Option.map_eq_some_iff.mp hd
      have hwc : c.slot.reader = .waiting := (aborted_follows signal reason c).waiting hw
      have hs : c.signal ≠ some signal := by
        intro hs
        have hr := Slot.reader_abort hwc reason
        simp [Call.reslot, aborted, hs, hr] at hw
      rw [reason_fired rfl]
      simp [Call.reslot, hs, h.aware n c hc hwc]
    · rw [Array.getElem?_map] at hd
      obtain ⟨c, hc, rfl⟩ := Option.map_eq_some_iff.mp hd
      rw [reason_fired rfl]
      simp only [Call.reslot] at hr ⊢
      rcases aborted_follows signal reason c with hsame | ⟨hw, _⟩
      · rw [h.refused n c r hc (hsame ▸ hr)]
        rfl
      · -- The signal has fired just now.
        rw [h.aware n c hc hw, Option.none_or]
        unfold aborted at hr
        split at hr
        · rename_i hs
          rw [Slot.reader_abort hw] at hr
          simpa [hs] using hr
        · rw [hw] at hr
          cases hr

theorem kept_deliver (i : Intake P) (k : Nat) (o : Outcome) :
    Kept i.calls (i.deliver k o).1.calls := by
  rw [deliver_eq]
  cases h : i.calls[k]? with
  | none => exact .refl _
  | some c =>
    show Kept i.calls (i.calls.modify k _)
    rw [modify_eq_mapIdx]
    refine kept_mapIdx (fun n c => by split <;> rfl) (fun n c => by split <;> rfl) fun n c => ?_
    split
    · exact Slot.send_follows c.slot o
    · exact .refl _

theorem kept_dropAll {ks : List Nat} (hk : ks.Nodup) (i : Intake P) :
    Kept i.calls (i.dropAll ks).1.calls := by
  rw [dropAll_eq hk]
  refine kept_mapIdx (fun n c => by split <;> rfl) (fun n c => by split <;> rfl) fun n c => ?_
  split
  · exact Slot.drop_follows c.slot
  · exact .refl _

theorem dropAll_spec {ks : List Nat} (hk : ks.Nodup) (i : Intake P) :
    (i.dropAll ks).1.channel = i.channel ∧ (i.dropAll ks).1.fired = i.fired ∧
      (i.dropAll ks).1.stats = i.stats ∧ (i.dropAll ks).1.calls.size = i.calls.size ∧
      ∀ n, (i.dropAll ks).1.calls[n]? =
        i.calls[n]?.map fun c => if n ∈ ks then c.reslot (·.slot.drop) else c := by
  rw [dropAll_eq hk]
  exact ⟨rfl, rfl, rfl, by simp, fun n => by simp⟩

/-- A delivery changes the call that it is for, and one of the two counters by one. -/
theorem deliver_spec {c : Call P} (hk : i.calls[k]? = some c) (o : Outcome) :
    (i.deliver k o).1.channel = i.channel ∧ (i.deliver k o).1.fired = i.fired ∧
      (i.deliver k o).1.calls.size = i.calls.size ∧
      (∀ n, n ≠ k → (i.deliver k o).1.calls[n]? = i.calls[n]?) ∧
      (i.deliver k o).1.stats.delivered + (i.deliver k o).1.stats.undelivered =
        i.stats.delivered + i.stats.undelivered + 1 := by
  rw [deliver_eq, hk]
  refine ⟨rfl, rfl, by simp, fun n hn => ?_, ?_⟩
  · simp [Array.getElem?_modify, hn.symm]
  · show (Stats.countDelivery _ _).delivered + (Stats.countDelivery _ _).undelivered = _
    unfold Stats.countDelivery
    split <;> simp only <;> omega

theorem Sound.deliver {told : List Settled} (h : i.Sound told) {c : Call P}
    (hk : i.calls[k]? = some c) (o : Outcome) :
    (i.deliver k o).1.Sound (told ++ (i.deliver k o).2.2) := by
  rw [deliver_eq, hk]
  have hr := h.reslot (f := fun c => (c.slot.send o).1)
    (j := { i with
      calls := i.calls.modify k (Call.reslot fun c => (c.slot.send o).1)
      stats := i.stats.countDelivery (c.slot.send o).2 })
    (List.nodup_singleton k) (modify_eq_mapIdx _ _ _) rfl (fun n c => by split <;> rfl)
    (fun n c => by split <;> rfl) (fun n c => by simp only [List.mem_singleton]; split <;> rfl)
    (fun c => Slot.send_follows _ o) (fun c hs => Slot.sound_send hs o)
    fun c reason => Slot.refused_of_send
  cases hn : i.news (fun c => (c.slot.send o).1) k <;> simpa [hn] using hr

theorem Sound.dropAll {told : List Settled} {ks : List Nat} (h : i.Sound told) (hk : ks.Nodup) :
    (i.dropAll ks).1.Sound (told ++ (i.dropAll ks).2) := by
  rw [dropAll_eq hk]
  exact h.reslot hk rfl rfl (fun n c => by split <;> rfl) (fun n c => by split <;> rfl)
    (fun n c => by split <;> rfl) (fun c => Slot.drop_follows _) (fun c hs => Slot.sound_drop hs)
    fun c reason => Slot.refused_of_drop

/-! Calls that wait, and calls whose slots have come to an end -/

variable {slot : Slot Outcome}

/-- A call waits, unless its signal has ended that. -/
def Waits (i : Intake P) (k : Nat) : Prop :=
  ∃ c : Call P, i.calls[k]? = some c ∧ c.slot = .opened (i.reason? c.signal)

/-- The slot of a call has come to an end, unless the signal of the call had ended the waiting
before. -/
def Rests (i : Intake P) (k : Nat) (slot : Slot Outcome) : Prop :=
  ∃ c : Call P, i.calls[k]? = some c ∧ (c.slot = slot ∨
    ∃ reason, i.reason? c.signal = some reason ∧ c.slot = .opened (some reason))

theorem Waits.congr {j : Intake P} (h : i.Waits k) (hc : j.calls[k]? = i.calls[k]?)
    (hf : j.fired = i.fired) : j.Waits k := by
  obtain ⟨c, hk, hs⟩ := h
  exact ⟨c, hc.trans hk, by rw [hs, reason_congr hf]⟩

theorem Rests.congr {j : Intake P} (h : i.Rests k slot) (hc : j.calls[k]? = i.calls[k]?)
    (hf : j.fired = i.fired) : j.Rests k slot := by
  obtain ⟨c, hk, hs⟩ := h
  refine ⟨c, hc.trans hk, ?_⟩
  rwa [reason_congr hf]

theorem Waits.size_lt (h : i.Waits k) : k < i.calls.size := by
  obtain ⟨c, hk, _⟩ := h
  exact (Array.getElem?_eq_some_iff.mp hk).1

theorem Rests.size_lt (h : i.Rests k slot) : k < i.calls.size := by
  obtain ⟨c, hk, _⟩ := h
  exact (Array.getElem?_eq_some_iff.mp hk).1

theorem getElem_push_of_lt {a : Array (Call P)} (h : k < a.size) (c : Call P) :
    (a.push c)[k]? = a[k]? := by
  rw [Array.getElem?_push, if_neg (Nat.ne_of_lt h)]

theorem waits_sent {j : Intake P} {sender : Nat} {request : Request} {signal : Option Nat}
    {start : P} (hc : i.channel.isClosed sender = false)
    (hcalls : j.calls = i.calls.push (i.sent sender request signal start))
    (hf : j.fired = i.fired) : j.Waits i.calls.size := by
  refine ⟨i.sent sender request signal start, by rw [hcalls, Array.getElem?_push_size], ?_⟩
  rw [reason_congr hf]
  simp [sent, hc]

theorem Waits.abort (h : i.Waits k) (signal : Nat) (reason : Value) :
    (i.abort signal reason).1.Waits k := by
  cases hf : i.fired.any (·.1 = signal) with
  | true =>
    rw [abort_of_fired hf]
    exact h
  | false =>
    obtain ⟨c, hk, hs⟩ := h
    rw [abort_eq hf]
    refine ⟨c.reslot (aborted signal reason), by simp [hk], ?_⟩
    rw [reason_fired rfl]
    by_cases hc : c.signal = some signal
    · rw [Signals.any_fired, ← reason?, ← hc, Option.isSome_eq_false_iff,
        Option.isNone_iff_eq_none] at hf
      simp only [Call.reslot, aborted, hc, if_true, hs]
      rw [← hc, hf]
      rfl
    · simp [Call.reslot, aborted, hc, hs]

theorem Rests.abort (h : i.Rests k slot) {r : Slot.Reading Outcome}
    (hr : slot.reader = .settled r) (signal : Nat) (reason : Value) :
    (i.abort signal reason).1.Rests k slot := by
  cases hf : i.fired.any (·.1 = signal) with
  | true =>
    rw [abort_of_fired hf]
    exact h
  | false =>
    obtain ⟨c, hk, hs⟩ := h
    rw [abort_eq hf]
    have hslot : aborted signal reason c = c.slot := by
      unfold aborted
      split
      · rcases hs with hs | ⟨_, _, hs⟩
        · simp [Slot.abort, hs, hr]
        · rw [hs]
          rfl
      · rfl
    refine ⟨c.reslot (aborted signal reason), by simp [hk], ?_⟩
    rw [reason_fired rfl]
    simp only [Call.reslot, hslot]
    rcases hs with hs | ⟨r, hr, hs⟩
    · exact Or.inl hs
    · exact Or.inr ⟨r, by rw [hr]; rfl, hs⟩

/-- A call that waits falls when it is dropped. -/
theorem Waits.drop {j : Intake P} {c' : Call P} (h : i.Waits k) (hf : j.fired = i.fired)
    (hk' : j.calls[k]? = some c')
    (hdrop : ∀ c : Call P, i.calls[k]? = some c → c' = c.reslot (·.slot.drop)) :
    j.Rests k .fallen := by
  obtain ⟨c, hk, hs⟩ := h
  obtain rfl := hdrop c hk
  refine ⟨_, hk', ?_⟩
  simp only [Call.reslot, hs]
  rw [reason_congr hf]
  cases hr : i.reason? c.signal with
  | none => exact Or.inl rfl
  | some reason => exact Or.inr ⟨reason, rfl, rfl⟩

/-- A call that waits gets what is delivered to it. -/
theorem Waits.deliver (h : i.Waits k) (o : Outcome) : (i.deliver k o).1.Rests k (.given o) := by
  obtain ⟨c, hk, hs⟩ := h
  have hf := (deliver_spec hk o).2.1
  rw [deliver_eq, hk] at hf ⊢
  refine ⟨c.reslot fun c => (c.slot.send o).1, ?_, ?_⟩
  · simp only
    rw [Array.getElem?_modify, if_pos rfl, hk]
    rfl
  · rw [reason_congr hf]
    simp only [Call.reslot, hs]
    cases hr : i.reason? c.signal with
    | none => exact Or.inl rfl
    | some reason => exact Or.inr ⟨reason, rfl, rfl⟩

/-- The signal of a call has fired, and that is the answer. -/
def GaveUp (i : Intake P) (k : Nat) (a : Attempt Value) : Prop :=
  ∃ (c : Call P) (reason : Value), i.calls[k]? = some c ∧ i.reason? c.signal = some reason ∧
    a = .error (Fault.aborted reason).toValue

/-- Nothing can be delivered to a call at rest. -/
theorem Rests.not_isOpen (h : i.Rests k slot) (ho : slot.isOpen = false) :
    ∃ c : Call P, i.calls[k]? = some c ∧ c.slot.isOpen = false := by
  obtain ⟨c, hk, hs | ⟨reason, _, hs⟩⟩ := h
  · exact ⟨c, hk, hs ▸ ho⟩
  · exact ⟨c, hk, hs ▸ rfl⟩

/-- The caller of a call at rest was told, by what ended the slot or by its signal. -/
theorem Rests.told {told : List Settled} (h : i.Rests k slot) {r : Slot.Reading Outcome}
    (hr : slot.reader = .settled r) (hs : i.Sound told) :
    ⟨k, r⟩ ∈ told ∨ ∃ (c : Call P) (reason : Value), i.calls[k]? = some c ∧
      i.reason? c.signal = some reason ∧ ⟨k, .refused reason⟩ ∈ told := by
  obtain ⟨c, hk, hslot | ⟨reason, hf, hslot⟩⟩ := h
  · exact Or.inl ((hs.told.mem ⟨k, r⟩).mpr ⟨c, hk, by rw [hslot, hr]⟩)
  · exact Or.inr ⟨c, reason, hk, hf,
      (hs.told.mem ⟨k, .refused reason⟩).mpr ⟨c, hk, by rw [hslot]; rfl⟩⟩

end Intake
end Courier
