import Courier.Proofs.Posting

/-!
What comes of the values that arrive on the owner's port, whatever they are. A well-formed response
under the number of a request that waits is offered to the caller of that request, and the request
waits no longer; everything else is logged and changes nothing. So a caller is offered one outcome
at most, and only one that was posted under the number of its own request.
-/

namespace Courier

namespace Outcome

/-- What a posted outcome says: the bytes of a reply, or a failure with its parts. -/
def Says (posted : Value) (o : Outcome) : Prop :=
  (posted.field "ok" = .bool true ∧
    ∃ body, (posted.field "value").bytes? = some body ∧ o = .success body) ∨
  (posted.field "ok" = .bool false ∧ ∃ (kind : FaultKind) (message : String),
    (posted.field "error").field "kind" = .string kind.name ∧
    (posted.field "error").field "message" = .string message ∧
    o = .failure ⟨.string kind.name, message, (posted.field "error").field "status",
      (posted.field "error").field "cause"⟩)

/-- What passes the check can be read, and comes to what it says. -/
theorem ofPosted_of_isPosted {v : Value} (h : isPosted v = true) :
    ∃ o, ofPosted v = .ok o ∧ Says v o := by
  simp only [isPosted, Bool.and_eq_true] at h
  obtain ⟨_, h⟩ := h
  split at h
  · rename_i hok
    obtain ⟨body, hbody⟩ := Option.isSome_iff_exists.mp h
    exact ⟨.success body, by simp [ofPosted, hok, hbody], Or.inl ⟨hok, body, hbody, rfl⟩⟩
  · rename_i hok
    obtain ⟨kind, message, hkind, hmessage, hrebuild⟩ := Fault.rebuild_of_isPosted h
    refine ⟨_, ?_, Or.inr ⟨hok, kind, message, hkind, hmessage, rfl⟩⟩
    simp [ofPosted, hok, hrebuild, bind, Except.bind, pure, Except.pure]
  · cases h

end Outcome

theorem isPosted_of_ofValue {v posted : Value} {seq : Binary64}
    (h : FromWorker.ofValue? v = some (.response seq posted)) : Outcome.isPosted posted = true := by
  unfold FromWorker.ofValue? at h
  split at h <;> try cases h
  · split at h <;> cases h
  · split at h
    · split at h
      · cases h
        assumption
      · cases h
    · cases h

namespace Bridge

variable {b : Bridge}

/-- The entry of the table under a number: a request and its call. -/
def entry? (b : Bridge) (seq : Binary64) : Option (Nat × Nat) :=
  b.pending.find? fun x => (Binary64.ofNat x.1).same seq

/-- An outcome was offered to the caller of a request, who waits no longer. -/
def offered (b : Bridge) (n k : Nat) (c : Call Unit) (o : Outcome) : Bridge :=
  { b with
    pending := b.pending.filter (·.1 ≠ n)
    intake := { b.intake with
      calls := b.intake.calls.setIfInBounds k { c with slot := (c.slot.send o).1 }
      stats := b.intake.stats.countDelivery (c.slot.send o).2 } }

/-- What a value on the port does. -/
structure Correlates (b : Bridge) (v : Value) : Prop where
  calm : ∀ x, Effect.unhandled x ∉ (b.message v).2
  stray : (∀ seq posted, FromWorker.ofValue? v ≠ some (.response seq posted)) →
    b.message v = (b, [.log ⟨.warn, "Unexpected message from standalone worker:", [v]⟩])
  unknown (seq : Binary64) (posted : Value) :
    FromWorker.ofValue? v = some (.response seq posted) → b.entry? seq = none →
    b.message v = (b, [.log ⟨.warn, "Received response for unknown request:", [.number seq]⟩])
  /-- The outcome that a response says is offered under its number, and the rest stays. -/
  response (seq : Binary64) (posted : Value) (n k : Nat) :
    FromWorker.ofValue? v = some (.response seq posted) → b.entry? seq = some (n, k) →
    ∃ (c : Call Unit) (o : Outcome), b.intake.calls[k]? = some c ∧ o.Says posted ∧
      b.pending.Perm ((n, k) :: (b.offered n k c o).pending) ∧
      b.message v = (b.offered n k c o,
        settledEffects ((Slot.settledSince c.slot (c.slot.send o).1).map fun r => ⟨k, r⟩).toList ++
          if (c.slot.send o).2 then [] else [undelivered])

theorem message_of_unknown {v posted : Value} {seq : Binary64}
    (hv : FromWorker.ofValue? v = some (.response seq posted)) (hw : b.waitingFor? seq = none) :
    b.message v =
      (b, [.log ⟨.warn, "Received response for unknown request:", [.number seq]⟩]) := by
  simp only [message, hv, hw]

theorem message_of_stray {v : Value}
    (hv : ∀ seq posted, FromWorker.ofValue? v ≠ some (.response seq posted)) :
    b.message v = (b, [.log ⟨.warn, "Unexpected message from standalone worker:", [v]⟩]) := by
  unfold message
  split
  · rename_i seq posted h
    exact (hv seq posted h).elim
  · rfl

theorem deliver_of_call {n k : Nat} {c : Call Unit} (hk : b.intake.calls[k]? = some c)
    (hp : c.parcel.Posted) (o : Outcome) : (b.answered n).deliver k o =
      (b.offered n k c o,
        settledEffects ((Slot.settledSince c.slot (c.slot.send o).1).map fun r => ⟨k, r⟩).toList ++
          if (c.slot.send o).2 then [] else [undelivered]) := by
  have hs : (b.answered n).intake.stranger? k = none := by
    simp [answered, Intake.stranger?, hk, hp.stranger]
  simp only [deliver, hs]
  simp [Intake.deliver, Intake.withSlot, answered, offered, hk]

theorem unhandled_notMem_offered (settled : List Settled) (received : Bool) (x : Value) :
    Effect.unhandled x ∉ settledEffects settled ++ if received then [] else [undelivered] := by
  cases received <;> simp [settledEffects, undelivered]

namespace Run

variable {r : Run}

/-- Every call holds a request, so every entry waits. -/
theorem Accounted.waitingFor_eq (h : r.Accounted) (seq : Binary64) :
    r.bridge.waitingFor? seq = r.bridge.entry? seq := by
  unfold waitingFor? entry?
  congr 1
  funext x
  have hs : r.bridge.intake.stranger? x.2 = none := by
    cases hk : r.bridge.intake.calls[x.2]? with
    | none => simp [Intake.stranger?, hk]
    | some c => simp [Intake.stranger?, hk, (h.posted _ c hk).stranger]
  simp [hs]

theorem Accounted.correlates (h : r.Accounted) (v : Value) : r.bridge.Correlates v := by
  have hresponse (seq : Binary64) (posted : Value) (n k : Nat)
      (hv : FromWorker.ofValue? v = some (.response seq posted))
      (he : r.bridge.entry? seq = some (n, k)) :
      ∃ (c : Call Unit) (o : Outcome), r.bridge.intake.calls[k]? = some c ∧ o.Says posted ∧
        r.bridge.pending.Perm ((n, k) :: (r.bridge.offered n k c o).pending) ∧
        r.bridge.message v = (r.bridge.offered n k c o,
          settledEffects
            ((Slot.settledSince c.slot (c.slot.send o).1).map fun r => ⟨k, r⟩).toList ++
            if (c.slot.send o).2 then [] else [undelivered]) := by
    have hx : (n, k) ∈ r.bridge.pending := List.mem_of_find?_eq_some he
    obtain ⟨c, hk, _⟩ := h.waits_of_pending hx
    obtain ⟨o, ho, hsays⟩ := Outcome.ofPosted_of_isPosted (isPosted_of_ofValue hv)
    have ha : r.bridge.answer? v = some ((n, k), o) :=
      answer_eq_some.mpr ⟨seq, posted, hv, h.waitingFor_eq seq ▸ he, ho⟩
    refine ⟨c, o, hk, hsays, perm_cons_filter_ne h.seqs hx, ?_⟩
    rw [message_of_answer ha, deliver_of_call hk (h.posted k c hk)]
  have hunknown (seq : Binary64) (posted : Value)
      (hv : FromWorker.ofValue? v = some (.response seq posted))
      (he : r.bridge.entry? seq = none) := message_of_unknown hv (h.waitingFor_eq seq ▸ he)
  refine ⟨fun x => ?_, message_of_stray, hunknown, hresponse⟩
  by_cases hv : ∃ seq posted, FromWorker.ofValue? v = some (.response seq posted)
  · obtain ⟨seq, posted, hv⟩ := hv
    cases he : r.bridge.entry? seq with
    | none =>
      rw [hunknown seq posted hv he]
      simp
    | some w =>
      obtain ⟨c, o, _, _, _, hm⟩ := hresponse seq posted w.1 w.2 hv he
      rw [hm]
      exact unhandled_notMem_offered _ _ x
  · rw [message_of_stray fun seq posted hs => hv ⟨seq, posted, hs⟩]
    simp

/-! Numbers -/

/-- The number in a message. -/
def number? (message : Value) : Option Binary64 :=
  match message.field "seq" with
  | .number x => some x
  | _ => none

/-- The numbers under which requests were posted, in order. -/
def numbers (r : Run) : List Binary64 := r.posted.filterMap number?

theorem number_message (request : Request) (seq : Nat) :
    number? (request.message seq) = some (.ofNat seq) := rfl

theorem number_close : number? ToWorker.close.toValue = none := rfl

theorem filterMap_eq_map_range {α β : Type} {f : α → Option β} {g : Nat → β} {l : List α}
    (h : ∀ (j : Nat) (hj : j < l.length), f l[j] = some (g j)) :
    l.filterMap f = (List.range l.length).map g := by
  have hmap : l.map f = (List.range l.length).map (some ∘ g) :=
    List.ext_getElem (by simp) fun j hj _ => by simpa using h j (by simpa using hj)
  calc l.filterMap f = (l.map f).filterMap id := by rw [List.filterMap_map]; rfl
    _ = (List.range l.length).map g := by
      rw [hmap, List.filterMap_map]
      exact congrFun List.filterMap_eq_map _

/-- Requests are numbered from one on. -/
theorem Orderly.numbers_eq (h : r.Orderly) :
    r.numbers = (List.range r.bridge.seq).map fun j => .ofNat (j + 1) := by
  have hle : r.bridge.seq ≤ r.posted.length := h.length ▸ Nat.le_add_right _ _
  have htake : (r.posted.take r.bridge.seq).length = r.bridge.seq := by simpa using hle
  have hrequests : (r.posted.take r.bridge.seq).filterMap number? =
      (List.range r.bridge.seq).map fun j => .ofNat (j + 1) := by
    rw [filterMap_eq_map_range (g := fun j => .ofNat (j + 1)), htake]
    intro j hj
    have hj : j < r.bridge.seq := htake ▸ hj
    obtain ⟨k, hk⟩ : ∃ k, r.accepted[j]? = some k :=
      ⟨_, List.getElem?_eq_getElem (Nat.lt_of_lt_of_le hj h.seq_le)⟩
    obtain ⟨c, uri, payload, _, _, hposted⟩ := h.requests j k hj hk
    rw [List.getElem_take, (List.getElem?_eq_some_iff.mp hposted).2]
    exact number_message _ _
  have hclose : (r.posted.drop r.bridge.seq).filterMap number? = [] := by
    cases he : r.bridge.forwarding.isEnded with
    | false =>
      have hl : r.posted.length ≤ r.bridge.seq := by simp [h.length, he]
      rw [List.drop_of_length_le hl]
      rfl
    | true =>
      obtain ⟨hlt, hget⟩ := List.getElem?_eq_some_iff.mp (h.close he)
      have hl : r.posted.length ≤ r.bridge.seq + 1 := by simp [h.length, he]
      rw [List.drop_eq_getElem_cons hlt, hget, List.drop_of_length_le hl,
        List.filterMap_cons_none number_close]
      rfl
  rw [numbers, ← List.take_append_drop r.bridge.seq r.posted, List.filterMap_append, hrequests,
    hclose, List.append_nil]

/-- No two requests have the same number. -/
theorem pairwise_numbers {seq : Nat} (h : seq ≤ 2 ^ 53) :
    ((List.range seq).map fun j => Binary64.ofNat (j + 1)).Pairwise
      fun x y => x.same y = false := by
  rw [List.pairwise_map]
  refine List.nodup_range.imp_of_mem fun {i j} hi hj hne => ?_
  have hi : i + 1 ≤ 2 ^ 53 := Nat.le_trans (List.mem_range.mp hi) h
  have hj : j + 1 ≤ 2 ^ 53 := Nat.le_trans (List.mem_range.mp hj) h
  rw [← Bool.not_eq_true, Binary64.same_ofNat hi hj]
  exact fun he => hne (Nat.succ_inj.mp he)

theorem Accounted.entry_eq (h : r.Accounted) (hseq : r.bridge.seq ≤ 2 ^ 53) {n k : Nat}
    (hx : (n, k) ∈ r.bridge.pending) : r.bridge.entry? (.ofNat n) = some (n, k) :=
  h.waitingFor_eq _ ▸ h.waitingFor hseq hx

/-! Offers -/

/-- The request that an event answers, with its call and the outcome. -/
def offer? (r : Run) : Event → Option ((Nat × Nat) × Outcome)
  | .message v => r.bridge.answer? v
  | _ => none

/-- What callers are offered in a run, each with the number of its request and its call. -/
def offers (r : Run) : List Event → List ((Nat × Nat) × Outcome)
  | [] => []
  | ev :: events => (r.offer? ev).toList ++ offers (r.step ev) events

theorem offers_concat (r : Run) (events : List Event) (ev : Event) :
    r.offers (events ++ [ev]) = r.offers events ++ ((r.run events).offer? ev).toList := by
  induction events generalizing r with
  | nil => simp [offers, run]
  | cons e events ih =>
    rw [List.cons_append, offers, ih, offers, List.append_assoc]
    rfl

theorem delivered_step (r : Run) (ev : Event) :
    (r.step ev).delivered = r.delivered ++ (r.offer? ev).toList.map (·.1.2) := by
  cases ev with
  | message v =>
    show r.delivered ++ r.answering v = _
    simp only [answering, offer?]
    cases r.bridge.answer? v <;> rfl
  | _ => exact (List.append_nil _).symm

theorem delivered_run (r : Run) (events : List Event) :
    (r.run events).delivered = r.delivered ++ (r.offers events).map (·.1.2) := by
  induction events generalizing r with
  | nil => simp [run, offers]
  | cons ev events ih =>
    rw [run_cons, ih, delivered_step, offers]
    simp

theorem accepted_step (r : Run) (ev : Event) :
    ∃ more, (r.step ev).accepted = r.accepted ++ more := by
  cases ev with
  | send sender uri payload signal => exact ⟨_, rfl⟩
  | _ => exact ⟨[], (List.append_nil _).symm⟩

theorem run_concat (r : Run) (events : List Event) (ev : Event) :
    r.run (events ++ [ev]) = (r.run events).step ev := by
  simp [run]

/-- Until the worker is found gone, requests are posted in order. -/
theorem orderly_run (fired : List (Nat × Value)) {events : List Event}
    (h : events.any Event.ends = false) : ((start fired).run events).Orderly := by
  induction events using List.reverseRecOn with
  | nil => exact orderly_start fired
  | append_singleton events ev ih =>
    rw [List.any_append, Bool.or_eq_false_iff] at h
    have hev : ev.ends = false := by simpa using h.2
    rw [run_concat]
    exact (ih h.1).step ((accounted_start fired).run events) fun he => by simp [hev] at he

/-- An offer goes to the call whose request was posted under its number. -/
theorem offers_origin (fired : List (Nat × Value)) {events : List Event}
    (h : events.any Event.ends = false) : ∀ x ∈ (start fired).offers events, ∃ j, x.1.1 = j + 1 ∧
      j < ((start fired).run events).bridge.seq ∧
      ((start fired).run events).accepted[j]? = some x.1.2 := by
  induction events using List.reverseRecOn with
  | nil => simp [offers]
  | append_singleton events ev ih =>
    rw [List.any_append, Bool.or_eq_false_iff] at h
    have hr := (accounted_start fired).run events
    obtain ⟨more, hmore⟩ := accepted_step ((start fired).run events) ev
    have hseq := hr.seq_le_step ev
    intro x hx
    rw [offers_concat] at hx
    have hnow : ∃ j, x.1.1 = j + 1 ∧ j < ((start fired).run events).bridge.seq ∧
        ((start fired).run events).accepted[j]? = some x.1.2 := by
      rcases List.mem_append.mp hx with hx | hx
      · exact ih h.1 x hx
      · cases ev with
        | message v =>
          have ha : ((start fired).run events).bridge.answer? v = some (x.1, x.2) := by
            simpa [offer?] using hx
          have hmem := mem_of_answer ha
          have hle := hr.seq_le x.1 hmem
          obtain ⟨j, hj, hk⟩ := (orderly_run fired h.1).pending x.1 hmem
          exact ⟨j, hj, by omega, hk⟩
        | _ => simp [offer?] at hx
    obtain ⟨j, hj, hlt, hk⟩ := hnow
    refine ⟨j, hj, ?_, ?_⟩
    · rw [run_concat]
      exact Nat.lt_of_lt_of_le hlt hseq
    · rw [run_concat, hmore, List.getElem?_append_left (List.getElem?_eq_some_iff.mp hk).1]
      exact hk

/-- One of the values on the port was a response under a number, and said an outcome. -/
def Heard (events : List Event) (n : Nat) (o : Outcome) : Prop :=
  ∃ v seq posted, .message v ∈ events ∧ FromWorker.ofValue? v = some (.response seq posted) ∧
    (Binary64.ofNat n).same seq = true ∧ o.Says posted

theorem heard_of_answer {events : List Event} {v : Value} {w : Nat × Nat} {o : Outcome}
    (hv : .message v ∈ events) (h : r.bridge.answer? v = some (w, o)) : Heard events w.1 o := by
  obtain ⟨seq, posted, hread, hw, ho⟩ := answer_eq_some.mp h
  obtain ⟨o', ho', hsays⟩ := Outcome.ofPosted_of_isPosted (isPosted_of_ofValue hread)
  have hsame := List.find?_some hw
  simp only [Bool.and_eq_true] at hsame
  obtain rfl : o' = o := Except.ok.inj (ho'.symm.trans ho)
  exact ⟨v, seq, posted, hv, hread, hsame.1, hsays⟩

theorem offers_heard (r : Run) (events : List Event) :
    ∀ x ∈ r.offers events, Heard events x.1.1 x.2 := by
  induction events generalizing r with
  | nil => simp [offers]
  | cons ev events ih =>
    intro x hx
    rcases List.mem_append.mp hx with hx | hx
    · cases ev with
      | message v =>
        have ha : r.bridge.answer? v = some (x.1, x.2) := by simpa [offer?] using hx
        exact heard_of_answer List.mem_cons_self ha
      | _ => simp [offer?] at hx
    · obtain ⟨v, seq, posted, hv, hrest⟩ := ih (r.step ev) x hx
      exact ⟨v, seq, posted, List.mem_cons_of_mem _ hv, hrest⟩

/-- What holds of a bridge after some events, until the worker is found gone. -/
structure Correlated (r : Run) (events : List Event) (offers : List ((Nat × Nat) × Outcome)) :
    Prop where
  answers (v : Value) : r.bridge.Correlates v
  numbers : r.numbers = (List.range r.bridge.seq).map fun j => .ofNat (j + 1)
  /-- Numbers are exact up to `2 ^ 53`, so no two requests have the same one. -/
  distinct : r.bridge.seq ≤ 2 ^ 53 → r.numbers.Pairwise (fun x y => x.same y = false) ∧
    ∀ n k, (n, k) ∈ r.bridge.pending → r.bridge.entry? (.ofNat n) = some (n, k)
  /-- Requests wait under the numbers under which they were posted. -/
  waiting : ∀ x ∈ r.bridge.pending, ∃ j, x.1 = j + 1 ∧ r.Posts j x.2
  /-- No caller is offered two outcomes, or an outcome for a request that is not its own. -/
  once : (offers.map (·.1.2)).Nodup
  own : ∀ x ∈ offers, Heard events x.1.1 x.2 ∧ ∃ j, x.1.1 = j + 1 ∧ r.Posts j x.1.2

/-- Whatever arrives on the port of a bridge, in whatever order and between whatever else happens,
until the worker is found gone: outcomes go to the callers of the requests that they were posted
for, and nothing else has an effect beyond the log. -/
theorem responses_correlate (fired : List (Nat × Value)) (events : List Event)
    (h : events.any Event.ends = false) :
    ((start fired).run events).Correlated events ((start fired).offers events) := by
  have hr := (accounted_start fired).run events
  have ho := orderly_run fired h
  refine ⟨hr.correlates, ho.numbers_eq, fun hseq => ⟨?_, fun n k => hr.entry_eq hseq⟩, ?_, ?_, ?_⟩
  · rw [ho.numbers_eq]
    exact pairwise_numbers hseq
  · intro x hx
    have hle := hr.seq_le x hx
    obtain ⟨j, hj, hk⟩ := ho.pending x hx
    exact ⟨j, hj, ho.requests j x.2 (by omega) hk⟩
  · have hd := delivered_run (start fired) events
    have hn := hr.places.of_append_left.of_append_right
    rw [hd] at hn
    exact hn
  · intro x hx
    obtain ⟨j, hj, hlt, hk⟩ := offers_origin fired h x hx
    exact ⟨offers_heard _ _ x hx, j, hj, ho.requests j x.1.2 hlt hk⟩

/-- A response under a number: the bytes of a reply. -/
def reply (seq : Binary64) (body : Bytes) : Event :=
  .message (FromWorker.response seq (.record [("ok", .bool true), ("value", .bytes body)])).toValue

/-- Between two requests that are answered in the wrong order there is a value that is no message,
a response under no number at all, and one that comes again. -/
def traffic : List Event :=
  [.send 0 "http://a/" [] none, .forward, .message .null, .send 0 "http://a/" [] (some 7), .forward,
    reply .nan [1], reply (.ofNat 2) [2], reply (.ofNat 2) [3], .abort 7 .null,
    reply (.ofNat 1) [4]]

theorem traffic_correlates : traffic.any Event.ends = false ∧
    ((start []).offers traffic).map (·.1) = [(2, 1), (1, 0)] ∧
    ((start []).run traffic).Correlated traffic ((start []).offers traffic) :=
  ⟨rfl, by decide +kernel, responses_correlate [] traffic rfl⟩

end Run
end Bridge
end Courier
