import Courier.Proofs.Past
import Courier.Proofs.Wire

/-!
How an exchange goes once its client has done its part: the request has failed, the status is none
of success, or the body has failed or has ended. What the caller learns tells of just that, unless
something is thrown on the way to the answer.
-/

namespace Courier

/-! Bodies -/

namespace Binary64

theorem ofNat_eq (n : Nat) : ofNat n = round false (n * unit) 1 := by
  have hneg : ¬ (n : Int) < 0 := by omega
  simp [ofNat, ofInt, hneg]

theorem add_of_units {x y : Binary64} {a b : Nat} (hx : x.units? = some (a : Int))
    (hy : y.units? = some (b : Int)) : x.add y = round false (a + b) 1 := by
  have hneg : ¬ (a : Int) + (b : Int) < 0 := by omega
  have habs : ((a : Int) + (b : Int)).natAbs = a + b := by omega
  simp only [add, hx, hy, hneg, habs, decide_false]

theorem toInt_of_units {x : Binary64} {n one : Nat} (hone : one = unit)
    (h : x.units? = some ((n * one : Nat) : Int)) (hpos : 0 < one) :
    x.toInt? = some (n : Int) := by
  have hne : (one : Int) ≠ 0 := Int.natCast_ne_zero.mpr (Nat.pos_iff_ne_zero.mp hpos)
  simp only [toInt?, h, ← hone, Option.map_some, Int.natCast_mul, Int.mul_tdiv_cancel _ hne]

/-- Sums of whole numbers up to `2 ^ 53` are exact. -/
theorem add_ofNat {m n : Nat} (h : m + n ≤ 2 ^ 53) : (ofNat m).add (ofNat n) = ofNat (m + n) := by
  have hm := units_ofNat (n := m) (by omega)
  have hn := units_ofNat (n := n) (by omega)
  have hs := add_of_units hm hn
  rw [hs, ofNat_eq, Nat.add_mul]

theorem toInt_ofNat {n : Nat} (h : n ≤ 2 ^ 53) : (ofNat n).toInt? = some (n : Int) :=
  toInt_of_units rfl (units_ofNat h) unit_pos

theorem isZero_of_units {x : Binary64} {a : Nat} (hx : x.units? = some (a : Int)) (ha : 0 < a) :
    x.isZero = false := by
  refine Bool.eq_false_iff.mpr fun hz => ?_
  rw [units_of_isZero hz, Option.some.injEq] at hx
  omega

theorem isNegative_of_units {x : Binary64} {a : Nat} (hx : x.units? = some (a : Int)) :
    x.isNegative = false := by
  cases x with
  | finite negative m p =>
    cases negative with
    | true =>
      simp only [units?, Nat.pow_eq, Option.some.injEq] at hx
      have hzero : m * 2 ^ p = 0 := by omega
      have hm : m = 0 := by
        rcases Nat.mul_eq_zero.mp hzero with hm | hp
        · exact hm
        · exact absurd hp (Nat.pos_iff_ne_zero.mp (Nat.two_pow_pos p))
      simp [isNegative, hm]
    | false => rfl
  | infinite | nan => cases hx

end Binary64

namespace Value

/-- The bytes that chunks of a body stand for, those of anything else left out. -/
def content (chunks : List Value) : Bytes := (chunks.filterMap bytes?).flatten

theorem length_of_bytes {v : Value} {b : Bytes} (h : v.bytes? = some b) :
    v.length = .ok (nat b.length) := by
  cases v <;> simp_all [bytes?, length]

theorem truthy_nat {n : Nat} (h : n ≤ 2 ^ 53) : (nat n).truthy = decide (0 < n) := by
  have hu := Binary64.units_ofNat h
  simp only [nat, truthy, Binary64.isNaN_of_units hu, Bool.not_false, Bool.true_and]
  rcases Nat.eq_zero_or_pos n with rfl | hn
  · rw [Binary64.ofNat_eq, Nat.zero_mul]
    rfl
  · rw [Binary64.isZero_of_units hu (Nat.mul_pos hn Binary64.unit_pos), decide_eq_true hn]
    rfl

theorem sum_number (x y : Binary64) : (number x).sum (number y) = .ok (number (x.add y)) := rfl

theorem sum_nat {m n : Nat} (h : m + n ≤ 2 ^ 53) : (nat m).sum (nat n) = .ok (nat (m + n)) := by
  unfold nat
  rw [sum_number, Binary64.add_ofNat h]

/-- The length of one more chunk. -/
def addLength (total chunk : Value) : Attempt Value := do
  let length ← chunk.length
  if length.truthy then total.sum length else return total

theorem totalLength_eq (chunks : List Value) :
    totalLength chunks = chunks.foldlM addLength (nat 0) := rfl

theorem addLength_of_length {total chunk length : Value} (h : chunk.length = .ok length) :
    addLength total chunk = if length.truthy then total.sum length else .ok total := by
  simp only [addLength, h, bind, Except.bind, pure, Except.pure]

theorem addLength_bytes {n : Nat} {c : Value} {b : Bytes} (hc : c.bytes? = some b)
    (hn : n + b.length ≤ 2 ^ 53) : addLength (nat n) c = .ok (nat (n + b.length)) := by
  have hb : b.length ≤ 2 ^ 53 := by omega
  rw [addLength_of_length (length_of_bytes hc), truthy_nat hb]
  by_cases hpos : 0 < b.length
  · rw [if_pos (decide_eq_true hpos), sum_nat hn]
  · have hzero : b.length = 0 := by omega
    rw [if_neg (by simpa using hzero), hzero, Nat.add_zero]

theorem total_bytes {chunks : List Value} (hb : ∀ c ∈ chunks, c.isBytes = true) {n : Nat}
    (hn : n + (content chunks).length ≤ 2 ^ 53) :
    chunks.foldlM addLength (nat n) = .ok (nat (n + (content chunks).length)) := by
  induction chunks generalizing n with
  | nil => rw [show (content []).length = 0 from rfl, Nat.add_zero, List.foldlM_nil]; rfl
  | cons c chunks ih =>
    obtain ⟨b, hc⟩ := Option.isSome_iff_exists.mp (hb c List.mem_cons_self)
    have hrest : ∀ c ∈ chunks, c.isBytes = true := fun d hd => hb d (List.mem_cons_of_mem _ hd)
    have hlen : (content (c :: chunks)).length = b.length + (content chunks).length := by
      simp [content, hc]
    rw [hlen] at hn ⊢
    have hstep := ih hrest (n := n + b.length) (by omega)
    have hfirst := addLength_bytes (n := n) hc (by omega)
    rw [List.foldlM_cons, hfirst, ← Nat.add_assoc, ← hstep]
    rfl

theorem joinFrom_bytes {chunks : List Value} (hb : ∀ c ∈ chunks, c.isBytes = true) (place : Nat) :
    joinFrom place chunks = .ok (content chunks) := by
  induction chunks generalizing place with
  | nil => rfl
  | cons c chunks ih =>
    obtain ⟨b, hc⟩ := Option.isSome_iff_exists.mp (hb c List.mem_cons_self)
    have hrest := ih (fun d hd => hb d (List.mem_cons_of_mem _ hd)) (place + 1)
    simp only [joinFrom, hc, hrest, bind, Except.bind, pure, Except.pure]
    simp [content, hc]

theorem allocate_number {memory : Memory} {x : Binary64} {n : Nat}
    (hx : x.toInt? = some (n : Int)) (hneg : x.isNegative = false) (hn : n ≤ memory.room) :
    allocate memory (.number x) = .ok () := by
  have hle := memory.room_le
  have hbytes : ¬ (mostBytes : Int) < (n : Int) := by omega
  have hmemory : ¬ (memory.room : Int) < (n : Int) := by omega
  simp [allocate, hx, hneg, hbytes, hmemory, pure, Except.pure]

theorem joined_of_total {memory : Memory} {chunks : List Value} {size : Value}
    (ht : totalLength chunks = .ok size) (ha : allocate memory size = .ok ()) :
    joined memory chunks = if chunks.isEmpty then .ok [] else joinFrom 0 chunks := by
  unfold joined
  split
  · rfl
  · simp only [ht, ha, bind, Except.bind]

/-- Chunks of bytes are joined, as far as memory has room for them. -/
theorem joined_bytes {memory : Memory} {chunks : List Value}
    (hb : ∀ c ∈ chunks, c.isBytes = true) (hm : (content chunks).length ≤ memory.room) :
    joined memory chunks = .ok (content chunks) := by
  have hroom : (content chunks).length ≤ 2 ^ 53 :=
    Nat.le_trans (Nat.le_trans hm memory.room_le) (by decide)
  have htotal := total_bytes hb (n := 0) (by omega)
  rw [← totalLength_eq, Nat.zero_add] at htotal
  have hallocate := allocate_number (Binary64.toInt_ofNat hroom)
    (Binary64.isNegative_of_units (Binary64.units_ofNat hroom)) hm
  rw [joined_of_total htotal hallocate]
  split
  · rename_i he
    rw [List.isEmpty_iff.mp he]
    rfl
  · exact joinFrom_bytes hb 0

end Value

/-! Exchanges -/

/-- How the client's part of an exchange goes, from the request on. -/
inductive Course where
  | failed (v : Value)
  | refused (response : Response)
  | broken (response : Response) (chunks : List Value) (v : Value)
  | whole (response : Response) (chunks : List Value) (memory : Memory)

namespace Course

/-- What happens to the call meanwhile. -/
def own : Course → List Own
  | failed v => [.answered (.error v)]
  | refused response => [.answered (.ok (some response))]
  | broken response chunks v =>
    .answered (.ok (some response)) :: (chunks.map .chunk ++ [.bodyEnded (.error v)])
  | whole response chunks memory =>
    .answered (.ok (some response)) :: (chunks.map .chunk ++ [.bodyEnded (.ok memory)])

/-- A refused response has a number for its status, and it is not that of success; bodies come in
chunks of bytes. -/
def Typed : Course → Prop
  | failed _ => True
  | refused response => response.isOk = false ∧ response.status.isNumber = true
  | broken response chunks _ | whole response chunks _ =>
    response.isOk = true ∧ ∀ c ∈ chunks, c.isBytes = true

/-- Nothing is thrown on the way to the answer: what failed can be put into words, the discarding of
the body returns and the status behind it can be put into words, and there is room for the body. -/
def Smooth : Course → Prop
  | failed v | broken _ _ v => ∃ text, v.wording = .ok text
  | refused response => (∀ v, response.discard ≠ .throws v) ∧
      ∃ status, response.later = .ok status ∧ ∃ text, status.innerText = .ok text
  | whole _ chunks memory => ∃ body, Value.joined memory chunks = .ok body

/-- What an answer tells of the course: what failed, the status that the response says behind the
discarding of its body, or the body. -/
def Told (a : Attempt Value) : Course → Prop
  | failed v | broken _ _ v =>
    ∃ message, a = .error (Fault.ofKind .network message .undefined v).toValue
  | refused response => ∃ status message, response.later = .ok status ∧
      a = .error (Fault.ofKind .http message status .undefined).toValue
  | whole _ chunks memory => ∃ body, Value.joined memory chunks = .ok body ∧ a = .ok (.bytes body)

/-- What the exchange comes to. -/
def result : Course → Attempt Outcome
  | failed v | broken _ _ v => (Fault.network v).map .failure
  | refused response =>
    match response.discard with
    | .throws v => .error v
    | _ => response.refusal
  | whole _ chunks memory => (Value.joined memory chunks).map .success

/-- What the caller learns. -/
def answer (c : Course) : Attempt Value := Handle.result (.got c.result.toOption)

theorem read_chunks (chunks read : List Value) :
    (chunks.map Own.chunk).foldl Exchange.advance (.reading read) =
      .reading (chunks.reverse ++ read) := by
  induction chunks generalizing read with
  | nil => rfl
  | cons c chunks ih =>
    rw [List.map_cons, List.foldl_cons, List.reverse_cons, List.append_assoc]
    exact ih (c :: read)

/-- A body is read if the status is that of success. -/
theorem advance_body {response : Response} (h : response.isOk = true) (chunks : List Value) :
    (Own.answered (.ok (some response)) :: chunks.map .chunk).foldl Exchange.advance .asking =
      .reading chunks.reverse := by
  have ha : Exchange.asking.advance (.answered (.ok (some response))) = .reading [] := by
    simp [Exchange.advance, Exchange.answer, Exchange.answered, h]
  rw [List.foldl_cons, ha, read_chunks, List.append_nil]

theorem advance_ended {response : Response} (h : response.isOk = true) (chunks : List Value)
    (r : Attempt Memory) : (Own.answered (.ok (some response)) :: (chunks.map .chunk ++
      [.bodyEnded r])).foldl Exchange.advance .asking =
        (Exchange.reading chunks.reverse).bodyEnded r := by
  rw [← List.cons_append, List.foldl_append, advance_body h]
  rfl

theorem advance_refused {response : Response} (h : response.isOk = false) :
    Exchange.asking.advance (.answered (.ok (some response))) =
      .over (result (.refused response)) := by
  cases hd : response.discard <;>
    simp [Exchange.advance, Exchange.answer, Exchange.answered, h, hd, result]

theorem not_concluded (c : Course) : ∀ x ∈ c.own, x ≠ .concluded := by
  intro x hx
  cases c with
  | failed | refused =>
    rw [List.mem_singleton.mp hx]
    exact Own.noConfusion
  | broken | whole =>
    rcases List.mem_cons.mp hx with rfl | hx
    · exact Own.noConfusion
    · rcases List.mem_append.mp hx with hx | hx
      · obtain ⟨v, _, rfl⟩ := List.mem_map.mp hx
        exact Own.noConfusion
      · rw [List.mem_singleton.mp hx]
        exact Own.noConfusion

theorem advance_own {c : Course} (h : c.Typed) :
    c.own.foldl Exchange.advance .asking = .over c.result := by
  cases c with
  | failed v => rfl
  | refused response => exact advance_refused h.1
  | broken response chunks v => exact advance_ended h.1 chunks (.error v)
  | whole response chunks memory =>
    refine (advance_ended h.1 chunks (.ok memory)).trans ?_
    rw [Exchange.bodyEnded, List.reverse_reverse]
    rfl

theorem advance_over (r : Attempt Outcome) (rest : List Own) :
    rest.foldl Exchange.advance (.over r) = .over r := by
  induction rest with
  | nil => rfl
  | cons x rest ih => cases x <;> exact ih

theorem outcome_over {r : Attempt Outcome} {rest : List Own} (h : .concluded ∈ rest) :
    (Exchange.over r).outcome? rest = some r := by
  induction rest with
  | nil => cases h
  | cons x rest ih =>
    cases x with
    | concluded => rfl
    | _ => exact ih ((List.mem_cons.mp h).resolve_left (by simp))

/-- Once its unit has ended, an exchange has come to what its course comes to. -/
theorem outcome_own {c : Course} (h : c.Typed) {rest : List Own} (hr : .concluded ∈ rest) :
    Exchange.asking.outcome? (c.own ++ rest) = some c.result := by
  rw [Exchange.outcome_append c.not_concluded, advance_own h, outcome_over hr]

theorem innerText_number {v : Value} (h : v.isNumber = true) : ∃ text, v.innerText = .ok text := by
  cases v with
  | number x => exact ⟨_, rfl⟩
  | _ => cases h

/-- Nothing is thrown where the discarding of the body returns and leaves the status as it is. -/
theorem smooth_steady {response : Response} (hs : response.status.isNumber = true)
    (hl : response.later = .ok response.status) (hd : ∀ v, response.discard ≠ .throws v) :
    (refused response).Smooth :=
  ⟨hd, response.status, hl, innerText_number hs⟩

theorem answer_network {c : Course} {v : Value}
    (hr : c.result = (Fault.network v).map .failure) :
    (∀ text, v.wording = .ok text → c.answer =
      .error (Fault.ofKind .network ("Network error: " ++ text) .undefined v).toValue) ∧
    ((¬ ∃ text, v.wording = .ok text) → c.answer = .error Fault.diedWithoutResponse.toValue) := by
  constructor
  · intro text ht
    simp only [answer, hr, Fault.network, ht, bind, Except.bind, pure, Except.pure]
    rfl
  · intro hno
    cases ht : v.wording with
    | ok text => exact (hno ⟨text, ht⟩).elim
    | error w =>
      simp only [answer, hr, Fault.network, ht, bind, Except.bind]
      rfl

/-- Where the body of a refused response is discarded, the answer is the failure of the status that
the response says behind that. -/
theorem answer_refused {response : Response} (hd : ∀ v, response.discard ≠ .throws v) :
    (refused response).answer = Handle.result (.got response.refusal.toOption) := by
  cases h : response.discard with
  | throws v => exact (hd v h).elim
  | absent | returns => simp only [answer, result, h]

/-- Where nothing is thrown the answer tells of the course. -/
theorem told_of_smooth {c : Course} (hs : c.Smooth) : c.Told c.answer := by
  cases c with
  | failed v =>
    obtain ⟨text, ht⟩ := hs
    exact ⟨_, (answer_network (c := .failed v) rfl).1 text ht⟩
  | broken response chunks v =>
    obtain ⟨text, ht⟩ := hs
    exact ⟨_, (answer_network (c := .broken response chunks v) rfl).1 text ht⟩
  | refused response =>
    obtain ⟨hd, status, hl, text, htext⟩ := hs
    refine ⟨status, "Http error. Status code " ++ text, hl, ?_⟩
    simp only [answer_refused hd, Response.refusal, hl, Fault.http, htext, bind, Except.bind, pure,
      Except.pure]
    rfl
  | whole response chunks memory =>
    obtain ⟨body, hj⟩ := hs
    refine ⟨body, hj, ?_⟩
    simp only [answer, result, hj]
    rfl

/-- Where something is thrown the caller learns nothing else of the exchange. -/
theorem died_of_not_smooth {c : Course} (hs : ¬ c.Smooth) :
    c.answer = .error Fault.diedWithoutResponse.toValue := by
  cases c with
  | failed v => exact (answer_network (c := .failed v) rfl).2 hs
  | broken response chunks v => exact (answer_network (c := .broken response chunks v) rfl).2 hs
  | refused response =>
    by_cases hd : ∀ v, response.discard ≠ .throws v
    · rw [answer_refused hd]
      cases hr : response.refusal with
      | error w => rfl
      | ok o =>
        obtain ⟨status, f, hl, hf, _⟩ := Response.refusal_ok hr
        obtain ⟨text, htext, _⟩ := Fault.http_eq hf
        exact (hs ⟨hd, status, hl, text, htext⟩).elim
    · obtain ⟨v, hv⟩ := not_forall.mp hd
      simp only [answer, result, not_not.mp hv]
      rfl
  | whole response chunks memory =>
    cases hj : Value.joined memory chunks with
    | ok body => exact (hs ⟨body, hj⟩).elim
    | error w =>
      simp only [answer, result, hj]
      rfl

end Course

namespace Embedded

/-- What an exchange comes to has nothing to do with signals. -/
theorem outcome_history (x : Exchange) (k : Nat) (signal : Option Nat) (events : List Event) :
    x.outcome? (history k signal events) = x.outcome? (history k none events) := by
  induction events generalizing x with
  | nil => rfl
  | cons ev events ih =>
    cases ev with
    | caller c =>
      cases c with
      | abort s reason =>
        by_cases hs : signal = some s
        · simp only [history, List.filterMap_cons, Event.happens?, hs, if_true, reduceCtorEq,
            if_false, Exchange.outcome?]
          rw [← hs]
          exact ih x
        · simpa [history, Event.happens?, hs] using ih x
      | _ => exact ih x
    | clientClosed r => exact ih x
    | move m =>
      simp only [history, List.filterMap_cons, Event.happens?]
      cases hm : m.happens? k with
      | none => exact ih x
      | some own => cases own <;> first | rfl | exact ih _

/-- The end of a unit gives nothing up. -/
theorem firstReason_append (own : List Own) :
    firstReason (own ++ [.concluded]) = firstReason own := by
  induction own with
  | nil => rfl
  | cons x own ih => cases x <;> first | rfl | exact ih

section

variable {fired : List (Nat × Value)} {before after : List Event} {place : Nat} {payload : Bytes}
  {signal : Option Nat} {handle : Handle} {e : Embedded}

/-- What the caller of a call learns that a handle sends in a run and that is accepted. -/
theorem mem_answers_of_open
    (hv : (start fired).valid (before ++ .caller (.send place payload signal) :: after) = true)
    (he : (start fired).run before = e) (hh : e.transport.handles.members[place]? = some handle)
    (hopen : e.channel.isClosed handle.sender = false) (a : Attempt Value) :
    (e.inner.size, a) ∈
      ((start fired).run (before ++ .caller (.send place payload signal) :: after)).answers ↔
    verdict false (e.reason? signal) (history e.inner.size signal after) = some a := by
  have hstep := step_send hh payload signal
  have hrun : (start fired).run (before ++ .caller (.send place payload signal) :: after) =
      (e.perform (.send handle.sender handle.uri payload signal)).run after := by
    rw [run_append, he, ← hstep]
    rfl
  have hvalid := valid_of_append hv
  rw [he] at hvalid
  simp only [valid, Bool.and_eq_true, hstep] at hvalid
  rw [hrun]
  exact (he ▸ (sound_start fired).run before).answers_accepted hopen hvalid.2 a

/-- Nothing has happened to a call before it was sent. -/
theorem history_of_sent (hv : (start fired).valid before = true)
    (he : (start fired).run before = e) (after : List Event) :
    history e.inner.size none (before ++ .caller (.send place payload signal) :: after) =
      history e.inner.size none after := by
  have hnone := (recalls_run fired hv).later e.inner.size (by rw [he]; exact Nat.le_refl _)
  simp only [history, List.filterMap_append, List.filterMap_cons, Event.happens?] at hnone ⊢
  rw [hnone]
  rfl

theorem valid_before {events : List Event}
    (hv : (start fired).valid (before ++ events) = true) : (start fired).valid before = true := by
  generalize start fired = e at hv ⊢
  induction before generalizing e with
  | nil => rfl
  | cons ev before ih =>
    simp only [valid, List.cons_append, Bool.and_eq_true] at hv ⊢
    exact ⟨hv.1, ih _ hv.2⟩

/-- The answer of a call that is not given up, once its unit has ended. -/
theorem answers_of_course {course : Course} (ht : course.Typed)
    (hv : (start fired).valid (before ++ .caller (.send place payload signal) :: after) = true)
    (he : (start fired).run before = e) (hh : e.transport.handles.members[place]? = some handle)
    (hopen : e.channel.isClosed handle.sender = false)
    (hcalm : (e.reason? signal).or (firstReason (history e.inner.size signal after)) = none)
    {rest : List Own} (hown : history e.inner.size none after = course.own ++ rest)
    (hr : .concluded ∈ rest) (a : Attempt Value) :
    (e.inner.size, a) ∈
      ((start fired).run (before ++ .caller (.send place payload signal) :: after)).answers ↔
    a = course.answer := by
  rw [mem_answers_of_open hv he hh hopen]
  simp only [verdict, Bool.false_eq_true, if_false, hcalm]
  rw [learned_outcome, outcome_history, hown, Course.outcome_own ht hr, Option.map_some,
    Option.some.injEq]
  exact eq_comm

/-- A call whose unit has not ended yet has no answer, as long as it is not given up. -/
theorem not_answered
    (hv : (start fired).valid (before ++ .caller (.send place payload signal) :: after) = true)
    (he : (start fired).run before = e) (hh : e.transport.handles.members[place]? = some handle)
    (hopen : e.channel.isClosed handle.sender = false)
    (hcalm : (e.reason? signal).or (firstReason (history e.inner.size signal after)) = none)
    (hr : .concluded ∉ history e.inner.size none after) (a : Attempt Value) :
    (e.inner.size, a) ∉
      ((start fired).run (before ++ .caller (.send place payload signal) :: after)).answers := by
  rw [mem_answers_of_open hv he hh hopen]
  simp only [verdict, Bool.false_eq_true, if_false, hcalm]
  rw [outcome_history, Exchange.outcome_none fun x hx hc => hr (hc ▸ hx)]
  simp

/-- A unit that has not ended stands where the course of its exchange has led. -/
theorem progress_of_course {course : Course} (ht : course.Typed) {events : List Event}
    (hv : (start fired).valid events = true) {k : Nat} {rest : List Own}
    (hown : history k none events = course.own ++ rest) (hr : .concluded ∉ rest) :
    ((start fired).run events).inner.dispatch.intake.progress? k =
      some (.running (.over course.result)) := by
  have hpast := recalls_run fired hv
  have hall : ∀ x ∈ course.own ++ rest, x ≠ .concluded := by
    intro x hx
    rcases List.mem_append.mp hx with hx | hx
    · exact course.not_concluded x hx
    · exact fun hc => hr (hc ▸ hx)
  cases hc : ((start fired).run events).inner.dispatch.intake.calls[k]? with
  | none =>
    have hnil := hpast.later k (Array.getElem?_eq_none_iff.mp hc)
    rw [hown] at hnil
    cases course <;> simp [Course.own] at hnil
  | some c =>
    have hs := (hpast.call k c hc).stage
    rw [hown] at hs
    rw [Dispatch.progress_of_call hc]
    cases hp : c.progress with
    | waiting =>
      rw [hp] at hs
      cases course <;> simp [Course.own] at hs
    | running x =>
      rw [hp] at hs
      rw [hs.1, List.foldl_append, Course.advance_own ht]
      exact congrArg (fun x => some (Stage.running x)) (Course.advance_over _ _)
    | ended | retired =>
      rw [hp, Exchange.outcome_none hall] at hs
      cases hs

/-- The unit of a call whose exchange has run its course can end. -/
theorem conclude_possible {course : Course} (ht : course.Typed)
    (hv : (start fired).valid (before ++ .caller (.send place payload signal) :: after) = true)
    (he : (start fired).run before = e) {rest : List Own}
    (hown : history e.inner.size none after = course.own ++ rest) (hr : .concluded ∉ rest) :
    (start fired).valid (before ++ .caller (.send place payload signal) ::
      (after ++ [.move (.conclude e.inner.size)])) = true := by
  have hevents : before ++ .caller (.send place payload signal) ::
      (after ++ [.move (.conclude e.inner.size)]) =
      (before ++ .caller (.send place payload signal) :: after) ++
        [.move (.conclude e.inner.size)] := by simp
  have hprogress := progress_of_course ht hv
    ((history_of_sent (valid_before hv) he after).trans hown) hr
  rw [hevents]
  refine valid_append hv ?_
  simp [valid, possible, Pipeline.Run.possible, Dispatch.allows, hprogress, Stage.isOver]

/-- The end of a unit is the last thing that happens to its call. -/
theorem history_concluded (k : Nat) (signal : Option Nat) (events : List Event) :
    history k signal (events ++ [.move (.conclude k)]) =
      history k signal events ++ [.concluded] := by
  simp [history, Event.happens?, Move.happens?]

/-- Nothing but the end of its unit is missing for the answer of a call whose exchange has run its
course. -/
theorem concluded_next {course : Course} (ht : course.Typed)
    (hv : (start fired).valid (before ++ .caller (.send place payload signal) :: after) = true)
    (he : (start fired).run before = e) {rest : List Own}
    (hown : history e.inner.size none after = course.own ++ rest) :
    ∃ more, (more = [] ∨ more = [.move (.conclude e.inner.size)]) ∧
      (start fired).valid (before ++ .caller (.send place payload signal) :: (after ++ more)) =
        true ∧
      firstReason (history e.inner.size signal (after ++ more)) =
        firstReason (history e.inner.size signal after) ∧
      ∃ tail, history e.inner.size none (after ++ more) = course.own ++ tail ∧
        .concluded ∈ tail := by
  by_cases hr : .concluded ∈ rest
  · refine ⟨[], Or.inl rfl, ?_⟩
    rw [List.append_nil]
    exact ⟨hv, rfl, rest, hown, hr⟩
  · refine ⟨_, Or.inr rfl, conclude_possible ht hv he hown hr, ?_, rest ++ [.concluded], ?_, ?_⟩
    · rw [history_concluded, firstReason_append]
    · rw [history_concluded, hown, List.append_assoc]
    · exact List.mem_append_right _ (List.mem_singleton_self _)

/-- A call that is not given up has no other answer than the one of its course. -/
theorem answered_only {course : Course} (ht : course.Typed)
    (hv : (start fired).valid (before ++ .caller (.send place payload signal) :: after) = true)
    (he : (start fired).run before = e) (hh : e.transport.handles.members[place]? = some handle)
    (hopen : e.channel.isClosed handle.sender = false)
    (hcalm : (e.reason? signal).or (firstReason (history e.inner.size signal after)) = none)
    {rest : List Own} (hown : history e.inner.size none after = course.own ++ rest)
    {a : Attempt Value} (ha : (e.inner.size, a) ∈
      ((start fired).run (before ++ .caller (.send place payload signal) :: after)).answers) :
    a = course.answer := by
  by_cases hr : .concluded ∈ rest
  · exact (answers_of_course ht hv he hh hopen hcalm hown hr a).mp ha
  · have hnone : .concluded ∉ history e.inner.size none after := by
      rw [hown]
      intro hc
      rcases List.mem_append.mp hc with hc | hc
      · exact course.not_concluded _ hc rfl
      · exact hr hc
    exact (not_answered hv he hh hopen hcalm hnone a ha).elim

/-- Once the client has done its part for a call that is accepted and not given up, nothing but the
end of its unit is left to happen, and what the caller learns then tells of the course that the
exchange has taken, unless something is thrown on the way to the answer: what failed cannot be put
into words, or discarding the body fails. Then the caller learns only that the exchange has died.
The status that the caller learns is that of the response if discarding the body leaves it as it is.
A body in chunks of bytes arrives whole, as far as memory has room for it. -/
theorem answer_tells_course (fired : List (Nat × Value)) {before after : List Event} {place : Nat}
    {payload : Bytes} {signal : Option Nat} {handle : Handle} {e : Embedded}
    (hv : (start fired).valid (before ++ .caller (.send place payload signal) :: after) = true)
    (he : (start fired).run before = e) (hh : e.transport.handles.members[place]? = some handle)
    (hopen : e.channel.isClosed handle.sender = false)
    (hcalm : (e.reason? signal).or (firstReason (history e.inner.size signal after)) = none)
    {course : Course} (ht : course.Typed) (hown : course.own <+: history e.inner.size none after) :
    ∃ a, (course.Smooth → course.Told a) ∧
      (¬ course.Smooth → a = .error Fault.diedWithoutResponse.toValue) ∧
      (∀ response, course = .refused response → response.later = .ok response.status →
        (∀ v, response.discard ≠ .throws v) →
          ∃ message, a = .error (Fault.ofKind .http message response.status .undefined).toValue) ∧
      (∀ response chunks memory, course = .whole response chunks memory →
        (Value.content chunks).length ≤ memory.room →
          a = .ok (.bytes (Value.content chunks))) ∧
      (∀ b, (e.inner.size, b) ∈
        ((start fired).run (before ++ .caller (.send place payload signal) :: after)).answers →
        b = a) ∧
      ∃ rest, (rest = [] ∨ rest = [.move (.conclude e.inner.size)]) ∧
        (start fired).valid (before ++ .caller (.send place payload signal) :: (after ++ rest)) =
          true ∧
        (e.inner.size, a) ∈ ((start fired).run
          (before ++ .caller (.send place payload signal) :: (after ++ rest))).answers := by
  obtain ⟨rest, hrest⟩ := hown
  obtain ⟨more, hmore, hvalid, hreason, tail, htail, hconcluded⟩ :=
    concluded_next ht hv he hrest.symm
  refine ⟨course.answer, Course.told_of_smooth, Course.died_of_not_smooth, ?_, ?_, fun b hb => ?_,
    more, hmore, hvalid, ?_⟩
  · rintro response rfl hl hd
    obtain ⟨status, message, hs, ha⟩ := Course.told_of_smooth (Course.smooth_steady ht.2 hl hd)
    rw [hl, Except.ok.injEq] at hs
    exact ⟨message, hs ▸ ha⟩
  · rintro response chunks memory rfl hm
    obtain ⟨body, hj, ha⟩ := Course.told_of_smooth (c := .whole response chunks memory)
      ⟨_, Value.joined_bytes ht.2 hm⟩
    rw [Value.joined_bytes ht.2 hm, Except.ok.injEq] at hj
    rw [ha, hj]
  · exact answered_only ht hv he hh hopen hcalm hrest.symm hb
  · rw [← hreason] at hcalm
    exact (answers_of_course ht hvalid he hh hopen hcalm htail hconcluded _).mpr rfl

end

/-- A handle is made. -/
def opening : List Event := [.caller (.handle "http://a/")]

/-- The client does what it is asked for. -/
def exchanging (r : Attempt (Option Response)) : List Event :=
  [.move .turn, .move .turn, .move (.answered 0 r)]

theorem opening_ready : ((start []).run opening).inner.size = 0 ∧
    ∃ handle : Handle, ((start []).run opening).transport.handles.members[0]? = some handle ∧
      ((start []).run opening).channel.isClosed handle.sender = false := by
  have h : (((start []).run opening).transport.handles.members[0]?).map (·.sender) = some 1 := by
    decide +kernel
  obtain ⟨handle, hh, hs⟩ := Option.map_eq_some_iff.mp h
  refine ⟨by decide +kernel, handle, hh, ?_⟩
  rw [hs]
  decide +kernel

/-- A call without a signal is not given up. -/
theorem calm_of_unsignalled (e : Embedded) (k : Nat) (events : List Event) :
    (e.reason? none).or (firstReason (history k none events)) = none := by
  rw [firstReason_history]
  rfl

/-- A response of the server's refusal that lets its body be discarded. -/
def refusing : Response := .steady (.number 500) .returns

theorem refused_tells_course :
    (start []).valid (opening ++ .caller (.send 0 [] none) :: exchanging (.ok (some refusing))) =
      true ∧
    ∃ a rest, (Course.refused refusing).Told a ∧ (0, a) ∈ ((start []).run (opening ++
      .caller (.send 0 [] none) :: (exchanging (.ok (some refusing)) ++ rest))).answers := by
  have hv : (start []).valid (opening ++ .caller (.send 0 [] none) ::
      exchanging (.ok (some refusing))) = true := by decide +kernel
  obtain ⟨hsize, handle, hh, hopen⟩ := opening_ready
  have ht : (Course.refused refusing).Typed := ⟨by decide +kernel, rfl⟩
  have hown : (Course.refused refusing).own <+:
      history ((start []).run opening).inner.size none (exchanging (.ok (some refusing))) := by
    rw [hsize]
    exact ⟨[], rfl⟩
  obtain ⟨a, htold, _, _, _, _, rest, _, _, ha⟩ :=
    answer_tells_course [] hv rfl hh hopen (calm_of_unsignalled _ _ _) ht hown
  rw [hsize] at ha
  have hs := Course.smooth_steady ht.2 (rfl : refusing.later = _) fun v hd => (by cases hd)
  exact ⟨hv, a, rest, htold hs, ha⟩

/-- One call, the answer of its client and the end of its unit. -/
def exchanged (r : Attempt (Option Response)) : List Event :=
  opening ++ .caller (.send 0 [] none) :: (exchanging r ++ [.move (.conclude 0)])

theorem answers_exchanged {course : Course} (ht : course.Typed) {r : Attempt (Option Response)}
    (hr : course.own = [.answered r]) (hv : (start []).valid (exchanged r) = true) :
    (0, course.answer) ∈ ((start []).run (exchanged r)).answers := by
  obtain ⟨hsize, handle, hh, hopen⟩ := opening_ready
  have hown : history ((start []).run opening).inner.size none
      (exchanging r ++ [.move (.conclude 0)]) = course.own ++ [.concluded] := by
    rw [hsize, hr]
    rfl
  have h := answers_of_course ht hv rfl hh hopen (calm_of_unsignalled _ _ _) hown
    (List.mem_singleton_self _) course.answer
  rw [hsize] at h
  exact h.mpr rfl

/-- A response that cannot be discarded. -/
def sticking : Response := .steady (.number 500) (.throws .null)

/-- A response that says another status once it has been discarded. -/
def shifting : Response := ⟨.number 404, .returns, .ok (.number 0)⟩

/-- A request that fails with a value without a text, and a response of the server's refusal whose
body cannot be discarded: either way the caller learns that the exchange has died, and nothing of
what has happened. Of a response that says another status behind the discarding of its body, the
caller learns that status and not the one that it was refused for. -/
theorem slips_tell_nothing :
    ((start []).valid (exchanged (.error (.bare []))) = true ∧
      (0, .error Fault.diedWithoutResponse.toValue) ∈
        ((start []).run (exchanged (.error (.bare [])))).answers ∧
      ¬ (Course.failed (.bare [])).Told (.error Fault.diedWithoutResponse.toValue)) ∧
    ((start []).valid (exchanged (.ok (some sticking))) = true ∧
      (0, .error Fault.diedWithoutResponse.toValue) ∈
        ((start []).run (exchanged (.ok (some sticking)))).answers ∧
      ¬ (Course.refused sticking).Told (.error Fault.diedWithoutResponse.toValue)) ∧
    (start []).valid (exchanged (.ok (some shifting))) = true ∧
      ∃ a, (0, a) ∈ ((start []).run (exchanged (.ok (some shifting)))).answers ∧
        ¬ ∃ message, a = .error (Fault.ofKind .http message (.number 404) .undefined).toValue := by
  have hfailed : (start []).valid (exchanged (.error (.bare []))) = true := by decide +kernel
  have hsticking : (start []).valid (exchanged (.ok (some sticking))) = true := by decide +kernel
  have hshifting : (start []).valid (exchanged (.ok (some shifting))) = true := by decide +kernel
  refine ⟨⟨hfailed, ?_, ?_⟩, ⟨hsticking, ?_, ?_⟩, hshifting, ?_⟩
  · have ht : (Course.failed (.bare [])).Typed := trivial
    have h := answers_exchanged ht rfl hfailed
    rwa [Course.died_of_not_smooth (c := .failed (.bare [])) fun ⟨_, ht⟩ => (by cases ht)] at h
  · simp [Course.Told, Fault.toValue, Fault.ofKind, Fault.diedWithoutResponse, FaultKind.name]
  · have ht : (Course.refused sticking).Typed := ⟨by decide +kernel, rfl⟩
    have h := answers_exchanged ht rfl hsticking
    rwa [Course.died_of_not_smooth (c := .refused sticking) fun hs => hs.1 _ rfl] at h
  · simp [Course.Told, Fault.toValue, Fault.ofKind, Fault.diedWithoutResponse, FaultKind.name]
  · have ht : (Course.refused shifting).Typed := ⟨by decide +kernel, rfl⟩
    refine ⟨_, answers_exchanged ht rfl hshifting, ?_⟩
    have hsmooth : (Course.refused shifting).Smooth :=
      ⟨fun v hd => (by cases hd), .number 0, rfl, Course.innerText_number rfl⟩
    obtain ⟨status, text, hl, ha⟩ := Course.told_of_smooth hsmooth
    rintro ⟨message, hm⟩
    rw [ha] at hm
    have hstatus : status = .number 404 := by
      simp only [Fault.toValue, Fault.ofKind, Except.error.injEq, Value.fault.injEq] at hm
      exact hm.2.2.1
    have hne : (0 : Binary64) ≠ 404 := by decide +kernel
    rw [hstatus] at hl
    exact hne (Value.number.inj (Except.ok.inj hl))

end Embedded
end Courier
