import Courier.Proofs.Bridge
import Courier.Proofs.Exchange
import Courier.Worker
import Mathlib.Tactic

/-!
What crosses between the two threads. Numbers of requests, requests and outcomes arrive as they
were posted; of a failure everything arrives but its cause, which arrives as a text.
-/

namespace Courier

namespace Binary64

/-- An exact multiple of the step needs no rounding. -/
theorem round_exact {num scale : Nat} (hs : scale = Nat.log2 num - 52) (hd : 2 ^ scale ∣ num)
    (hn : num / 2 ^ scale < 2 ^ 53) (hscale : scale ≤ 2045) :
    round false num 1 = .finite false (num / 2 ^ scale) scale := by
  have hr : num % 2 ^ scale = 0 := Nat.mod_eq_zero_of_dvd hd
  have hpos : 0 < 2 ^ scale := Nat.two_pow_pos scale
  have hne : num / 2 ^ scale ≠ 2 ^ 53 := Nat.ne_of_lt hn
  simp only [round, Nat.pow_eq, Nat.div_one, one_mul, ← hs, hr, Nat.mul_zero, hpos, true_or, if_true]
  rw [if_neg hne]
  simp only [hscale, if_true]

/-- A number of at most 53 bits is a multiple of the step at any scale. -/
theorem scale_exact {n u one : Nat} (h : n ≤ 2 ^ 53) (hone : one = Nat.pow 2 u) :
    2 ^ (Nat.log2 (n * one) - 52) ∣ n * one ∧ n * one / 2 ^ (Nat.log2 (n * one) - 52) < 2 ^ 53 ∧
      Nat.log2 (n * one) - 52 ≤ u + 1 := by
  rw [Nat.pow_eq] at hone
  have hlt := Nat.lt_log2_self (n := n * one)
  rcases Nat.eq_zero_or_pos n with rfl | hpos
  · simp
  have hu : 0 < one := hone ▸ Nat.two_pow_pos u
  have hne : n * one ≠ 0 := Nat.mul_ne_zero (Nat.pos_iff_ne_zero.mp hpos) (Nat.ne_of_gt hu)
  have hmost : n * one ≤ 2 ^ (u + 53) := by
    rw [Nat.pow_add, ← hone, Nat.mul_comm]
    exact Nat.mul_le_mul_left _ h
  have hlog : Nat.log2 (n * one) < u + 54 := by
    rw [Nat.log2_lt hne]
    exact Nat.lt_of_le_of_lt hmost (Nat.pow_lt_pow_right (by omega) (by omega))
  refine ⟨?_, ?_, by omega⟩
  · rcases Nat.lt_or_ge (Nat.log2 (n * one)) (u + 53) with hl | hl
    · have hdvd : 2 ^ (Nat.log2 (n * one) - 52) ∣ one := by
        rw [hone]
        exact Nat.pow_dvd_pow 2 (by rw [← hone]; omega)
      exact Nat.dvd_trans hdvd (Nat.dvd_mul_left _ _)
    · have heq : n * one = 2 ^ (u + 53) := Nat.le_antisymm hmost ((Nat.le_log2 hne).mp hl)
      rw [heq]
      exact Nat.pow_dvd_pow 2 (by rw [← heq]; omega)
  · refine Nat.div_lt_of_lt_mul (Nat.lt_of_lt_of_le hlt ?_)
    rw [← Nat.pow_add]
    exact Nat.pow_le_pow_right (by omega) (by omega)

theorem unit_pos : 0 < unit := by decide +kernel

/-- The whole numbers up to `2 ^ 53` are exact. -/
theorem units_ofNat {n : Nat} (h : n ≤ 2 ^ 53) :
    (ofNat n).units? = some ((n * unit : Nat) : Int) := by
  have hof : ofNat n = round false (n * unit) 1 := by
    have hneg : ¬ (n : Int) < 0 := by omega
    simp [ofNat, ofInt, hneg]
  have hunit : unit = Nat.pow 2 1074 := by unfold unit; rfl
  obtain ⟨hd, hlt, hle⟩ := scale_exact h hunit
  rw [hof, round_exact rfl hd hlt (by omega)]
  simp only [units?, Nat.pow_eq]
  rw [Nat.div_mul_cancel hd]

theorem units_of_isZero {x : Binary64} (h : x.isZero = true) : x.units? = some 0 := by
  unfold isZero at h
  split at h
  · rename_i negative scale
    cases negative <;> simp [units?]
  · cases h

theorem isNaN_of_units {x : Binary64} {a : Int} (h : x.units? = some a) : x.isNaN = false := by
  cases x with
  | nan => cases h
  | _ => rfl

/-- Numbers of requests tell the requests apart. -/
theorem same_ofNat {m n : Nat} (hm : m ≤ 2 ^ 53) (hn : n ≤ 2 ^ 53) :
    (ofNat m).same (ofNat n) = true ↔ m = n := by
  have hum := units_ofNat hm
  have hun := units_ofNat hn
  constructor
  · intro h
    simp only [same, Bool.and_eq_true, Bool.or_eq_true, beq_iff_eq] at h
    have hunits : (ofNat m).units? = (ofNat n).units? := by
      rcases h.2 with he | ⟨hz, hz'⟩
      · rw [he]
      · rw [units_of_isZero hz, units_of_isZero hz']
    rw [hum, hun, Option.some.injEq, Int.natCast_inj] at hunits
    exact Nat.eq_of_mul_eq_mul_right unit_pos hunits
  · rintro rfl
    simp [same, isNaN_of_units hum]

end Binary64

/-! Requests -/

/-- A posted request as the worker receives it. -/
def Request.arrived (r : Request) : PostedRequest := ⟨r.url, .record r.headers, r.body⟩

theorem clone_message (seq : Nat) (uri : String) (payload : Bytes) :
    ((Request.post uri payload).message seq).clone =
      .ok (ToWorker.request (.ofNat seq) (Request.post uri payload).arrived).toValue := rfl

theorem ofValue_request (seq : Binary64) (uri : String) (payload : Bytes) :
    ToWorker.ofValue? (ToWorker.request seq (Request.post uri payload).arrived).toValue =
      some (.request seq (Request.post uri payload).arrived) := rfl

theorem clone_close : ToWorker.close.toValue.clone = .ok ToWorker.close.toValue := rfl

theorem ofValue_close : ToWorker.ofValue? ToWorker.close.toValue = some .close := rfl

/-- The client on the other thread gets what was sent. -/
theorem received_arrived (uri : String) (payload : Bytes) :
    Worker.received (Request.post uri payload).arrived = (Request.post uri payload).toValue := rfl

/-! Outcomes -/

/-- What stands for the value as a cause is a text. -/
def Value.HasText (v : Value) (text : String) : Prop := v.describe = .ok (.string text)

theorem Value.HasText.wording {v : Value} {text : String} (h : v.HasText text) :
    v.wording = .ok text := by
  rw [HasText] at h
  simp [Value.wording, h, bind, Except.bind, innerText]

/-- The cause of a failure as it arrives. -/
def Value.asCause : Value → Value
  | .undefined => .undefined
  | v => v.describe.toOption.getD ""

theorem Value.asCause_of_text {v : Value} {text : String} (h : v.HasText text)
    (hv : v ≠ .undefined) : v.asCause = .string text := by
  unfold asCause
  split
  · exact (hv rfl).elim
  · rw [HasText] at h
    simp [h, Except.toOption]

/-- What arrives is told apart by whether there is a cause. -/
theorem Value.asCause_cases {v : Value} (h : v = .undefined ∨ ∃ text, v.HasText text) :
    (v = .undefined ∧ v.asCause = .undefined) ∨
      ∃ text, v ≠ .undefined ∧ v.HasText text ∧ v.asCause = .string text := by
  by_cases hv : v = .undefined
  · subst hv
    exact Or.inl ⟨rfl, rfl⟩
  · obtain ⟨text, ht⟩ := h.resolve_left hv
    exact Or.inr ⟨text, hv, ht, asCause_of_text ht hv⟩

theorem Value.asCause_asCause {v : Value} (h : v = .undefined ∨ ∃ text, v.HasText text) :
    v.asCause.asCause = v.asCause := by
  obtain ⟨_, hv⟩ | ⟨text, _, _, hv⟩ := asCause_cases h <;> rw [hv] <;> rfl

/-- A failure without a cause is written without one. -/
theorem Fault.post_uncaused {f : Fault} (hc : f.cause = .undefined) :
    f.post = .ok (.record ([("kind", f.kind), ("message", f.message)] ++
      optionalField "status" f.status)) := by
  simp [post, hc, bind, Except.bind, pure, Except.pure]

/-- In place of a cause stands what describes it. -/
theorem Fault.post_caused {f : Fault} (hc : f.cause ≠ .undefined) :
    f.post = f.cause.describe.map fun d => .record ([("kind", f.kind), ("message", f.message)] ++
      optionalField "status" f.status ++ [("cause", d)]) := by
  cases hd : f.cause.describe <;> simp [post, hd, bind, Except.bind, pure, Except.pure, Except.map]

/-- The record of a failure starts with its kind. -/
theorem Fault.post_eq {f : Fault} {posted : Value} (h : f.post = .ok posted) :
    ∃ rest, posted = .record (("kind", f.kind) :: rest) := by
  by_cases hc : f.cause = .undefined
  · rw [post_uncaused hc] at h
    exact ⟨_, (Except.ok.inj h).symm⟩
  · rw [post_caused hc] at h
    cases hd : f.cause.describe with
    | error w =>
      rw [hd] at h
      cases h
    | ok d =>
      rw [hd] at h
      exact ⟨_, (Except.ok.inj h).symm⟩

/-- A copy has the copies of all fields. -/
theorem Value.clone_lookup {fields copies : List (String × Value)}
    (h : cloneFields fields = .ok copies) (name : String) :
    (lookup fields name).clone = .ok (lookup copies name) := by
  induction fields generalizing copies with
  | nil =>
    obtain rfl := Except.ok.inj h
    rfl
  | cons x fields ih =>
    obtain ⟨copy, hcopy, h⟩ := Attempt.bind_eq_ok h
    obtain ⟨rest, hrest, h⟩ := Attempt.bind_eq_ok h
    obtain rfl := Except.ok.inj h
    have hr := ih hrest
    by_cases hn : x.1 = name
    · simpa [lookup, own?, hn] using hcopy
    · simpa [lookup, own?, hn] using hr

theorem Value.clone_field {fields : List (String × Value)} {copy : Value}
    (h : (Value.record fields).clone = .ok copy) (name : String) :
    (lookup fields name).clone = .ok (copy.field name) := by
  obtain ⟨copies, hc, h⟩ := Attempt.bind_eq_ok h
  obtain rfl := Except.ok.inj h
  exact clone_lookup hc name

/-- Texts, numbers and what is undefined stay so in a copy, and nothing else becomes that. -/
theorem Value.clone_keeps {v copy : Value} (h : v.clone = .ok copy) :
    copy.isString = v.isString ∧ copy.isUndefined = v.isUndefined ∧ copy.isNumber = v.isNumber := by
  cases v with
  | symbol | function | port => cases h
  | array | record | bare | map =>
    obtain ⟨_, _, h⟩ := Attempt.bind_eq_ok h
    cases h
    exact ⟨rfl, rfl, rfl⟩
  | error | fault =>
    obtain ⟨_, _, h⟩ := Attempt.bind_eq_ok h
    obtain ⟨_, _, h⟩ := Attempt.bind_eq_ok h
    cases h
    exact ⟨rfl, rfl, rfl⟩
  | coded =>
    obtain ⟨_, _, h⟩ := Attempt.bind_eq_ok h
    cases h
    exact ⟨rfl, rfl, rfl⟩
  | _ =>
    cases h
    exact ⟨rfl, rfl, rfl⟩

theorem FaultKind.ofValue_eq_some {v : Value} {kind : FaultKind}
    (h : FaultKind.ofValue? v = some kind) : v = .string kind.name := by
  cases v with
  | string s =>
    have hname := List.find?_some h
    simp only [decide_eq_true_eq] at hname
    rw [hname]
  | _ => cases h

/-- A record of a failure that passes the check can be read back, part by part. -/
theorem Fault.rebuild_of_isPosted {v : Value} (h : isPosted v = true) :
    ∃ (kind : FaultKind) (message : String), v.field "kind" = .string kind.name ∧
      v.field "message" = .string message ∧
      rebuild v = .ok ⟨.string kind.name, message, v.field "status", v.field "cause"⟩ := by
  simp only [isPosted, Bool.and_eq_true] at h
  obtain ⟨⟨⟨⟨hrecord, hkind⟩, hmessage⟩, _⟩, _⟩ := h
  obtain ⟨kind, hkind⟩ := Option.isSome_iff_exists.mp hkind
  have hkind := FaultKind.ofValue_eq_some hkind
  obtain ⟨message, hmessage⟩ : ∃ message, v.field "message" = .string message := by
    cases hm : v.field "message" with
    | string s => exact ⟨s, rfl⟩
    | _ => simp [hm, Value.isString] at hmessage
  have hread : v.read "kind" = .ok (.string kind.name) := by
    rw [← hkind]
    cases v with
    | undefined => cases hrecord
    | null => cases hrecord
    | _ => rfl
  refine ⟨kind, message, hkind, hmessage, ?_⟩
  simp [rebuild, make, hread, hmessage, Value.innerText, bind, Except.bind, pure, Except.pure]

/-- A failure as it arrives. -/
def Fault.relayed (f : Fault) : Fault := { f with cause := f.cause.asCause }

/-- Failures that cross between threads as they should. -/
structure Fault.Portable (f : Fault) : Prop where
  kind : ∃ kind : FaultKind, f.kind = .string kind.name
  message : ∃ text, f.message = .string text
  status : f.status = .undefined ∨ ∃ x, f.status = .number x
  cause : f.cause = .undefined ∨ ∃ text, f.cause.HasText text

/-- The record of a portable failure. -/
def Fault.record (f : Fault) : Value :=
  .record ([("kind", f.kind), ("message", f.message)] ++ optionalField "status" f.status ++
    optionalField "cause" f.cause.asCause)

section

variable {f : Fault}

theorem Fault.Portable.post (h : f.Portable) : f.post = .ok f.record := by
  obtain ⟨hc, _⟩ | ⟨text, hc, hd, ht⟩ := Value.asCause_cases h.cause
  · simp [Fault.post_uncaused hc, record, hc, Value.asCause, optionalField]
  · rw [Value.HasText] at hd
    simp [Fault.post_caused hc, record, ht, hd, optionalField, Except.map]

theorem Fault.Portable.relayed (h : f.Portable) : f.relayed.Portable := by
  refine ⟨h.kind, h.message, h.status, ?_⟩
  obtain ⟨_, ht⟩ | ⟨text, _, _, ht⟩ := Value.asCause_cases h.cause
  · exact Or.inl ht
  · exact Or.inr ⟨text, by rw [Fault.relayed, ht]; rfl⟩

theorem Fault.Portable.record_relayed (h : f.Portable) : f.relayed.record = f.record := by
  simp [record, Fault.relayed, Value.asCause_asCause h.cause]

/-- The four shapes of the record of a portable failure. -/
theorem Fault.Portable.record_cases (h : f.Portable) : ∃ kind : FaultKind,
    f.kind = .string kind.name ∧ ∃ message, f.message = .string message ∧
    ∃ status cause : List (String × Value),
      f.record = .record ([("kind", .string kind.name), ("message", .string message)] ++ status ++
        cause) ∧
      (status = [] ∧ f.status = .undefined ∨ ∃ x, status = [("status", .number x)] ∧
        f.status = .number x) ∧
      (cause = [] ∧ f.cause.asCause = .undefined ∨ ∃ text, cause = [("cause", .string text)] ∧
        f.cause.asCause = .string text) := by
  obtain ⟨kind, hk⟩ := h.kind
  obtain ⟨message, hm⟩ := h.message
  refine ⟨kind, hk, message, hm, optionalField "status" f.status,
    optionalField "cause" f.cause.asCause, by rw [record, hk, hm], ?_, ?_⟩
  · rcases h.status with hs | ⟨x, hs⟩
    · exact Or.inl ⟨by rw [hs]; rfl, hs⟩
    · exact Or.inr ⟨x, by rw [hs]; rfl, hs⟩
  · obtain ⟨_, ht⟩ | ⟨text, _, _, ht⟩ := Value.asCause_cases h.cause
    · exact Or.inl ⟨by rw [ht]; rfl, ht⟩
    · exact Or.inr ⟨text, by rw [ht]; rfl, ht⟩

theorem Fault.Portable.clone (h : f.Portable) : f.record.clone = .ok f.record := by
  obtain ⟨kind, _, message, _, status, cause, hr, ⟨rfl, _⟩ | ⟨x, rfl, _⟩,
    ⟨rfl, _⟩ | ⟨text, rfl, _⟩⟩ := h.record_cases <;> rw [hr] <;> rfl

theorem Fault.Portable.isPosted (h : f.Portable) : isPosted f.record = true := by
  obtain ⟨kind, _, message, _, status, cause, hr, ⟨rfl, _⟩ | ⟨x, rfl, _⟩,
    ⟨rfl, _⟩ | ⟨text, rfl, _⟩⟩ := h.record_cases <;> rw [hr] <;> cases kind <;> rfl

theorem Fault.Portable.rebuild (h : f.Portable) : rebuild f.record = .ok f.relayed := by
  obtain ⟨kind, hk, message, hm, status, cause, hr, ⟨rfl, hs⟩ | ⟨x, rfl, hs⟩,
    ⟨rfl, ht⟩ | ⟨text, rfl, ht⟩⟩ := h.record_cases <;> rw [hr, Fault.relayed, hk, hm, hs, ht] <;> rfl

end

theorem Fault.portable_died : diedWithoutResponse.Portable :=
  ⟨⟨.diedWithoutResponse, rfl⟩, ⟨_, rfl⟩, Or.inl rfl, Or.inl rfl⟩

/-- What stands for the value as a cause, if anything does, is a text or nothing at all. -/
def Value.isTextual (v : Value) : Bool :=
  match v.describe with
  | .ok d => d.isUndefined || d.isString
  | .error _ => true

theorem Value.isTextual_iff {v : Value} : v.isTextual = true ↔
    ∀ d, v.describe = .ok d → v.describe = .ok .undefined ∨ ∃ text, v.HasText text := by
  unfold isTextual HasText
  cases v.describe with
  | error w => simp
  | ok d => cases d <;> simp [isUndefined, isString]

/-- An error whose message is null. -/
def Value.speechless : Value := .error "Error" .null .undefined

/-- Something that can be put into words is described by something. -/
theorem Value.described_of_wording {v : Value} {text : String} (h : v.wording = .ok text) :
    ∃ d, v.describe = .ok d ∧ d.innerText = .ok text := Attempt.bind_eq_ok h

/-- A client whose statuses are numbers, and whose failures are described by texts or by nothing. -/
def Manner.plain : Manner := ⟨(·.isNumber = true), (·.isTextual = true)⟩

/-- The failures of an exchange with such a client are portable if anything describes them. -/
theorem Fault.OfExchange.portable {f : Fault} (h : f.OfExchange .plain) :
    f.Portable ∨ f.cause.describe = .ok .undefined := by
  obtain ⟨status, hs, hf⟩ | ⟨cause, hc, hf⟩ := h
  · obtain ⟨text, _, rfl⟩ := http_eq hf
    refine Or.inl ⟨⟨.http, rfl⟩, ⟨_, rfl⟩, Or.inr ?_, Or.inl rfl⟩
    simp only [Manner.plain] at hs
    cases status <;> simp_all [Value.isNumber, ofKind]
  · obtain ⟨text, hw, rfl⟩ := network_eq hf
    obtain ⟨d, hd, _⟩ := Value.described_of_wording hw
    rcases Value.isTextual_iff.mp hc d hd with hu | ht
    · exact Or.inr hu
    · exact Or.inl ⟨⟨.network, rfl⟩, ⟨_, rfl⟩, Or.inl rfl, Or.inr ht⟩

/-- An outcome as it arrives. -/
def Outcome.relayed : Outcome → Outcome
  | .failure fault => .failure fault.relayed
  | o => o

/-- What the owner gets for what a unit came to. -/
def Outcome.carried (o : Option Outcome) : Outcome :=
  o.elim (.failure Fault.diedWithoutResponse) relayed

/-- A value on the port that brings an outcome under a number. -/
def Outcome.Brings (seq : Binary64) (o : Outcome) (v : Value) : Prop :=
  ∃ posted, FromWorker.ofValue? v = some (.response seq posted) ∧ ofPosted posted = .ok o

theorem ofValue_response (seq : Binary64) {posted : Value} (h : Outcome.isPosted posted = true) :
    FromWorker.ofValue? (FromWorker.response seq posted).toValue = some (.response seq posted) := by
  simp [FromWorker.ofValue?, FromWorker.toValue, Value.isRecord, Value.field, Value.lookup,
    Value.own?, h]

theorem brings_success (seq : Binary64) (body : Bytes) : ∃ v,
    (∀ post, Worker.respond post seq (Outcome.success body).post = post v) ∧
      (Outcome.success body).Brings seq v :=
  ⟨_, fun _ => rfl, _, rfl, rfl⟩

/-- What is posted for a failed exchange. -/
def Outcome.postedFailure (error : Value) : Value := .record [("ok", .bool false), ("error", error)]

/-- A failure whose record can be copied is posted. -/
theorem Worker.respond_failure (seq : Binary64) {f : Fault} {record copy : Value}
    (hpost : f.post = .ok record) (hcopy : record.clone = .ok copy)
    (post : Value → Worker.Effect) : Worker.respond post seq (Outcome.failure f).post =
      post (FromWorker.response seq (Outcome.postedFailure copy)).toValue := by
  have hclone : (FromWorker.response seq (Outcome.postedFailure record)).toValue.clone =
      .ok (FromWorker.response seq (Outcome.postedFailure copy)).toValue := by
    simp [FromWorker.toValue, Outcome.postedFailure, Value.clone, Value.cloneFields, hcopy, bind,
      Except.bind, pure, Except.pure]
  rw [Outcome.postedFailure] at hclone
  simp [Worker.respond, Outcome.post, hpost, hclone, bind, Except.bind, pure, Except.pure]

/-- A failure whose record passes the check is brought as it is read from the copy. -/
theorem brings_posted (seq : Binary64) {f g : Fault} {record copy : Value}
    (hpost : f.post = .ok record) (hcopy : record.clone = .ok copy)
    (hposted : Fault.isPosted copy = true) (hread : Fault.rebuild copy = .ok g) : ∃ v,
    (∀ post, Worker.respond post seq (Outcome.failure f).post = post v) ∧
      (Outcome.failure g).Brings seq v := by
  refine ⟨_, Worker.respond_failure seq hpost hcopy, Outcome.postedFailure copy,
    ofValue_response seq hposted, ?_⟩
  simp [Outcome.ofPosted, Outcome.postedFailure, Value.field, Value.lookup, Value.own?, hread, bind,
    Except.bind, pure, Except.pure]

theorem brings_failure (seq : Binary64) {f : Fault} (h : f.Portable) : ∃ v,
    (∀ post, Worker.respond post seq (Outcome.failure f).post = post v) ∧
      (Outcome.failure f.relayed).Brings seq v :=
  brings_posted seq h.post h.clone h.isPosted h.rebuild

/-- What is described by nothing is not undefined, and arrives as no cause at all. -/
theorem Value.asCause_undescribed {v : Value} (h : v.describe = .ok .undefined) :
    v ≠ .undefined ∧ v.asCause = .undefined := by
  have hv : v ≠ .undefined := by
    rintro rfl
    cases h
  refine ⟨hv, ?_⟩
  unfold asCause
  split
  · exact (hv rfl).elim
  · rw [h]
    rfl

section

variable {client : Manner} {f : Fault}

/-- A failure whose cause is described by nothing is written with that, and arrives without one. -/
theorem Fault.OfExchange.undescribed (h : f.OfExchange client)
    (hd : f.cause.describe = .ok .undefined) : ∃ message,
    f = ofKind .network message .undefined f.cause ∧
      f.post = .ok (.record [("kind", .string FaultKind.network.name), ("message", .string message),
        ("cause", .undefined)]) ∧
      f.relayed = ofKind .network message .undefined .undefined := by
  obtain ⟨hc, hcause⟩ := Value.asCause_undescribed hd
  obtain ⟨status, _, hf⟩ | ⟨cause, _, hf⟩ := h
  · obtain ⟨_, _, rfl⟩ := http_eq hf
    exact (hc rfl).elim
  · obtain ⟨text, _, rfl⟩ := network_eq hf
    refine ⟨_, rfl, ?_, ?_⟩
    · rw [post_caused hc, hd]
      rfl
    · rw [relayed, hcause]
      rfl

theorem Fault.brings_undescribed (seq : Binary64) (h : f.OfExchange client)
    (hd : f.cause.describe = .ok .undefined) : ∃ v,
    (∀ post, Worker.respond post seq (Outcome.failure f).post = post v) ∧
      (Outcome.failure f.relayed).Brings seq v := by
  obtain ⟨message, _, hpost, hrelayed⟩ := h.undescribed hd
  exact brings_posted seq hpost rfl rfl (hrelayed ▸ rfl)

end

/-- Whatever a unit has come to, its response can be posted and brings that. -/
theorem brings_carried (seq : Binary64) {o : Option Outcome}
    (h : ∀ x, o = some x → x.OfExchange .plain) : ∃ v,
    (∀ post, Worker.respond post seq (Worker.outcomeOf (.got o)) = post v) ∧
      (Outcome.carried o).Brings seq v := by
  cases o with
  | none => exact brings_failure seq Fault.portable_died
  | some x =>
    cases x with
    | success body => exact brings_success seq body
    | failure f =>
      have hf : f.OfExchange .plain := h _ rfl
      rcases hf.portable with hp | hd
      · exact brings_failure seq hp
      · exact Fault.brings_undescribed seq hf hd
    | foreign v => exact (h _ rfl).elim

end Courier
