import Courier.Proofs.Front
import Courier.Proofs.Past
import Courier.Proofs.Worker

/-!
Standalone transports: a bridge on the thread of the callers, a worker, and a port that brings
every message once and in order. Nobody else posts on it, and the port closes and the thread exits
after the worker has closed its port, when every response has arrived.
-/

namespace Courier

structure Standalone where
  transport : Transport
  owner : Bridge.Run
  worker : Worker.Run
  /-- How many messages of the owner have arrived. -/
  heard : Nat
  /-- How many messages of the worker have arrived. -/
  listened : Nat

namespace Standalone

inductive Event where
  | caller (c : Caller)
  | forward
  | hear
  | listen
  | work (m : Move)
  | clientClosed (r : Attempt Unit)
  | portClosed
  | exited (code : Int)

def start (fired : List (Nat × Value)) : Standalone := ⟨.new 0, .start fired, .start, 0, 0⟩

def channel (s : Standalone) : Channel Nat := s.owner.bridge.intake.channel

/-- The next message of the owner as it arrives. -/
def arriving (s : Standalone) : Option Value := s.owner.posted[s.heard]?.bind (·.clone.toOption)

def step (s : Standalone) : Event → Standalone
  | .caller c =>
    let (transport, deed) := s.transport.act s.channel c
    { s with
      transport := transport
      owner := deed.elim s.owner fun deed => s.owner.step deed.owned }
  | .forward => { s with owner := s.owner.step .forward }
  | .hear =>
    s.arriving.elim s fun v => { s with worker := s.worker.message v, heard := s.heard + 1 }
  | .listen =>
    s.worker.sent[s.listened]?.elim s fun v =>
      { s with owner := s.owner.step (.message v), listened := s.listened + 1 }
  | .work m => { s with worker := s.worker.move m }
  | .clientClosed r => { s with worker := s.worker.clientClosed r }
  | .portClosed => { s with owner := s.owner.step .portClosed }
  | .exited code => { s with owner := s.owner.step (.exited code) }

def run (s : Standalone) (events : List Event) : Standalone := events.foldl step s

/-- The worker has closed its port, and all that it posted has arrived. -/
def gone (s : Standalone) : Bool :=
  match s.worker.worker.phase with
  | .closed => s.listened = s.worker.sent.length
  | _ => false

/-- The client does what clients do, reports statuses that are numbers and fails with what says in a
text what it is; nobody finds the worker gone before it is. -/
def possible (s : Standalone) : Event → Bool
  | .work m => s.worker.dispatch.allows m && m.isPlain
  | .portClosed | .exited _ => s.gone
  | _ => true

/-- Every event of a run is possible where it happens. -/
def valid (s : Standalone) : List Event → Bool
  | [] => true
  | ev :: events => s.possible ev && valid (s.step ev) events

/-- What happens to the unit at a place. -/
def Event.happens? (j : Nat) : Event → Option Own
  | .work m => m.happens? j
  | _ => none

/-- What has happened to the unit of the request that was accepted at a place. -/
def exchange (j : Nat) (events : List Event) : List Own := events.filterMap (·.happens? j)

variable {s : Standalone} {j k : Nat}

theorem run_append (s : Standalone) (before after : List Event) :
    s.run (before ++ after) = (s.run before).run after := List.foldl_append

theorem run_concat (s : Standalone) (events : List Event) (ev : Event) :
    s.run (events ++ [ev]) = (s.run events).step ev := run_append s events [ev]

theorem valid_concat {events : List Event} {ev : Event} (h : s.valid (events ++ [ev]) = true) :
    s.valid events = true ∧ (s.run events).possible ev = true := by
  induction events generalizing s with
  | nil => simpa [valid, run] using h
  | cons first events ih =>
    simp only [List.cons_append, valid, Bool.and_eq_true] at h ⊢
    obtain ⟨hvalid, hpossible⟩ := ih h.2
    exact ⟨⟨h.1, hvalid⟩, hpossible⟩

/-- The places of the requests whose responses have arrived. -/
def known (s : Standalone) : List Nat := (s.worker.told.take s.listened).map (·.call)

/-- The two sides agree on every request: what the worker has taken on is what the owner has
posted, and what the owner's callers have got is what the worker's units have come to. -/
structure Linked (s : Standalone) : Prop where
  owner : s.owner.Accounted
  orderly : s.owner.Orderly
  serving : s.worker.Serving
  size : s.worker.size = min s.heard s.owner.bridge.seq
  heard_le : s.heard ≤ s.owner.posted.length
  listened_le : s.listened ≤ s.worker.told.length
  opened : s.heard ≤ s.owner.bridge.seq →
    s.worker.dispatch.intake.channel.gate = (Channel.new : Channel Nat).gate
  parcels : ∀ (j k : Nat) (c : Call Unit) (d : Call Stage), s.owner.accepted[j]? = some k →
    s.owner.bridge.intake.calls[k]? = some c → s.worker.dispatch.intake.calls[j]? = some d →
      d.parcel = c.parcel
  pending : ∀ j k, s.owner.accepted[j]? = some k →
    ((j + 1, k) ∈ s.owner.bridge.pending ↔ j < s.owner.bridge.seq ∧ j ∉ s.known)
  given : ∀ t ∈ s.worker.told.take s.listened, ∀ k, s.owner.accepted[t.call]? = some k →
    ∃ o, t.reading = .got o ∧ s.owner.bridge.intake.Rests k (.given (Outcome.carried o))

theorem linked_start (fired : List (Nat × Value)) : (start fired).Linked := by
  have hq := (Bridge.Run.orderly_start fired)
  refine ⟨Bridge.Run.accounted_start fired, hq, Worker.Run.serving_start, ?_, Nat.zero_le _,
    Nat.le_refl _, fun _ => rfl, ?_, ?_, ?_⟩
  · exact (Nat.zero_min _).symm
  · intro j k c d hj
    cases hj
  · intro j k hj
    cases hj
  · intro t ht
    cases ht

/-- The units that have ended are those of requests that have arrived. -/
theorem Linked.lt_of_told (h : s.Linked) {t : Settled} (ht : t ∈ s.worker.told) :
    t.call < s.worker.size := by
  obtain ⟨c, hc, _⟩ := (h.serving.intake.told.mem t).mp ht
  exact (Array.getElem?_eq_some_iff.mp hc).1

theorem Linked.size_le (h : s.Linked) : s.worker.size ≤ s.owner.bridge.seq := by
  rw [h.size]
  exact Nat.min_le_right _ _

theorem Linked.lt_of_known (h : s.Linked) (hj : j ∈ s.known) : j < s.worker.size := by
  obtain ⟨t, ht, rfl⟩ := List.mem_map.mp hj
  exact h.lt_of_told (List.mem_of_mem_take ht)

/-- Something happens on the owner's thread that brings requests at most. -/
theorem Linked.called (h : s.Linked) {o : Bridge.Run} (hc : s.owner.Called o) (ho : o.Accounted)
    (hO : o.Orderly) (transport : Transport) :
    ({ s with transport := transport, owner := o } : Standalone).Linked := by
  obtain ⟨more, hmore⟩ := hc.accepted
  have hold : ∀ {j : Nat}, j < s.owner.bridge.seq → o.accepted[j]? = s.owner.accepted[j]? := by
    intro j hj
    rw [hmore]
    exact List.getElem?_append_left (Nat.lt_of_lt_of_le hj h.orderly.seq_le)
  refine ⟨ho, hO, h.serving, ?size, Nat.le_trans h.heard_le hc.posted, h.listened_le, ?opened,
    ?parcels, ?pending, ?given⟩
  case size =>
    rw [hc.seq]
    exact h.size
  case opened =>
    rw [hc.seq]
    exact h.opened
  case parcels =>
    intro j k c d hj hk hd
    have hlt := Nat.lt_of_lt_of_le (Array.getElem?_eq_some_iff.mp hd).1 h.size_le
    rw [hold hlt] at hj
    have hb := h.owner.known k (List.mem_of_getElem? hj)
    obtain ⟨e, he, hparcel, _⟩ := hc.kept.call k _ (Array.getElem?_eq_getElem hb)
    obtain rfl := Option.some.inj (hk.symm.trans he)
    rw [hparcel]
    exact h.parcels j k _ d hj (Array.getElem?_eq_getElem hb) hd
  case pending =>
    intro j k hj
    rw [hc.seq, hc.pending]
    by_cases hlt : j < s.owner.bridge.seq
    · rw [hold hlt] at hj
      exact h.pending j k hj
    · constructor
      · intro hp
        obtain ⟨i, hi, hk⟩ := h.orderly.pending _ hp
        obtain rfl : j = i := Nat.succ.inj hi
        exact (h.pending j k hk).mp hp
      · exact fun hp => (hlt hp.1).elim
  case given =>
    intro t ht k hk
    have hlt := Nat.lt_of_lt_of_le (h.lt_of_told (List.mem_of_mem_take ht)) h.size_le
    rw [hold hlt] at hk
    obtain ⟨x, hx, hr⟩ := h.given t ht k hk
    exact ⟨x, hx, hc.rests k _ _ rfl hr⟩

theorem Linked.caller (h : s.Linked) (c : Caller) : (s.step (.caller c)).Linked := by
  simp only [step]
  cases hd : (s.transport.act s.channel c).2 with
  | none =>
    exact h.called ⟨rfl, rfl, Nat.le_refl _, ⟨[], (List.append_nil _).symm⟩, .refl _,
      fun _ _ _ _ hr => hr⟩ h.owner h.orderly _
  | some deed =>
    have ho := h.owner.step deed.owned
    have hO : (s.owner.step deed.owned).Orderly :=
      h.orderly.step h.owner (by cases deed <;> exact fun he => by cases he)
    cases deed with
    | clone sender => exact h.called (Bridge.Run.called_clone _ sender) ho hO _
    | send sender uri payload signal =>
      exact h.called (Bridge.Run.called_send _ sender uri payload signal) ho hO _
    | release sender => exact h.called (Bridge.Run.called_release _ sender) ho hO _
    | abort signal reason => exact h.called (Bridge.Run.called_abort _ signal reason) ho hO _

/-- Posting a request changes what the owner waits for. -/
theorem Linked.posting (h : s.Linked) (hf : s.owner.bridge.forwarding = .handed (some k)) :
    (s.step .forward).Linked := by
  obtain ⟨c, uri, payload, hk, hp⟩ := h.owner.held hf
  have hturn := Bridge.turn_handed hf hk hp
  have hO : (s.owner.step .forward).Orderly := h.orderly.forward h.owner
  have hlength := (h.orderly.open_of_handed hf).1
  have hheard : s.heard ≤ s.owner.bridge.seq := hlength ▸ h.heard_le
  have hget := h.orderly.next_accepted h.owner hf
  have hb : (s.owner.step .forward).bridge = (s.owner.bridge.posting k).asking := by
    show s.owner.bridge.turn.1 = _
    rw [hturn]
  have hseq : (s.owner.step .forward).bridge.seq = s.owner.bridge.seq + 1 := by
    rw [hb]
    rfl
  have hpending : (s.owner.step .forward).bridge.pending =
      s.owner.bridge.pending ++ [(s.owner.bridge.seq + 1, k)] := by
    rw [hb]
    rfl
  refine ⟨h.owner.step .forward, hO, h.serving, ?size, ?heard_le, h.listened_le, ?opened, ?parcels,
    ?pending, ?given⟩
  case size =>
    show s.worker.size = min s.heard (s.owner.step .forward).bridge.seq
    have hsize := h.size
    rw [hseq]
    omega
  case heard_le =>
    refine Nat.le_trans h.heard_le ?_
    exact List.length_append ▸ Nat.le_add_right _ _
  case opened => exact fun _ => h.opened hheard
  case parcels =>
    show ∀ j k c d, s.owner.accepted[j]? = some k →
      (s.owner.step .forward).bridge.intake.calls[k]? = some c → _
    rw [hb]
    exact h.parcels
  case pending =>
    intro j n hj
    show (j + 1, n) ∈ (s.owner.step .forward).bridge.pending ↔
      j < (s.owner.step .forward).bridge.seq ∧ j ∉ s.known
    have hj : s.owner.accepted[j]? = some n := hj
    rw [hpending, hseq, List.mem_append, h.pending j n hj]
    constructor
    · rintro (⟨hlt, hn⟩ | hm)
      · exact ⟨Nat.lt_succ_of_lt hlt, hn⟩
      · obtain ⟨hj', _⟩ := Prod.mk.inj (List.mem_singleton.mp hm)
        refine ⟨by omega, fun hknown => ?_⟩
        have hlt := Nat.lt_of_lt_of_le (h.lt_of_known hknown) h.size_le
        omega
    · rintro ⟨hlt, hn⟩
      rcases Nat.lt_succ_iff_lt_or_eq.mp hlt with hlt | rfl
      · exact Or.inl ⟨hlt, hn⟩
      · obtain rfl := Option.some.inj (hget.symm.trans hj)
        exact Or.inr (List.mem_singleton_self _)
  case given =>
    show ∀ t ∈ _, ∀ n, _ → ∃ o, _ ∧ (s.owner.step .forward).bridge.intake.Rests n _
    rw [hb]
    exact h.given

theorem Linked.forward (h : s.Linked) : (s.step .forward).Linked := by
  have ho := h.owner.step .forward
  have hO : (s.owner.step .forward).Orderly := h.orderly.forward h.owner
  have hidle : ∀ b : Bridge, s.owner.bridge.turn.1 = b → b.seq = s.owner.bridge.seq →
      b.pending = s.owner.bridge.pending → b.intake = s.owner.bridge.intake →
        (s.step .forward).Linked := by
    intro b hb hseq hpending hintake
    refine h.called (o := s.owner.step .forward) ⟨?_, ?_, ?_, ⟨[], (List.append_nil _).symm⟩, ?_, ?_⟩
      ho hO s.transport
    · exact (congrArg Bridge.seq hb).trans hseq
    · exact (congrArg Bridge.pending hb).trans hpending
    · exact List.length_append ▸ Nat.le_add_right _ _
    · show Intake.Kept _ s.owner.bridge.turn.1.intake.calls
      rw [hb, hintake]
      exact .refl _
    · intro k slot reading _ hr
      show s.owner.bridge.turn.1.intake.Rests k slot
      rw [hb, hintake]
      exact hr
  obtain ht | hf | ⟨k, hf⟩ := s.owner.bridge.turn_cases
  · exact hidle _ (by rw [ht]) rfl rfl rfl
  · exact hidle _ (Bridge.turn_handed_none hf).1 rfl rfl rfl
  · exact h.posting hf

/-- Something happens on the thread of the worker. -/
theorem Linked.worked (h : s.Linked) {w : Worker.Run} {heard : Nat} (hserving : w.Serving)
    (hsize : w.size = min heard s.owner.bridge.seq) (hheard : heard ≤ s.owner.posted.length)
    (htold : ∃ more, w.told = s.worker.told ++ more)
    (hopened : heard ≤ s.owner.bridge.seq →
      w.dispatch.intake.channel.gate = (Channel.new : Channel Nat).gate)
    (hparcels : ∀ (j k : Nat) (c : Call Unit) (d : Call Stage), s.owner.accepted[j]? = some k →
      s.owner.bridge.intake.calls[k]? = some c → w.dispatch.intake.calls[j]? = some d →
        d.parcel = c.parcel) :
    ({ s with worker := w, heard := heard } : Standalone).Linked := by
  obtain ⟨more, hmore⟩ := htold
  have htake : w.told.take s.listened = s.worker.told.take s.listened := by
    rw [hmore, List.take_append_of_le_length h.listened_le]
  refine ⟨h.owner, h.orderly, hserving, hsize, hheard, ?_, hopened, hparcels, ?_, ?_⟩
  · show s.listened ≤ w.told.length
    rw [hmore, List.length_append]
    exact Nat.le_add_right_of_le h.listened_le
  · intro j k hj
    show _ ↔ _ ∧ j ∉ (w.told.take s.listened).map (·.call)
    rw [htake]
    exact h.pending j k hj
  · show ∀ t ∈ w.told.take s.listened, _
    rw [htake]
    exact h.given

/-- What a message of the owner makes of the calls of the worker: there is one more, or none. -/
def Grown (s t : Standalone) : Prop :=
  t.worker.dispatch.intake.calls = s.worker.dispatch.intake.calls ∨
    ∃ uri payload, t.worker.dispatch.intake.calls =
      s.worker.dispatch.intake.calls.push (Worker.Run.taken uri payload)

/-- The next request arrives. -/
theorem Linked.hear_request (h : s.Linked) (hlt : s.heard < s.owner.bridge.seq) :
    (s.step .hear).Linked ∧ s.Grown (s.step .hear) := by
  have hin := Nat.lt_of_lt_of_le hlt h.orderly.seq_le
  have hget := List.getElem?_eq_getElem hin
  obtain ⟨c, uri, payload, hc, hp, hposted⟩ := h.orderly.requests s.heard _ hlt hget
  have hsize : s.worker.size = s.heard := by
    have hs := h.size
    omega
  have hgate := h.opened (Nat.le_of_lt hlt)
  have ha : s.arriving = some (ToWorker.request (.ofNat (s.heard + 1))
      (Request.post uri payload).arrived).toValue := by
    rw [arriving, hposted, Option.bind_some, clone_message]
    rfl
  have hv : ToWorker.ofValue? (ToWorker.request (.ofNat (s.heard + 1))
      (Request.post uri payload).arrived).toValue =
        some (.request (.ofNat (s.worker.size + 1)) (Request.post uri payload).arrived) := by
    rw [hsize]
    exact ofValue_request _ _ _
  obtain ⟨hserving, hcalls, hgate', htold, _⟩ := h.serving.request
    (Channel.closed_of_gate hgate) (Channel.isClosed_of_gate hgate _) hv
  simp only [step, ha, Option.elim_some]
  refine ⟨h.worked hserving ?_ ?_ ⟨[], by rw [htold, List.append_nil]⟩ ?_ ?_,
    Or.inr ⟨uri, payload, hcalls⟩⟩
  · rw [Worker.Run.size, hcalls, Array.size_push]
    show s.worker.size + 1 = _
    omega
  · have hl := h.orderly.length
    omega
  · intro _
    rw [hgate', hgate]
  · intro j k x d hj hk hd
    rw [hcalls, Array.getElem?_push] at hd
    split at hd
    · rename_i he
      have hjs : j = s.heard := he.trans hsize
      subst hjs
      obtain rfl := Option.some.inj (hget.symm.trans hj)
      obtain rfl := Option.some.inj (hc.symm.trans hk)
      rw [← Option.some.inj hd, hp]
      rfl
    · exact h.parcels j k x d hj hk hd

/-- The last message of all arrives. -/
theorem Linked.hear_close (h : s.Linked) (heq : s.heard = s.owner.bridge.seq)
    (hlt : s.heard < s.owner.posted.length) :
    (s.step .hear).Linked ∧ s.Grown (s.step .hear) := by
  have hl := h.orderly.length
  have hended : s.owner.bridge.forwarding.isEnded = true := by
    by_contra hn
    rw [if_neg hn] at hl
    omega
  have hposted := h.orderly.close hended
  rw [← heq] at hposted
  have hgate := h.opened (Nat.le_of_eq heq)
  have ha : s.arriving = some ToWorker.close.toValue := by
    rw [arriving, hposted, Option.bind_some, clone_close]
    rfl
  obtain ⟨hserving, hcalls, htold, _⟩ :=
    h.serving.release (Channel.closed_of_gate hgate) ofValue_close
  simp only [step, ha, Option.elim_some]
  refine ⟨h.worked hserving ?_ hlt ⟨[], by rw [htold, List.append_nil]⟩ ?_ ?_, Or.inl hcalls⟩
  · rw [Worker.Run.size, hcalls]
    show s.worker.size = _
    have hs := h.size
    omega
  · intro hle
    omega
  · rw [hcalls]
    exact h.parcels

theorem Linked.hear (h : s.Linked) : (s.step .hear).Linked ∧ s.Grown (s.step .hear) := by
  by_cases hlt : s.heard < s.owner.posted.length
  · by_cases hreq : s.heard < s.owner.bridge.seq
    · exact h.hear_request hreq
    · refine h.hear_close ?_ hlt
      have hl := h.orderly.length
      split at hl <;> omega
  · have ha : s.arriving = none := by
      simp [arriving, List.getElem?_eq_none (Nat.le_of_not_lt hlt)]
    simp only [step, ha, Option.elim_none]
    exact ⟨h, Or.inl rfl⟩

/-- The unit of a request gets on. -/
theorem Linked.work (h : s.Linked) {m : Move} (hm : m.isPlain = true) :
    (s.step (.work m)).Linked := by
  have hintake := Worker.Run.move_intake s.worker m
  have hkept := Dispatch.move_kept h.serving.dispatch m
  refine h.worked (h.serving.move hm) ?_ h.heard_le ⟨_, rfl⟩ ?_ ?_
  · rw [Worker.Run.size, hintake, Dispatch.move_size h.serving.dispatch]
    exact h.size
  · rw [hintake, Dispatch.move_gate h.serving.dispatch]
    exact h.opened
  · intro j k c d hj hk hd
    rw [hintake] at hd
    have hlt := (Array.getElem?_eq_some_iff.mp hd).1
    rw [Dispatch.move_size h.serving.dispatch] at hlt
    obtain ⟨e, he, hparcel, _⟩ := hkept.call j _ (Array.getElem?_eq_getElem hlt)
    obtain rfl := Option.some.inj (hd.symm.trans he)
    rw [hparcel]
    exact h.parcels j k c _ hj hk (Array.getElem?_eq_getElem hlt)

theorem Linked.clientClosed (h : s.Linked) (r : Attempt Unit) :
    (s.step (.clientClosed r)).Linked := by
  have hintake := Worker.Run.clientClosed_intake s.worker r
  refine h.worked (h.serving.clientClosed r) ?_ h.heard_le ⟨_, rfl⟩ ?_ ?_
  · rw [Worker.Run.size, hintake]
    exact h.size
  · rw [hintake]
    exact h.opened
  · rw [hintake]
    exact h.parcels

/-! Responses -/

/-- A response that has not arrived is awaited under its number and brings what its unit has come
to. -/
theorem Linked.answer (h : s.Linked) (hseq : s.owner.bridge.seq ≤ 2 ^ 53) {v : Value}
    (hv : s.worker.sent[s.listened]? = some v) : ∃ (t : Settled) (k : Nat) (o : Option Outcome),
      s.worker.told[s.listened]? = some t ∧ t.reading = .got o ∧
      s.owner.accepted[t.call]? = some k ∧ t.call ∉ s.known ∧
      s.owner.bridge.answer? v = some ((t.call + 1, k), Outcome.carried o) := by
  have hlen := h.serving.sent.length_eq
  have hlt : s.listened < s.worker.told.length := by
    rw [hlen]
    exact (List.getElem?_eq_some_iff.mp hv).1
  have hget := List.getElem?_eq_getElem hlt
  generalize s.worker.told[s.listened] = t at hget
  have hanswers : Worker.Run.Answers t v := by
    have hf := (List.forall₂_iff_get.mp h.serving.sent).2 s.listened hlt (hlen ▸ hlt)
    rw [List.getElem?_eq_getElem hlt] at hget
    rw [List.getElem?_eq_getElem (hlen ▸ hlt)] at hv
    simpa [Option.some.inj hget, Option.some.inj hv] using hf
  obtain ⟨o, ho, posted, hvalue, hposted⟩ := hanswers
  have hmem := List.mem_of_getElem? hget
  have hcall := Nat.lt_of_lt_of_le (h.lt_of_told hmem) h.size_le
  have hin := Nat.lt_of_lt_of_le hcall h.orderly.seq_le
  have hk := List.getElem?_eq_getElem hin
  generalize s.owner.accepted[t.call] = k at hk
  have hknown : t.call ∉ s.known := by
    have hsub := (List.take_sublist (s.listened + 1) s.worker.told).map fun t => t.call
    have hnodup := h.serving.intake.told.nodup.sublist hsub
    rw [List.take_add_one, hget, List.map_append] at hnodup
    intro hm
    exact List.disjoint_of_nodup_append hnodup hm (List.mem_singleton_self _)
  have hpending := (h.pending t.call k hk).mpr ⟨hcall, hknown⟩
  exact ⟨t, k, o, hget, ho, hk, hknown, Bridge.answer_eq_some.mpr
    ⟨_, posted, hvalue, h.owner.waitingFor hseq hpending, hposted⟩⟩

/-- A response arrives, and its caller gets what the unit has come to. -/
theorem Linked.listen (h : s.Linked) (hseq : s.owner.bridge.seq ≤ 2 ^ 53) :
    (s.step .listen).Linked := by
  cases hv : s.worker.sent[s.listened]? with
  | none => simpa [step, hv] using h
  | some v =>
    obtain ⟨t, k, o, ht, ho, hk, hknown, ha⟩ := h.answer hseq hv
    have hx := Bridge.mem_of_answer ha
    obtain ⟨c, hc, _⟩ := h.owner.waits_of_pending hx
    obtain ⟨hbridge, hposted⟩ := h.owner.step_answered ha
    obtain ⟨_, hfired, _, hother, _⟩ := Intake.deliver_spec hc (Outcome.carried o)
    have htake : s.worker.told.take (s.listened + 1) = s.worker.told.take s.listened ++ [t] := by
      rw [List.take_add_one, ht]
      rfl
    have hne : ∀ {i n : Nat}, s.owner.accepted[i]? = some n → i ≠ t.call → n ≠ k := by
      rintro i n hi hit rfl
      have hlt := (List.getElem?_eq_some_iff.mp hi).1
      exact hit ((List.getElem?_inj hlt h.owner.nodup).mp (hi.trans hk.symm))
    simp only [step, hv, Option.elim_some]
    refine ⟨h.owner.step (.message v), h.orderly.message h.owner v, h.serving, ?size, ?heard_le,
      ?listened_le, ?opened, ?parcels, ?pending, ?given⟩
    case size =>
      show s.worker.size = min s.heard (s.owner.step (.message v)).bridge.seq
      rw [hbridge]
      exact h.size
    case heard_le =>
      rw [hposted]
      exact h.heard_le
    case listened_le => exact (List.getElem?_eq_some_iff.mp ht).1
    case opened =>
      show s.heard ≤ (s.owner.step (.message v)).bridge.seq → _
      rw [hbridge]
      exact h.opened
    case parcels =>
      intro i n x d hi hn hd
      have hparcel := (Intake.kept_deliver s.owner.bridge.intake k (Outcome.carried o)).call n
      have hlt := h.owner.known n (List.mem_of_getElem? hi)
      obtain ⟨e, he, hp, _⟩ := hparcel _ (Array.getElem?_eq_getElem hlt)
      have hn : (s.owner.step (.message v)).bridge.intake.calls[n]? = some x := hn
      rw [hbridge] at hn
      obtain rfl := Option.some.inj (hn.symm.trans he)
      rw [hp]
      exact h.parcels i n _ d hi (Array.getElem?_eq_getElem hlt) hd
    case pending =>
      intro i n hi
      have hi : s.owner.accepted[i]? = some n := hi
      show (i + 1, n) ∈ (s.owner.step (.message v)).bridge.pending ↔
        i < (s.owner.step (.message v)).bridge.seq ∧
          i ∉ (s.worker.told.take (s.listened + 1)).map (·.call)
      rw [hbridge, htake]
      simp only [Bridge.answered, List.mem_filter, List.map_append, List.mem_append, h.pending i n hi,
        known, List.map_cons, List.map_nil, List.mem_singleton, decide_eq_true_eq, ne_eq,
        Nat.add_right_cancel_iff, not_or, and_assoc]
    case given =>
      intro u hu n hn
      have hu : u ∈ s.worker.told.take (s.listened + 1) := hu
      have hn : s.owner.accepted[u.call]? = some n := hn
      show ∃ o, _ ∧ (s.owner.step (.message v)).bridge.intake.Rests n _
      rw [hbridge]
      rw [htake, List.mem_append, List.mem_singleton] at hu
      rcases hu with hu | rfl
      · obtain ⟨x, hx, hr⟩ := h.given u hu n hn
        have hcall : u.call ≠ t.call := by
          intro he
          exact hknown (he ▸ List.mem_map_of_mem (f := (·.call)) hu)
        exact ⟨x, hx, hr.congr (hother n (hne hn hcall)) hfired⟩
      · obtain rfl := Option.some.inj (hk.symm.trans hn)
        exact ⟨o, ho, (h.owner.waits_of_pending hx).deliver _⟩

/-! The end of the worker -/

/-- A worker that has closed its port was told to, and owes nothing. -/
theorem Linked.owed_of_gone (h : s.Linked) (hg : s.gone = true) :
    s.owner.bridge.forwarding.isEnded = true ∧ s.owner.bridge.owed = [] := by
  unfold gone at hg
  split at hg
  · rename_i hphase
    have hlistened : s.listened = s.worker.told.length := by
      rw [h.serving.sent.length_eq]
      exact of_decide_eq_true hg
    obtain ⟨hreplies, hover⟩ : s.worker.worker.replies = [] ∧ s.worker.dispatch.loop.hand = .over := by
      rcases h.serving.phase with hp | ⟨_, hr, ho⟩
      · rw [hphase] at hp
        cases hp
      · exact ⟨hr, ho⟩
    have hclosed := (h.serving.dispatch.coupled.ended (Or.inl hover)).1
    have hheard : s.owner.bridge.seq < s.heard := by
      by_contra hle
      have hopen := Channel.closed_of_gate (h.opened (Nat.le_of_not_lt hle))
      rw [hclosed] at hopen
      cases hopen
    have hended : s.owner.bridge.forwarding.isEnded = true := by
      by_contra hn
      have hl := h.orderly.length
      have hle := h.heard_le
      rw [if_neg hn] at hl
      omega
    have hlive : s.owner.bridge.intake.channel.live = [] := by
      refine (h.owner.coupled.ended (Or.inl ?_)).2
      rw [Forwarding.isEnded_iff.mp hended]
      rfl
    have hpending : s.owner.bridge.pending = [] := by
      rw [List.eq_nil_iff_forall_not_mem]
      intro x hx
      obtain ⟨j, hj, hk⟩ := h.orderly.pending x hx
      obtain ⟨hlt, hknown⟩ := (h.pending j x.2 hk).mp (hj ▸ hx)
      have hsize := h.size
      have hin : j < s.worker.dispatch.intake.calls.size := by
        show j < s.worker.size
        omega
      have hc := Array.getElem?_eq_getElem hin
      rcases (h.serving.serves j _ hc).reader with hw | ⟨reading, hr⟩
      · have hfind := h.serving.replies j _ hc hw
        rw [hreplies] at hfind
        cases hfind
      · have ht := (h.serving.intake.told.mem ⟨j, reading⟩).mpr ⟨_, hc, hr⟩
        refine hknown ?_
        rw [known, hlistened, List.take_length]
        exact List.mem_map_of_mem (f := fun t : Settled => t.call) ht
    refine ⟨hended, ?_⟩
    rw [Bridge.owed, hlive, hpending]
    rfl
  · cases hg

theorem Linked.closed_of_gone (h : s.Linked) (hg : s.gone = true) :
    s.owner.bridge.intake.channel.closed = true := by
  refine (h.owner.coupled.ended (Or.inl ?_)).1
  rw [Forwarding.isEnded_iff.mp (h.owed_of_gone hg).1]
  rfl

theorem Linked.ends (h : s.Linked) (hg : s.gone = true) {ev : Bridge.Event} (he : ev.ends = true) :
    ({ s with owner := s.owner.step ev } : Standalone).Linked := by
  obtain ⟨hended, howed⟩ := h.owed_of_gone hg
  have hO : (s.owner.step ev).Orderly := h.orderly.step h.owner fun _ => hended
  cases ev with
  | portClosed =>
    exact h.called (h.owner.called_shutdown howed _) (h.owner.step .portClosed) hO s.transport
  | exited code =>
    exact h.called (h.owner.called_shutdown howed _) (h.owner.step (.exited code)) hO s.transport
  | _ => cases he

theorem Linked.step (h : s.Linked) {ev : Event} (hp : s.possible ev = true)
    (hseq : s.owner.bridge.seq ≤ 2 ^ 53) : (s.step ev).Linked := by
  cases ev with
  | caller c => exact h.caller c
  | forward => exact h.forward
  | hear => exact h.hear.1
  | listen => exact h.listen hseq
  | work m =>
    simp only [possible, Bool.and_eq_true] at hp
    exact h.work hp.2
  | clientClosed r => exact h.clientClosed r
  | portClosed => exact h.ends hp rfl
  | exited code => exact h.ends hp rfl

/-- An event is for the owner, or leaves it alone. -/
theorem owner_step (s : Standalone) (ev : Event) :
    (s.step ev).owner = s.owner ∨ ∃ own : Bridge.Event, (s.step ev).owner = s.owner.step own := by
  cases ev with
  | caller c =>
    simp only [step]
    cases (s.transport.act s.channel c).2 with
    | none => exact Or.inl rfl
    | some deed => exact Or.inr ⟨deed.owned, rfl⟩
  | hear =>
    simp only [step]
    cases s.arriving <;> exact Or.inl rfl
  | listen =>
    simp only [step]
    cases s.worker.sent[s.listened]? with
    | none => exact Or.inl rfl
    | some v => exact Or.inr ⟨.message v, rfl⟩
  | work | clientClosed => exact Or.inl rfl
  | forward => exact Or.inr ⟨.forward, rfl⟩
  | portClosed => exact Or.inr ⟨.portClosed, rfl⟩
  | exited code => exact Or.inr ⟨.exited code, rfl⟩

theorem accounted_run (fired : List (Nat × Value)) (events : List Event) :
    ((start fired).run events).owner.Accounted := by
  induction events using List.reverseRecOn with
  | nil => exact Bridge.Run.accounted_start fired
  | append_singleton events ev ih =>
    rw [run_concat]
    rcases owner_step ((start fired).run events) ev with ho | ⟨own, ho⟩ <;> rw [ho]
    · exact ih
    · exact ih.step own

theorem seq_le_of_concat (fired : List (Nat × Value)) {events : List Event} {ev : Event} {n : Nat}
    (h : ((start fired).run (events ++ [ev])).owner.bridge.seq ≤ n) :
    ((start fired).run events).owner.bridge.seq ≤ n := by
  refine Nat.le_trans ?_ h
  rw [run_concat]
  rcases owner_step ((start fired).run events) ev with ho | ⟨own, ho⟩ <;> rw [ho]
  exact (accounted_run fired events).seq_le_step own

/-! Units -/

theorem exchange_concat (j : Nat) (events : List Event) (ev : Event) :
    exchange j (events ++ [ev]) = exchange j events ++ (ev.happens? j).toList := by
  rw [exchange, List.filterMap_append]
  cases h : ev.happens? j <;> simp [exchange, h]

/-- Every unit of the worker agrees with what has happened to it. -/
theorem Linked.recalls_step (h : s.Linked) {past : Nat → List Own}
    (hr : s.worker.dispatch.Recalls past) {ev : Event} (hp : s.possible ev = true) :
    (s.step ev).worker.dispatch.Recalls fun j => past j ++ (ev.happens? j).toList := by
  cases ev with
  | work m =>
    simp only [possible, Bool.and_eq_true] at hp
    exact (hr.move h.serving.dispatch h.serving.intake hp.1).same
      (congrArg Intake.calls (Worker.Run.move_intake s.worker m))
  | hear =>
    simp only [Event.happens?, Option.toList_none, List.append_nil]
    rcases h.hear.2 with hcalls | ⟨uri, payload, hcalls⟩
    · exact hr.same hcalls
    · exact hr.push hcalls rfl fun o => Slot.not_got_opened none o
  | listen =>
    simp only [Event.happens?, Option.toList_none, List.append_nil, Standalone.step]
    cases s.worker.sent[s.listened]? <;> exact hr
  | clientClosed r =>
    simp only [Event.happens?, Option.toList_none, List.append_nil]
    exact hr.same (congrArg Intake.calls (Worker.Run.clientClosed_intake s.worker r))
  | caller | forward | portClosed | exited =>
    simp only [Event.happens?, Option.toList_none, List.append_nil]
    exact hr

/-- In a run whose requests have numbers of their own the two sides agree, and so do the units of
the worker with their pasts. -/
theorem linked_run (fired : List (Nat × Value)) {events : List Event}
    (hv : (start fired).valid events = true)
    (hseq : ((start fired).run events).owner.bridge.seq ≤ 2 ^ 53) :
    ((start fired).run events).Linked ∧
      ((start fired).run events).worker.dispatch.Recalls fun j => exchange j events := by
  induction events using List.reverseRecOn with
  | nil => exact ⟨linked_start fired, Dispatch.recalls_new []⟩
  | append_singleton events ev ih =>
    obtain ⟨hvalid, hpossible⟩ := valid_concat hv
    have hbound := seq_le_of_concat fired hseq
    obtain ⟨hlinked, hrecalls⟩ := ih hvalid hbound
    rw [run_concat]
    refine ⟨hlinked.step hpossible hbound, ?_⟩
    simp only [exchange_concat]
    exact hlinked.recalls_step hrecalls hpossible

end Standalone
end Courier
