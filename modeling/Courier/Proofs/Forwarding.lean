import Courier.Handle
import Courier.Proofs.Bridge

/-!
Runs of a bridge with a logger whose calls return and leave the transport alone. Callers do what
they like, anything may arrive on the port, and the worker may be found gone twice, but not between
the moments when a request is handed over and when it is posted. No accepted request gets lost.
-/

namespace Courier

namespace Bridge

open Effect

/-- A bridge with what has happened to it so far. -/
structure Run where
  bridge : Bridge
  /-- The calls that were accepted, in order, and those that were refused. -/
  accepted : List Nat
  refused : List Nat
  /-- The calls that an outcome was delivered to, once for every delivery. -/
  delivered : List Nat
  /-- The calls that the end of the worker has dropped. -/
  dropped : List Nat
  /-- What callers have learned. -/
  told : List Settled
  /-- What was posted to the worker. -/
  posted : List Value

inductive Event where
  | send (sender : Nat) (uri : String) (payload : Bytes) (signal : Option Nat)
  | clone (sender : Nat)
  | release (sender : Nat)
  | abort (signal : Nat) (reason : Value)
  | forward
  | message (v : Value)
  | portClosed
  | exited (code : Int)

/-- Whether the worker is found gone. -/
def Event.ends : Event → Bool
  | .portClosed | .exited _ => true
  | _ => false

namespace Run

def start (fired : List (Nat × Value)) : Run := ⟨.start fired, [], [], [], [], [], []⟩

/-- The number of the next call. -/
def size (r : Run) : Nat := r.bridge.intake.calls.size

/-- A step of the bridge. -/
def lift (r : Run) (step : Bridge × List Effect) : Run :=
  { r with
    bridge := step.1
    told := r.told ++ settles step.2
    posted := r.posted ++ posts step.2 }

/-- Notes whether the next call was accepted, and what its caller has learned at once. -/
def note (r : Run) (accepted : Bool) (reading : Option (Slot.Reading Outcome)) : Run :=
  { r with
    accepted := r.accepted ++ if accepted then [r.size] else []
    refused := r.refused ++ if accepted then [] else [r.size]
    told := r.told ++ (reading.map fun reading => ⟨r.size, reading⟩).toList }

/-- The call that a value on the port brings an outcome for. -/
def answering (r : Run) (v : Value) : List Nat :=
  match r.bridge.answer? v with
  | some ((_, k), _) => [k]
  | none => []

/-- The worker is found gone; what it owes is dropped the first time. -/
def shutdown (r : Run) (reason : String) : Run :=
  { r with dropped := r.dropped ++ if r.bridge.alive then r.bridge.owed else [] }.lift
    (r.bridge.shutdown reason)

def step (r : Run) : Event → Run
  | .send sender uri payload signal =>
    let (b, accepted, reading, effects) := r.bridge.send sender (.post uri payload) signal
    (r.note accepted reading).lift (b, effects)
  | .clone sender =>
    let channel := (r.bridge.intake.channel.clone sender).1
    r.lift ({ r.bridge with intake := { r.bridge.intake with channel := channel } }, [])
  | .release sender => r.lift (r.bridge.release sender)
  | .abort signal reason => r.lift (r.bridge.abort signal reason)
  | .forward => r.lift r.bridge.turn
  | .message v =>
    { r with delivered := r.delivered ++ r.answering v }.lift (r.bridge.message v)
  | .portClosed => r.shutdown "port closed"
  | .exited code => r.shutdown ("worker exited with code " ++ toString code)

def run (r : Run) (events : List Event) : Run := events.foldl step r

/-- Whether a request was handed to the forwarding and is not posted yet. -/
def handing (r : Run) : Bool :=
  match r.bridge.forwarding with
  | .handed (some _) => true
  | _ => false

/-- The worker is found gone when nothing is being handed over. -/
def possible (r : Run) (ev : Event) : Bool := !(ev.ends && r.handing)

/-- Every event of a run is possible where it happens. -/
def valid (r : Run) : List Event → Bool
  | [] => true
  | ev :: events => r.possible ev && valid (r.step ev) events

/-- What the callers of `send` have learned, each with its call. -/
def answers (r : Run) : List (Nat × Attempt Value) :=
  (r.refused.map fun k => (k, .error Fault.notListening.toValue)) ++
    r.told.map fun s => (s.call, Handle.result s.reading)

/-- Every accepted request is in one place: not posted yet, waiting for a response, delivered to or
dropped. Requests wait under numbers of their own, and nobody has touched their slots but their
callers. -/
structure Accounted (r : Run) : Prop where
  coupled : Hand.Coupled r.bridge.intake.channel r.bridge.forwarding.hand
  intake : r.bridge.intake.Sound r.told
  posted : ∀ (k : Nat) (c : Call Unit), r.bridge.intake.calls[k]? = some c → c.parcel.Posted
  known : ∀ k ∈ r.accepted, k < r.size
  nodup : r.accepted.Nodup
  perm : r.accepted.Perm
    (r.bridge.queue ++ r.bridge.pending.map (·.2) ++ r.delivered ++ r.dropped)
  seqs : (r.bridge.pending.map (·.1)).Nodup
  seq_le : ∀ x ∈ r.bridge.pending, x.1 ≤ r.bridge.seq
  waits : ∀ k ∈ r.bridge.queue ++ r.bridge.pending.map (·.2), r.bridge.intake.Waits k
  fallen : ∀ k ∈ r.dropped, r.bridge.intake.Rests k .fallen
  dead : r.bridge.alive = false →
    r.bridge.intake.channel.closed = true ∧ r.bridge.intake.channel.live = []
  counted : r.bridge.intake.stats.delivered + r.bridge.intake.stats.undelivered = r.delivered.length

variable {r : Run} {k : Nat}

theorem accounted_start (fired : List (Nat × Value)) : (start fired).Accounted := by
  have hn := Hand.coupled_next (Channel.sound_new (α := Nat)) rfl
  have hb : (start fired).bridge = asking ⟨.new fired, .ended, [], 0, true⟩ := by
    simp only [start, Bridge.start]
    rw [takeNext_eq]
  have hi : (start fired).bridge.intake = { Intake.new fired with channel := Channel.new.next.1 } := by
    rw [hb]
    rfl
  have hq : (start fired).bridge.queue = [] := by
    rw [hb]
    simpa [queue, asking, Intake.new] using hn.2
  refine ⟨?coupled, ?intake, ?posted, ?known, List.nodup_nil, ?perm, ?seqs, ?seq_le, ?waits,
    ?fallen, ?dead, ?counted⟩
  case coupled =>
    rw [hb]
    simpa [asking, Intake.new] using hn.1
  case intake =>
    have hs := Intake.sound_new (P := Unit) fired
    rw [hi]
    exact hs.congr rfl rfl
  case posted =>
    rw [hi]
    simp [Intake.new]
  case known => simp [start]
  case perm =>
    rw [hq, hb]
    exact .refl _
  case seqs =>
    rw [hb]
    exact List.nodup_nil
  case seq_le =>
    rw [hb]
    simp [asking]
  case waits =>
    rw [hq, hb]
    simp [asking]
  case fallen => simp [start]
  case dead =>
    rw [hb]
    simp [asking]
  case counted =>
    rw [hi]
    rfl

theorem Accounted.size_notMem (h : r.Accounted) : r.size ∉ r.accepted :=
  fun hm => Nat.lt_irrefl _ (h.known _ hm)

/-- Steps that leave all requests where they are. -/
theorem Accounted.lifted {s : Bridge × List Effect} (h : r.Accounted)
    (hcoupled : Hand.Coupled s.1.intake.channel s.1.forwarding.hand)
    (hqueue : s.1.queue = r.bridge.queue) (hpending : s.1.pending = r.bridge.pending)
    (hseq : s.1.seq = r.bridge.seq) (halive : s.1.alive = r.bridge.alive)
    (hintake : s.1.intake.Sound (r.told ++ settles s.2))
    (hposted : ∀ (k : Nat) (c : Call Unit), s.1.intake.calls[k]? = some c → c.parcel.Posted)
    (hsize : s.1.intake.calls.size = r.size)
    (hwaits : ∀ k, r.bridge.intake.Waits k → s.1.intake.Waits k)
    (hfallen : ∀ k, r.bridge.intake.Rests k .fallen → s.1.intake.Rests k .fallen)
    (hclosed : r.bridge.intake.channel.closed = true → s.1.intake.channel.closed = true)
    (hlive : s.1.intake.channel.live = r.bridge.intake.channel.live)
    (hstats : s.1.intake.stats = r.bridge.intake.stats) : (r.lift s).Accounted where
  coupled := hcoupled
  intake := hintake
  posted := hposted
  known k hk := by
    show k < s.1.intake.calls.size
    rw [hsize]
    exact h.known k hk
  nodup := h.nodup
  perm := by
    show r.accepted.Perm (s.1.queue ++ s.1.pending.map (·.2) ++ r.delivered ++ r.dropped)
    rw [hqueue, hpending]
    exact h.perm
  seqs := by
    show (s.1.pending.map (·.1)).Nodup
    rw [hpending]
    exact h.seqs
  seq_le := by
    show ∀ x ∈ s.1.pending, x.1 ≤ s.1.seq
    rw [hpending, hseq]
    exact h.seq_le
  waits := by
    show ∀ k ∈ s.1.queue ++ s.1.pending.map (·.2), s.1.intake.Waits k
    rw [hqueue, hpending]
    exact fun k hk => hwaits k (h.waits k hk)
  fallen k hk := hfallen k (h.fallen k hk)
  dead := by
    show s.1.alive = false → s.1.intake.channel.closed = true ∧ s.1.intake.channel.live = []
    rw [halive, hlive]
    exact fun ha => ⟨hclosed (h.dead ha).1, (h.dead ha).2⟩
  counted := by
    show s.1.intake.stats.delivered + s.1.intake.stats.undelivered = r.delivered.length
    rw [hstats]
    exact h.counted

theorem Accounted.clone (h : r.Accounted) (sender : Nat) : (r.step (.clone sender)).Accounted :=
  h.lifted h.coupled.clone rfl rfl rfl rfl
    (by rw [settles_nil, List.append_nil]; exact h.intake.congr rfl rfl) h.posted rfl
    (fun _ hw => hw)
    (fun _ hf => hf) (fun hc => hc) rfl rfl

theorem Accounted.release (h : r.Accounted) (sender : Nat) :
    (r.step (.release sender)).Accounted := by
  have hb := Bridge.release_eq r.bridge sender
  have hs : settles (r.bridge.release sender).2 = [] := by simp [Bridge.release]
  have hi := h.intake
  refine h.lifted (s := r.bridge.release sender) ?coupled ?queue ?pending ?seq ?alive ?intake
    ?posted ?size ?waits ?fallen ?closed ?live ?stats <;> rw [hb]
  case coupled => simpa using h.coupled.release
  case queue => rw [← hb, queue_release h.coupled]
  case intake =>
    rw [hs, List.append_nil]
    exact hi.congr rfl rfl
  case posted => exact h.posted
  case size => rfl
  case waits => exact fun k hw => hw
  case fallen => exact fun k hf => hf
  case closed => exact Channel.release_closed_of_closed h.coupled.sound
  case live => exact Channel.release_live h.coupled.sound sender

theorem Accounted.abort (h : r.Accounted) (signal : Nat) (reason : Value) :
    (r.step (.abort signal reason)).Accounted := by
  have hk := Intake.kept_abort r.bridge.intake signal reason
  obtain ⟨hchannel, hstats, hsize⟩ := Intake.abort_spec r.bridge.intake signal reason
  refine h.lifted (s := r.bridge.abort signal reason) ?_ (queue_abort r.bridge signal reason) rfl
    rfl rfl ?_ (hk.parcel hsize h.posted) hsize (fun k hw => hw.abort signal reason)
    (fun k hf => hf.abort rfl signal reason) ?_ ?_ hstats
  · show Hand.Coupled (r.bridge.intake.abort signal reason).1.channel _
    rw [hchannel]
    exact h.coupled
  · simp only [Bridge.abort, settles_settledEffects]
    exact h.intake.abort signal reason
  · show _ → (r.bridge.intake.abort signal reason).1.channel.closed = true
    rw [hchannel]
    exact id
  · show (r.bridge.intake.abort signal reason).1.channel.live = _
    rw [hchannel]

/-- A request comes last in the queue if it is accepted. -/
theorem Accounted.queue_send (h : r.Accounted) (sender : Nat) (request : Request)
    (signal : Option Nat) : (r.bridge.send sender request signal).1.queue =
      r.bridge.queue ++ if r.bridge.intake.channel.isClosed sender then [] else [r.size] := by
  obtain ⟨hchannel, hhandoff, _⟩ := Intake.send_spec r.bridge.intake sender request signal ()
  rw [send_eq]
  unfold Bridge.queue
  rw [Forwarding.hand_take, hchannel, hhandoff]
  cases hc : r.bridge.intake.channel.isClosed sender with
  | true => rw [Channel.send_refused hc]; simp
  | false => exact h.coupled.queue_send hc

/-- A `send` as a whole. -/
theorem step_send (r : Run) (sender : Nat) (uri : String) (payload : Bytes)
    (signal : Option Nat) : r.step (.send sender uri payload signal) =
      { r with
        bridge := (r.bridge.send sender (.post uri payload) signal).1
        accepted := r.accepted ++ if r.bridge.intake.channel.isClosed sender then [] else [r.size]
        refused := r.refused ++ if r.bridge.intake.channel.isClosed sender then [r.size] else []
        told := r.told ++ ((if r.bridge.intake.channel.isClosed sender then none
          else (r.bridge.intake.reason? signal).map .refused).map
            fun reading => (⟨r.size, reading⟩ : Settled)).toList } := by
  have ha := send_accepted r.bridge sender (.post uri payload) signal
  have hr := send_reading r.bridge sender (.post uri payload) signal
  simp only [step, note, lift, ha, hr, settles_send, posts_send, List.append_nil]
  cases r.bridge.intake.channel.isClosed sender <;> rfl

/-- An accepted request waits for its turn. -/
theorem Accounted.send (h : r.Accounted) (sender : Nat) (uri : String) (payload : Bytes)
    (signal : Option Nat) : (r.step (.send sender uri payload signal)).Accounted := by
  obtain ⟨hchannel, hhandoff, hcalls, hfired, hdelivered, hundelivered⟩ :=
    Intake.send_spec r.bridge.intake sender (.post uri payload) signal ()
  have hq := h.queue_send sender (.post uri payload) signal
  have hkept : ∀ n < r.size, (r.bridge.intake.send sender (.post uri payload) signal ()).1.calls[n]? =
      r.bridge.intake.calls[n]? := fun n hn => by rw [hcalls, Intake.getElem_push_of_lt hn]
  have hnew : ∀ n ∈ (if r.bridge.intake.channel.isClosed sender then [] else [r.size]),
      n = r.size ∧ r.bridge.intake.channel.isClosed sender = false := by
    intro n hn
    cases hc : r.bridge.intake.channel.isClosed sender <;> simp [hc] at hn ⊢
    exact hn
  rw [step_send]
  refine ⟨?coupled, ?intake, ?posted, ?known, ?nodup, ?perm, ?seqs, ?seq_le, ?waits, ?fallen,
    ?dead, ?counted⟩ <;>
    simp only [send_eq] at hq ⊢
  case coupled =>
    rw [Forwarding.hand_take, hchannel, hhandoff]
    exact h.coupled.send
  case intake => exact h.intake.sent hcalls hfired
  case posted =>
    intro n c hc
    rw [hcalls, Array.getElem?_push] at hc
    split at hc
    · exact ⟨uri, payload, by rw [← Option.some.inj hc, Intake.sent_parcel]⟩
    · exact h.posted n c hc
  case known =>
    intro n hn
    rw [size, hcalls, Array.size_push]
    rcases List.mem_append.mp hn with hn | hn
    · exact Nat.lt_succ_of_lt (h.known n hn)
    · exact (hnew n hn).1 ▸ Nat.lt_succ_self _
  case nodup =>
    refine h.nodup.append (by split <;> simp) fun n hn hn' => ?_
    exact h.size_notMem ((hnew n hn').1 ▸ hn)
  case perm =>
    rw [hq, List.perm_iff_count]
    intro n
    have hp := h.perm.count_eq n
    simp only [List.count_append] at hp ⊢
    omega
  case seqs => exact h.seqs
  case seq_le => exact h.seq_le
  case waits =>
    intro n hn
    rw [hq, List.append_assoc, List.mem_append, List.mem_append] at hn
    rcases hn with hn | hn | hn
    · have hw := h.waits n (List.mem_append_left _ hn)
      exact hw.congr (hkept n hw.size_lt) hfired
    · obtain ⟨rfl, hc⟩ := hnew n hn
      exact Intake.waits_sent hc hcalls hfired
    · have hw := h.waits n (List.mem_append_right _ hn)
      exact hw.congr (hkept n hw.size_lt) hfired
  case fallen =>
    intro n hn
    have hf := h.fallen n hn
    exact hf.congr (hkept n hf.size_lt) hfired
  case dead =>
    intro ha
    obtain ⟨hclosed, hlive⟩ := h.dead ha
    have hc : r.bridge.intake.channel.isClosed sender = true := by
      simp [Channel.isClosed, hclosed]
    rw [hchannel, Channel.send_refused hc]
    exact ⟨hclosed, hlive⟩
  case counted =>
    rw [hdelivered, hundelivered]
    exact h.counted

/-- A request that is being handed over is the oldest one that has not been posted. -/
theorem Accounted.queue_posting (h : r.Accounted) (hf : r.bridge.forwarding = .handed (some k)) :
    r.bridge.queue = k :: r.bridge.intake.channel.live ∧
      (r.bridge.posting k).asking.queue = r.bridge.intake.channel.live := by
  have hw : r.bridge.intake.channel.waiter = none :=
    h.coupled.waiter_of_ne (by simp [hf, Forwarding.hand])
  obtain ⟨_, hqueue⟩ := Hand.coupled_next h.coupled.sound hw
  refine ⟨by simp [Bridge.queue, hf, Forwarding.hand, Hand.queue, Hand.values], ?_⟩
  simpa [Bridge.queue, asking, Bridge.posting] using hqueue

/-- What is being handed over is a request. -/
theorem Accounted.held (h : r.Accounted) (hf : r.bridge.forwarding = .handed (some k)) :
    ∃ (c : Call Unit) (uri : String) (payload : Bytes), r.bridge.intake.calls[k]? = some c ∧
      c.parcel = .request (Request.post uri payload).toValue := by
  have hm : k ∈ r.bridge.queue := by
    rw [(h.queue_posting hf).1]
    exact List.mem_cons_self
  obtain ⟨c, hk, _⟩ := h.waits k (List.mem_append_left _ hm)
  obtain ⟨uri, payload, hp⟩ := h.posted k c hk
  exact ⟨c, uri, payload, hk, hp⟩

/-- The request that is being handed over goes to the table of those that wait. -/
theorem Accounted.posting {c : Call Unit} {uri : String} {payload : Bytes} (h : r.Accounted)
    (hf : r.bridge.forwarding = .handed (some k)) (hk : r.bridge.intake.calls[k]? = some c)
    (hp : c.parcel = .request (Request.post uri payload).toValue) :
    (r.lift r.bridge.turn).Accounted := by
  obtain ⟨hq, hq'⟩ := h.queue_posting hf
  have hw : r.bridge.intake.channel.waiter = none :=
    h.coupled.waiter_of_ne (by simp [hf, Forwarding.hand])
  obtain ⟨hcoupled, hqueue⟩ := Hand.coupled_next h.coupled.sound hw
  rw [turn_handed hf hk hp]
  refine ⟨?coupled, ?intake, h.posted, h.known, h.nodup, ?perm, ?seqs, ?seq_le, ?waits, h.fallen,
    ?dead, h.counted⟩
  case coupled => simpa [lift, asking, Bridge.posting] using hcoupled
  case intake =>
    have hi := h.intake
    simpa [lift, settled?] using
      (hi.congr rfl rfl : (r.bridge.posting k).asking.intake.Sound r.told)
  case perm =>
    show r.accepted.Perm ((r.bridge.posting k).asking.queue ++
      (r.bridge.pending ++ [(r.bridge.seq + 1, k)]).map (·.2) ++ r.delivered ++ r.dropped)
    rw [hq', List.perm_iff_count]
    intro n
    have hcount := h.perm.count_eq n
    simp only [hq, List.map_append, List.map_cons, List.map_nil, List.count_append,
      List.count_cons, List.count_nil] at hcount ⊢
    omega
  case seqs =>
    show ((r.bridge.pending ++ [(r.bridge.seq + 1, k)]).map (·.1)).Nodup
    rw [List.map_append]
    refine h.seqs.append (List.nodup_singleton _) fun seq hs hs' => ?_
    obtain ⟨x, hx, rfl⟩ := List.mem_map.mp hs
    have hle := h.seq_le x hx
    have heq : x.1 = r.bridge.seq + 1 := List.mem_singleton.mp hs'
    omega
  case seq_le =>
    intro x hx
    show x.1 ≤ r.bridge.seq + 1
    rcases List.mem_append.mp hx with hx | hx
    · exact Nat.le_succ_of_le (h.seq_le x hx)
    · rw [List.mem_singleton.mp hx]
  case waits =>
    intro n hn
    show r.bridge.intake.Waits n
    have hm : n ∈ r.bridge.intake.channel.live ++
        (r.bridge.pending ++ [(r.bridge.seq + 1, k)]).map (·.2) := hq' ▸ hn
    refine h.waits n ?_
    simp only [hq, List.map_append, List.mem_append, List.mem_cons, List.map_cons, List.map_nil,
      List.not_mem_nil, or_false] at hm ⊢
    tauto
  case dead =>
    intro ha
    obtain ⟨hclosed, hlive⟩ := h.dead ha
    rw [hlive] at hqueue
    exact ⟨(Channel.closed_of_gate Channel.gate_next).trans hclosed,
      (List.append_eq_nil_iff.mp hqueue).2⟩

theorem Accounted.forward (h : r.Accounted) : (r.step .forward).Accounted := by
  have hi := h.intake
  show (r.lift r.bridge.turn).Accounted
  obtain ht | hf | ⟨k, hf⟩ := r.bridge.turn_cases
  · rw [ht]
    exact h.lifted h.coupled rfl rfl rfl rfl (by simpa using hi) h.posted rfl (fun _ hw => hw)
      (fun _ hf => hf) id rfl rfl
  · obtain ⟨hb, hs, _⟩ := turn_handed_none hf
    refine h.lifted ?coupled ?queue ?pending ?seq ?alive ?intake ?posted ?size ?waits ?fallen
      ?closed ?live ?stats <;> rw [hb]
    case coupled =>
      have hc := h.coupled
      rw [hf] at hc
      exact hc.finish
    case queue => simp [Bridge.queue, hf, Forwarding.hand, Hand.queue, Hand.values]
    case intake => simpa [hs] using hi
    case posted => exact h.posted
    case size => rfl
    case waits => exact fun _ hw => hw
    case fallen => exact fun _ hf => hf
    case closed => exact id
  · obtain ⟨c, uri, payload, hk, hp⟩ := h.held hf
    exact h.posting hf hk hp

/-- Every accepted request is in one place only. -/
theorem Accounted.places (h : r.Accounted) :
    (r.bridge.queue ++ r.bridge.pending.map (·.2) ++ r.delivered ++ r.dropped).Nodup :=
  h.perm.nodup_iff.mp h.nodup

/-- A request that waits for a response is delivered to. -/
theorem Accounted.answered {v : Value} {seq : Nat} {o : Outcome} (h : r.Accounted)
    (ha : r.bridge.answer? v = some ((seq, k), o)) : (r.step (.message v)).Accounted := by
  have hx : (seq, k) ∈ r.bridge.pending := mem_of_answer ha
  obtain ⟨c, hk, _⟩ := h.waits k (List.mem_append_right _ (List.mem_map_of_mem (f := (·.2)) hx))
  have hd := deliver_of_posted (b := r.bridge.answered seq) hk (h.posted k c hk) o
  have hb : ((r.bridge.answered seq).deliver k o).1 = ⟨(r.bridge.intake.deliver k o).1,
      r.bridge.forwarding, r.bridge.pending.filter (·.1 ≠ seq), r.bridge.seq, r.bridge.alive⟩ := hd.1
  have hs : settles ((r.bridge.answered seq).deliver k o).2 = (r.bridge.intake.deliver k o).2.2 :=
    hd.2.1
  obtain ⟨hchannel, hfired, hsize, hother, hcount⟩ := Intake.deliver_spec hk o
  have hperm := (perm_cons_filter_ne h.seqs hx).map (·.2)
  have hstep : r.step (.message v) = { r with delivered := r.delivered ++ [k] }.lift
      ((r.bridge.answered seq).deliver k o) := by
    simp only [step, answering, ha, message_of_answer ha]
  have hne : ∀ n ∈ r.bridge.queue ++ (r.bridge.pending.filter (·.1 ≠ seq)).map (·.2) ++ r.dropped,
      n ≠ k := by
    rintro n hn rfl
    have hcount := (List.nodup_iff_count_le_one.mp h.places) n
    have hcount' := List.count_pos_iff.mpr hn
    have hpermn := hperm.count_eq n
    simp only [List.map_cons, List.count_append, List.count_cons_self] at hcount hcount' hpermn
    omega
  rw [hstep]
  refine ⟨?coupled, ?intake, ?posted, ?known, h.nodup, ?perm, ?seqs, ?seq_le, ?waits, ?fallen,
    ?dead, ?counted⟩ <;>
    simp only [lift, size, hb, hs]
  case coupled =>
    rw [hchannel]
    exact h.coupled
  case intake => exact h.intake.deliver hk o
  case posted => exact (Intake.kept_deliver r.bridge.intake k o).parcel hsize h.posted
  case known =>
    rw [hsize]
    exact h.known
  case perm =>
    show r.accepted.Perm (Hand.queue _ _ ++ _ ++ (r.delivered ++ [k]) ++ r.dropped)
    rw [hchannel, List.perm_iff_count]
    intro n
    have hcount := h.perm.count_eq n
    have hpermn := hperm.count_eq n
    simp only [Bridge.queue, List.map_cons, List.count_append, List.count_cons,
      List.count_nil] at hcount hpermn ⊢
    omega
  case seqs => exact h.seqs.sublist (List.filter_sublist.map _)
  case seq_le => exact fun x hx => h.seq_le x (List.mem_of_mem_filter hx)
  case waits =>
    show ∀ n ∈ Hand.queue _ _ ++ _, _
    rw [hchannel]
    intro n hn
    have hw : r.bridge.intake.Waits n := h.waits n (by
      rcases List.mem_append.mp hn with hn | hn
      · exact List.mem_append_left _ hn
      · exact List.mem_append_right _ (hperm.mem_iff.mpr (List.mem_cons_of_mem _ hn)))
    exact hw.congr (hother n (hne n (List.mem_append_left _ hn))) hfired
  case fallen =>
    intro n hn
    exact (h.fallen n hn).congr (hother n (hne n (List.mem_append_right _ hn))) hfired
  case dead =>
    rw [hchannel]
    exact h.dead
  case counted =>
    rw [hcount, List.length_append, List.length_singleton]
    exact congrArg (· + 1) h.counted

/-- A value that answers no request changes nothing. -/
theorem step_message_of_no_answer {v : Value} (h : r.bridge.answer? v = none) :
    r.step (.message v) = r := by
  obtain ⟨hb, hs, hp⟩ := message_of_no_answer h
  simp [step, answering, h, lift, hb, hs, hp]

theorem Accounted.message (h : r.Accounted) (v : Value) : (r.step (.message v)).Accounted := by
  cases ha : r.bridge.answer? v with
  | none => rwa [step_message_of_no_answer ha]
  | some x => exact h.answered ha

/-- A worker that is known to be gone is not heard of. -/
theorem shutdown_of_dead (h : r.bridge.alive = false) (reason : String) :
    r.shutdown reason = r := by
  simp [shutdown, lift, h, Bridge.shutdown_of_dead h]

theorem values_of_not_handing (h : r.handing = false) : r.bridge.forwarding.hand.values = [] := by
  unfold handing at h
  split at h
  · cases h
  · rename_i hf
    cases hc : r.bridge.forwarding with
    | handed held =>
      cases held with
      | some k => exact absurd hc (hf k)
      | none => rfl
    | _ => rfl

/-- What is owed is in its place. -/
theorem owed_sublist (r : Run) :
    r.bridge.owed.Sublist (r.bridge.queue ++ r.bridge.pending.map (·.2)) :=
  (List.sublist_append_right _ _).append (.refl _)

theorem Accounted.owed_nodup (h : r.Accounted) : r.bridge.owed.Nodup :=
  h.places.of_append_left.of_append_left.sublist r.owed_sublist

/-- Only a request that is being handed over stays out of it when the worker is found gone. -/
theorem Accounted.queue_shutdown (h : r.Accounted) (ha : r.bridge.alive = true) (reason : String) :
    (r.bridge.shutdown reason).1.queue = r.bridge.forwarding.hand.values := by
  obtain ⟨hb, _⟩ := shutdown_of_alive ha h.posted reason
  obtain ⟨hchannel, _⟩ := Intake.dropAll_spec h.owed_nodup r.bridge.closedIntake
  obtain ⟨_, _, hqueue, _⟩ := h.coupled.close
  rw [hb]
  show Hand.queue (r.bridge.closedIntake.dropAll r.bridge.owed).1.channel (Forwarding.hand _) = _
  rw [hchannel, Forwarding.hand_take]
  exact hqueue

/-- When the worker is found gone, all that wait are dropped. -/
theorem Accounted.dropping (h : r.Accounted) (ha : r.bridge.alive = true) (reason : String) :
    (r.shutdown reason).Accounted := by
  obtain ⟨hb, hs, _⟩ := shutdown_of_alive ha h.posted reason
  obtain ⟨hcoupled, _, _, hclosed, hlive⟩ := h.coupled.close
  have hnodup := h.owed_nodup
  obtain ⟨hchannel, hfired, hstats, hsize, hcalls⟩ :=
    Intake.dropAll_spec hnodup r.bridge.closedIntake
  have hsound : r.bridge.closedIntake.Sound r.told := h.intake.congr rfl rfl
  have hq := h.queue_shutdown ha reason
  have hfree : ∀ n, n ∈ r.bridge.forwarding.hand.values ++ r.dropped → n ∉ r.bridge.owed := by
    intro n hm ho
    have hone := List.nodup_iff_count_le_one.mp h.places n
    have hm' := List.count_pos_iff.mpr hm
    have ho' := List.count_pos_iff.mpr ho
    simp only [Bridge.queue, Hand.queue, owed, List.count_append] at hone hm' ho'
    omega
  have hsame : ∀ n, n ∉ r.bridge.owed →
      (r.bridge.closedIntake.dropAll r.bridge.owed).1.calls[n]? = r.bridge.intake.calls[n]? := by
    intro n ho
    rw [hcalls]
    simp [closedIntake, ho]
  unfold shutdown
  simp only [ha, if_true]
  refine ⟨?coupled, ?intake, ?posted, ?known, h.nodup, ?perm, ?seqs, ?seq_le, ?waits, ?fallen,
    ?dead, ?counted⟩ <;>
    simp only [lift, size, hq] <;> simp only [hb, hs]
  case coupled =>
    rw [hchannel, Forwarding.hand_take]
    exact hcoupled
  case intake => exact hsound.dropAll hnodup
  case posted => exact (Intake.kept_dropAll hnodup r.bridge.closedIntake).parcel hsize h.posted
  case known =>
    rw [hsize]
    exact h.known
  case perm =>
    rw [List.perm_iff_count]
    intro n
    have hcount := h.perm.count_eq n
    simp only [Bridge.queue, Hand.queue, owed, List.map_nil, List.append_nil,
      List.count_append] at hcount ⊢
    omega
  case seqs => exact List.nodup_nil
  case seq_le => simp
  case waits =>
    intro n hn
    rw [List.map_nil, List.append_nil] at hn
    have hw := h.waits n (List.mem_append_left _ (List.mem_append_left _ hn))
    exact hw.congr (hsame n (hfree n (List.mem_append_left _ hn))) hfired
  case fallen =>
    intro n hm
    by_cases ho : n ∈ r.bridge.owed
    · obtain ⟨c, hk, hw⟩ := h.waits n (r.owed_sublist.mem ho)
      have hc : (r.bridge.closedIntake.dropAll r.bridge.owed).1.calls[n]? =
          some (c.reslot (·.slot.drop)) := by
        rw [hcalls]
        simp [closedIntake, hk, ho]
      refine Intake.Waits.drop (i := r.bridge.intake) ⟨c, hk, hw⟩ hfired hc fun d hd => ?_
      rw [Option.some.inj (hk.symm.trans hd)]
    · have hd : n ∈ r.dropped := (List.mem_append.mp hm).resolve_right ho
      exact (h.fallen n hd).congr (hsame n ho) hfired
  case dead =>
    rw [hchannel]
    exact fun _ => ⟨hclosed, hlive⟩
  case counted =>
    rw [hstats]
    exact h.counted

theorem Accounted.shutdown (h : r.Accounted) (reason : String) :
    (r.shutdown reason).Accounted := by
  cases ha : r.bridge.alive with
  | true => exact h.dropping ha reason
  | false => rwa [shutdown_of_dead ha]

theorem Accounted.step (h : r.Accounted) (ev : Event) : (r.step ev).Accounted := by
  cases ev with
  | send sender uri payload signal => exact h.send sender uri payload signal
  | clone sender => exact h.clone sender
  | release sender => exact h.release sender
  | abort signal reason => exact h.abort signal reason
  | forward => exact h.forward
  | message v => exact h.message v
  | portClosed => exact h.shutdown _
  | exited code => exact h.shutdown _

/-- The worker is gone once it was found gone. -/
theorem alive_step (r : Run) (ev : Event) :
    (r.step ev).bridge.alive = (r.bridge.alive && !ev.ends) := by
  cases ev with
  | send sender uri payload signal =>
    rw [step_send, send_eq]
    simp [Event.ends]
  | clone sender => simp [Event.ends, step, lift]
  | release sender => simp [Event.ends, step, lift, release_eq]
  | abort signal reason => simp [Event.ends, step, lift, Bridge.abort]
  | forward => simp [Event.ends, step, lift, alive_turn]
  | message v => simp [Event.ends, step, lift, alive_message]
  | portClosed => simp [Event.ends, step, shutdown, lift, alive_shutdown]
  | exited code => simp [Event.ends, step, shutdown, lift, alive_shutdown]

theorem run_cons (r : Run) (ev : Event) (events : List Event) :
    r.run (ev :: events) = (r.step ev).run events := rfl

theorem valid_cons {ev : Event} {events : List Event} (h : r.valid (ev :: events) = true) :
    r.possible ev = true ∧ (r.step ev).valid events = true := by
  simpa [valid] using h

theorem Accounted.run (h : r.Accounted) (events : List Event) : (r.run events).Accounted := by
  induction events generalizing r with
  | nil => exact h
  | cons ev events ih => exact ih (h.step ev)

theorem alive_run (r : Run) (events : List Event) :
    (r.run events).bridge.alive = (r.bridge.alive && !events.any Event.ends) := by
  induction events generalizing r with
  | nil => simp [run]
  | cons ev events ih =>
    rw [run_cons, ih, alive_step]
    simp [Bool.and_assoc]

/-- The callers of dropped requests learn that the worker died, or that their signal fired. -/
theorem Accounted.told_of_owed (h : r.Accounted) (ha : r.bridge.alive = true)
    (hk : k ∈ r.bridge.owed) (reason : String) :
    ∃ c : Call Unit, r.bridge.intake.calls[k]? = some c ∧
      ⟨k, Slot.forsaken (r.bridge.intake.reason? c.signal)⟩ ∈ (r.shutdown reason).told := by
  obtain ⟨_, _, _, _, hcalls⟩ := Intake.dropAll_spec h.owed_nodup r.bridge.closedIntake
  obtain ⟨hb, _⟩ := shutdown_of_alive ha h.posted reason
  obtain ⟨c, hc, hw⟩ := h.waits k (r.owed_sublist.mem hk)
  refine ⟨c, hc, ((h.dropping ha reason).intake.told.mem
    ⟨k, Slot.forsaken (r.bridge.intake.reason? c.signal)⟩).mpr ⟨c.reslot (·.slot.drop), ?_, ?_⟩⟩
  · show (r.bridge.shutdown reason).1.intake.calls[k]? = _
    rw [hb, hcalls]
    simp [closedIntake, hc, hk]
  · simp only [Call.reslot, hw]
    exact Slot.reader_drop_opened _

/-! A worker that is gone -/

/-- Nothing has been left waiting for a worker that is gone. -/
def Cleared (r : Run) : Prop :=
  r.bridge.alive = false → r.bridge.queue = [] ∧ r.bridge.pending = []

/-- Without a request in the hand the forwarding posts nothing. -/
theorem turn_of_empty (h : r.bridge.queue = []) :
    r.bridge.turn.1.queue = r.bridge.queue ∧ r.bridge.turn.1.pending = r.bridge.pending := by
  obtain ht | hf | ⟨k, hf⟩ := r.bridge.turn_cases
  · rw [ht]
    exact ⟨rfl, rfl⟩
  · rw [(turn_handed_none hf).1]
    simp [Bridge.queue, hf, Forwarding.hand, Hand.queue, Hand.values]
  · simp [Bridge.queue, hf, Forwarding.hand, Hand.queue, Hand.values] at h

theorem Accounted.cleared_shutdown (h : r.Accounted) (hc : r.Cleared) (hn : r.handing = false)
    (reason : String) : (r.shutdown reason).Cleared := by
  cases ha : r.bridge.alive with
  | false => rwa [shutdown_of_dead ha]
  | true =>
    intro _
    show (r.bridge.shutdown reason).1.queue = [] ∧ (r.bridge.shutdown reason).1.pending = []
    rw [h.queue_shutdown ha, values_of_not_handing hn, (shutdown_of_alive ha h.posted reason).1]
    exact ⟨rfl, rfl⟩

theorem Accounted.cleared_step (h : r.Accounted) (hc : r.Cleared) {ev : Event}
    (hp : r.possible ev = true) : (r.step ev).Cleared := by
  have hdead : ev.ends = false → (r.step ev).bridge.alive = false → r.bridge.alive = false := by
    intro he hd
    rw [alive_step, he] at hd
    simpa using hd
  cases ev with
  | send sender uri payload signal =>
    intro hd
    obtain ⟨hq, hpending⟩ := hc (hdead rfl hd)
    have hclosed : r.bridge.intake.channel.isClosed sender = true := by
      simp [Channel.isClosed, (h.dead (hdead rfl hd)).1]
    rw [step_send]
    refine ⟨?_, ?_⟩
    · show (r.bridge.send sender (.post uri payload) signal).1.queue = []
      rw [h.queue_send, hq, hclosed]
      rfl
    · show (r.bridge.send sender (.post uri payload) signal).1.pending = []
      rw [send_eq]
      exact hpending
  | clone sender => exact fun hd => hc (hdead rfl hd)
  | release sender =>
    intro hd
    obtain ⟨hq, hpending⟩ := hc (hdead rfl hd)
    refine ⟨(queue_release h.coupled sender).trans hq, ?_⟩
    show (r.bridge.release sender).1.pending = []
    rw [release_eq]
    exact hpending
  | abort signal reason =>
    intro hd
    obtain ⟨hq, hpending⟩ := hc (hdead rfl hd)
    exact ⟨(queue_abort r.bridge signal reason).trans hq, hpending⟩
  | forward =>
    intro hd
    obtain ⟨hq, hpending⟩ := hc (hdead rfl hd)
    obtain ⟨hqueue, hkept⟩ := turn_of_empty hq
    exact ⟨hqueue.trans hq, hkept.trans hpending⟩
  | message v =>
    intro hd
    obtain ⟨hq, hpending⟩ := hc (hdead rfl hd)
    cases ha : r.bridge.answer? v with
    | none =>
      rw [step_message_of_no_answer ha]
      exact ⟨hq, hpending⟩
    | some x =>
      have hx := mem_of_answer ha
      simp [hpending] at hx
  | portClosed => exact h.cleared_shutdown hc (by simpa [possible, Event.ends] using hp) _
  | exited code => exact h.cleared_shutdown hc (by simpa [possible, Event.ends] using hp) _

theorem Accounted.cleared_run (h : r.Accounted) (hc : r.Cleared) {events : List Event}
    (hv : r.valid events = true) : (r.run events).Cleared := by
  induction events generalizing r with
  | nil => exact hc
  | cons ev events ih =>
    obtain ⟨hp, hv⟩ := valid_cons hv
    exact ih (h.step ev) (h.cleared_step hc hp) hv

/-- Where the accepted requests are. Each of them is in one of the places, and there once. -/
structure Placed (r : Run) : Prop where
  once : r.accepted.Nodup
  places : r.accepted.Perm (r.bridge.forwarding.hand.values ++ r.bridge.intake.channel.live ++
    r.bridge.pending.map (·.2) ++ r.delivered ++ r.dropped)
  /-- The first place is one that a request only passes through. -/
  passing : r.handing = false → r.bridge.forwarding.hand.values = []
  seqs : (r.bridge.pending.map (·.1)).Nodup
  /-- One delivery is counted for each request that was delivered to. -/
  deliveries : r.bridge.intake.stats.delivered + r.bridge.intake.stats.undelivered =
    r.delivered.length

/-- The requests that wait in one state are dropped in the next, and what their callers know is
that the worker died, or that their signal had fired before. -/
structure Forsakes (r s : Run) : Prop where
  dropped : s.dropped = r.dropped ++ r.bridge.intake.channel.live ++ r.bridge.pending.map (·.2)
  told : ∀ k ∈ r.bridge.intake.channel.live ++ r.bridge.pending.map (·.2),
    ∃ c : Call Unit, r.bridge.intake.calls[k]? = some c ∧
      match r.bridge.intake.reason? c.signal with
      | none => (k, .error Fault.diedWithoutResponse.toValue) ∈ s.answers
      | some reason => (k, .error (Fault.aborted reason).toValue) ∈ s.answers

/-- What a bridge is after the worker was found gone. -/
structure Stopped (r : Run) : Prop where
  live : r.bridge.intake.channel.live = []
  /-- The slots of dropped requests are closed, and their callers know. -/
  closed : ∀ k ∈ r.dropped, ∃ c : Call Unit, r.bridge.intake.calls[k]? = some c ∧
    c.slot.isOpen = false ∧ ((k, .error Fault.diedWithoutResponse.toValue) ∈ r.answers ∨
      ∃ reason, r.bridge.intake.reason? c.signal = some reason ∧
        (k, .error (Fault.aborted reason).toValue) ∈ r.answers)
  refuses : ∀ sender uri payload signal,
    (r.step (.send sender uri payload signal)).accepted = r.accepted ∧
      (r.size, .error Fault.notListening.toValue) ∈
        (r.step (.send sender uri payload signal)).answers
  deaf : ∀ ev : Event, ev.ends = true → r.step ev = r

theorem Accounted.placed (h : r.Accounted) : r.Placed :=
  ⟨h.nodup, h.perm, values_of_not_handing, h.seqs, h.counted⟩

theorem mem_answers_of_told {s : Settled} (h : s ∈ r.told) :
    (s.call, Handle.result s.reading) ∈ r.answers :=
  List.mem_append_right _ (List.mem_map_of_mem (f := fun s => (s.call, Handle.result s.reading)) h)

theorem Accounted.forsakes (h : r.Accounted) (ha : r.bridge.alive = true) (reason : String) :
    r.Forsakes (r.shutdown reason) := by
  refine ⟨?_, fun k hk => ?_⟩
  · show (r.dropped ++ if r.bridge.alive then r.bridge.owed else []) = _
    rw [ha, List.append_assoc]
    rfl
  · obtain ⟨c, hc, ht⟩ := h.told_of_owed ha hk reason
    have hm := mem_answers_of_told ht
    refine ⟨c, hc, ?_⟩
    cases hr : r.bridge.intake.reason? c.signal <;> rw [hr] at hm <;> exact hm

theorem Accounted.stopped (h : r.Accounted) (ha : r.bridge.alive = false) : r.Stopped := by
  obtain ⟨hclosed, hlive⟩ := h.dead ha
  refine ⟨hlive, fun k hk => ?_, fun sender uri payload signal => ?_, fun ev he => ?_⟩
  · obtain ⟨c, hc, hopen⟩ := (h.fallen k hk).not_isOpen rfl
    refine ⟨c, hc, hopen, ?_⟩
    rcases (h.fallen k hk).told rfl h.intake with ht | ⟨d, reason, hd, hr, ht⟩
    · exact Or.inl (mem_answers_of_told ht)
    · rw [Option.some.inj (hc.symm.trans hd)]
      exact Or.inr ⟨reason, hr, mem_answers_of_told ht⟩
  · have hc : r.bridge.intake.channel.isClosed sender = true := by simp [Channel.isClosed, hclosed]
    rw [step_send]
    simp [hc, answers]
  · cases ev with
    | portClosed => exact shutdown_of_dead ha _
    | exited code => exact shutdown_of_dead ha _
    | _ => cases he

theorem alive_start (fired : List (Nat × Value)) : (start fired).bridge.alive = true :=
  alive_takeNext

/-- No accepted request is lost. In every state each of them is in one place; those that wait when
the worker is found gone are dropped, and unless one was being handed over at that moment, none
waits ever after. -/
theorem no_request_lost (fired : List (Nat × Value)) (events : List Event) :
    ((start fired).run events).Placed ∧
      (∀ ev : Event, events.any Event.ends = false → ev.ends = true →
        ((start fired).run events).Forsakes (((start fired).run events).step ev)) ∧
      (events.any Event.ends = true → ((start fired).run events).Stopped ∧
        ((start fired).valid events = true → ((start fired).run events).bridge.queue = [] ∧
          ((start fired).run events).bridge.pending = [])) := by
  have h := (accounted_start fired).run events
  have ha := alive_run (start fired) events
  rw [alive_start, Bool.true_and] at ha
  refine ⟨h.placed, fun ev hall hev => ?_, fun hany => ?_⟩
  · rw [hall] at ha
    cases ev with
    | portClosed => exact h.forsakes ha _
    | exited code => exact h.forsakes ha _
    | _ => cases hev
  · rw [hany] at ha
    refine ⟨h.stopped ha, fun hv => ?_⟩
    have hc : (start fired).Cleared := fun hd => by simp [alive_start] at hd
    exact (accounted_start fired).cleared_run hc hv ha

/-- One request is answered; of two others that have been posted the first one is given up by its
caller. The worker exits, and then its port closes. -/
def crash : List Event :=
  [.send 0 "http://a/" [] none, .forward, .send 0 "http://a/" [] (some 7), .forward,
    .send 0 "http://a/" [] none, .abort 7 .null,
    .message (FromWorker.response (.ofNat 1)
      (.record [("ok", .bool true), ("value", .bytes [])])).toValue,
    .forward, .exited 1, .portClosed]

theorem crash_stopped : crash.any Event.ends = true ∧ (start []).valid crash = true ∧
    ((start []).run crash).delivered = [0] ∧ ((start []).run crash).dropped = [1, 2] ∧
    ((start []).run crash).Stopped ∧ ((start []).run crash).bridge.pending = [] := by
  have hv : (start []).valid crash = true := by decide +kernel
  have hstop := (no_request_lost [] crash).2.2 rfl
  exact ⟨rfl, hv, by decide +kernel, by decide +kernel, hstop.1, (hstop.2 hv).2⟩

end Run
end Bridge
end Courier
