import Courier.Log.Console
import Courier.Proofs.Stranding

/-!
What a pipeline says to a console logger. Everything that it says itself has a line that can be
printed, whatever the settings of the logger are, and so have the errors of the language and of the
system. What else breaks out of an exchange may have no line, or none that can be printed. A logger
that accepts what is said might as well not be there.
-/

namespace Courier

namespace Value

variable {v w : Value}

/-! Values that nothing is thrown for -/

/-- A value that has a JSON document, or that is left out of one. -/
def Writable (v : Value) : Prop := ∃ document, v.json? = .ok document

theorem jsonItems_of_writable {items : List Value} (h : ∀ v ∈ items, v.Writable) :
    ∃ documents, jsonItems items = .ok documents := by
  induction items with
  | nil => exact ⟨[], rfl⟩
  | cons v rest ih =>
    obtain ⟨document, hv⟩ := h v List.mem_cons_self
    obtain ⟨documents, hr⟩ := ih fun w hw => h w (List.mem_cons_of_mem _ hw)
    refine ⟨document.getD .null :: documents, ?_⟩
    simp only [jsonItems, hv, hr, bind, Except.bind, pure, Except.pure]

theorem jsonFields_of_writable {fields : List (String × Value)}
    (h : ∀ f ∈ fields, f.2.Writable) : ∃ documents, jsonFields fields = .ok documents := by
  induction fields with
  | nil => exact ⟨[], rfl⟩
  | cons f rest ih =>
    obtain ⟨name, v⟩ := f
    obtain ⟨document, hv⟩ : v.Writable := h (name, v) List.mem_cons_self
    obtain ⟨documents, hr⟩ := ih fun g hg => h g (List.mem_cons_of_mem _ hg)
    refine ⟨document.toList.map (fun j => (name, j)) ++ documents, ?_⟩
    simp only [jsonFields, hv, hr, bind, Except.bind, pure, Except.pure]

theorem writable_array {items : List Value} (h : ∀ v ∈ items, v.Writable) :
    (array items).Writable := by
  obtain ⟨documents, hd⟩ := jsonItems_of_writable h
  refine ⟨some (.array documents), ?_⟩
  simp only [json?, hd, bind, Except.bind, pure, Except.pure]

/-- A record is written field by field, unless it says itself how. -/
theorem writable_record {fields : List (String × Value)}
    (hown : (lookup fields "toJSON").isFunction = false) (h : ∀ f ∈ fields, f.2.Writable) :
    (record fields).Writable := by
  obtain ⟨documents, hd⟩ := jsonFields_of_writable h
  refine ⟨some (.object documents), ?_⟩
  simp only [json?, hown, hd, bind, Except.bind, pure, Except.pure, Bool.false_eq_true, if_false]

/-- A value that can be written and displayed, and that has a text and a number. -/
structure Tame (v : Value) : Prop where
  writable : v.Writable
  displays : ∀ d indent level, ∃ text, displayAt d indent level v = .ok text
  words : ∃ text, v.innerText = .ok text
  number : ∃ x, v.toNumber = .ok x

theorem tame_number (x : Binary64) : (number x).Tame :=
  ⟨⟨_, rfl⟩, fun _ _ _ => ⟨_, rfl⟩, ⟨_, rfl⟩, ⟨_, rfl⟩⟩

theorem tame_string (s : String) : (string s).Tame :=
  ⟨⟨_, rfl⟩, fun _ _ _ => ⟨_, rfl⟩, ⟨_, rfl⟩, ⟨_, rfl⟩⟩

theorem tame_bool (b : Bool) : (bool b).Tame := by
  cases b <;> exact ⟨⟨_, rfl⟩, fun _ _ _ => ⟨_, rfl⟩, ⟨_, rfl⟩, ⟨_, rfl⟩⟩

theorem displayFields_of_displays (d : Display) (indent level : Nat)
    {fields : List (String × Value)}
    (h : ∀ f ∈ fields, ∃ text, displayAt d indent level f.2 = .ok text) :
    ∃ texts, displayFields d indent level fields = .ok texts := by
  induction fields with
  | nil => exact ⟨[], rfl⟩
  | cons f rest ih =>
    obtain ⟨text, hf⟩ := h f List.mem_cons_self
    obtain ⟨texts, hr⟩ := ih fun g hg => h g (List.mem_cons_of_mem _ hg)
    refine ⟨(fieldName f.1 ++ ": " ++ text) :: texts, ?_⟩
    simp only [displayFields, hf, hr, bind, Except.bind, pure, Except.pure]

theorem displays_record {fields : List (String × Value)} (h : ∀ f ∈ fields, ∀ d indent level,
    ∃ text, displayAt d indent level f.2 = .ok text) (d : Display) (indent level : Nat) :
    ∃ text, displayAt d indent level (record fields) = .ok text := by
  obtain ⟨texts, ht⟩ := displayFields_of_displays d (indent + 2) (level + 1) fun f hf =>
    h f hf d (indent + 2) (level + 1)
  rw [displayAt]
  split
  · exact ⟨_, rfl⟩
  · split
    · exact ⟨_, rfl⟩
    · exact ⟨_, by rw [ht]; rfl⟩

/-- A record of tame values that has a text and a number itself. -/
theorem tame_record {fields : List (String × Value)}
    (hown : (lookup fields "toJSON").isFunction = false)
    (hwords : ∃ text, (record fields).innerText = .ok text)
    (hnumber : ∃ x, (record fields).toNumber = .ok x) (h : ∀ f ∈ fields, f.2.Tame) :
    (record fields).Tame :=
  ⟨writable_record hown fun f hf => (h f hf).writable,
    displays_record fun f hf => (h f hf).displays, hwords, hnumber⟩

/-- What is logged about a request. -/
theorem tame_request (url : String) : (record [("url", .string url)]).Tame := by
  refine tame_record rfl ⟨_, rfl⟩ ⟨_, rfl⟩ fun f hf => ?_
  obtain rfl := List.mem_singleton.mp hf
  exact tame_string url

/-- What is logged about a request that has completed. -/
theorem tame_completed (url : String) (ok : Bool) :
    (record [("url", .string url), ("ok", .bool ok)]).Tame := by
  refine tame_record rfl ⟨_, rfl⟩ ⟨_, rfl⟩ fun f hf => ?_
  rcases List.mem_cons.mp hf with rfl | hf
  · exact tame_string url
  · obtain rfl := List.mem_singleton.mp hf
    exact tame_bool ok

/-- An error of the language or of the system. -/
def isComplaint : Value → Bool
  | .error _ (.string _) .undefined | .coded _ _ (.string _) => true
  | _ => false

theorem tame_of_isComplaint (h : v.isComplaint = true) : v.Tame := by
  unfold isComplaint at h
  split at h
  · next name message =>
    obtain ⟨family, given, heading⟩ := name
    refine ⟨by cases given <;> exact ⟨_, rfl⟩, fun d indent level => ?_, ⟨_, rfl⟩, ⟨_, rfl⟩⟩
    simp [displayAt, isUndefined, bind, Except.bind, pure, Except.pure]
  · next name code message =>
    refine ⟨⟨_, rfl⟩, fun d indent level => ?_, ⟨_, rfl⟩, ⟨_, rfl⟩⟩
    cases code <;> exact ⟨_, rfl⟩
  · cases h

end Value

/-! What console loggers write and print -/

namespace Log

/-- Whatever mark it stands for, a tame value is taken. -/
theorem Mark.take_tame {v : Value} (h : v.Tame) (m : Mark) : m.take v = .ok () := by
  obtain ⟨document, hdocument⟩ := h.writable
  obtain ⟨text, htext⟩ := h.words
  obtain ⟨x, hx⟩ := h.number
  have htake : ∃ text, takeText v = .ok text := by
    unfold takeText
    split
    all_goals first
      | exact h.words
      | exact ⟨_, rfl⟩
      | exact h.displays _ _ _
  obtain ⟨taken, htaken⟩ := htake
  choose shown hshown using fun depth => h.displays { Value.display with depth := depth } 0 0
  unfold Mark.take
  split
  all_goals first
    | rfl
    | simp only [htaken, hx, htext, hdocument, hshown, bind, Except.bind, pure, Except.pure]

theorem inspect_tame {v : Value} (h : v.Tame) : ∃ text, v.inspect = .ok text := by
  unfold Value.inspect
  split
  · exact ⟨_, rfl⟩
  · exact h.displays _ _ _

/-- Marks take tame values, and those that are left are displayed. -/
theorem takeAll_tame (marks : List Mark) {args : List Value} (h : ∀ v ∈ args, v.Tame) :
    takeAll marks args = .ok () := by
  induction args generalizing marks with
  | nil => cases marks <;> rfl
  | cons v rest ih =>
    obtain ⟨hv, hrest⟩ := List.forall_mem_cons.mp h
    cases marks with
    | nil =>
      obtain ⟨text, ht⟩ := inspect_tame hv
      simp only [takeAll, ht, bind, Except.bind]
      exact ih [] hrest
    | cons m marks =>
      simp only [takeAll, Mark.take_tame hv, bind, Except.bind]
      exact ih marks hrest

/-- What is logged for a unit that a value breaks out of. -/
def died (v : Value) : Entry := ⟨.error, "Request processing failed:", [v]⟩

/-- What a pipeline says to its logger, if what breaks out of its exchanges is of a kind. -/
inductive Said (P : Value → Prop) : Entry → Prop where
  | dispatching (url : String) : Said P (dispatching (.string url))
  | completed (url : String) (ok : Bool) :
    Said P ⟨.debug, "Request completed:", [.record [("url", .string url), ("ok", .bool ok)]]⟩
  | undelivered : Said P ⟨.warn, "Unable to send response back to caller", []⟩
  | failed (v : Value) (h : P v) : Said P (died v)
  | closed (n : Nat) :
    Said P ⟨.debug, "Request channel closed, in-flight requests:", [Value.nat n]⟩
  | finished : Said P ⟨.debug, "Dispatch loop finished", []⟩

/-- The calls that a pipeline makes return. -/
def Accepts (react : Reaction) (P : Value → Prop) : Prop :=
  ∀ n entry, Said P entry → react n entry = none

/-- A JSON line is a record of texts, and of what it is about. -/
theorem writable_document (now : String) (timestamp : Bool) (level : Level) (message : String)
    {args : List Value} (h : ∀ v ∈ args, v.Writable) :
    (Value.record ((if timestamp then [("timestamp", Value.string now)] else []) ++
      [("level", .string level.name), ("message", .string message)] ++
      if args.isEmpty then [] else [("data", .array args)])).Writable := by
  refine Value.writable_record ?_ fun f hf => ?_
  · cases timestamp <;> cases args <;> rfl
  · simp only [List.append_assoc, List.mem_append, List.mem_cons, List.not_mem_nil, or_false] at hf
    rcases hf with hf | (rfl | rfl) | hf
    · cases timestamp with
      | false => cases hf
      | true =>
        obtain rfl := List.mem_singleton.mp hf
        exact (Value.tame_string now).writable
    · exact (Value.tame_string _).writable
    · exact (Value.tame_string _).writable
    · split at hf
      · cases hf
      · obtain rfl := List.mem_singleton.mp hf
        exact Value.writable_array h

theorem Level.rank_le_error (level : Level) : level.rank ≤ Level.error.rank := by
  cases level <;> decide

namespace Config

variable (level : Level) (json : Bool) (heading : String) (timestamp : Bool)

theorem admits_named (said : Level) :
    (named level json heading timestamp).admits said = decide (level.rank ≤ said.rank) := by
  cases level <;> rfl

/-- A call whose level is high enough has a line if that can be had at all. -/
theorem write_admitted {now : String} {entry : Entry} {line : Option Line}
    (hl : level.rank ≤ entry.level.rank)
    (h : (named level json heading timestamp).write now entry = .ok line) :
    ∃ l, line = some l ∧ l.stream = .ofLevel entry.level := by
  have hadmits : (!(named level json heading timestamp).admits entry.level) = false := by
    rw [admits_named, decide_eq_true hl]
    rfl
  simp only [write, Log.format, hadmits, Bool.false_eq_true, if_false] at h
  split at h
  · obtain ⟨document, _, h⟩ := Attempt.bind_eq_ok h
    exact ⟨_, (Except.ok.inj h).symm, rfl⟩
  · obtain ⟨text, _, h⟩ := Attempt.bind_eq_ok h
    exact ⟨_, (Except.ok.inj h).symm, rfl⟩

/-- What is about tame values alone can be said to a named logger. -/
theorem say_tame (now : String) {entry : Entry} (h : ∀ v ∈ entry.args, v.Tame) :
    (named level json heading timestamp).say now entry = .ok () := by
  obtain ⟨said, message, args⟩ := entry
  by_cases hl : level.rank ≤ said.rank
  · have hadmits : (!(named level json heading timestamp).admits said) = false := by
      rw [admits_named, decide_eq_true hl]
      rfl
    simp only [say, write, Log.format, hadmits, Bool.false_eq_true, if_false]
    cases json with
    | false =>
      -- A pretty line is put together from texts alone.
      cases timestamp <;> exact takeAll_tame _ h
    | true =>
      obtain ⟨document, hd⟩ := writable_document now timestamp said message fun v hv =>
        (h v hv).writable
      have htruthy : (named level true heading timestamp).timestamp.truthy = timestamp := by
        cases timestamp <;> rfl
      have hjson : (named level true heading timestamp).isJson = true := rfl
      simp only [hjson, if_true, htruthy, hd, bind, Except.bind]
      cases document with
      | none => rfl
      | some document => exact takeAll_tame _ fun v hv => by cases hv
  · have hadmits : (!(named level json heading timestamp).admits said) = true := by
      rw [admits_named, decide_eq_false hl]
      rfl
    simp only [say, write, Log.format, hadmits, if_true]
    rfl

end Config

/-- What a pipeline says itself can be said to a console logger, whatever the settings of that, and
what breaks out of its exchanges can be if that holds for what is no complaint. -/
theorem accepts_named {P : Value → Prop} (level : Level) (json : Bool) (heading : String)
    (timestamp : Bool) (clock : Nat → String)
    (hP : ∀ v, P v → v.isComplaint = true ∨
      ∀ now, (Config.named level json heading timestamp).say now (died v) = .ok ()) :
    Accepts ((Config.named level json heading timestamp).reaction clock) P := by
  intro n entry hs
  suffices hsay : (Config.named level json heading timestamp).say (clock n) entry = .ok () by
    simp only [Config.reaction, hsay]
  cases hs with
  | dispatching url =>
    exact Config.say_tame level json heading timestamp _ fun v hv =>
      List.mem_singleton.mp hv ▸ Value.tame_request url
  | completed url ok =>
    exact Config.say_tame level json heading timestamp _ fun v hv =>
      List.mem_singleton.mp hv ▸ Value.tame_completed url ok
  | closed n =>
    exact Config.say_tame level json heading timestamp _ fun v hv =>
      List.mem_singleton.mp hv ▸ Value.tame_number _
  | failed w h =>
    rcases hP w h with hc | hsay
    · exact Config.say_tame level json heading timestamp _ fun v hv =>
        List.mem_singleton.mp hv ▸ Value.tame_of_isComplaint hc
    · exact hsay _
  | undelivered | finished =>
    exact Config.say_tame level json heading timestamp _ fun v hv => by cases hv

end Log

/-! Dispatching with a logger that accepts what is said -/

/-- A call for an address. -/
def Call.Addressed (c : Call Stage) : Prop :=
  ∃ content, c.parcel = .request content ∧ ∃ url : String, content.read "url" = .ok (.string url)

namespace Dispatch

variable {d : Dispatch} {k : Nat} {react : Log.Reaction} {P : Value → Prop}

/-- Every call is for an address. -/
def Addressed (d : Dispatch) : Prop :=
  ∀ (k : Nat) (c : Call Stage), d.intake.calls[k]? = some c → c.Addressed

/-- The unit that a move ends because something breaks out of it. -/
def dying? (d : Dispatch) : Move → Option (Nat × Value)
  | .conclude k =>
    match d.intake.progress? k with
    | some (.running (.over (.error v))) => some (k, v)
    | _ => none
  | _ => none

theorem dying_of_over {c : Call Stage} {v : Value} (hk : d.intake.calls[k]? = some c)
    (hr : c.progress = .running (.over (.error v))) : d.dying? (.conclude k) = some (k, v) := by
  simp only [dying?, Intake.progress?, hk, Option.map_some, hr]

theorem dying_of_ok {c : Call Stage} {o : Outcome} (hk : d.intake.calls[k]? = some c)
    (hr : c.progress = .running (.over (.ok o))) : d.dying? (.conclude k) = none := by
  simp only [dying?, Intake.progress?, hk, Option.map_some, hr]

theorem turn_accepts (hr : Log.Accepts react P) (h : d.Sound) (ha : d.Addressed) :
    d.turn react = d.turn Log.calm := by
  cases hl : d.loop with
  | unstarted | waiting | ended => simp [turn, hl]
  | draining failure => cases failure <;> simp [turn, hl]
  | handed call =>
    cases call with
    | none => simp [turn, hl, say, hr _ _ (.closed d.inFlight), Log.calm]
    | some k =>
      obtain ⟨c, _, _, hk, _⟩ := h.handed hl
      obtain ⟨content, hp, url, hu⟩ := ha k c hk
      exact turn_dispatched hl hk hp hu (hr d.said _ (.dispatching url))

theorem deliver_accepts (hr : Log.Accepts react P) (o : Outcome) :
    d.deliver react k o = d.deliver Log.calm k o := by
  have hsaid (n : Nat) := hr n _ .undelivered
  simp only [deliver, undelivered, say, hsaid, Log.calm]

theorem complete_accepts (hr : Log.Accepts react P) {c : Call Stage} (ha : c.Addressed)
    (result : Attempt Outcome) :
    d.complete react k c.parcel result = d.complete Log.calm k c.parcel result := by
  obtain ⟨content, hp, url, hu⟩ := ha
  cases result with
  | error v => rfl
  | ok o =>
    have hsaid := hr d.said _ (.completed url o.isSuccess)
    simp only [complete, hp, Parcel.url, Parcel.content, bind, Except.bind, hu, say, hsaid,
      Log.calm, deliver_accepts hr]

theorem conclude_accepts (hr : Log.Accepts react P) (h : d.Sound) (ha : d.Addressed)
    (hd : ∀ x, d.dying? (.conclude k) = some x → P x.2) :
    d.conclude react k = d.conclude Log.calm k := by
  rcases d.over_or_idle k with ⟨c, result, hk, hp⟩ | hidle
  · have hcomplete := complete_accepts (d := d) (k := k) hr (ha k c hk) result
    simp only [conclude, hk, hp, hcomplete]
    cases result with
    | error v =>
      have hsaid : react d.said ⟨.error, "Request processing failed:", [v]⟩ = none :=
        hr d.said _ (.failed v (hd (k, v) (dying_of_over hk hp)))
      simp only [complete, say, hsaid, Log.calm]
    | ok o =>
      obtain ⟨said, es, hc, _⟩ := complete_ok hk (h.proper k c hk) o
      simp only [hc]
  · rw [conclude_idle react hidle, conclude_idle Log.calm hidle]

theorem moveUnder_accepts (hr : Log.Accepts react P) (h : d.Sound) (ha : d.Addressed) (m : Move)
    (hd : ∀ x, d.dying? m = some x → P x.2) : d.moveUnder react m = d.move m := by
  cases m with
  | turn => exact turn_accepts hr h ha
  | conclude k => exact conclude_accepts hr h ha hd
  | answered | chunk | bodyEnded | retire => rfl

theorem Addressed.move (h : d.Sound) (ha : d.Addressed) (m : Move) : (d.move m).1.Addressed := by
  intro n c hc
  obtain ⟨b, hb, hbc⟩ := h.became hc
  cases hbc with
  | own =>
    obtain ⟨content, hp, hu⟩ := ha n b hb
    exact ⟨content, (moved_parcel m b).trans hp, hu⟩
  | begun => exact ha n b hb
  | aside => exact ha n _ hb

end Dispatch

namespace Pipeline

variable {p : Pipeline} {t : Dispatch × List Effect} {react : Log.Reaction} {P : Value → Prop}

theorem lift_accepts (hr : Log.Accepts react P) : p.lift react t = p.lift Log.calm t := by
  have hsaid (n : Nat) := hr n _ .finished
  simp only [lift, shut, Dispatch.say, hsaid, Log.calm]

end Pipeline

end Courier
