import Courier.Proofs.Correlation

/-!
Failures that go from thread to thread. A failure is posted as a record, copied and rebuilt, and
whatever passes the check of such records is read and written back as it was. So only the first
crossing changes a failure, and all that it changes is the cause, which becomes its text.
-/

namespace Courier.Fault

/-! Records -/

/-- The fields of a value that belong to the record of a failure, those that are undefined left
out. -/
def excerpt (v : Value) : Value :=
  .record ([("kind", v.field "kind"), ("message", v.field "message")]
    ++ optionalField "status" (v.field "status") ++ optionalField "cause" (v.field "cause"))

/-- A cause that is a text already is written as it is. -/
theorem post_of_textual {f : Fault}
    (h : (f.cause.isUndefined || f.cause.isString) = true) :
    f.post = .ok (.record ([("kind", f.kind), ("message", f.message)]
      ++ optionalField "status" f.status ++ optionalField "cause" f.cause)) := by
  obtain ⟨kind, message, status, cause⟩ := f
  cases cause with
  | undefined => rfl
  | string text => rfl
  | _ => cases h

/-- What passes the check is written back as it was read. -/
theorem post_rebuild {v : Value} (h : isPosted v = true) :
    ∃ f, rebuild v = .ok f ∧ f.post = .ok (excerpt v) := by
  obtain ⟨kind, message, hkind, hmessage, hrebuild⟩ := rebuild_of_isPosted h
  have hcause : ((v.field "cause").isUndefined || (v.field "cause").isString) = true := by
    simp only [isPosted, Bool.and_eq_true] at h
    exact h.2
  refine ⟨_, hrebuild, ?_⟩
  rw [post_of_textual hcause, excerpt, hkind, hmessage]

/-- Of the record of a portable failure nothing is left out. -/
theorem Portable.excerpt_record {f : Fault} (h : f.Portable) : excerpt f.record = f.record := by
  obtain ⟨kind, _, message, _, status, cause, hr, ⟨rfl, _⟩ | ⟨x, rfl, _⟩,
    ⟨rfl, _⟩ | ⟨text, rfl, _⟩⟩ := h.record_cases <;> rw [hr] <;> rfl

/-! Crossings -/

/-- A failure goes to another thread: it is posted, copied and rebuilt. -/
def cross (f : Fault) : Attempt Fault := do
  let posted ← f.post
  let copy ← posted.clone
  rebuild copy

/-- A failure goes from thread to thread several times. -/
def crossed : Nat → Fault → Attempt Fault
  | 0, f => .ok f
  | n + 1, f => do crossed n (← f.cross)

variable {f : Fault}

theorem Portable.cross (h : f.Portable) : f.cross = .ok f.relayed := by
  simp only [Fault.cross, h.post, h.clone, h.rebuild, bind, Except.bind]

theorem Portable.relayed_relayed (h : f.Portable) : f.relayed.relayed = f.relayed := by
  simp only [Fault.relayed, Value.asCause_asCause h.cause]

/-- A failure that has crossed before crosses unchanged. -/
theorem Portable.crossed_relayed (h : f.Portable) (n : Nat) :
    crossed n f.relayed = .ok f.relayed := by
  induction n with
  | zero => rfl
  | succ n ih =>
    have hstep := h.relayed.cross
    rw [h.relayed_relayed] at hstep
    simp only [crossed, hstep, bind, Except.bind]
    exact ih

theorem Portable.crossed_succ (h : f.Portable) (n : Nat) : crossed (n + 1) f = .ok f.relayed := by
  simp only [crossed, h.cross, bind, Except.bind]
  exact h.crossed_relayed n

/-- Failures of a known kind whose cause has a text are portable. -/
theorem portable_ofKind (kind : FaultKind) (message : String) {status cause : Value} {text : String}
    (hs : status = .undefined ∨ ∃ x, status = .number x) (ht : cause.HasText text) :
    (ofKind kind message status cause).Portable where
  kind := ⟨kind, rfl⟩
  message := ⟨message, rfl⟩
  status := hs
  cause := Or.inr ⟨text, ht⟩

/-- What is left of a failure on another thread: everything but the cause, which becomes a text. -/
structure Survives (f : Fault) (text : String) (g : Fault) : Prop where
  kind : g.kind = f.kind
  message : g.message = f.message
  status : g.status = f.status
  absent : f.cause = .undefined → g.cause = .undefined
  present : f.cause ≠ .undefined → g.cause = .string text

theorem survives_relayed {text : String} (ht : f.cause.HasText text) :
    f.Survives text f.relayed where
  kind := rfl
  message := rfl
  status := rfl
  absent hc := by
    show f.cause.asCause = .undefined
    rw [hc]
    rfl
  present hc := Value.asCause_of_text ht hc

/-- Whatever passes the check of posted failures is rebuilt, and written again it is the same record
with nothing lost but what was undefined. A failure of a known kind, with a number for its status or
with none, and with a cause that has a text, is written as a record that passes the check, is
rebuilt with all its parts, its cause as a text, and is written as the same record ever after:
however often it crosses, only the first crossing changes it. -/
theorem crosses_unchanged :
    (∀ v, isPosted v = true → ∃ f, rebuild v = .ok f ∧ f.post = .ok (excerpt v)) ∧
    ∀ (kind : FaultKind) (message : String) (status cause : Value) (text : String),
      (status = .undefined ∨ ∃ x, status = .number x) → cause.HasText text →
        ∃ posted g, (ofKind kind message status cause).post = .ok posted ∧
          isPosted posted = true ∧ rebuild posted = .ok g ∧
          (ofKind kind message status cause).Survives text g ∧ g.post = .ok posted ∧
          ∀ n, crossed (n + 1) (ofKind kind message status cause) = .ok g := by
  constructor
  · intro v hv
    exact post_rebuild hv
  · intro kind message status cause text hs ht
    have hp := portable_ofKind kind message hs ht
    have hagain : (ofKind kind message status cause).relayed.post =
        .ok (ofKind kind message status cause).record := by
      rw [hp.relayed.post, hp.record_relayed]
    exact ⟨_, _, hp.post, hp.isPosted, hp.rebuild, survives_relayed ht, hagain, hp.crossed_succ⟩

/-- A record with an empty text and a status that is no number at all, and a failure that was caused
by a list of another one. -/
theorem refusal_crosses_unchanged :
    (∃ f, rebuild (.record [("cause", ""), ("status", .number .nan), ("message", ""),
        ("kind", "HttpError"), ("more", .null)]) = .ok f ∧
      f.post = .ok (.record [("kind", "HttpError"), ("message", ""), ("status", .number .nan),
        ("cause", "")])) ∧
    ∃ g, (ofKind .network "down" (.number 0)
        (.array [.null, notListening.toValue])).Survives
          ",HttpTransportError: Not listening for requests" g ∧
      crossed 3 (ofKind .network "down" (.number 0) (.array [.null, notListening.toValue])) =
        .ok g := by
  constructor
  · exact crosses_unchanged.1 _ rfl
  · obtain ⟨_, g, _, _, _, hg, _, hn⟩ := crosses_unchanged.2 .network "down" (.number 0)
      (.array [.null, notListening.toValue]) _ (Or.inr ⟨0, rfl⟩) rfl
    exact ⟨g, hg, hn 2⟩

end Courier.Fault
