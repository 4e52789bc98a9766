import Courier.Startup
import Courier.Proofs.Wire

/-!
Builds whose client cannot be made. Whatever the factory throws, the reactor gets no task; if the
value has a text the build fails alike on the caller's thread and on a worker, apart from the cause,
which crosses between threads as its text.
-/

namespace Courier

namespace Startup

/-- The owner hears several things of a worker that starts. -/
def hear (s : Startup) (events : List Event) : Startup × List Effect :=
  events.foldl (fun (s, effects) e =>
    let (s, more) := s.step e
    (s, effects ++ more)) (s, [])

/-- The owner of a worker that starts closes its port and rejects with a failure. -/
def Rejects (events : List Event) (fault : Fault) : Prop :=
  ∃ stopped, (stopped = [] ∨ stopped = [Effect.terminate]) ∧ listening.hear events =
    (.failed (.ok fault), .closePort :: (stopped ++ [.reject (.ok fault)]))

theorem Rejects.unique {events : List Event} {f g : Fault} (hf : Rejects events f)
    (hg : Rejects events g) : f = g := by
  obtain ⟨_, _, hf⟩ := hf
  obtain ⟨_, _, hg⟩ := hg
  rw [hf] at hg
  simp only [Prod.mk.injEq, failed.injEq, Except.ok.injEq] at hg
  exact hg.1

/-- A report that is understood is what the owner rejects with when the worker has exited. -/
theorem rejects_buildError {m posted : Value} {f : Fault}
    (hm : FromWorker.ofValue? m = some (.buildError posted)) (hf : Fault.rebuild posted = .ok f)
    (code : Int) : Rejects [.message m, .exit code] f :=
  ⟨[], Or.inl rfl, by simp [hear, step, hm, hf]⟩

theorem rejects_unexpected {m : Value} (hm : FromWorker.ofValue? m = none) (code : Int) :
    Rejects [.message m, .exit code] unexpectedMessage :=
  ⟨[.terminate], Or.inr rfl, by simp [hear, step, hm]⟩

theorem rejects_exit (code : Int) : Rejects [.exit code] (exitedDuring code) :=
  ⟨[], Or.inl rfl, rfl⟩

end Startup

namespace Fault

/-- The failure of a client that could not be made, put into words. -/
def ofClient (text : String) (cause : Value) : Fault :=
  ofKind .clientBuilder ("Failed to create the HTTP client: " ++ text) .undefined cause

theorem clientBuilder_of_wording {cause : Value} {text : String} (h : cause.wording = .ok text) :
    clientBuilder cause = .ok (ofClient text cause) := by
  simp only [clientBuilder, h, bind, Except.bind, pure, Except.pure]
  rfl

theorem clientBuilder_of_thrown {cause w : Value} (h : cause.wording = .error w) :
    clientBuilder cause = .error w := by
  simp only [clientBuilder, h, bind, Except.bind]

theorem portable_ofClient {cause : Value} {text : String} (h : cause.HasText text) :
    (ofClient text cause).Portable :=
  ⟨⟨.clientBuilder, rfl⟩, ⟨_, rfl⟩, Or.inl rfl, Or.inr ⟨text, h⟩⟩

/-- The record of such a failure whose cause is described by a value. -/
theorem ofClient_post {v d : Value} (hv : v ≠ .undefined) (hd : v.describe = .ok d)
    (text : String) : (ofClient text v).post = .ok (.record
      [("kind", .string FaultKind.clientBuilder.name),
        ("message", .string ("Failed to create the HTTP client: " ++ text)), ("cause", d)]) := by
  have hc : (ofClient text v).cause = v := rfl
  rw [post_caused hv, hc, hd]
  rfl

/-- The copy of a record of a failure keeps the kind. -/
theorem kind_of_copied {f : Fault} {kind : String} (hk : f.kind = .string kind)
    {record posted : Value} (hr : f.post = .ok record) (hc : record.clone = .ok posted) :
    posted.field "kind" = .string kind := by
  obtain ⟨rest, rfl⟩ := post_eq hr
  have hkind := Value.clone_field hc "kind"
  rw [hk] at hkind
  exact (Except.ok.inj hkind).symm

end Fault

namespace Client

theorem buildFault_of_wording {v : Value} {text : String} (h : v.wording = .ok text) :
    buildFault v = (Fault.ofClient text v).toValue := by
  simp only [buildFault, Fault.clientBuilder_of_wording h]

theorem buildFault_of_thrown {v w : Value} (h : v.wording = .error w) : buildFault v = w := by
  simp only [buildFault, Fault.clientBuilder_of_thrown h]

/-- A factory that throws comes to what it throws, whichever strategy it belongs to. -/
theorem accept_error {F : Type} (s : Strategy F) (v : Value) : s.accept (.error v) = .error v := by
  cases s <;> rfl

end Client

namespace Worker

/-- The failure that a worker reports for what was thrown while it made its client. -/
def failure (v : Value) : Fault := (Fault.ofFault? v).getD (Fault.reactor "Worker setup failed" v)

/-- What the owner hears of a worker whose client could not be made: its report, and its exit. One
that has failed itself exits with code 1. -/
def heard (code : Int) (effects : List Effect) : List Startup.Event :=
  let posted := effects.filterMap fun
    | .post m => some (.message m)
    | _ => none
  posted ++ [.exit (if effects.any (· matches .fail _) then 1 else code)]

theorem buildFailed_reported {v m : Value} (h : report (failure v) = .ok m) (w : Worker) :
    w.buildFailed v = ({ w with phase := .failed },
      [.log ⟨.debug, "Client construction failed:", [(failure v).message]⟩, .post m]) := by
  unfold failure at h ⊢
  simp only [buildFailed, h]

theorem buildFailed_unreported {v x : Value} (h : report (failure v) = .error x) (w : Worker) :
    w.buildFailed v = ({ w with phase := .closed },
      [.log ⟨.debug, "Client construction failed:", [(failure v).message]⟩, .fail x,
        .closePort]) := by
  unfold failure at h ⊢
  simp only [buildFailed, h]

theorem clone_buildError (record : Value) : (FromWorker.buildError record).toValue.clone =
    record.clone.map fun copy => (FromWorker.buildError copy).toValue := by
  cases h : record.clone with
  | error w =>
    simp [FromWorker.toValue, Value.clone, Value.cloneFields, h, bind, Except.bind, Except.map]
  | ok copy =>
    simp [FromWorker.toValue, Value.clone, Value.cloneFields, h, bind, Except.bind, pure,
      Except.pure, Except.map]

theorem ofValue_buildError (posted : Value) :
    FromWorker.ofValue? (FromWorker.buildError posted).toValue =
      if Fault.isPosted posted then some (.buildError posted) else none := by
  simp [FromWorker.ofValue?, FromWorker.toValue, Value.isRecord, Value.field, Value.lookup,
    Value.own?]

/-- The owner of a worker that reports a failure rejects with that failure if it understands the
report, else with one of its own. -/
theorem rejects_report (v : Value) (w : Worker) (code : Int) : ∃ fault,
    Startup.Rejects (heard code (w.buildFailed v).2) fault ∧
      ((∃ record posted, (failure v).post = .ok record ∧ record.clone = .ok posted ∧
          Fault.isPosted posted = true ∧ Fault.rebuild posted = .ok fault) ∨
        fault = Startup.unexpectedMessage ∨ fault = Startup.exitedDuring 1) := by
  cases hr : report (failure v) with
  | error x =>
    rw [buildFailed_unreported hr]
    exact ⟨_, Startup.rejects_exit 1, Or.inr (Or.inr rfl)⟩
  | ok m =>
    rw [buildFailed_reported hr]
    obtain ⟨record, hpost, hclone⟩ := Attempt.bind_eq_ok hr
    rw [clone_buildError] at hclone
    cases hc : record.clone with
    | error x =>
      rw [hc] at hclone
      cases hclone
    | ok posted =>
      rw [hc] at hclone
      obtain rfl := Except.ok.inj hclone
      have hread := ofValue_buildError posted
      cases hp : Fault.isPosted posted with
      | true =>
        obtain ⟨_, _, _, _, hf⟩ := Fault.rebuild_of_isPosted hp
        rw [hp, if_pos rfl] at hread
        exact ⟨_, Startup.rejects_buildError hread hf code,
          Or.inl ⟨record, posted, hpost, hc, hp, hf⟩⟩
      | false =>
        rw [hp, if_neg Bool.false_ne_true] at hread
        exact ⟨_, Startup.rejects_unexpected hread code, Or.inr (Or.inl rfl)⟩

/-- What can cross between the threads as it should is what the owner rejects with. -/
theorem rejects_portable {v : Value} (h : (failure v).Portable) (w : Worker) (code : Int) :
    Startup.Rejects (heard code (w.buildFailed v).2) (failure v).relayed := by
  have hreport : report (failure v) = .ok (FromWorker.buildError (failure v).record).toValue := by
    simp only [report, h.post, bind, Except.bind, clone_buildError, h.clone, Except.map]
  have hread := ofValue_buildError (failure v).record
  rw [h.isPosted, if_pos rfl] at hread
  rw [buildFailed_reported hreport]
  exact Startup.rejects_buildError hread h.rebuild code

end Worker

namespace Client

variable {F : Type}

/-- A build on a reactor whose client's factory has thrown. -/
theorem build_of_thrown (s : Strategy F) (v : Value) (reactor : Reactor)
    (fired : List (Nat × Value)) :
    Pipeline.build reactor fired (s.accept (.error v)) = (reactor, .error (buildFault v)) := by
  rw [accept_error]
  rfl

theorem start_of_thrown (s : Strategy F) (v : Value) (w : Worker) (reactor : Reactor) :
    w.start reactor (s.accept (.error v)) =
      ((w.buildFailed (buildFault v)).1, reactor, none, (w.buildFailed (buildFault v)).2) := by
  simp only [Worker.start, build_of_thrown]

/-- The failure that a worker reports for a value that can be put into words. -/
theorem failure_of_wording {v : Value} {text : String} (h : v.wording = .ok text) :
    Worker.failure (buildFault v) = Fault.ofClient text v := by
  rw [buildFault_of_wording h]
  rfl

/-- A report whose cause is undefined is understood as one without a cause. -/
theorem rejects_undefined {v : Value} (hd : v.describe = .ok .undefined) (w : Worker)
    (code : Int) : Startup.Rejects (Worker.heard code (w.buildFailed (buildFault v)).2)
      (Fault.ofClient "undefined" .undefined) := by
  have hw : v.wording = .ok "undefined" := by simp [Value.wording, hd, bind, Except.bind]; rfl
  have hv : v ≠ .undefined := by
    rintro rfl
    cases hd
  have hreport : Worker.report (Worker.failure (buildFault v)) = .ok (FromWorker.buildError
      (.record [("kind", .string FaultKind.clientBuilder.name),
        ("message", .string ("Failed to create the HTTP client: " ++ "undefined")),
        ("cause", .undefined)])).toValue := by
    rw [failure_of_wording hw, Worker.report, Fault.ofClient_post hv hd]
    rfl
  rw [Worker.buildFailed_reported hreport]
  exact Startup.rejects_buildError rfl rfl code

/-- A report whose cause is neither a text nor undefined is not understood. -/
theorem rejects_described {v d : Value} {text : String} (hw : v.wording = .ok text)
    (hd : v.describe = .ok d) (hs : d.isString = false) (hu : d.isUndefined = false) (w : Worker)
    (code : Int) : ∃ fault,
      Startup.Rejects (Worker.heard code (w.buildFailed (buildFault v)).2) fault ∧
        (fault = Startup.unexpectedMessage ∨ fault = Startup.exitedDuring 1) := by
  have hv : v ≠ .undefined := by
    rintro rfl
    obtain rfl := Except.ok.inj hd
    cases hs
  obtain ⟨fault, hfault, ⟨record, posted, hpost, hclone, hposted, _⟩ | hcase⟩ :=
    Worker.rejects_report (buildFault v) w code
  · rw [failure_of_wording hw, Fault.ofClient_post hv hd] at hpost
    obtain rfl := Except.ok.inj hpost
    obtain ⟨hstring, hundefined, _⟩ := Value.clone_keeps (Value.clone_field hclone "cause")
    have hcause : ((posted.field "cause").isUndefined || (posted.field "cause").isString) =
        true := by
      simp only [Fault.isPosted, Bool.and_eq_true] at hposted
      exact hposted.2
    rw [hstring, hundefined] at hcause
    rcases Bool.or_eq_true_iff.mp hcause with h | h
    · exact absurd (hu.symm.trans h) Bool.false_ne_true
    · exact absurd (hs.symm.trans h) Bool.false_ne_true
  · exact ⟨fault, hfault, hcase⟩

/-- What a worker cannot put into words it reports as a failure of its setup, if at all. -/
theorem rejects_thrown {v thrown : Value} (hw : v.wording = .error thrown)
    (hf : Fault.ofFault? thrown = none) (w : Worker) (code : Int) : ∃ fault,
      Startup.Rejects (Worker.heard code (w.buildFailed (buildFault v)).2) fault ∧
        fault.kind = .string FaultKind.reactor.name := by
  obtain ⟨fault, hfault, ⟨record, posted, hpost, hclone, hposted, hrebuild⟩ | rfl | rfl⟩ :=
    Worker.rejects_report (buildFault v) w code
  · refine ⟨fault, hfault, ?_⟩
    obtain ⟨kind, _, hk, _, hf'⟩ := Fault.rebuild_of_isPosted hposted
    rw [hrebuild] at hf'
    obtain rfl := Except.ok.inj hf'
    have hfailure : Worker.failure (buildFault v) = Fault.reactor "Worker setup failed" thrown := by
      rw [buildFault_of_thrown hw, Worker.failure, hf]
      rfl
    rw [hfailure] at hpost
    rw [← hk, Fault.kind_of_copied rfl hpost hclone]
  · exact ⟨_, hfault, rfl⟩
  · exact ⟨_, hfault, rfl⟩

/-- Whatever the factory of a client throws, no task is left behind, and the owner of a worker
rejects once the worker has exited. Where the value can be put into words, the build on the thread
of the caller fails to create the client, with the value for a cause; where it cannot, the build
fails with what that throws instead. Through a worker a value with a text fails to create the client
with that text for a cause, and with none if the value is undefined or an error whose message is.
Of everything else the owner learns only that something has gone wrong. -/
theorem thrown_build (s : Strategy F) (v : Value) (reactor : Reactor)
    (fired : List (Nat × Value)) (w : Worker) (code : Int) :
    (Pipeline.build reactor fired (s.accept (.error v))).1 = reactor ∧
    (w.start reactor (s.accept (.error v))).2.1 = reactor ∧
    (w.start reactor (s.accept (.error v))).2.2.1 = none ∧
    (∀ text, v.wording = .ok text → (Pipeline.build reactor fired (s.accept (.error v))).2 =
      .error (Fault.ofClient text v).toValue) ∧
    (∀ thrown, v.wording = .error thrown →
      (Pipeline.build reactor fired (s.accept (.error v))).2 = .error thrown) ∧
    ∃ fault,
      Startup.Rejects (Worker.heard code (w.start reactor (s.accept (.error v))).2.2.2) fault ∧
      (∀ text, v.HasText text → fault = Fault.ofClient text v.asCause) ∧
      (v.describe = .ok .undefined → fault = Fault.ofClient "undefined" .undefined) ∧
      (∀ d text, v.describe = .ok d → v.wording = .ok text → d.isString = false →
        d.isUndefined = false →
          fault = Startup.unexpectedMessage ∨ fault = Startup.exitedDuring 1) ∧
      ∀ thrown, v.wording = .error thrown → Fault.ofFault? thrown = none →
        fault.kind = .string FaultKind.reactor.name := by
  rw [build_of_thrown, start_of_thrown]
  refine ⟨rfl, rfl, rfl, fun text hw => by rw [buildFault_of_wording hw],
    fun thrown hw => by rw [buildFault_of_thrown hw], ?_⟩
  obtain ⟨fault, hfault, _⟩ := Worker.rejects_report (buildFault v) w code
  refine ⟨fault, hfault, fun text ht => ?_, fun hd => hfault.unique (rejects_undefined hd w code),
    fun d text hd hw hs hu => ?_, fun thrown hw hf => ?_⟩
  · have hportable := Fault.portable_ofClient ht
    rw [← failure_of_wording ht.wording] at hportable
    rw [hfault.unique (Worker.rejects_portable hportable w code), failure_of_wording ht.wording]
    rfl
  · obtain ⟨other, hother, hcase⟩ := rejects_described hw hd hs hu w code
    rwa [hfault.unique hother]
  · obtain ⟨other, hother, hkind⟩ := rejects_thrown hw hf w code
    rwa [hfault.unique hother]

/-- A value without a text makes the build fail with no failure of a transport at all, and through a
worker with one that is not about the client. -/
theorem textless_build :
    (Pipeline.build .new [] ((Strategy.function ()).accept (.error (.bare [])))).2 =
      .error Value.noText ∧
    (∀ fault : Fault, Value.noText ≠ fault.toValue) ∧
    ∃ fault, Startup.Rejects (Worker.heard 0 (Worker.new.start .new
        ((Strategy.exported (F := Unit) "clients" none).accept (.error (.bare [])))).2.2.2) fault ∧
      fault.kind ≠ .string FaultKind.clientBuilder.name := by
  refine ⟨rfl, fun fault => Value.noConfusion, ?_⟩
  have hw : (Value.bare []).wording = .error Value.noText := rfl
  obtain ⟨fault, hfault, hkind⟩ := rejects_thrown hw rfl Worker.new 0
  rw [start_of_thrown]
  exact ⟨fault, hfault, by rw [hkind]; simp [FaultKind.name]⟩

end Client
end Courier
