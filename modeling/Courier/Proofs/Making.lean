import Courier.Proofs.Building

/-!
The two strategies of a client against each other: a factory that is handed over as a function, and
the same factory as an export of a module. Only what the module's factory makes is looked at, so the
builds come to the same as long as what the factory makes is a client, and part where it is not.
-/

namespace Courier.Client

/-- What a build on a reactor meets with: what importing a module comes to, what a factory comes to,
and the reactor. -/
structure Place (F : Type) where
  imports : String → Attempt (List (String × F))
  run : F → Attempt Value
  reactor : Reactor
  /-- The signals that have fired, each with its reason. -/
  fired : List (Nat × Value)

/-- Two builds agree: both have a client that can serve as one, or both fail with an error of the
same kind. -/
def Agree (a b : Attempt (Value × Nat × Pipeline)) : Prop :=
  (∃ x y, a = .ok x ∧ b = .ok y ∧ isClient x.1 = true ∧ isClient y.1 = true) ∨
    ∃ v w, a = .error v ∧ b = .error w ∧ v.field "kind" = w.field "kind"

/-- The failure of an export that makes something other than a client. -/
def misfit (exportName : String) : Fault :=
  .ofClient ("Client factory '" ++ exportName ++ "' did not return an HttpClient")
    (notAClient exportName)

theorem buildFault_notAClient (exportName : String) :
    buildFault (notAClient exportName) = (misfit exportName).toValue := buildFault_of_wording rfl

/-- What a factory makes passes the check if it is a client. -/
theorem checked_client {v : Value} (hv : isClient v = true) (name : String) :
    checked name (.ok v) = .ok v := by
  simp [checked, hv, bind, Except.bind, pure, Except.pure]

theorem checked_other {v : Value} (hv : isClient v = false) (name : String) :
    checked name (.ok v) = .error (notAClient name) := by
  simp [checked, hv, bind, Except.bind, throw, throwThe, MonadExceptOf.throw]

namespace Place

variable {F : Type} {p : Place F} {s : Strategy F} {module : String} {exportName : Option String}
  {factory : F} {v : Value}

/-- The factory of a strategy is found and runs. -/
def make (p : Place F) (s : Strategy F) : Attempt Value := do
  let factory ← s.factory p.imports
  s.accept (p.run factory)

/-- A build: what becomes of the reactor, and the client with the task and the pipeline that it is
made for. -/
def build (p : Place F) (s : Strategy F) : Reactor × Attempt (Value × Nat × Pipeline) :=
  let (reactor, result) := Pipeline.build p.reactor p.fired (p.make s)
  (reactor, do
    let client ← built (p.make s)
    let (task, pipeline) ← result
    return (client, task, pipeline))

/-- A module has the factory for its export of that name. -/
def Exports (p : Place F) (module exportName : String) (factory : F) : Prop :=
  ∃ exports, p.imports module = .ok exports ∧
    exports.find? (·.1 = exportName) = some (exportName, factory)

/-- An export that is found makes what its factory makes, if that is a client. -/
theorem make_exported (h : p.Exports module (exportName.getD defaultExport) factory) :
    p.make (.exported module exportName) =
      checked (exportName.getD defaultExport) (p.run factory) := by
  obtain ⟨exports, hi, hf⟩ := h
  simp only [make, Strategy.factory, hi, hf, bind, Except.bind, pure, Except.pure]
  rfl

/-- A build goes on with whatever its strategy makes. -/
theorem build_made (h : p.make s = .ok v) :
    p.build s = (p.reactor.spawn.1, .ok (v, p.reactor.spawn.2, Pipeline.new p.fired)) := by
  simp only [build, h]
  rfl

/-- A build whose strategy makes nothing leaves its reactor alone. -/
theorem build_failed (h : p.make s = .error v) :
    p.build s = (p.reactor, .error (buildFault v)) := by
  simp only [build, h]
  rfl

/-- The function's build goes on with whatever the factory makes. -/
theorem function_made (h : p.run factory = .ok v) : p.build (.function factory) =
    (p.reactor.spawn.1, .ok (v, p.reactor.spawn.2, Pipeline.new p.fired)) := build_made h

theorem function_failed (h : p.run factory = .error v) :
    p.build (.function factory) = (p.reactor, .error (buildFault v)) := build_failed h

/-- The module's build goes on with a client. -/
theorem exported_made (he : p.Exports module (exportName.getD defaultExport) factory)
    (h : p.run factory = .ok v) (hv : isClient v = true) : p.build (.exported module exportName) =
      (p.reactor.spawn.1, .ok (v, p.reactor.spawn.2, Pipeline.new p.fired)) := by
  apply build_made
  rw [make_exported he, h, checked_client hv]

theorem exported_failed (he : p.Exports module (exportName.getD defaultExport) factory)
    (h : p.run factory = .error v) :
    p.build (.exported module exportName) = (p.reactor, .error (buildFault v)) := by
  apply build_failed
  rw [make_exported he, h]
  rfl

/-- The module's build goes on with nothing but a client. -/
theorem exported_other (he : p.Exports module (exportName.getD defaultExport) factory)
    (h : p.run factory = .ok v) (hv : isClient v = false) : p.build (.exported module exportName) =
      (p.reactor, .error (misfit (exportName.getD defaultExport)).toValue) := by
  rw [← buildFault_notAClient]
  apply build_failed
  rw [make_exported he, h, checked_other hv]

/-- A factory that makes a client, or throws, does so whether it is handed over as a function or
found in a module: on the same reactor both builds fail with the same error, or have the same client
for the same task. If it makes anything else, the function's build goes on with that, while the
module's fails to create the client and leaves no task. -/
theorem strategies_agree (p : Place F)
    (he : p.Exports module (exportName.getD defaultExport) factory) :
    ((∀ v, p.run factory = .ok v → isClient v = true) →
      p.build (.function factory) = p.build (.exported module exportName) ∧
        Agree (p.build (.function factory)).2 (p.build (.exported module exportName)).2) ∧
    (∀ v, p.run factory = .error v →
      p.build (.function factory) = (p.reactor, .error (buildFault v))) ∧
    (∀ v, p.run factory = .ok v → p.build (.function factory) =
      (p.reactor.spawn.1, .ok (v, p.reactor.spawn.2, Pipeline.new p.fired))) ∧
    ∀ v, p.run factory = .ok v → isClient v = false → p.build (.exported module exportName) =
      (p.reactor, .error (misfit (exportName.getD defaultExport)).toValue) := by
  refine ⟨?_, fun v => function_failed, fun v => function_made, fun v => exported_other he⟩
  intro hc
  cases h : p.run factory with
  | error v =>
    rw [function_failed h, exported_failed he h]
    refine ⟨rfl, Or.inr ⟨_, _, rfl, rfl, rfl⟩⟩
  | ok v =>
    have hv := hc v h
    rw [function_made h, exported_made he h hv]
    refine ⟨rfl, Or.inl ⟨_, _, rfl, rfl, hv, hv⟩⟩

/-- A place with one module, of one export. -/
def lone (made : Attempt Value) : Place Unit :=
  ⟨fun _ => .ok [(defaultExport, ())], fun _ => made, .new, []⟩

/-- A factory that throws a value without a text: what both builds fail with is that. -/
theorem textless_agree :
    (lone (.error (.bare []))).build (.function ()) =
        (lone (.error (.bare []))).build (.exported "clients" none) ∧
      (lone (.error (.bare []))).build (.function ()) = (.new, .error Value.noText) := by
  have he : (lone (.error (.bare []))).Exports "clients"
    ((none : Option String).getD defaultExport) () := ⟨_, rfl, rfl⟩
  obtain ⟨hagree, hfailed, _⟩ := strategies_agree (lone (.error (.bare []))) he
  constructor
  · exact (hagree fun v hv => nomatch hv).1
  · exact hfailed _ rfl

/-- A factory that makes an empty record: the function's build has it for its client, and the
module's fails. -/
theorem strategies_part :
    ¬ Agree ((lone (.ok (.record []))).build (.function ())).2
      ((lone (.ok (.record []))).build (.exported "clients" none)).2 := by
  have he : (lone (.ok (.record []))).Exports "clients" ((none : Option String).getD defaultExport)
    () := ⟨_, rfl, rfl⟩
  rw [function_made rfl, exported_other he rfl rfl]
  rintro (⟨_, _, _, hb, _⟩ | ⟨_, _, ha, _⟩)
  · cases hb
  · cases ha

end Place
end Courier.Client
