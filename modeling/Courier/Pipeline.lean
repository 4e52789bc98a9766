import Courier.Client.Strategy
import Courier.Dispatch
import Courier.Reactor

/-!
A dispatch pipeline: the task that runs the dispatch loop and closes the client after it. It is
spawned on a reactor when its client has been made. The client is closed once, when the loop has
ended, however it ended; the pipeline is done when the client has closed, or has failed to.
-/

namespace Courier

inductive Closing where
  | no
  /-- The loop has ended with a result and the client is being closed. -/
  | closing (result : Attempt Unit)
  | done (result : Attempt Unit)
  deriving Inhabited

structure Pipeline where
  dispatch : Dispatch
  closing : Closing
  deriving Inhabited

namespace Pipeline

def new (fired : List (Nat × Value)) : Pipeline := ⟨Dispatch.new fired, .no⟩

/-- Builds a pipeline, given what the factory of its client has come to. The reactor gets a task
once there is a client. -/
def build (reactor : Reactor) (fired : List (Nat × Value)) (made : Attempt Value) :
    Reactor × Attempt (Nat × Pipeline) :=
  match Client.built made with
  | .error v => (reactor, .error v)
  | .ok _ =>
    let (reactor, task) := reactor.spawn
    (reactor, .ok (task, new fired))

/-- The loop has ended: that is logged if nothing went wrong, and the client is closed. -/
def shut (react : Log.Reaction) (p : Pipeline) (result : Attempt Unit) :
    Pipeline × List Effect :=
  match result with
  | .error v => ({ p with closing := .closing (.error v) }, [.closeClient])
  | .ok () =>
    let (d, said, thrown) := p.dispatch.say react ⟨.debug, "Dispatch loop finished", []⟩
    ({ p with
        dispatch := d
        closing := .closing (match thrown with
          | some v => .error v
          | none => .ok ()) }, said ++ [.closeClient])

/-- A step of the dispatch, and what follows from it if it ended the loop. -/
def lift (react : Log.Reaction) (p : Pipeline) (step : Dispatch × List Effect) :
    Pipeline × List Effect :=
  let (d, effects) := step
  let p := { p with dispatch := d }
  match p.closing, d.loop with
  | .no, .ended result =>
    let (p, more) := p.shut react result
    (p, effects ++ more)
  | _, _ => (p, effects)

/-- The client has closed, or failed to. -/
def clientClosed (p : Pipeline) (r : Attempt Unit) : Pipeline × List Effect :=
  match p.closing with
  | .closing result =>
    let result := match r with
      | .error v => .error v
      | .ok () => result
    ({ p with closing := .done result }, [.finished result])
  | _ => (p, [])

end Pipeline
end Courier
