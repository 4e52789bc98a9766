import Courier.Log.Level

/-!
Reactors: the tasks of one event loop. A task is active from the call that spawns it until it has
settled; a failing task is logged. `idle` waits for the tasks that are active now, then looks
again, and ends when none is left.
-/

namespace Courier

structure Reactor where
  /-- The number of tasks spawned so far, which is the number of the next one. -/
  spawned : Nat
  /-- The tasks that have not settled. -/
  active : List Nat
  /-- The number of `idle` calls so far. -/
  idlers : Nat
  /-- For every `idle` call that goes on, the tasks that it waits for. -/
  waiting : List (Nat × List Nat)
  deriving Inhabited

namespace Reactor

def new : Reactor := ⟨0, [], 0, []⟩

/-- The task starts later, never in this call. -/
def spawn (r : Reactor) : Reactor × Nat :=
  ({ r with spawned := r.spawned + 1, active := r.active ++ [r.spawned] }, r.spawned)

/-- What a failed task leaves in the log. -/
def complaint (result : Attempt Unit) : Option Log.Entry :=
  match result with
  | .ok () => none
  | .error v => some ⟨.error, "Reactor task failed:", [v]⟩

/-- A task has settled. Gives the `idle` calls that have nothing left to wait for. -/
def retire (r : Reactor) (task : Nat) : Reactor × List Nat :=
  let waiting := r.waiting.map fun (i, tasks) => (i, tasks.erase task)
  let ready := (waiting.filter (·.2.isEmpty)).map (·.1)
  ({ r with
      active := r.active.erase task
      waiting := waiting.filter (!·.2.isEmpty) }, ready)

/-- One look of an `idle` call: it ends, or it waits for the tasks that are active now. -/
def look (r : Reactor) (idler : Nat) : Reactor × Bool :=
  if r.active.isEmpty then (r, true)
  else ({ r with waiting := r.waiting ++ [(idler, r.active)] }, false)

/-- A new `idle` call with its first look. -/
def idle (r : Reactor) : Reactor × Nat × Bool :=
  let (r', ended) := { r with idlers := r.idlers + 1 }.look r.idlers
  (r', r.idlers, ended)

end Reactor
end Courier
