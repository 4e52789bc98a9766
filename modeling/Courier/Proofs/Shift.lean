import Courier.Reactor
import Mathlib.Tactic

/-!
Reactors at work. Tasks are spawned at any time, also by other tasks and while `idle` calls wait;
their bodies begin later, and come to their ends in any order or never. A reactor counts the tasks
whose processing is not over, and an `idle` call ends only when there is none.
-/

namespace Courier.Reactor

/-- How far a task is. -/
inductive Stage where
  /-- Spawned; its body has not begun. -/
  | queued
  | running
  /-- Its body has come to its end, or has thrown. -/
  | ended (result : Attempt Unit)
  /-- If it failed, the logger has been told. -/
  | heard (result : Attempt Unit)
  /-- Its processing is over. -/
  | retired (result : Attempt Unit)

namespace Stage

/-- How often its body has begun. -/
def begun : Stage → Nat
  | .queued => 0
  | _ => 1

def isActive : Stage → Bool
  | .retired _ => false
  | _ => true

/-- What the log holds of a task. -/
def logged : Stage → List Log.Entry
  | .heard (.error v) | .retired (.error v) => [⟨.error, "Reactor task failed:", [v]⟩]
  | _ => []

theorem logged_heard (r : Attempt Unit) : (Stage.heard r).logged = (complaint r).toList := by
  cases r <;> rfl

theorem logged_retired (r : Attempt Unit) : (Stage.heard r).logged = (Stage.retired r).logged := by
  cases r <;> rfl

end Stage

/-- A reactor at work. -/
structure Shift where
  reactor : Reactor
  stages : Array Stage
  /-- The `idle` calls that have waited for all they saw, and look again. -/
  due : List Nat

namespace Shift

/-- What happens on the event loop. An event that is not possible changes nothing. -/
inductive Event where
  /-- Somebody spawns a task: a caller, the body of a task or a logger that is told of one. -/
  | spawn
  | begin (task : Nat)
  | finish (task : Nat) (result : Attempt Unit)
  | hear (task : Nat)
  | retire (task : Nat)
  | idle
  | look (idler : Nat)

def Event.task? : Event → Option Nat
  | .begin k | .finish k _ | .hear k | .retire k => some k
  | _ => none

inductive Effect where
  /-- The body of a task begins. -/
  | body (task : Nat)
  | log (task : Nat) (entry : Log.Entry)
  /-- An `idle` call has looked, and leaves its loop or goes on. -/
  | looked (idler : Nat) (ended : Bool)

def start : Shift := ⟨.new, #[], []⟩

def move (s : Shift) (k : Nat) (stage : Stage) : Shift :=
  { s with stages := s.stages.setIfInBounds k stage }

def step (s : Shift) : Event → Shift × List Effect
  | .spawn => ({ s with reactor := s.reactor.spawn.1, stages := s.stages.push .queued }, [])
  | .begin k =>
    match s.stages[k]? with
    | some .queued => (s.move k .running, [.body k])
    | _ => (s, [])
  | .finish k r =>
    match s.stages[k]? with
    | some .running => (s.move k (.ended r), [])
    | _ => (s, [])
  | .hear k =>
    match s.stages[k]? with
    | some (.ended r) => (s.move k (.heard r), (complaint r).toList.map (.log k))
    | _ => (s, [])
  | .retire k =>
    match s.stages[k]? with
    | some (.heard r) =>
      let (reactor, ready) := s.reactor.retire k
      ({ s.move k (.retired r) with reactor := reactor, due := s.due ++ ready }, [])
    | _ => (s, [])
  | .idle =>
    let (reactor, i, ended) := s.reactor.idle
    ({ s with reactor := reactor }, [.looked i ended])
  | .look i =>
    if i ∈ s.due then
      let (reactor, ended) := s.reactor.look i
      ({ s with reactor := reactor, due := s.due.erase i }, [.looked i ended])
    else (s, [])

def run (s : Shift) (events : List Event) : Shift := events.foldl (fun s e => (s.step e).1) s

/-- What comes of each event, in order. -/
def trace : Shift → List Event → List Effect
  | _, [] => []
  | s, e :: events => (s.step e).2 ++ trace (s.step e).1 events

/-- The tasks whose bodies have begun. -/
def bodies (past : List Effect) : List Nat :=
  past.filterMap fun
    | .body k => some k
    | _ => none

/-- What was logged of a task. -/
def entries (k : Nat) (past : List Effect) : List Log.Entry :=
  past.filterMap fun
    | .log j entry => if j = k then some entry else none
    | _ => none

/-- The `idle` calls that have left their loops. -/
def gone (past : List Effect) : List Nat :=
  past.filterMap fun
    | .looked i true => some i
    | _ => none

variable {s t : Shift} {e : Event} {effects past : List Effect} {j k : Nat}

theorem run_concat (s : Shift) (events : List Event) (e : Event) :
    s.run (events ++ [e]) = ((s.run events).step e).1 := by
  simp [run]

theorem trace_concat (s : Shift) (events : List Event) (e : Event) :
    s.trace (events ++ [e]) = s.trace events ++ ((s.run events).step e).2 := by
  induction events generalizing s with
  | nil => simp [trace, run]
  | cons e' events ih => simp [trace, ih, run]

/-! What one event comes to -/

/-- What may happen, and what comes of it. -/
inductive Step (s : Shift) : Event → Shift → List Effect → Prop where
  | spawn : s.Step .spawn
    { s with reactor := s.reactor.spawn.1, stages := s.stages.push .queued } []
  | begin {k : Nat} (h : s.stages[k]? = some .queued) :
    s.Step (.begin k) (s.move k .running) [.body k]
  | finish {k : Nat} {r : Attempt Unit} (h : s.stages[k]? = some .running) :
    s.Step (.finish k r) (s.move k (.ended r)) []
  | hear {k : Nat} {r : Attempt Unit} (h : s.stages[k]? = some (.ended r)) :
    s.Step (.hear k) (s.move k (.heard r)) ((complaint r).toList.map (.log k))
  | retire {k : Nat} {r : Attempt Unit} (h : s.stages[k]? = some (.heard r)) :
    s.Step (.retire k)
      { s.move k (.retired r) with
        reactor := (s.reactor.retire k).1
        due := s.due ++ (s.reactor.retire k).2 } []
  | idle_ended (h : s.reactor.active = []) :
    s.Step .idle { s with reactor.idlers := s.reactor.idlers + 1 } [.looked s.reactor.idlers true]
  | idle_waits (h : s.reactor.active ≠ []) :
    s.Step .idle
      { s with
        reactor.idlers := s.reactor.idlers + 1
        reactor.waiting := s.reactor.waiting ++ [(s.reactor.idlers, s.reactor.active)] }
      [.looked s.reactor.idlers false]
  | look_ended {i : Nat} (hd : i ∈ s.due) (h : s.reactor.active = []) :
    s.Step (.look i) { s with due := s.due.erase i } [.looked i true]
  | look_waits {i : Nat} (hd : i ∈ s.due) (h : s.reactor.active ≠ []) :
    s.Step (.look i)
      { s with
        reactor.waiting := s.reactor.waiting ++ [(i, s.reactor.active)]
        due := s.due.erase i } [.looked i false]
  /-- An event that is not possible. -/
  | aside {e : Event} (hs : e ≠ .spawn) : s.Step e s []

theorem step_task (s : Shift) (e : Event) : s.Step e (s.step e).1 (s.step e).2 := by
  cases e with
  | spawn => exact .spawn
  | begin k =>
    simp only [step]
    split
    · exact .begin ‹_›
    · exact .aside (by simp)
  | finish k r =>
    simp only [step]
    split
    · exact .finish ‹_›
    · exact .aside (by simp)
  | hear k =>
    simp only [step]
    split
    · exact .hear ‹_›
    · exact .aside (by simp)
  | retire k =>
    simp only [step]
    split
    · exact .retire ‹_›
    · exact .aside (by simp)
  | idle =>
    by_cases ha : s.reactor.active = []
    · simpa [step, Reactor.idle, look, ha] using Step.idle_ended ha
    · simpa [step, Reactor.idle, look, ha] using Step.idle_waits ha
  | look i =>
    by_cases hd : i ∈ s.due
    · by_cases ha : s.reactor.active = []
      · simpa [step, look, hd, ha] using Step.look_ended hd ha
      · simpa [step, look, hd, ha] using Step.look_waits hd ha
    · simpa [step, hd] using Step.aside (s := s) (e := .look i) (by simp)

/-! Reading the stages -/

section
variable {β : Type} {a : Stage} {g : Stage → β} {d : β}

theorem stage_move (h : s.stages[k]? = some a) (b : Stage) (j : Nat) :
    (s.move k b).stages[j]? = if j = k then some b else s.stages[j]? := by
  obtain ⟨hlt, -⟩ := Array.getElem?_eq_some_iff.mp h
  simp only [move, Array.getElem?_setIfInBounds, eq_comm (a := j)]
  by_cases hj : k = j
  · subst hj
    simp [hlt]
  · simp [hj]

/-- What is read alike before and after is read alike everywhere. -/
theorem elim_move (h : s.stages[k]? = some a) (b : Stage) (hg : g a = g b) (j : Nat) :
    ((s.move k b).stages[j]?).elim d g = (s.stages[j]?).elim d g := by
  rw [stage_move h]
  by_cases hj : j = k
  · subst hj
    simp [h, hg]
  · simp [hj]

theorem elim_push (hg : g .queued = d) (j : Nat) :
    ((s.stages.push .queued)[j]?).elim d g = (s.stages[j]?).elim d g := by
  rw [Array.getElem?_push]
  split
  · rename_i hj
    simp [hj, hg]
  · rfl

end

/-- The processing of a task is not over. -/
def isActive (s : Shift) (k : Nat) : Bool := (s.stages[k]?).elim false (·.isActive)

def begun (s : Shift) (k : Nat) : Nat := (s.stages[k]?).elim 0 (·.begun)

def logged (s : Shift) (k : Nat) : List Log.Entry := (s.stages[k]?).elim [] (·.logged)

section
variable {a : Stage} (h : s.stages[k]? = some a) (b : Stage)
include h

theorem isActive_move (hb : a.isActive = b.isActive) (j : Nat) :
    (s.move k b).isActive j = s.isActive j := elim_move h b hb j

theorem begun_move (hb : a.begun = b.begun) (j : Nat) :
    (s.move k b).begun j = s.begun j := elim_move h b hb j

theorem logged_move (hb : a.logged = b.logged) (j : Nat) :
    (s.move k b).logged j = s.logged j := elim_move h b hb j

end

/-! The tasks that are active -/

/-- The reactor knows the tasks that are active, and who waits does so for some of them. -/
structure Sound (s : Shift) : Prop where
  spawned : s.reactor.spawned = s.stages.size
  active : s.reactor.active = (List.range s.stages.size).filter s.isActive
  waits : ∀ w ∈ s.reactor.waiting, w.2 ≠ [] ∧ w.2.Nodup ∧ ∀ k ∈ w.2, s.isActive k = true

theorem sound_start : start.Sound := ⟨rfl, rfl, by simp [start, Reactor.new]⟩

theorem Sound.nodup (h : s.Sound) : s.reactor.active.Nodup := h.active ▸ List.nodup_range.filter _

theorem Sound.mem_active (h : s.Sound) : k ∈ s.reactor.active ↔ s.isActive k = true := by
  rw [h.active, List.mem_filter, List.mem_range, and_iff_right_iff_imp]
  intro ha
  by_contra hlt
  simp [isActive, Array.getElem?_eq_none (Nat.not_lt.mp hlt)] at ha

/-- A task that goes on is as active as before. -/
theorem Sound.move {a b : Stage} (h : s.Sound) (hk : s.stages[k]? = some a)
    (ha : a.isActive = b.isActive) : (s.move k b).Sound where
  spawned := by simpa [Shift.move] using h.spawned
  active := by
    have hsame : (s.move k b).isActive = s.isActive := funext (isActive_move hk b ha)
    rw [hsame]
    simpa [Shift.move] using h.active
  waits w hw := by
    obtain ⟨hne, hnd, hall⟩ := h.waits w hw
    exact ⟨hne, hnd, fun j hj => (isActive_move hk b ha j).trans (hall j hj)⟩

theorem Sound.spawn (h : s.Sound) :
    ({ s with reactor := s.reactor.spawn.1, stages := s.stages.push .queued } : Shift).Sound := by
  set t : Shift := { s with reactor := s.reactor.spawn.1, stages := s.stages.push .queued }
  have hold (j : Nat) (hj : j < s.stages.size) : t.isActive j = s.isActive j := by
    simp [isActive, t, Array.getElem?_push, Nat.ne_of_lt hj]
  have hnew : t.isActive s.stages.size = true := by simp [isActive, t, Stage.isActive]
  refine ⟨by simp [t, Reactor.spawn, h.spawned], ?_, fun w hw => ?_⟩
  · have hactive : t.reactor.active = s.reactor.active ++ [s.stages.size] := by
      simp [t, Reactor.spawn, h.spawned]
    have hrange : (List.range s.stages.size).filter t.isActive =
        (List.range s.stages.size).filter s.isActive :=
      List.filter_congr fun j hj => hold j (List.mem_range.mp hj)
    have hsize : t.stages.size = s.stages.size + 1 := by simp [t]
    rw [hactive, hsize, List.range_succ, List.filter_append, hrange, ← h.active]
    simp [hnew]
  · obtain ⟨hne, hnd, hall⟩ := h.waits w hw
    refine ⟨hne, hnd, fun j hj => ?_⟩
    have hlt : j < s.stages.size := by
      have hmem := h.mem_active.mpr (hall j hj)
      rw [h.active] at hmem
      exact List.mem_range.mp (List.mem_of_mem_filter hmem)
    rw [hold j hlt]
    exact hall j hj

theorem Sound.retire {r : Attempt Unit} (h : s.Sound) (hk : s.stages[k]? = some (.heard r)) :
    ({ s.move k (.retired r) with
      reactor := (s.reactor.retire k).1
      due := s.due ++ (s.reactor.retire k).2 } : Shift).Sound := by
  have hsame (j : Nat) : (s.move k (.retired r)).isActive j = (s.isActive j && j != k) := by
    rw [isActive, stage_move hk]
    by_cases hj : j = k <;> simp [hj, isActive, Stage.isActive]
  refine ⟨by simpa [Shift.move, Reactor.retire] using h.spawned, ?_, fun w hw => ?_⟩
  · have herase : s.reactor.active.erase k = (List.range s.stages.size).filter
        fun j => s.isActive j && j != k := by
      rw [h.nodup.erase_eq_filter, h.active, List.filter_filter]
      simp [Bool.and_comm]
    have hsize : (s.move k (.retired r)).stages.size = s.stages.size := by simp [Shift.move]
    show s.reactor.active.erase k = _
    rw [herase, hsize]
    exact (List.filter_congr fun j _ => hsame j).symm
  · simp only [Reactor.retire, List.mem_filter, List.mem_map] at hw
    obtain ⟨⟨v, hv, rfl⟩, hne⟩ := hw
    obtain ⟨-, hnd, hall⟩ := h.waits v hv
    refine ⟨by simpa using hne, hnd.erase k, fun j hj => ?_⟩
    obtain ⟨hjk, hj⟩ := hnd.mem_erase_iff.mp hj
    show (s.move k (.retired r)).isActive j = true
    simp [hsame, hall j hj, hjk]

/-- A call that goes on waits for what is active now. -/
theorem Sound.wait (h : s.Sound) (ha : s.reactor.active ≠ []) (i : Nat) :
    ∀ w ∈ s.reactor.waiting ++ [(i, s.reactor.active)],
      w.2 ≠ [] ∧ w.2.Nodup ∧ ∀ k ∈ w.2, s.isActive k = true := by
  intro w hw
  rcases List.mem_append.mp hw with hw | hw
  · exact h.waits w hw
  · obtain rfl := List.mem_singleton.mp hw
    exact ⟨ha, h.nodup, fun k hk => h.mem_active.mp hk⟩

theorem Step.sound (hs : s.Step e t effects) (h : s.Sound) : t.Sound := by
  cases hs with
  | spawn => exact h.spawn
  | begin hk => exact h.move hk rfl
  | finish hk => exact h.move hk rfl
  | hear hk => exact h.move hk rfl
  | retire hk => exact h.retire hk
  | idle_ended => exact ⟨h.spawned, h.active, h.waits⟩
  | idle_waits ha => exact ⟨h.spawned, h.active, h.wait ha _⟩
  | look_ended => exact ⟨h.spawned, h.active, h.waits⟩
  | look_waits _ ha => exact ⟨h.spawned, h.active, h.wait ha _⟩
  | aside => exact h

/-! What has come of it -/

theorem bodies_append (past effects : List Effect) :
    bodies (past ++ effects) = bodies past ++ bodies effects := List.filterMap_append

theorem entries_append (k : Nat) (past effects : List Effect) :
    entries k (past ++ effects) = entries k past ++ entries k effects := List.filterMap_append

theorem gone_append (past effects : List Effect) :
    gone (past ++ effects) = gone past ++ gone effects := List.filterMap_append

theorem bodies_hear (k : Nat) (r : Attempt Unit) :
    bodies ((complaint r).toList.map (.log k)) = [] := by
  cases complaint r <;> rfl

theorem gone_hear (k : Nat) (r : Attempt Unit) :
    gone ((complaint r).toList.map (.log k)) = [] := by
  cases complaint r <;> rfl

/-- What was logged of a task when the logger hears of one. -/
theorem entries_hear (j k : Nat) (r : Attempt Unit) :
    entries j ((complaint r).toList.map (.log k)) =
      if j = k then (complaint r).toList else [] := by
  cases complaint r with
  | none => simp [entries]
  | some entry => by_cases hj : j = k <;> simp [entries, hj, eq_comm]

/-- How far the tasks are tells which bodies have begun and what was logged, and every `idle` call
has left its loop, looks again or waits. -/
structure Told (s : Shift) (past : List Effect) : Prop where
  bodies (k : Nat) : (bodies past).count k = s.begun k
  logs (k : Nat) : entries k past = s.logged k
  idlers : (gone past ++ s.due ++ s.reactor.waiting.map (·.1)).Perm (List.range s.reactor.idlers)

theorem told_start : start.Told [] where
  bodies k := by simp [start, Shift.bodies, begun]
  logs k := by simp [start, entries, logged]
  idlers := .nil

theorem Step.begun_eq (hs : s.Step e t effects) (k : Nat) :
    t.begun k = s.begun k + (bodies effects).count k := by
  cases hs with
  | spawn => exact elim_push (s := s) (g := Stage.begun) rfl k
  | @begin j hk =>
    rw [begun, begun, stage_move hk]
    by_cases hj : k = j
    · subst hj
      simp [hk, bodies, Stage.begun]
    · simp [hj, bodies, Ne.symm hj]
  | @finish j r hk => exact begun_move hk (.ended r) rfl k
  | @hear j r hk =>
    rw [bodies_hear]
    exact begun_move hk (.heard r) rfl k
  | @retire j r hk => exact begun_move hk (.retired r) rfl k
  | _ => rfl

theorem Step.logged_eq (hs : s.Step e t effects) (k : Nat) :
    t.logged k = s.logged k ++ entries k effects := by
  cases hs with
  | spawn =>
    exact (elim_push (s := s) (g := Stage.logged) rfl k).trans (List.append_nil _).symm
  | begin hk => exact (logged_move hk .running rfl k).trans (List.append_nil _).symm
  | @finish j r hk => exact (logged_move hk (.ended r) rfl k).trans (List.append_nil _).symm
  | @hear j r hk =>
    rw [entries_hear, logged, logged, stage_move hk]
    by_cases hj : k = j
    · subst hj
      have hbefore : (Stage.ended r).logged = [] := rfl
      simp [hk, Stage.logged_heard, hbefore]
    · simp [hj]
  | @retire j r hk =>
    have hsame := logged_move hk (.retired r) (Stage.logged_retired r) k
    exact hsame.trans (List.append_nil _).symm
  | _ => exact (List.append_nil _).symm

/-- The calls that a retirement sets free are no longer among those that wait. -/
theorem retire_perm (r : Reactor) (k : Nat) :
    ((r.retire k).2 ++ (r.retire k).1.waiting.map (·.1)).Perm (r.waiting.map (·.1)) := by
  set erased := r.waiting.map fun w => (w.1, w.2.erase k)
  have hsplit : (erased.filter (·.2.isEmpty) ++ erased.filter (!·.2.isEmpty)).Perm erased :=
    List.filter_append_perm _ _
  have hmap := hsplit.map (·.1)
  rw [List.map_append] at hmap
  have herased : erased.map (·.1) = r.waiting.map (·.1) := by
    simp [erased, Function.comp_def]
  exact herased ▸ hmap

theorem idlers_step (hs : s.Step e t effects) (h : s.Told past) :
    (gone (past ++ effects) ++ t.due ++ t.reactor.waiting.map (·.1)).Perm
      (List.range t.reactor.idlers) := by
  have hold := h.idlers
  rw [gone_append]
  cases hs with
  | hear => simpa [gone_hear, Shift.move] using hold
  | @retire j r hk =>
    have hperm := (retire_perm s.reactor j).append_left (gone past ++ s.due)
    simpa [gone, Reactor.retire] using hperm.trans hold
  | idle_ended =>
    rw [List.range_succ]
    refine List.Perm.trans ?_ (hold.append_right _)
    have hcomm : ([s.reactor.idlers] ++ (s.due ++ s.reactor.waiting.map (·.1))).Perm
        (s.due ++ s.reactor.waiting.map (·.1) ++ [s.reactor.idlers]) := List.perm_append_comm
    simpa [gone] using hcomm.append_left (gone past)
  | idle_waits =>
    rw [List.range_succ]
    simpa [gone] using hold.append_right [s.reactor.idlers]
  | look_ended hd =>
    have hperm := (List.perm_cons_erase hd).symm
    refine List.Perm.trans ?_ hold
    simpa [gone] using (hperm.append_right _).append_left (gone past)
  | @look_waits i hd =>
    have hperm := (List.perm_cons_erase hd).symm
    refine List.Perm.trans ?_ hold
    have hcomm : (s.due.erase i ++ (s.reactor.waiting.map (·.1) ++ [i])).Perm
        (i :: s.due.erase i ++ s.reactor.waiting.map (·.1)) := by
      rw [← List.append_assoc]
      exact List.perm_append_singleton _ _
    simpa [gone] using (hcomm.trans (hperm.append_right _)).append_left (gone past)
  | _ => simpa [gone, Shift.move, Reactor.spawn] using hold

theorem Step.told (hs : s.Step e t effects) (h : s.Told past) : t.Told (past ++ effects) :=
  ⟨fun k => by rw [bodies_append, List.count_append, h.bodies, hs.begun_eq],
    fun k => by rw [entries_append, h.logs, hs.logged_eq], idlers_step hs h⟩

theorem told_run (events : List Event) :
    (start.run events).Sound ∧ (start.run events).Told (start.trace events) := by
  induction events using List.reverseRecOn with
  | nil => exact ⟨sound_start, told_start⟩
  | append_singleton events e ih =>
    have hs := (start.run events).step_task e
    rw [run_concat, trace_concat]
    exact ⟨hs.sound ih.1, hs.told ih.2⟩

/-! What a reactor promises -/

theorem Step.alone (hs : s.Step e t effects) (hk : k < s.stages.size) (he : e.task? ≠ some k) :
    t.stages[k]? = s.stages[k]? := by
  have hne {j : Nat} (hj : some j ≠ some k) : k ≠ j := fun h => hj (h ▸ rfl)
  cases hs with
  | spawn => simp [Array.getElem?_push, Nat.ne_of_lt hk]
  | begin h => simp [stage_move h, hne he]
  | finish h => simp [stage_move h, hne he]
  | hear h => simp [stage_move h, hne he]
  | @retire j r h =>
    have hstage := stage_move h (.retired r) k
    simpa [hne he] using hstage
  | _ => rfl

theorem Step.body_mem (hs : s.Step e t effects) (h : .body k ∈ effects) :
    e = .begin k ∧ s.stages[k]? = some .queued := by
  cases hs with
  | begin hq =>
    obtain rfl := Effect.body.inj (List.mem_singleton.mp h)
    exact ⟨rfl, hq⟩
  | _ => simp at h

/-- The logger is told of a task when it hears of that task. -/
theorem Step.log_mem (hs : s.Step e t effects) {entry : Log.Entry} (h : .log k entry ∈ effects) :
    e.task? = some k := by
  cases hs with
  | @hear j r =>
    obtain ⟨_, -, he⟩ := List.mem_map.mp h
    exact congrArg some (Effect.log.inj he).1
  | _ => simp at h

theorem Step.looked_iff (hs : s.Step e t effects) {i : Nat} {ended : Bool}
    (h : .looked i ended ∈ effects) : ended = true ↔ s.reactor.active = [] := by
  cases hs with
  | hear => simp at h
  | _ => simp_all

/-- Where no task is active none becomes so, unless one is spawned. -/
theorem Step.active_nil (hs : s.Step e t effects) (he : e ≠ .spawn) (ha : s.reactor.active = []) :
    t.reactor.active = [] := by
  cases hs with
  | spawn => exact absurd rfl he
  | retire => simp [Reactor.retire, ha]
  | _ => exact ha

theorem calm_of_active_nil (ha : s.reactor.active = []) {more : List Event}
    (hm : Event.spawn ∉ more) (i : Nat) : Effect.looked i false ∉ s.trace more := by
  induction more generalizing s with
  | nil => exact List.not_mem_nil
  | cons e more ih =>
    obtain ⟨he, hm⟩ := List.ne_and_not_mem_of_not_mem_cons hm
    have hs := s.step_task e
    rw [trace, List.mem_append, not_or]
    refine ⟨fun hl => ?_, ih (hs.active_nil (Ne.symm he) ha) hm⟩
    exact Bool.false_ne_true ((hs.looked_iff hl).mpr ha)

theorem length_filter_range (p : Stage → Bool) (stages : List Stage) :
    ((List.range stages.length).filter fun k => (stages[k]?).elim false p).length =
      stages.countP p := by
  induction stages using List.reverseRecOn with
  | nil => rfl
  | append_singleton stages a ih =>
    have hold : (List.range stages.length).filter (fun k => ((stages ++ [a])[k]?).elim false p) =
        (List.range stages.length).filter fun k => (stages[k]?).elim false p :=
      List.filter_congr fun k hk => by rw [List.getElem?_append_left (List.mem_range.mp hk)]
    rw [List.length_append, List.length_singleton, List.range_succ, List.filter_append, hold,
      List.length_append, ih, List.countP_append]
    cases hp : p a <;> simp [hp]

theorem Sound.active_length (h : s.Sound) :
    s.reactor.active.length = s.stages.toList.countP (·.isActive) := by
  have hview : s.isActive = fun k => (s.stages.toList[k]?).elim false (·.isActive) :=
    funext fun k => by rw [isActive, Array.getElem?_toList]
  rw [h.active, hview, ← Array.length_toList]
  exact length_filter_range _ _

theorem Sound.inactive (h : s.Sound) (ha : s.reactor.active = []) :
    ∀ stage ∈ s.stages, stage.isActive = false := by
  have hcount := h.active_length
  rw [ha, List.length_nil, eq_comm, List.countP_eq_zero] at hcount
  intro stage hm
  simpa using hcount stage (by simpa using hm)

/-- A reactor at work, after what has come of it so far. -/
structure Accounted (s : Shift) (past : List Effect) : Prop where
  /-- It counts the tasks whose processing is not over. -/
  activeTasks : s.reactor.active.length = s.stages.toList.countP (·.isActive)
  active (k : Nat) : k ∈ s.reactor.active ↔ s.isActive k = true
  /-- A body begins in an event of its own, which is no call of `spawn`, for a task that was spawned
  before it; and it begins once. -/
  begins (e : Event) (k : Nat) : .body k ∈ (s.step e).2 →
    e = .begin k ∧ s.stages[k]? = some .queued
  bodies (k : Nat) : (bodies past).count k = s.begun k
  /-- A task that failed is logged once, with what it failed with. -/
  logs (k : Nat) : entries k past = s.logged k
  /-- What happens to one task does nothing to the others. -/
  alone (e : Event) (k : Nat) : k < s.stages.size → e.task? ≠ some k →
    (s.step e).1.stages[k]? = s.stages[k]? ∧ ∀ entry, .log k entry ∉ (s.step e).2
  /-- An `idle` call leaves its loop where no task is active, and there all that were spawned are
  through. It goes on where one is active. -/
  ends (e : Event) (i : Nat) : .looked i true ∈ (s.step e).2 →
    s.reactor.active = [] ∧ ∀ stage ∈ s.stages, stage.isActive = false
  loops (e : Event) (i : Nat) : .looked i false ∈ (s.step e).2 → s.reactor.active ≠ []
  /-- A call that waits does so for tasks that are active. -/
  waits : ∀ w ∈ s.reactor.waiting, w.2 ≠ [] ∧ ∀ k ∈ w.2, s.isActive k = true
  /-- Every `idle` call has left its loop, looks again or waits. -/
  idlers : (gone past ++ s.due ++ s.reactor.waiting.map (·.1)).Perm (List.range s.reactor.idlers)
  /-- Once no task is active, nobody waits, the next look of a call is its last, and for as long as
  no task is spawned no call waits again. -/
  rest : s.reactor.active = [] → s.reactor.waiting = [] ∧
    (∀ i ∈ s.due, (s.step (.look i)).2 = [.looked i true]) ∧
    ∀ more, Event.spawn ∉ more → ∀ i, Effect.looked i false ∉ s.trace more

theorem Sound.accounted (h : s.Sound) (ht : s.Told past) : s.Accounted past where
  activeTasks := h.active_length
  active _ := h.mem_active
  begins e _ := (s.step_task e).body_mem
  bodies := ht.bodies
  logs := ht.logs
  alone e k hk he :=
    have hs := s.step_task e
    ⟨hs.alone hk he, fun _ hm => he (hs.log_mem hm)⟩
  ends e i hm :=
    have ha := ((s.step_task e).looked_iff hm).mp rfl
    ⟨ha, h.inactive ha⟩
  loops e i hm ha := Bool.false_ne_true (((s.step_task e).looked_iff hm).mpr ha)
  waits w hw := ⟨(h.waits w hw).1, (h.waits w hw).2.2⟩
  idlers := ht.idlers
  rest ha := by
    refine ⟨List.eq_nil_iff_forall_not_mem.mpr fun w hw => ?_, fun i hi => ?_, fun _ hm i =>
      calm_of_active_nil ha hm i⟩
    · obtain ⟨hne, -, hall⟩ := h.waits w hw
      obtain ⟨k, hk⟩ := List.exists_mem_of_ne_nil _ hne
      have hactive := h.mem_active.mpr (hall k hk)
      simp [ha] at hactive
    · simp [step, hi, look, ha]

/-- However tasks are spawned and come to their ends, a reactor accounts for every one of them, and
`idle` waits for all of them and no longer. -/
theorem tasks_accounted (events : List Event) :
    (start.run events).Accounted (start.trace events) := by
  obtain ⟨hsound, htold⟩ := told_run events
  exact hsound.accounted htold

end Shift
end Courier.Reactor
