import Courier.Proofs.Settlement

/-!
Dispatch loops that run as soon as they can. Such a loop is never behind: it has begun every call
that it was given, and waits for the next one. What the client then does to the unit of a call
depends on how far that unit is, and not on which call it is or in which loop.
-/

namespace Courier

/-- A unit that has begun at least. -/
def Stage.begun : Stage → Stage
  | .waiting => .running .asking
  | stage => stage

/-- What a move does to the stage of its own call. -/
def Stage.moved (m : Move) (stage : Stage) : Stage :=
  match m with
  | .turn => stage
  | .answered _ r => stage.mapExchange (.answer r)
  | .chunk _ v => stage.mapExchange (·.chunk v)
  | .bodyEnded _ r => stage.mapExchange (·.bodyEnded r)
  | .conclude _ =>
    match stage with
    | .running (.over _) => .ended none
    | stage => stage
  | .retire _ => stage.retire

/-- The same move of another call. -/
def Move.at (m : Move) (k : Nat) : Move :=
  match m with
  | .turn => .turn
  | .answered _ r => .answered k r
  | .chunk _ v => .chunk k v
  | .bodyEnded _ r => .bodyEnded k r
  | .conclude _ => .conclude k
  | .retire _ => .retire k

theorem Call.moved_progress (m : Move) (c : Call Stage) :
    (c.moved m).progress = c.progress.moved m := by
  cases m with
  | conclude j =>
    cases hp : c.progress with
    | running e => cases e <;> simp [Call.moved, Call.concluded, Stage.moved, hp]
    | waiting | ended | retired => simp [Call.moved, Call.concluded, Stage.moved, hp]
  | _ => rfl

theorem Stage.moved_at (m : Move) (k : Nat) (stage : Stage) :
    stage.moved (m.at k) = stage.moved m := by
  cases m <;> rfl

theorem Move.own_at {m : Move} {j : Nat} (h : m.own? = some j) (k : Nat) :
    (m.at k).own? = some k := by
  cases m <;> simp_all [Move.own?, Move.at]

theorem Move.happens_at {m : Move} {j : Nat} (h : m.own? = some j) (k : Nat) :
    (m.at k).happens? k = m.happens? j := by
  cases m <;> simp_all [Move.own?, Move.at, Move.happens?]

/-- Having begun makes no difference to what has begun. -/
theorem Stage.begun_moved (m : Move) {stage : Stage}
    (h : stage = .waiting → m = .turn ∨ ∃ k, m = .retire k) :
    (stage.moved m).begun = stage.begun.moved m := by
  cases stage with
  | waiting => rcases h rfl with rfl | ⟨k, rfl⟩ <;> rfl
  | running e =>
    cases m with
    | conclude => cases e <;> rfl
    | _ => rfl
  | ended | retired => cases m <;> rfl

theorem Hand.ofNext_ne_apart {α : Type} (n : Channel.Next α) : Hand.ofNext n ≠ .apart := by
  cases n <;> exact fun h => by cases h

namespace Dispatch

variable {d e : Dispatch} {k : Nat}

/-- A loop that has asked for everything there is. -/
structure Eager (d : Dispatch) : Prop where
  queue : d.queue = []
  apart : d.loop.hand ≠ .apart

/-- A loop that has run has asked for a call. -/
theorem turn_apart (h : d.Sound) : (d.turn Log.calm).1.loop.hand ≠ .apart := by
  have hasking : ∀ d : Dispatch, d.asking.loop.hand ≠ .apart := by
    intro d
    simp only [asking, Loop.hand_ofNext]
    exact Hand.ofNext_ne_apart _
  obtain ⟨r, hr, ht⟩ := h.turned
  rw [hr]
  cases ht with
  | asks | begins => exact hasking _
  | rests hh => rcases hh with hh | hh <;> simp [hh]
  | drains | ends | fails => exact fun h => by cases h

/-- The call in hand begins. -/
theorem turn_began (h : d.Sound) (hl : d.loop = .handed (some k)) :
    (d.turn Log.calm).1.intake.calls = d.intake.calls.modify k Dispatch.begun ∧
      d.queue = k :: (d.turn Log.calm).1.queue := by
  obtain ⟨c, content, url, hk, hp, hu⟩ := h.handed hl
  have hw := h.coupled.waiter_of_ne (by simp [hl, Loop.hand])
  rw [turn_handed hl hk hp hu, asking_queue (d := d.began k) h.coupled.sound hw, queue_handed hl]
  exact ⟨rfl, rfl⟩

/-- With nothing to ask for a turn changes no call. -/
theorem eager_turn (h : d.Sound) (hq : d.queue = []) : (d.turn Log.calm).1.Eager ∧
    (d.turn Log.calm).1.intake.calls = d.intake.calls := by
  obtain ⟨_, _, ⟨_, hqueue, hcalls⟩ | ⟨k, c, content, _, _, _, _, hqueue, _⟩⟩ := turn_cases h
  · exact ⟨⟨hqueue.trans hq, turn_apart h⟩, hcalls⟩
  · rw [hq] at hqueue
    cases hqueue

/-- A loop that waits for nothing waits for the next call. -/
theorem Eager.waits (he : d.Eager) (h : d.Sound) (hc : d.intake.channel.closed = false) :
    d.loop = .waiting := by
  have hopen : ¬ (d.loop.hand = .over ∨ d.loop.hand = .holds none) := by
    intro hend
    rw [(h.coupled.ended hend).1] at hc
    cases hc
  have hq := he.queue
  have ha := he.apart
  cases hl : d.loop with
  | waiting => rfl
  | unstarted => exact (ha (by rw [hl]; rfl)).elim
  | handed call =>
    cases call with
    | none => exact (hopen (Or.inr (by rw [hl]; rfl))).elim
    | some k =>
      have hk : d.queue = k :: d.intake.channel.live := by rw [Dispatch.queue, hl]; rfl
      rw [hk] at hq
      cases hq
  | draining | ended => exact (hopen (Or.inl (by rw [hl]; rfl))).elim

/-- An accepted call begins at once. -/
theorem Eager.arrived (he : d.Eager) (h : d.Sound) {sender : Nat} {c : Call Stage}
    (ha : Arrived d e sender c) (hp : c.parcel.Proper) (hw : c.progress = .waiting) :
    (e.turn Log.calm).1.Eager ∧ (e.turn Log.calm).1.intake.calls =
      d.intake.calls.push (if d.intake.channel.isClosed sender then c else Dispatch.begun c) := by
  obtain ⟨hsound, hqueue⟩ := h.arrived ha hp hw
  rw [he.queue, List.nil_append] at hqueue
  cases hc : d.intake.channel.isClosed sender with
  | true =>
    rw [if_pos hc] at hqueue
    obtain ⟨heager, hcalls⟩ := eager_turn hsound hqueue
    exact ⟨heager, hcalls.trans ha.calls⟩
  | false =>
    have hopen : d.intake.channel.closed = false := by
      simp only [Channel.isClosed, Bool.or_eq_false_iff] at hc
      exact hc.2
    have hwait := he.waits h hopen
    obtain ⟨ticket, hticket⟩ := Option.isSome_iff_exists.mp (h.coupled.waits.mp (by rw [hwait]; rfl))
    have hloop : e.loop = .handed (some d.intake.calls.size) := by
      rw [ha.loop, Channel.send_waiting hc hticket, hwait]
      rfl
    obtain ⟨hcalls, hrest⟩ := turn_began hsound hloop
    rw [hqueue, if_neg (by simp [hc])] at hrest
    refine ⟨⟨(List.cons.inj hrest).2.symm, turn_apart hsound⟩, ?_⟩
    rw [hcalls, ha.calls, modify_push_size]
    rfl

theorem progress_move (h : d.Sound) {m : Move} (hm : m.own? = some k) (n : Nat) :
    (d.move m).1.intake.progress? n =
      if k = n then (d.intake.progress? n).map (Stage.moved m) else d.intake.progress? n := by
  simp only [Intake.progress?]
  rw [(touched_move h hm).calls, Array.getElem?_modify]
  split
  · rw [Option.map_map, Option.map_map]
    congr 1
    funext c
    exact Call.moved_progress m c
  · rfl

/-- A turn begins what waits. -/
theorem begun_turn (h : d.Sound) (n : Nat) :
    ((d.turn Log.calm).1.intake.progress? n).map Stage.begun =
      (d.intake.progress? n).map Stage.begun := by
  simp only [Intake.progress?]
  obtain ⟨_, _, ⟨_, _, hcalls⟩ | ⟨k, b, content, _, hk, _, _, hq, hcalls⟩⟩ := turn_cases h
  · rw [hcalls]
  · rw [hcalls, Array.getElem?_modify]
    split
    · rename_i hn
      subst hn
      obtain ⟨x, hx, hwait⟩ := h.queued k (by rw [hq]; exact List.mem_cons_self)
      simp [hx, hwait, Dispatch.begun, Stage.begun]
    · rfl

theorem Eager.congr (h : d.Eager) (hc : e.intake.channel = d.intake.channel)
    (hl : e.loop.hand = d.loop.hand) : e.Eager := by
  refine ⟨?_, hl ▸ h.apart⟩
  rw [Dispatch.queue, hc, hl]
  exact h.queue

/-- What the client may do to a unit it may do to one that is as far. -/
theorem allows_at {m : Move} {j : Nat} (hm : m.own? = some j) (ha : d.allows m = true)
    (hs : e.intake.progress? k =
      some (((d.intake.progress? j).map Stage.begun).getD (.running .asking))) :
    e.allows (m.at k) = true := by
  cases m with
  | turn | retire => rfl
  | answered i r =>
    obtain rfl := Option.some.inj hm
    simp only [allows, Stage.any_isAsking] at ha
    simp only [allows, Move.at, hs, ha]
    rfl
  | chunk i v =>
    obtain rfl := Option.some.inj hm
    simp only [allows, Stage.any_isReading] at ha
    obtain ⟨chunks, ha⟩ := ha
    simp only [allows, Move.at, hs, ha]
    rfl
  | bodyEnded i r =>
    obtain rfl := Option.some.inj hm
    simp only [allows, Stage.any_isReading] at ha
    obtain ⟨chunks, ha⟩ := ha
    simp only [allows, Move.at, hs, ha]
    rfl
  | conclude i =>
    obtain rfl := Option.some.inj hm
    simp only [allows, Stage.any_isOver] at ha
    obtain ⟨result, ha⟩ := ha
    simp only [allows, Move.at, hs, ha]
    rfl

/-- The client does nothing to a unit that has not begun. -/
theorem retires_of_allows {m : Move} (hm : m.own? = some k) (ha : d.allows m = true)
    (hs : d.intake.progress? k = none ∨ d.intake.progress? k = some .waiting) : m = .retire k := by
  cases m with
  | turn => cases hm
  | retire i =>
    obtain rfl := Option.some.inj hm
    rfl
  | _ =>
    obtain rfl := Option.some.inj hm
    rcases hs with hs | hs <;> simp [allows, hs, Stage.isAsking, Stage.isReading, Stage.isOver] at ha

end Dispatch
end Courier
