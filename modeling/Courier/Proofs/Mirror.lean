import Courier.Proofs.Eager
import Courier.Proofs.Standalone

/-!
An embedded transport beside a standalone one. Its callers do the same, and its client does to
every request what the client on the other thread does to it. Its loop runs as soon as a request is
accepted, so no unit of it is behind the one on the other thread.
-/

namespace Courier

namespace Embedded

variable {e : Embedded} {k : Nat}

theorem step_move_intake (e : Embedded) (m : Move) :
    (e.step (.move m)).inner.dispatch.intake = (e.inner.dispatch.move m).1.intake :=
  Pipeline.Run.lift_intake _ _

theorem progress_turn (e : Embedded) (k : Nat) :
    (e.step (.move .turn)).inner.dispatch.intake.progress? k =
      (e.inner.dispatch.turn Log.calm).1.intake.calls[k]?.map (·.progress) := by
  rw [Intake.progress?, step_move_intake]
  rfl

/-- A loop that runs after everything that callers do stays eager, and begins what is accepted. -/
structure Prompt (e : Embedded) (deed : Option Deed) (f : Embedded) : Prop where
  eager : f.inner.dispatch.Eager
  old : ∀ k < e.inner.size, f.inner.dispatch.intake.progress? k = e.inner.dispatch.intake.progress? k
  new : ∀ sender uri payload signal, deed = some (.send sender uri payload signal) →
    e.channel.isClosed sender = false →
      f.inner.dispatch.intake.progress? e.inner.size = some (.running .asking)

theorem eager_turned (h : (e.inner.dispatch.turn Log.calm).1.Eager) :
    (e.step (.move .turn)).inner.dispatch.Eager := by
  refine h.congr (congrArg Intake.channel (step_move_intake e .turn)) ?_
  exact congrArg Loop.hand (Pipeline.Run.lift_loop _ _)

/-- What leaves the queue and the units alone. -/
theorem Sound.prompt_quiet {f : Embedded} {deed : Option Deed} (hf : f.Sound)
    (hq : f.inner.dispatch.queue = [])
    (hp : ∀ k, f.inner.dispatch.intake.progress? k = e.inner.dispatch.intake.progress? k)
    (hd : ∀ sender uri payload signal, deed ≠ some (.send sender uri payload signal)) :
    e.Prompt deed (f.step (.move .turn)) := by
  obtain ⟨heager, hcalls⟩ := Dispatch.eager_turn hf.settling.ordered.sound hq
  refine ⟨eager_turned heager, fun k _ => ?_, fun sender uri payload signal he => ?_⟩
  · rw [← hp k, progress_turn, hcalls]
    rfl
  · exact (hd sender uri payload signal he).elim

theorem Sound.prompt (h : e.Sound) (he : e.inner.dispatch.Eager) (deed : Deed) :
    e.Prompt deed ((e.perform deed).step (.move .turn)) := by
  have hs := h.settling.ordered.sound
  have hf := h.perform deed
  cases deed with
  | clone sender =>
    refine hf.prompt_quiet ?_ (fun k => ?_) fun _ _ _ _ hd => by cases hd
    · simp only [Embedded.perform, Deed.event, Pipeline.Run.step, Pipeline.Run.lift_queue]
      exact he.queue
    · simp only [Embedded.perform, Deed.event, Pipeline.Run.step, Pipeline.Run.lift_intake]
      rfl
  | release sender =>
    refine hf.prompt_quiet ?_ (fun k => ?_) fun _ _ _ _ hd => by cases hd
    · simp only [Embedded.perform, Deed.event, Pipeline.Run.step, Pipeline.Run.lift_queue]
      exact (hs.release sender).2.trans he.queue
    · simp only [Embedded.perform, Deed.event, Pipeline.Run.step, Pipeline.Run.lift_intake,
        Dispatch.release_eq]
      rfl
  | abort signal reason =>
    have hr := Dispatch.reslotted_abort e.inner.dispatch signal reason
    refine hf.prompt_quiet ?_ (fun k => ?_) fun _ _ _ _ hd => by cases hd
    · simp only [Embedded.perform, Deed.event, Pipeline.Run.step, Pipeline.Run.lift_queue]
      exact (hs.reslotted hr).2.trans he.queue
    · obtain ⟨g, hg, _, hw⟩ := hr.calls
      simp only [Embedded.perform, Deed.event, Pipeline.Run.step, Pipeline.Run.lift_intake,
        Intake.progress?, hg, Array.getElem?_mapIdx, Option.map_map]
      exact congrArg (Option.map · _) (funext (hw k))
  | send sender uri payload signal =>
    have ha : Dispatch.Arrived e.inner.dispatch
        (e.perform (.send sender uri payload signal)).inner.dispatch sender
        (e.inner.dispatch.intake.sent sender (.post uri payload) signal .waiting) := by
      have ha := Dispatch.arrived_send e.inner.dispatch sender (.post uri payload) signal
      simp only [Embedded.perform, Deed.event, Pipeline.Run.step]
      exact ⟨by rw [Pipeline.Run.lift_intake]; exact ha.channel,
        by rw [Pipeline.Run.lift_loop]; exact ha.loop,
        by rw [Pipeline.Run.lift_intake]; exact ha.calls,
        by rw [Pipeline.Run.lift_intake]; exact ha.fired⟩
    obtain ⟨heager, hcalls⟩ := he.arrived hs ha (Intake.sent_parcel .. ▸ Request.proper _)
      (Intake.sent_progress ..)
    refine ⟨eager_turned heager, fun k hk => ?_, fun s u p g hd hc => ?_⟩
    · rw [progress_turn, hcalls, Intake.getElem_push_of_lt hk]
      rfl
    · cases hd
      have hopen : e.inner.dispatch.intake.channel.isClosed sender = false := hc
      rw [progress_turn, hcalls, hopen]
      exact congrArg (Option.map _) Array.getElem?_push_size

end Embedded

namespace Standalone

variable {s : Standalone} {e : Embedded} {j k : Nat}

/-- How far the unit of an accepted request is, if units begin as soon as they can. -/
def ahead (s : Standalone) (j : Nat) : Stage :=
  ((s.worker.dispatch.intake.progress? j).map Stage.begun).getD (.running .asking)

/-- What happens to an embedded transport in the place of an event. -/
def mirrored (s : Standalone) : Event → List Embedded.Event
  | .caller c => [.caller c, .move .turn]
  | .work m =>
    match m.own?.bind fun j => s.owner.accepted[j]? with
    | some k => [.move (m.at k)]
    | none => []
  | .clientClosed r => [.clientClosed r]
  | .forward | .hear | .listen | .portClosed | .exited _ => []

def mirror (s : Standalone) : List Event → List Embedded.Event
  | [] => []
  | ev :: events => s.mirrored ev ++ mirror (s.step ev) events

theorem mirror_concat (s : Standalone) (events : List Event) (ev : Event) :
    s.mirror (events ++ [ev]) = s.mirror events ++ (s.run events).mirrored ev := by
  induction events generalizing s with
  | nil => exact List.append_nil _
  | cons first events ih =>
    show s.mirrored first ++ (s.step first).mirror (events ++ [ev]) = _
    rw [ih, ← List.append_assoc]
    rfl

/-- The embedded transport takes the same calls, and no unit of it is behind. -/
structure Mirrors (s : Standalone) (e : Embedded) : Prop where
  sound : e.Sound
  transport : e.transport = s.transport
  front : e.front = s.owner.front
  eager : e.inner.dispatch.Eager
  ahead : ∀ j k, s.owner.accepted[j]? = some k →
    e.inner.dispatch.intake.progress? k = some (s.ahead j)

theorem mirrors_start (fired : List (Nat × Value)) :
    (start fired).Mirrors ((Embedded.start fired).step (.move .turn)) := by
  have h := Embedded.sound_start fired
  obtain ⟨heager, _⟩ := Dispatch.eager_turn h.settling.ordered.sound rfl
  refine ⟨h.step _, rfl, ?_, Embedded.eager_turned heager, fun j k hk => by cases hk⟩
  rw [h.front_move, Embedded.front_start]
  exact (Bridge.Run.front_start fired).symm

theorem Mirrors.lt_size (hm : s.Mirrors e) (hk : s.owner.accepted[j]? = some k) :
    k < e.inner.size := by
  obtain ⟨c, hc, _⟩ := Option.map_eq_some_iff.mp (hm.ahead j k hk)
  exact (Array.getElem?_eq_some_iff.mp hc).1

/-- A unit that the other thread does not know of begins at once. -/
theorem ahead_of_size_le (h : s.worker.size ≤ j) : s.ahead j = .running .asking := by
  simp [ahead, Intake.progress?, Array.getElem?_eq_none h]

/-- The owner alone has got on, and its callers do not notice. -/
theorem Mirrors.owned (hm : s.Mirrors e) {o : Bridge.Run} (ho : o.front = s.owner.front)
    (heard listened : Nat) :
    (⟨s.transport, o, s.worker, heard, listened⟩ : Standalone).Mirrors e := by
  refine ⟨hm.sound, hm.transport, hm.front.trans ho.symm, hm.eager, fun j k hk => ?_⟩
  have ha : o.accepted = s.owner.accepted := congrArg Front.accepted ho
  exact hm.ahead j k (ha ▸ hk)

/-- The other thread has got on, and no unit of it has overtaken. -/
theorem Mirrors.worked (hm : s.Mirrors e) {w : Worker.Run} (heard listened : Nat)
    (hw : ∀ j, (⟨s.transport, s.owner, w, heard, listened⟩ : Standalone).ahead j = s.ahead j) :
    (⟨s.transport, s.owner, w, heard, listened⟩ : Standalone).Mirrors e :=
  ⟨hm.sound, hm.transport, hm.front, hm.eager, fun j k hk => by rw [hw]; exact hm.ahead j k hk⟩

theorem Mirrors.caller (hm : s.Mirrors e) (h : s.Linked) (c : Caller) :
    (s.step (.caller c)).Mirrors ((e.step (.caller c)).step (.move .turn)) := by
  have hact : e.transport.act e.channel c = s.transport.act s.channel c := by
    rw [hm.transport]
    exact Transport.act_congr (congrArg Front.gate hm.front) c
  have hsound : ∀ t, ({ e with transport := t } : Embedded).Sound := fun t =>
    ⟨hm.sound.settling, hm.sound.nodup, hm.sound.unread, hm.sound.read⟩
  have hle : s.worker.size ≤ s.owner.accepted.length :=
    Nat.le_trans h.size_le h.orderly.seq_le
  simp only [step, Embedded.step.eq_1, hact]
  generalize s.transport.act s.channel c = acted
  obtain ⟨t, deed⟩ := acted
  cases deed with
  | none =>
    dsimp only [Option.elim]
    have hp : e.Prompt none (({ e with transport := t } : Embedded).step (.move .turn)) :=
      (hsound t).prompt_quiet hm.eager.queue (fun _ => rfl) fun _ _ _ _ hd => by cases hd
    refine ⟨(hsound t).step _, rfl, ?_, hp.eager, fun j k hk => ?_⟩
    · exact ((hsound t).front_move .turn).trans hm.front
    · exact (hp.old k (hm.lt_size hk)).trans (hm.ahead j k hk)
  | some deed =>
    dsimp only [Option.elim]
    have hp := (hsound t).prompt hm.eager deed
    have hfront := h.owner.front_step deed
    refine ⟨((hsound t).perform deed).step _, rfl, ?_, hp.eager, fun j k hk => ?_⟩
    · rw [((hsound t).perform deed).front_move, (hsound t).front_perform]
      exact (congrArg (Front.act · deed) hm.front).trans hfront.symm
    · have hk : (s.owner.front.act deed).accepted[j]? = some k := hfront ▸ hk
      rcases Front.accepted_act hk with hk | ⟨rfl, rfl, sender, uri, payload, signal, rfl, hc⟩
      · exact (hp.old k (hm.lt_size hk)).trans (hm.ahead j k hk)
      · have hsize : s.owner.front.parcels.size = e.inner.size := by
          rw [← hm.front]
          exact Array.size_map
        rw [hsize]
        refine (hp.new sender uri payload signal rfl ?_).trans ?_
        · rw [← hm.front] at hc
          exact hc
        · exact congrArg some (ahead_of_size_le hle).symm

/-- What the client does to a unit there it may do to the unit here. -/
theorem Mirrors.moved (hm : s.Mirrors e) (h : s.Linked) {m : Move} (hj : m.own? = some j)
    (hk : s.owner.accepted[j]? = some k) (ha : s.worker.dispatch.allows m = true) :
    e.possible (.move (m.at k)) = true ∧
      (s.step (.work m)).Mirrors (e.step (.move (m.at k))) := by
  have hown := Move.own_at hj k
  have hstage := hm.ahead j k hk
  have htouched := Dispatch.touched_move hm.sound.settling.ordered.sound hown
  have hintake := Worker.Run.move_intake s.worker m
  refine ⟨Dispatch.allows_at hj ha hstage, hm.sound.step _, hm.transport,
    (hm.sound.front_move _).trans hm.front, ?_, fun i n hn => ?_⟩
  · refine hm.eager.congr ?_ ?_
    · rw [Embedded.step_move_intake]
      exact htouched.channel
    · exact (congrArg Loop.hand (Pipeline.Run.lift_loop _ _)).trans htouched.hand
  · have hn : s.owner.accepted[i]? = some n := hn
    have hlt := (List.getElem?_eq_some_iff.mp hn).1
    have hiff : k = n ↔ j = i := by
      constructor
      · rintro rfl
        exact ((List.getElem?_inj hlt h.owner.nodup).mp (hn.trans hk.symm)).symm
      · rintro rfl
        exact Option.some.inj (hk.symm.trans hn)
    rw [Embedded.step_move_intake, Dispatch.progress_move hm.sound.settling.ordered.sound hown,
      hm.ahead i n hn]
    simp only [Standalone.ahead, Standalone.step]
    rw [hintake, Dispatch.progress_move h.serving.dispatch hj]
    by_cases hi : j = i
    · subst hi
      rw [if_pos (hiff.mpr rfl), if_pos rfl, Option.map_some, Stage.moved_at]
      congr 1
      cases hp : s.worker.dispatch.intake.progress? j with
      | none =>
        rw [Dispatch.retires_of_allows hj ha (Or.inl hp)]
        rfl
      | some stage =>
        refine (Stage.begun_moved m fun hw => Or.inr ⟨j, ?_⟩).symm
        exact Dispatch.retires_of_allows hj ha (Or.inr (hw ▸ hp))
    · rw [if_neg (mt hiff.mp hi), if_neg hi]

/-- What happens to a unit whose request was never accepted happens to no unit. -/
theorem Mirrors.strayed (hm : s.Mirrors e) (h : s.Linked) {m : Move}
    (hn : (m.own?.bind fun j => s.owner.accepted[j]?) = none) : (s.step (.work m)).Mirrors e := by
  have hintake := Worker.Run.move_intake s.worker m
  refine ⟨hm.sound, hm.transport, hm.front, hm.eager, fun i n hi => ?_⟩
  have hi : s.owner.accepted[i]? = some n := hi
  rw [hm.ahead i n hi]
  simp only [Standalone.ahead, Standalone.step]
  rw [hintake]
  cases hj : m.own? with
  | none =>
    obtain rfl := Move.eq_turn hj
    exact congrArg (fun stage => some (stage.getD (.running .asking)))
      (Dispatch.begun_turn h.serving.dispatch i).symm
  | some j =>
    rw [hj, Option.bind_some] at hn
    have hne : j ≠ i := by
      rintro rfl
      rw [hn] at hi
      cases hi
    rw [Dispatch.progress_move h.serving.dispatch hj, if_neg hne]

/-- A request that arrives on the other thread has begun here. -/
theorem Mirrors.heard (hm : s.Mirrors e) (h : s.Linked) : (s.step .hear).Mirrors e := by
  have hg := h.hear.2
  simp only [step] at hg ⊢
  cases ha : s.arriving with
  | none => exact hm
  | some v =>
    rw [ha] at hg
    refine hm.worked _ _ fun j => ?_
    rcases hg with hcalls | ⟨uri, payload, hcalls⟩
    · simp only [Standalone.ahead, Intake.progress?]
      exact congrArg (fun calls : Array (Call Stage) =>
        ((calls[j]?.map (·.progress)).map Stage.begun).getD (.running .asking)) hcalls
    · have hcalls : (s.worker.message v).dispatch.intake.calls =
        s.worker.dispatch.intake.calls.push (Worker.Run.taken uri payload) := hcalls
      simp only [Standalone.ahead, Intake.progress?]
      rw [hcalls, Array.getElem?_push]
      split
      · rename_i hj
        subst hj
        rw [Array.getElem?_eq_none (Nat.le_refl _)]
        rfl
      · rfl

theorem Mirrors.clientClosed (hm : s.Mirrors e) (r : Attempt Unit) :
    (s.step (.clientClosed r)).Mirrors (e.step (.clientClosed r)) := by
  have hd := Pipeline.Run.dispatch_clientClosed e.inner r
  have hworked : (s.step (.clientClosed r)).Mirrors e := by
    refine hm.worked s.heard s.listened fun j => ?_
    simp only [Standalone.ahead]
    rw [Worker.Run.clientClosed_intake]
  refine ⟨hm.sound.step _, hm.transport, ?_, ?_, ?_⟩
  · refine Eq.trans ?_ hm.front
    simp only [Embedded.front, Embedded.channel, Embedded.step, hd]
    rfl
  · show (e.inner.step (.clientClosed r)).dispatch.Eager
    rw [hd]
    exact hm.eager
  · show ∀ j k, _ → (e.inner.step (.clientClosed r)).dispatch.intake.progress? k = _
    rw [hd]
    exact hworked.ahead

theorem Mirrors.step (hm : s.Mirrors e) (h : s.Linked) {ev : Event} (hp : s.possible ev = true) :
    e.valid (s.mirrored ev) = true ∧ (s.step ev).Mirrors (e.run (s.mirrored ev)) := by
  cases ev with
  | caller c => exact ⟨rfl, hm.caller h c⟩
  | forward => exact ⟨rfl, hm.owned h.owner.front_forward _ _⟩
  | hear => exact ⟨rfl, hm.heard h⟩
  | listen =>
    refine ⟨rfl, ?_⟩
    simp only [Standalone.step]
    cases s.worker.sent[s.listened]? with
    | none => exact hm
    | some v => exact hm.owned (h.owner.front_message v) _ _
  | work m =>
    simp only [possible, Bool.and_eq_true] at hp
    simp only [mirrored]
    split
    · rename_i k hk
      obtain ⟨j, hj, hk⟩ := Option.bind_eq_some_iff.mp hk
      obtain ⟨hpossible, hmoved⟩ := hm.moved h hj hk hp.1
      exact ⟨by simp only [Embedded.valid, hpossible, Bool.and_true], hmoved⟩
    · rename_i hn
      exact ⟨rfl, hm.strayed h hn⟩
  | clientClosed r => exact ⟨rfl, hm.clientClosed r⟩
  | portClosed => exact ⟨rfl, hm.owned (h.owner.front_shutdown (h.closed_of_gone hp) _) _ _⟩
  | exited code => exact ⟨rfl, hm.owned (h.owner.front_shutdown (h.closed_of_gone hp) _) _ _⟩

/-! Runs -/

/-- The embedded run beside a run. -/
def beside (fired : List (Nat × Value)) (events : List Event) : List Embedded.Event :=
  .move .turn :: (start fired).mirror events

theorem beside_concat (fired : List (Nat × Value)) (events : List Event) (ev : Event) :
    beside fired (events ++ [ev]) =
      beside fired events ++ ((start fired).run events).mirrored ev := by
  rw [beside, mirror_concat]
  rfl

/-- A request is accepted when it comes in, or never. -/
theorem Linked.accepted_step (h : s.Linked) {ev : Event} (hp : s.possible ev = true)
    (hk : (s.step ev).owner.accepted[j]? = some k) : s.owner.accepted[j]? = some k ∨
      j = s.owner.accepted.length ∧ k = s.owner.front.parcels.size := by
  have hsame : ∀ {o : Bridge.Run}, (s.step ev).owner = o → o.front = s.owner.front →
      s.owner.accepted[j]? = some k := by
    rintro o rfl ho
    have ha : (s.step ev).owner.accepted = s.owner.accepted := congrArg Front.accepted ho
    exact ha ▸ hk
  cases ev with
  | caller c =>
    simp only [Standalone.step] at hk
    cases hd : (s.transport.act s.channel c).2 with
    | none => exact Or.inl (by rw [hd] at hk; exact hk)
    | some deed =>
      rw [hd] at hk
      have hk : (s.owner.front.act deed).accepted[j]? = some k := h.owner.front_step deed ▸ hk
      rcases Front.accepted_act hk with hk | ⟨hj, hk, _⟩
      · exact Or.inl hk
      · exact Or.inr ⟨hj, hk⟩
  | hear =>
    refine Or.inl (hsame ?_ rfl)
    simp only [Standalone.step]
    cases s.arriving <;> rfl
  | work | clientClosed => exact Or.inl hk
  | forward => exact Or.inl (hsame rfl h.owner.front_forward)
  | listen =>
    simp only [Standalone.step] at hk
    cases hv : s.worker.sent[s.listened]? with
    | none => exact Or.inl (by rw [hv] at hk; exact hk)
    | some v =>
      refine Or.inl (hsame ?_ (h.owner.front_message v))
      simp only [Standalone.step, hv]
      rfl
  | portClosed => exact Or.inl (hsame rfl (h.owner.front_shutdown (h.closed_of_gone hp) _))
  | exited code => exact Or.inl (hsame rfl (h.owner.front_shutdown (h.closed_of_gone hp) _))

/-- The same happens to both units of a request. -/
theorem Linked.history_mirrored (h : s.Linked) {ev : Event}
    (hk : (s.step ev).owner.accepted[j]? = some k) :
    Embedded.history k none (s.mirrored ev) = (ev.happens? j).toList := by
  cases ev with
  | caller c => cases c <;> rfl
  | work m =>
    have hk : s.owner.accepted[j]? = some k := hk
    have hlt := (List.getElem?_eq_some_iff.mp hk).1
    simp only [mirrored, Event.happens?]
    cases hm : m.own? with
    | none => rw [Dispatch.happens_of_ne (by simp [hm])]; rfl
    | some i =>
      rw [Option.bind_some]
      cases hn : s.owner.accepted[i]? with
      | none =>
        have hne : i ≠ j := by
          rintro rfl
          rw [hk] at hn
          cases hn
        rw [Dispatch.happens_of_ne (by simpa [hm] using hne)]
        rfl
      | some n =>
        have hown : Embedded.history k none [.move (m.at n)] = ((m.at n).happens? k).toList := by
          cases hh : (m.at n).happens? k <;> simp [Embedded.history, Embedded.Event.happens?, hh]
        refine hown.trans (congrArg Option.toList ?_)
        by_cases hi : i = j
        · subst hi
          obtain rfl := Option.some.inj (hn.symm.trans hk)
          exact Move.happens_at hm n
        · have hne : n ≠ k := by
            rintro rfl
            exact hi ((List.getElem?_inj hlt h.owner.nodup).mp (hk.trans hn.symm)).symm
          rw [Dispatch.happens_of_ne (by simpa [Move.own_at hm n] using hne),
            Dispatch.happens_of_ne (by simpa [hm] using hi)]
  | forward | hear | listen | clientClosed | portClosed | exited => rfl

/-- The run beside a run is possible and keeps up with it, and the same happens in both to every
request. -/
theorem mirrors_run (fired : List (Nat × Value)) {events : List Event}
    (hv : (start fired).valid events = true)
    (hseq : ((start fired).run events).owner.bridge.seq ≤ 2 ^ 53) :
    (Embedded.start fired).valid (beside fired events) = true ∧
      ((start fired).run events).Mirrors ((Embedded.start fired).run (beside fired events)) ∧
      ∀ j k, ((start fired).run events).owner.accepted[j]? = some k →
        Embedded.history k none (beside fired events) = exchange j events := by
  induction events using List.reverseRecOn with
  | nil => exact ⟨rfl, mirrors_start fired, fun j k hk => by cases hk⟩
  | append_singleton events ev ih =>
    obtain ⟨hvalid, hpossible⟩ := valid_concat hv
    have hbound := seq_le_of_concat fired hseq
    obtain ⟨hlinked, hrecalls⟩ := linked_run fired hvalid hbound
    obtain ⟨hbeside, hmirrors, hhistory⟩ := ih hvalid hbound
    obtain ⟨hstep, hmirrors'⟩ := hmirrors.step hlinked hpossible
    rw [run_concat, beside_concat, Embedded.run_append]
    refine ⟨Embedded.valid_append hbeside hstep, hmirrors', fun j k hk => ?_⟩
    rw [Embedded.history, List.filterMap_append, exchange_concat]
    refine congrArg₂ _ ?_ (hlinked.history_mirrored hk)
    rcases hlinked.accepted_step hpossible hk with hk | ⟨rfl, rfl⟩
    · exact hhistory j k hk
    · -- Nothing has happened to a call that comes in just now.
      have hsize : ((start fired).run events).owner.front.parcels.size =
          ((Embedded.start fired).run (beside fired events)).inner.size := by
        rw [← hmirrors.front]
        exact Array.size_map
      have hlater := (Embedded.recalls_run fired hbeside).later _ (Nat.le_of_eq hsize.symm)
      exact hlater.trans (hrecalls.later _ (Nat.le_trans hlinked.size_le
        hlinked.orderly.seq_le)).symm

end Standalone
end Courier
