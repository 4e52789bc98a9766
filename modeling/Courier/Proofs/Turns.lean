import Courier.Proofs.Queue

/-!
The turns of `next` calls. A channel remembers one waiting call, the newest: a call that is made
while an older one waits takes its place. The calls that were not overtaken so are answered in the
order in which they were made, each with the next value as soon as there is one, or with the end.
-/

namespace Courier.Channel

variable {α : Type} {uses : List (Use α)} {u : Use α} {t : Nat}

def Use.asks : Use α → Bool
  | .next => true
  | _ => false

/-- The number of `next` calls. -/
def calls (uses : List (Use α)) : Nat := uses.countP (·.asks)

/-- Another call was made before this one had been answered. -/
def Overtaken (uses : List (Use α)) (t : Nat) : Prop :=
  ∃ before after, uses = before ++ .next :: after ∧ calls before = t + 1 ∧
    t ∉ (answered (reports use new before)).map (·.1)

theorem calls_concat (uses : List (Use α)) (u : Use α) :
    calls (uses ++ [u]) = calls uses + if u.asks then 1 else 0 := by
  simp [calls, List.countP_append, List.countP_cons]

theorem overtaken_concat : Overtaken (uses ++ [u]) t ↔ Overtaken uses t ∨
    (u = .next ∧ calls uses = t + 1 ∧ t ∉ (answered (reports use new uses)).map (·.1)) := by
  constructor
  · rintro ⟨before, later, he, hcalls, hnot⟩
    rcases List.eq_nil_or_concat later with rfl | ⟨later, v, rfl⟩
    · obtain ⟨rfl, hu⟩ := List.append_inj' he rfl
      exact Or.inr ⟨by simpa using hu, hcalls, hnot⟩
    · have he' : uses ++ [u] = (before ++ .next :: later) ++ [v] := by simpa using he
      obtain ⟨rfl, -⟩ := List.append_inj' he' rfl
      exact Or.inl ⟨before, later, rfl, hcalls, hnot⟩
  · rintro (⟨before, later, rfl, hcalls, hnot⟩ | ⟨rfl, hcalls, hnot⟩)
    · exact ⟨before, later ++ [u], by simp, hcalls, hnot⟩
    · exact ⟨uses, [], rfl, hcalls, hnot⟩

theorem Overtaken.lt_calls (h : Overtaken uses t) : t + 1 < calls uses := by
  obtain ⟨before, later, rfl, hcalls, -⟩ := h
  have hsum : calls (before ++ .next :: later) = calls before + (calls later + 1) := by
    simp [calls, List.countP_append, Use.asks]
  omega

end Courier.Channel

namespace Courier.Plain

open Channel (Use Report Overtaken answered handedOut accepted removed reports)

variable {α : Type} {p q : Plain α} {u : Use α} {r : Report α} {rs : List (Report α)}

/-- The calls that have their turn: those that were answered, and the one that waits. -/
def standing (p : Plain α) (rs : List (Report α)) : List Nat :=
  (answered rs).map (·.1) ++ p.waiting.toList

/-- A `next` call comes behind those that were answered; what waited loses its turn. No other use
moves a call. -/
theorem Step.standing_eq (hs : p.Step u q r) (hi : p.Idle) :
    q.standing (rs ++ [r]) =
      if u.asks then (answered rs).map (·.1) ++ [p.asked] else p.standing rs := by
  have hidle (hne : ¬ (p.items = [] ∧ p.gate.closed = false)) : p.waiting = none := by
    rw [← Option.not_isSome_iff_eq_none]
    exact fun hw => hne ⟨hi.items hw, hi.opened hw⟩
  cases hs with
  | served _ hw => simp [standing, Use.asks, hw]
  | ended => simp [standing, Use.asks, map_end]
  | closed => simp [standing, Use.asks, map_end]
  | taken hitems =>
    have hw : p.waiting = none := hidle (by simp [hitems])
    simp [standing, Use.asks, hw]
  | done _ hc =>
    have hw : p.waiting = none := hidle (by simp [hc])
    simp [standing, Use.asks, hw]
  | waits => simp [standing, Use.asks]
  | _ => simp [standing, Use.asks]

theorem Step.asked_eq (hs : p.Step u q r) : q.asked = p.asked + if u.asks then 1 else 0 := by
  cases hs <;> rfl

/-- Only the newest call waits. -/
def Newest (p : Plain α) : Prop := ∀ t, p.waiting = some t → t + 1 = p.asked

theorem Step.newest (hs : p.Step u q r) (hi : p.Idle) (h : p.Newest) : q.Newest := by
  intro t ht
  cases hs with
  | served => simp at ht
  | ended => simp at ht
  | closed => simp at ht
  | taken hitems => simp [hi.items (Option.isSome_iff_exists.mpr ⟨t, ht⟩)] at hitems
  | done _ hc => simp [hi.opened (Option.isSome_iff_exists.mpr ⟨t, ht⟩)] at hc
  | waits =>
    obtain rfl := Option.some.inj ht
    rfl
  | _ => exact h t ht

/-- Who has a turn: the calls that were not overtaken, in the order in which they were made. -/
structure InTurn (p : Plain α) (uses : List (Use α)) (rs : List (Report α)) : Prop where
  asked : p.asked = Channel.calls uses
  newest : p.Newest
  sorted : (p.standing rs).Pairwise (· < ·)
  mem (t : Nat) : t ∈ p.standing rs ↔ t < p.asked ∧ ¬ Overtaken uses t

theorem inTurn_new : (new : Plain α).InTurn [] [] where
  asked := rfl
  newest := by simp [Newest, new]
  sorted := by simp [standing, new, answered]
  mem t := by simp [standing, new, answered]

variable {uses : List (Use α)}

theorem InTurn.mem_next (h : p.InTurn uses rs) (hr : rs = reports Channel.use .new uses) (t : Nat) :
    t ∈ (answered rs).map (·.1) ++ [p.asked] ↔
      t < p.asked + 1 ∧ ¬ Overtaken (uses ++ [.next]) t := by
  rw [Channel.overtaken_concat, ← hr, ← h.asked, List.mem_append, List.mem_singleton]
  constructor
  · rintro (ht | rfl)
    · obtain ⟨hlt, hnot⟩ := (h.mem t).mp (List.mem_append_left _ ht)
      refine ⟨Nat.lt_succ_of_lt hlt, ?_⟩
      rintro (ho | ⟨-, -, hn⟩)
      · exact hnot ho
      · exact hn ht
    · refine ⟨Nat.lt_succ_self _, ?_⟩
      rintro (ho | ⟨-, he, -⟩)
      · have := h.asked ▸ ho.lt_calls
        omega
      · omega
  · rintro ⟨hlt, hnot⟩
    obtain ⟨hold, hnew⟩ := not_or.mp hnot
    rcases Nat.lt_succ_iff_lt_or_eq.mp hlt with hlt | rfl
    · rcases List.mem_append.mp ((h.mem t).mpr ⟨hlt, hold⟩) with ht | ht
      · exact Or.inl ht
      · -- The waiting call is the newest, so the new one overtakes it.
        have he := h.newest t (by simpa using ht)
        by_contra hn
        exact hnew ⟨rfl, he.symm, fun ha => hn (Or.inl ha)⟩
    · exact Or.inr rfl

theorem InTurn.use (h : p.InTurn uses rs) (hs : p.Step u q r) (hk : p.Kept rs)
    (hr : rs = reports Channel.use .new uses) : q.InTurn (uses ++ [u]) (rs ++ [r]) := by
  have hstanding : q.standing (rs ++ [r]) =
      if u.asks then (answered rs).map (·.1) ++ [p.asked] else p.standing rs :=
    hs.standing_eq hk.idle
  have hasked := hs.asked_eq
  have hbelow : ∀ t ∈ (answered rs).map (·.1), t < p.asked := fun t ht =>
    hk.tickets.below t (List.mem_append_left _ ht)
  have hcalls : q.asked = Channel.calls (uses ++ [u]) := by
    rw [hasked, h.asked, Channel.calls_concat]
  cases ha : u.asks with
  | true =>
    obtain rfl : u = .next := by cases u <;> simp_all [Use.asks]
    simp only [ha, if_true] at hstanding hasked
    refine ⟨hcalls, hs.newest hk.idle h.newest, ?_, fun t => ?_⟩
    · rw [hstanding]
      refine List.pairwise_append.mpr ⟨(List.pairwise_append.mp h.sorted).1, by simp, ?_⟩
      intro s hmem t ht
      rw [List.mem_singleton.mp ht]
      exact hbelow s hmem
    · rw [hstanding, hasked]
      exact h.mem_next hr t
  | false =>
    simp only [ha, Bool.false_eq_true, if_false] at hstanding hasked
    have hne : u ≠ .next := by
      rintro rfl
      simp [Use.asks] at ha
    refine ⟨hcalls, hs.newest hk.idle h.newest, hstanding ▸ h.sorted, fun t => ?_⟩
    rw [hstanding, hasked, Channel.overtaken_concat]
    simpa [hne] using h.mem t

/-- Answers with values come first, then those at the end. -/
def Told (rs : List (Report α)) (served : List (Nat × α)) (late : List Nat) : Prop :=
  answered rs = served.map (fun s => (s.1, some s.2)) ++ late.map (·, none)

theorem Told.late_nil {served : List (Nat × α)} {late : List Nat} (h : Told rs served late)
    (he : p.Ended rs) (hn : ¬ (p.gate.closed = true ∧ p.items = [])) : late = [] := by
  cases late with
  | nil => rfl
  | cons t late =>
    have hmem : (t, none) ∈ answered rs := by
      rw [h]
      simp
    exact absurd (he t hmem) hn

theorem Told.value {served : List (Nat × α)} {t : Nat} {a : α} (h : Told rs served [])
    (hr : r.answers = [(t, some a)]) : Told (rs ++ [r]) (served ++ [(t, a)]) [] := by
  rw [Told, Channel.answered_concat, h, hr]
  simp

theorem Told.ends {served : List (Nat × α)} {late : List Nat} (h : Told rs served late)
    (more : List Nat) (hr : r.answers = more.map (·, none)) :
    Told (rs ++ [r]) served (late ++ more) := by
  rw [Told, Channel.answered_concat, h, hr]
  simp

theorem Step.told (hs : p.Step u q r) (he : p.Ended rs)
    (h : ∃ served late, Told rs served late) : ∃ served late, Told (rs ++ [r]) served late := by
  obtain ⟨served, late, h⟩ := h
  have hend (waiting : Option Nat) : (waiting.map fun t => (t, (none : Option α))).toList =
      waiting.toList.map (·, none) := by cases waiting <;> rfl
  cases hs with
  | served hc =>
    obtain rfl := h.late_nil he (by simp [Channel.Gate.open_of_isClosed hc])
    exact ⟨_, _, h.value rfl⟩
  | taken hi =>
    obtain rfl := h.late_nil he (by simp [hi])
    exact ⟨_, _, h.value rfl⟩
  | ended => exact ⟨_, _, h.ends _ (hend p.waiting)⟩
  | closed => exact ⟨_, _, h.ends _ (hend p.waiting)⟩
  | done => exact ⟨_, _, h.ends [p.asked] rfl⟩
  | _ => exact ⟨_, _, h.ends [] rfl⟩

theorem inTurn_after (uses : List (Use α)) :
    (Channel.after use .new uses).InTurn uses (reports use .new uses) ∧
      ∃ served late, Told (reports use (.new : Plain α) uses) served late := by
  induction uses using List.reverseRecOn with
  | nil => exact ⟨inTurn_new, [], [], rfl⟩
  | append_singleton uses u ih =>
    obtain ⟨hturn, htold⟩ := ih
    have hk := kept_after uses
    have hs := (Channel.after use new uses).step_use u
    rw [Channel.after_concat, Channel.reports_concat]
    exact ⟨hturn.use hs hk (Channel.plain_after uses).2, hs.told hk.ended htold⟩

/-- Calls beside values, where only one of the two goes on. -/
theorem zip_served (served : List (Nat × α)) {rest : List Nat} {items : List α}
    (h : rest ≠ [] → items = []) :
    (served.map (·.1) ++ rest).zip (served.map (·.2) ++ items) = served ∧
      (served.map (·.1) ++ rest).drop (served.map (·.2) ++ items).length = rest := by
  have hzip : (served.map (·.1)).zip (served.map (·.2)) = served := by
    simp [List.zip_map']
  have hlen : (served.map (·.1)).length = (served.map (·.2)).length := by simp
  rw [List.zip_append hlen, hzip]
  cases rest with
  | nil => simp
  | cons t rest => simp [h (by simp)]

end Courier.Plain

namespace Courier.Channel

variable {α : Type}

/-- How the calls with a turn are answered, given the values that were accepted and not removed. -/
structure Served (uses : List (Use α)) (turns : List Nat) (values : List α) : Prop where
  /-- The calls that were not overtaken, in the order in which they were made. -/
  sorted : turns.Pairwise (· < ·)
  mem (t : Nat) : t ∈ turns ↔ t < calls uses ∧ ¬ Overtaken uses t
  /-- What is removed was accepted last. -/
  kept : values ++ removed (reports use new uses) = accepted (reports use new uses)
  /-- Each call has the value of its place as soon as both are there. Once the channel is closed,
  the calls that are left have been told of the end. -/
  answers : answered (reports use new uses) =
    (turns.zip values).map (fun s => (s.1, some s.2)) ++
      if (after use new uses).closed then (turns.drop values.length).map (·, none) else []

/-- However many `next` calls are outstanding at a time, those that were not overtaken are served
in turn. -/
theorem served_in_turn (uses : List (Use α)) : ∃ turns values, Served uses turns values := by
  obtain ⟨hturn, served, late, htold⟩ := Plain.inTurn_after uses
  have hk := Plain.kept_after uses
  have hr := (plain_after uses).2
  have hclosed : (after Plain.use .new uses).gate.closed = (after use new uses).closed :=
    congrArg (fun p : Plain α => p.gate.closed) (plain_after uses).1
  generalize after Plain.use .new uses = p at hturn hk hclosed
  rw [hr] at hturn hk htold
  generalize hrs : reports use new uses = rs at hturn hk htold
  have hlate (hl : late ≠ []) : p.gate.closed = true ∧ p.items = [] := by
    by_contra hn
    exact hl (htold.late_nil hk.ended hn)
  -- Those who are left of the calls and those who are left of the values.
  have hrest (hl : late ++ p.waiting.toList ≠ []) : p.items = [] := by
    by_cases hnil : late = []
    · rw [hnil, List.nil_append, Ne, Option.toList_eq_nil_iff] at hl
      exact hk.idle.items (Option.isSome_iff_ne_none.mpr hl)
    · exact (hlate hnil).2
  have hstanding : p.standing rs = served.map (·.1) ++ (late ++ p.waiting.toList) := by
    rw [Plain.standing, htold]
    simp [Function.comp_def]
  have hout : handedOut rs = served.map (·.2) := by
    rw [handedOut, htold]
    simp [List.filterMap_append, List.filterMap_map]
  obtain ⟨hzip, hdrop⟩ := Plain.zip_served served hrest
  rw [← hstanding, ← hout] at hzip hdrop
  refine ⟨p.standing rs, handedOut rs ++ p.items, hturn.sorted, fun t => ?_, ?_, ?_⟩
  · rw [hturn.mem, hturn.asked]
  · rw [hrs, ← hk.conserved.all]
    by_cases hrem : removed rs = []
    · simp [hrem]
    · simp [(hk.conserved.finished hrem).2]
  · rw [hrs, hzip, hdrop, htold, ← hclosed]
    cases hc : p.gate.closed with
    | true =>
      have hw : p.waiting = none := by
        rw [← Option.not_isSome_iff_eq_none]
        intro hs
        simp [hk.idle.opened hs] at hc
      simp [hw]
    | false =>
      have hl : late = [] := by
        by_contra hn
        simp [(hlate hn).1] at hc
      simp [hl]

/-- Two calls are outstanding when two values are sent and the channel closes: the older one is
served with neither. -/
theorem older_call_unserved :
    let uses : List (Use Char) := [.next, .next, .send 0 'a', .send 0 'b', .release 0]
    let rs := reports use new uses
    calls uses = 2 ∧ accepted rs = ['a', 'b'] ∧ removed rs = [] ∧
      (after use new uses).closed = true ∧ ∀ value, (0, value) ∉ answered rs := by
  intro uses rs
  have hrs : answered rs = [(1, some 'a')] := rfl
  exact ⟨rfl, rfl, rfl, rfl, by simp [hrs]⟩

end Courier.Channel
