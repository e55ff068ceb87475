import NodeFleet.Proofs.Routine.Cancellation
import NodeFleet.Proofs.Routine.Effects
import NodeFleet.Proofs.Routine.Orderly

/-!
# Prompt histories

In a prompt history time passes only while nobody can go on, and no further than to the next moment
at which somebody can. Every run is prompt. In a prompt history a routine takes its next turn as soon
as its question can be answered: at once, unless it pauses or waits for a lock, and after a pause no
later than at its end or when its token is cancelled.
-/

namespace NodeFleet

variable {σ : Signature} {W : World σ} {α β ε : Type}

/-- Nobody can go on, now or at any later moment before a time. -/
def Config.IsIdleUntil (d : Config W α) (time : Nat) : Prop :=
  ∀ moment, d.shared.clock ≤ moment → moment < time →
    ∀ i, (d.shared.moveClock moment).canStep d.routines i = false

/-- Every routine that is not done waits for a lock that another one holds. -/
def Config.IsStuck (d : Config W α) : Prop :=
  ∀ (i : Nat) (request : Request σ) (next : request.Answer → Routine σ α),
    d.routines[i]? = some (.ask request next) →
      ∃ c, request.acquires? = some c ∧ (d.shared.queues c).head? ≠ some i

/-- Configurations that follow one another by turns of ready routines and, while nobody can go on, by
movements of the clock, with the turns that were taken. -/
inductive Prompt [DecidableEq σ.CacheName] : Config W α → List (Event W) → Config W α → Prop
  | refl (c : Config W α) : Prompt c [] c
  | turn {c d : Config W α} {events : List (Event W)} {i : Nat} {request : Request σ}
      {next : request.Answer → Routine σ α} (prompt : Prompt c events d)
      (found : d.routines[i]? = some (.ask request next))
      (ready : d.shared.isReady i request = true) :
      Prompt c (events ++ [⟨i, d.shared, request⟩]) (d.turn i request next)
  | wait {c d : Config W α} {events : List (Event W)} {time : Nat} (prompt : Prompt c events d)
      (later : d.shared.clock ≤ time) (idle : d.IsIdleUntil time) : Prompt c events (d.wait time)

namespace Prompt

variable [DecidableEq σ.CacheName] {c d e : Config W α} {events others : List (Event W)}

theorem steps (h : Prompt c events d) : Steps c events d := by
  induction h with
  | refl => exact .refl _
  | turn _ found ready ih => exact .turn ih found ready
  | wait _ later _ ih => exact .wait ih later

theorem trans (h : Prompt c events d) (h' : Prompt d others e) : Prompt c (events ++ others) e := by
  induction h' with
  | refl => rwa [List.append_nil]
  | turn _ found ready ih =>
      rw [← List.append_assoc]
      exact .turn ih found ready
  | wait _ later idle ih => exact .wait ih later idle

/-- Every turn was taken by a ready routine in a configuration along the history. -/
theorem split {first second : List (Event W)} {event : Event W} (h : Prompt c events d)
    (hevents : events = first ++ event :: second) :
    ∃ (m : Config W α) (next : event.request.Answer → Routine σ α),
      Prompt c first m ∧ m.shared = event.before ∧
        m.routines[event.routine]? = some (.ask event.request next) ∧
        Prompt (m.turn event.routine event.request next) second d := by
  induction h generalizing second with
  | refl => simp at hevents
  | @turn d events i request next before found ready ih =>
      rcases cut_concat hevents with ⟨rfl, rfl, rfl⟩ | ⟨init, rfl, hinit⟩
      · exact ⟨d, next, before, rfl, found, .refl _⟩
      · obtain ⟨m, next', hm, hshared, hfound, hrest⟩ := ih hinit
        exact ⟨m, next', hm, hshared, hfound, .turn hrest found ready⟩
  | wait _ later idle ih =>
      obtain ⟨m, next', hm, hshared, hfound, hrest⟩ := ih hevents
      exact ⟨m, next', hm, hshared, hfound, .wait hrest later idle⟩

end Prompt

namespace Shared

section Schedule

variable {s later : Shared σ W} {ps : List (Routine σ α)} {line next : List Nat} {i : Nat}

theorem mem_lineUp (s : Shared σ W) (ps : List (Routine σ α)) (line : List Nat) (i : Nat) :
    i ∈ s.lineUp ps line ↔ i ∈ line := by
  cases h : s.canStep ps i <;> simp [lineUp, h]

theorem mem_regroup {j : Nat} (h : j ∈ line) : j ∈ s.regroup ps line i := by
  rw [regroup]
  by_cases hj : j = i
  · subst hj
    split
    · exact List.mem_cons_self
    · simp [mem_lineUp]
  · have hothers : j ∈ line.erase i := (List.mem_erase_of_ne hj).2 h
    split
    · exact List.mem_cons_of_mem _ ((mem_lineUp _ _ _ _).2 hothers)
    · simp [mem_lineUp, hothers]

theorem canStep_iff : s.canStep ps i = true ↔
    ∃ request next, ps[i]? = some (.ask request next) ∧ s.isReady i request = true := by
  rw [canStep]
  split
  next request next h => simp [h]
  next h =>
    simp only [Bool.false_eq_true, false_iff]
    rintro ⟨request, next, hi, -⟩
    exact h request next hi

theorem nextWake?_eq_some {time : Nat} (h : s.nextWake? ps = some time) :
    s.clock < time ∧ ∃ (i : Nat) (token : Option Token) (next : Wake → Routine σ α),
      ps[i]? = some (.ask (.pause token time) next) := by
  obtain ⟨p, hp, htime⟩ := List.mem_filterMap.1 (List.min?_mem h)
  obtain ⟨i, hi⟩ := List.getElem?_of_mem hp
  split at htime
  next token time' next =>
    split at htime
    next hclock =>
      obtain rfl := Option.some.inj htime
      exact ⟨hclock, i, token, next, hi⟩
    next => cases htime
  next => cases htime

/-- No pause ends between now and the earliest end of one. -/
theorem le_of_nextWake?_eq_some {time : Nat} (h : s.nextWake? ps = some time)
    {token : Option Token} {wake : Nat} {next : Wake → Routine σ α}
    (hi : ps[i]? = some (.ask (.pause token wake) next)) : wake ≤ s.clock ∨ time ≤ wake := by
  by_cases hclock : s.clock < wake
  · right
    refine (List.min?_eq_some_iff.1 h).2 _ (List.mem_filterMap.2 ⟨_, List.mem_of_getElem? hi, ?_⟩)
    exact if_pos hclock
  · exact .inl (Nat.le_of_not_lt hclock)

theorem le_clock_of_nextWake?_eq_none (h : s.nextWake? ps = none) {token : Option Token}
    {time : Nat} {next : Wake → Routine σ α}
    (hi : ps[i]? = some (.ask (.pause token time) next)) : time ≤ s.clock := by
  have hnil := List.min?_eq_none_iff.1 h
  have hnone := List.filterMap_eq_nil_iff.1 hnil _ (List.mem_of_getElem? hi)
  dsimp only at hnone
  split at hnone
  next => cases hnone
  next hclock => exact Nat.le_of_not_lt hclock

/-- As time passes, nothing becomes ready but a pause that ends. -/
theorem pauses_of_isReady_moveClock {moment : Nat} {request : Request σ}
    (ready : (s.moveClock moment).isReady i request = true) (blocked : s.isReady i request = false) :
    ∃ token time, request = .pause token time ∧ s.clock < time ∧ time ≤ moment := by
  cases request with
  | pause token time =>
      obtain ⟨hclock, hnot⟩ := Bool.or_eq_false_iff.1 blocked
      refine ⟨token, time, rfl, Nat.lt_of_not_le (of_decide_eq_false hclock), ?_⟩
      rcases Bool.or_eq_true_iff.1 ready with hmoment | hcut
      · exact of_decide_eq_true hmoment
      · rw [show (s.moveClock moment).isInterrupted token = s.isInterrupted token by
          cases token <;> rfl, hnot] at hcut
        cases hcut
  | acquire cache =>
      have hsame : s.isReady i (.acquire cache) = true := ready
      rw [blocked] at hsame
      cases hsame
  | _ => cases blocked

/-- If nobody can go on now, nobody can before the earliest end of a pause. -/
theorem isIdleUntil_of_nextWake? {time : Nat} (wake : s.nextWake? ps = some time)
    (none : ∀ j, s.canStep ps j = false) : Config.IsIdleUntil ⟨s, ps⟩ time := by
  intro moment _ hto j
  refine Bool.eq_false_iff.2 fun hstep => ?_
  obtain ⟨request, next, hj, ready⟩ := canStep_iff.1 hstep
  have blocked : s.isReady j request = false := by
    refine Bool.eq_false_iff.2 fun h => ?_
    have hnone := none j
    rw [canStep_iff.2 ⟨request, next, hj, h⟩] at hnone
    cases hnone
  obtain ⟨token, ending, rfl, hlater, hmoment⟩ := pauses_of_isReady_moveClock ready blocked
  rcases le_of_nextWake?_eq_some wake hj with hover | hnext
  · exact absurd hlater (Nat.not_lt.2 hover)
  · exact absurd (Nat.lt_of_le_of_lt hmoment hto) (Nat.not_lt.2 hnext)

/-- At the end of a pause the whole line is still there. -/
theorem exists_wake? {time : Nat} (line : List Nat) (h : s.nextWake? ps = some time) :
    ∃ next, s.wake? ps line = some (s.moveClock time, next) ∧ ∀ j ∈ line, j ∈ next := by
  rw [wake?, h]
  refine ⟨_, rfl, fun j hj => ?_⟩
  by_cases hfirst : j ∈ (s.roused time).filter ((s.moveClock time).canStep ps)
  · exact List.mem_append_left _ hfirst
  · apply List.mem_append_right
    rw [List.mem_filter]
    refine ⟨hj, ?_⟩
    rw [Bool.not_eq_true', List.contains_eq_mem]
    exact decide_eq_false hfirst

/-- The routine that is chosen can go on, perhaps after the clock has moved. -/
theorem schedule?_eq_some (h : s.schedule? ps line = some (later, next, i))
    (all : ∀ j < ps.length, j ∈ line) :
    (later = s ∨ ∃ time, s.clock ≤ time ∧ Config.IsIdleUntil ⟨s, ps⟩ time ∧
        later = s.moveClock time) ∧
      (∀ j ∈ line, j ∈ next) ∧ later.canStep ps i = true := by
  rw [schedule?] at h
  split at h
  next hfind =>
    cases h
    exact ⟨.inl rfl, fun j hj => hj, List.find?_some hfind⟩
  next hnone =>
    have idle (j : Nat) : s.canStep ps j = false := by
      by_cases hj : j < ps.length
      · exact Bool.eq_false_iff.2 (List.find?_eq_none.1 hnone j (all j hj))
      · rw [canStep, List.getElem?_eq_none (Nat.le_of_not_lt hj)]
    split at h
    next hwake =>
      obtain ⟨j, hfind, hj⟩ := Option.map_eq_some_iff.1 h
      cases hj
      obtain ⟨time, htime, -⟩ := Option.map_eq_some_iff.1 hwake
      obtain ⟨line', hline', hnext⟩ := exists_wake? line htime
      rw [hline'] at hwake
      cases hwake
      have hclock := (nextWake?_eq_some htime).1
      exact ⟨.inr ⟨time, Nat.le_of_lt hclock, isIdleUntil_of_nextWake? htime idle, rfl⟩, hnext,
        List.find?_some hfind⟩
    next => cases h

/-- When no routine is chosen, the routines are stuck. -/
theorem isStuck_of_schedule?_eq_none (h : s.schedule? ps line = none)
    (all : ∀ j < ps.length, j ∈ line) : Config.IsStuck ⟨s, ps⟩ := by
  intro i request next hi
  change ps[i]? = _ at hi
  rw [schedule?] at h
  split at h
  next => cases h
  next hfind =>
    have hin (j : Nat) {p : Routine σ α} (hj : ps[j]? = some p) : j ∈ line :=
      all j (List.getElem?_eq_some_iff.1 hj).1
    have hwake : s.nextWake? ps = none := by
      cases htime : s.nextWake? ps with
      | none => rfl
      | some time =>
          -- The routine whose pause ends first could go on.
          obtain ⟨-, j, token, next, hj⟩ := nextWake?_eq_some htime
          obtain ⟨line', hline', hline⟩ := exists_wake? line htime
          rw [hline'] at h
          have hnone := List.find?_eq_none.1 (Option.map_eq_none_iff.1 h)
          refine absurd (canStep_iff.2 ⟨_, _, hj, ?_⟩) (hnone j (hline j (hin j hj)))
          simp [isReady, moveClock]
    have hblocked : s.isReady i request = false := by
      have hstep := List.find?_eq_none.1 hfind i (hin i hi)
      rw [canStep_iff] at hstep
      exact Bool.eq_false_iff.2 fun hready => hstep ⟨request, next, hi, hready⟩
    cases request with
    | acquire c =>
        refine ⟨c, rfl, fun hhead => ?_⟩
        simp [isReady, hhead] at hblocked
    | pause token time =>
        have hclock := le_clock_of_nextWake?_eq_none hwake hi
        simp [isReady, hclock] at hblocked
    | _ => cases hblocked

end Schedule

variable [DecidableEq σ.CacheName]

/-- Taking turns is prompt, and it stops when the routines are stuck. -/
theorem takeTurns_prompt (s : Shared σ W) (ps : List (Routine σ α)) (line : List Nat)
    (all : ∀ j < ps.length, j ∈ line) :
    ∃ events d, Prompt ⟨s, ps⟩ events d ∧ s.takeTurns ps line = (d.shared, d.routines) ∧
      d.IsStuck := by
  fun_induction takeTurns s ps line with
  | case1 s ps line stopped =>
      exact ⟨[], _, .refl _, rfl, isStuck_of_schedule?_eq_none stopped all⟩
  | case2 s ps line later line' i chosen request next found answer answered hanswer _ ih =>
      obtain ⟨hlater, hline, hstep⟩ := schedule?_eq_some chosen all
      obtain ⟨events, d, hrest, hturns, hstuck⟩ := ih fun j hj => by
        rw [List.length_set] at hj
        exact mem_regroup (hline j (all j hj))
      have hmoved : Prompt ⟨s, ps⟩ [] ⟨later, ps⟩ := by
        rcases hlater with rfl | ⟨time, htime, idle, rfl⟩
        · exact .refl _
        · exact .wait (.refl _) htime idle
      obtain ⟨request', next', found', hready⟩ := canStep_iff.1 hstep
      rw [found] at found'
      cases found'
      have hturn := hmoved.turn found hready
      rw [Config.turn, hanswer] at hturn
      exact ⟨_, d, hturn.trans hrest, hturns, hstuck⟩
  | case3 s ps line later line' i chosen absurdity =>
      obtain ⟨_, _, hstep⟩ := schedule?_eq_some chosen all
      obtain ⟨request, next, found, _⟩ := canStep_iff.1 hstep
      exact (absurdity request next found).elim

end Shared


variable [DecidableEq σ.CacheName]

/-- A run is a prompt history that ends when all are stuck. -/
theorem run_prompt (s : Shared σ W) (ps : List (Routine σ α)) :
    ∃ events d, Prompt (Config.start s ps) events d ∧
      s.run ps = (d.shared, d.routines.map Shared.result?) ∧ d.IsStuck := by
  obtain ⟨events, d, prompt, hturns, stuck⟩ := (s.arriveAll 0 ps).takeTurns_prompt ps _
    fun j hj => List.mem_range.2 hj
  refine ⟨events, d, prompt, ?_, stuck⟩
  rw [Shared.run, hturns]

end NodeFleet
