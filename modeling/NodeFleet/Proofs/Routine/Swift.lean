import NodeFleet.Proofs.Routine.Punctual

/-!
# Polls whose checks take no time

Where a world is such that every check is answered at once, and the world tells of how many checks
there were which of them passes, a poll can be timed to the moment. It ends at the tick of the first
check that passes, if that tick is before the deadline, and else at the deadline; and it has made one
check for every tick until then.
-/

namespace NodeFleet

variable {σ : Signature} {W : World σ} {α γ ε β : Type}

/-- Every turn finds the world as it is expected to be after so many turns that count. -/
inductive Attended (expected : Nat → W.State → Prop) (counts : Event W → Bool) :
    Nat → List (Event W) → Prop
  | nil (k : Nat) : Attended expected counts k []
  | cons {k : Nat} {e : Event W} {rest : List (Event W)} (found : expected k e.before.world)
      (later : Attended expected counts (if counts e then k + 1 else k) rest) :
      Attended expected counts k (e :: rest)

section Attended

variable {expected : Nat → W.State → Prop} {counts : Event W → Bool} {k : Nat}

theorem Attended.append_iff {first second : List (Event W)} :
    Attended expected counts k (first ++ second) ↔
      Attended expected counts k first ∧
        Attended expected counts (k + first.countP counts) second := by
  induction first generalizing k with
  | nil => exact ⟨fun h => ⟨.nil k, h⟩, fun h => h.2⟩
  | cons e rest ih =>
      have hcount : (if counts e then k + 1 else k) + rest.countP counts =
          k + (e :: rest).countP counts := by
        rw [List.countP_cons]
        split <;> omega
      constructor
      · intro h
        cases h with
        | cons found later =>
            obtain ⟨hrest, hsecond⟩ := ih.1 later
            exact ⟨.cons found hrest, hcount ▸ hsecond⟩
      · rintro ⟨h, hsecond⟩
        cases h with
        | cons found later => exact .cons found (ih.2 ⟨later, hcount ▸ hsecond⟩)

theorem Attended.exists_expected {turns : List (Event W)} (h : Attended expected counts k turns) :
    ∀ e ∈ turns, ∃ k, expected k e.before.world := by
  induction h with
  | nil => exact List.forall_mem_nil _
  | cons found _ ih => exact List.forall_mem_cons.2 ⟨⟨_, found⟩, ih⟩

variable [DecidableEq σ.CacheName] {c d : Config W α} {events : List (Event W)} {i : Nat}

/-- Where the turns of a routine that count, and no others, lead from what is expected to what is
expected next, its turns find what is expected. -/
theorem Steps.attended (h : Steps c events d) (start : expected 0 c.shared.world)
    (own : ∀ e ∈ events, e.routine = i → ∀ k, expected k e.before.world →
      expected (if counts e then k + 1 else k) e.after.world)
    (other : ∀ e ∈ events, e.routine ≠ i → ∀ k, expected k e.before.world →
      expected k e.after.world) :
    Attended expected counts 0 (turnsOf i events) ∧
      expected ((turnsOf i events).countP counts) d.shared.world := by
  induction h with
  | refl => exact ⟨.nil 0, start⟩
  | @turn d events j request next _ _ _ ih =>
      obtain ⟨hown, hlast⟩ := List.forall_mem_append.1 own
      obtain ⟨hother, hlast'⟩ := List.forall_mem_append.1 other
      obtain ⟨hturns, hnow⟩ := ih hown hother
      rw [Config.world_turn]
      by_cases hj : j = i
      · subst hj
        have hkept := hlast _ (List.mem_singleton_self _) rfl _ hnow
        rw [turnsOf_concat_self events ⟨j, d.shared, request⟩, List.countP_append]
        refine ⟨Attended.append_iff.2 ⟨hturns, .cons ?_ (.nil _)⟩, ?_⟩
        · rw [Nat.zero_add]
          exact hnow
        · rw [List.countP_singleton]
          split at hkept
          next counted => rwa [if_pos counted]
          next uncounted => rwa [if_neg uncounted]
      · rw [turnsOf_concat_other hj]
        exact ⟨hturns, hlast' _ (List.mem_singleton_self _) hj _ hnow⟩
  | wait _ _ ih => exact ih own other

end Attended

section Idle

variable {expected : Nat → W.State → Prop} {counts : Event W → Bool} {tally : Event W → Option γ}
  {turns : List (Event W)} {k : Nat}

/-- A question about time neither counts nor is tallied. -/
def IdleInTime (counts : Event W → Bool) (tally : Event W → Option γ) : Prop :=
  ∀ e : Event W, e.request.AboutTime → counts e = false ∧ tally e = none

variable (idle : IdleInTime counts tally) (time : ∀ e ∈ turns, e.request.AboutTime)
include idle time

theorem IdleInTime.countP_eq_zero : turns.countP counts = 0 :=
  List.countP_eq_zero.2 fun e he => by simp [(idle e (time e he)).1]

theorem IdleInTime.filterMap_eq_nil : turns.filterMap tally = [] :=
  List.filterMap_eq_nil_iff.2 fun e he => (idle e (time e he)).2

theorem IdleInTime.attended {rest : List (Event W)}
    (h : Attended expected counts k (turns ++ rest)) : Attended expected counts k rest := by
  have hrest := (Attended.append_iff.1 h).2
  rwa [idle.countP_eq_zero time] at hrest

end Idle

open Routine (Paced PollErrors ticks poll)

/-- How a poll ends from one of its ticks on, with so many of them remaining: at that of the first
check that passes, or at the deadline. The checks are numbered from zero. -/
inductive FirstPass (passes : Nat → Prop) (errors : PollErrors ε) (interval deadline : Nat) :
    Nat → Nat → Nat → Except ε β → Nat → Prop
  | passed {tick remaining m : Nat} {value : β} (early : m < remaining)
      (before : ∀ j < m, ¬passes j) (now : passes m) :
      FirstPass passes errors interval deadline tick remaining (m + 1) (.ok value)
        (tick + m * interval)
  | late {tick remaining : Nat} (never : ∀ j < remaining, ¬passes j) :
      FirstPass passes errors interval deadline tick remaining remaining (.error errors.timeout)
        deadline

/-- A check that does not pass is followed by those from the next tick on. -/
theorem FirstPass.next {passes : Nat → Prop} {errors : PollErrors ε}
    {interval deadline tick remaining checks left : Nat} {result : Except ε β}
    (h : FirstPass (fun j => passes (j + 1)) errors interval deadline (tick + interval) remaining
      checks result left) (fails : ¬passes 0) :
    FirstPass passes errors interval deadline tick (remaining + 1) (checks + 1) result left := by
  have shift {bound : Nat} (h : ∀ j < bound, ¬passes (j + 1)) : ∀ j < bound + 1, ¬passes j := by
    intro j hj
    cases j with
    | zero => exact fails
    | succ j => exact h j (Nat.lt_of_succ_lt_succ hj)
  cases h with
  | @passed m value early before now =>
      have hleft : tick + interval + m * interval = tick + (m + 1) * interval := by
        rw [Nat.succ_mul]
        omega
      rw [hleft]
      exact .passed (Nat.succ_lt_succ early) (shift before) now
  | late never => exact .late (shift never)

/-- How a poll ends whose first check to pass is that of a number, if any: the checks that it makes,
its result and how long it takes. -/
inductive SwiftEnd (needed : Option Nat) (errors : PollErrors ε) (interval timeout : Nat) :
    Nat → Except ε β → Nat → Prop
  | passed {n : Nat} {value : β} (first : needed = some n) (early : max 1 n * interval < timeout) :
      SwiftEnd needed errors interval timeout (max 1 n) (.ok value) (max 1 n * interval)
  | late (none : ∀ n, needed = some n → timeout ≤ max 1 n * interval) :
      SwiftEnd needed errors interval timeout (timeout ⌈/⌉ interval - 1) (.error errors.timeout)
        timeout

/-- Of the ticks of a poll as many are before the deadline as fit between. -/
theorem lt_ticks_iff {interval timeout : Nat} (positive : 0 < interval) (m : Nat) :
    m < (timeout - 1) / interval ↔ (m + 1) * interval < timeout := by
  rw [Nat.lt_iff_add_one_le, Nat.le_div_iff_mul_le positive]
  have hpos : 0 < (m + 1) * interval := Nat.mul_pos (Nat.succ_pos m) positive
  omega

theorem ticks_eq_ceilDiv {interval : Nat} (positive : 0 < interval) (timeout : Nat) :
    (timeout - 1) / interval = timeout ⌈/⌉ interval - 1 := by
  rw [Nat.ceilDiv_eq_add_pred_div]
  rcases Nat.eq_zero_or_pos timeout with rfl | hpos
  · rw [Nat.zero_sub, Nat.zero_div, Nat.zero_add, Nat.div_eq_of_lt (Nat.sub_one_lt_of_lt positive)]
  · rw [show timeout + interval - 1 = timeout - 1 + interval by omega, Nat.add_div_right _ positive]
    rfl

/-- A poll whose checks pass from that of a number on ends with it or at the deadline. -/
theorem FirstPass.swiftEnd {needed : Option Nat} {errors : PollErrors ε}
    {interval timeout start checks left : Nat} {result : Except ε β} (positive : 0 < interval)
    (h : FirstPass (fun j => ∃ n, needed = some n ∧ n ≤ j + 1) errors interval (start + timeout)
      (start + interval) ((timeout - 1) / interval) checks result left) :
    ∃ duration, left = start + duration ∧
      SwiftEnd needed errors interval timeout checks result duration := by
  cases h with
  | @passed m value early before now =>
      obtain ⟨n, first, hn⟩ := now
      have hm : m + 1 = max 1 n := by
        refine Nat.le_antisymm ?_ (Nat.max_le.2 ⟨Nat.succ_pos m, hn⟩)
        cases m with
        | zero => exact Nat.le_max_left 1 n
        | succ m =>
            have hlate : ¬n ≤ m + 1 := fun hle => before m (Nat.lt_succ_self m) ⟨n, first, hle⟩
            omega
      have hearly := (lt_ticks_iff positive m).1 early
      refine ⟨(m + 1) * interval, ?_, ?_⟩
      · rw [Nat.succ_mul]
        omega
      · rw [hm] at hearly ⊢
        exact .passed first hearly
  | late never =>
      refine ⟨timeout, rfl, ?_⟩
      rw [ticks_eq_ceilDiv positive]
      refine .late fun n first => ?_
      obtain ⟨m, hm⟩ : ∃ m, max 1 n = m + 1 :=
        Nat.exists_eq_add_one.2 (Nat.lt_of_lt_of_le Nat.zero_lt_one (Nat.le_max_left 1 n))
      refine Nat.le_of_not_lt fun early => ?_
      rw [hm, ← lt_ticks_iff positive] at early
      exact never m early ⟨n, first, hm ▸ Nat.le_max_right 1 n⟩

variable [DecidableEq σ.CacheName] {cancelled : Token → Nat → Prop} {token : Token}
  {errors : PollErrors ε} {interval deadline arrived left k : Nat} {turns : List (Event W)}
  {result : Except ε β} {check : Routine σ (Except ε (Option β))}
  {expected : Nat → W.State → Prop} {counts : Event W → Bool} {tally : Event W → Option γ}
  {item : γ}

/-- A check that finds the world as expected takes no time. One of its turns counts, one is tallied,
and whether it passes is told by how many turns have counted before. -/
def SwiftCheck (cancelled : Token → Nat → Prop) (expected : Nat → W.State → Prop)
    (counts : Event W → Bool) (tally : Event W → Option γ) (item : γ) (passes : Nat → Prop)
    (check : Routine σ (Except ε (Option β))) : Prop :=
  ∀ {arrived left k : Nat} {turns : List (Event W)} {outcome : Except ε (Option β)},
    Paced (Event.Timely cancelled) arrived check turns (.done outcome) left →
      Attended expected counts k turns →
        left = arrived ∧ turns.countP counts = 1 ∧ turns.filterMap tally = [item] ∧
          ((passes k ∧ ∃ value, outcome = .ok (some value)) ∨ (¬passes k ∧ outcome = .ok none))

theorem Event.aboutTime_of_exchange {request : Request σ} {answer : request.Answer} {e : Event W}
    (answered : e.exchange = ⟨request, answer⟩) (time : request.AboutTime) :
    e.request.AboutTime := by
  rwa [show e.request = request from congrArg Exchange.request answered]

/-- Without cancellations a pause elapses. -/
theorem elapsed_of_never {e : Event W} {time : Nat} {wake : Wake} (timely : e.Timely cancelled arrived)
    (never : ∀ moment, ¬cancelled token moment)
    (answered : e.exchange = ⟨.pause (some token) time, wake⟩) : wake = .elapsed := by
  cases wake with
  | elapsed => rfl
  | cancelled => exact absurd (timely.cut answered) (never _)

/-- Where a poll is at a tick before the deadline in time, it checks at that tick, after some questions
about time. -/
theorem paced_tick {remaining tick : Nat} (never : ∀ moment, ¬cancelled token moment)
    (ahead : arrived ≤ tick) (early : tick < deadline)
    (h : Paced (Event.Timely cancelled) arrived
      (ticks token interval deadline errors check (remaining + 1) tick) turns (.done result) left) :
    ∃ before outcome own rest middle, turns = before ++ (own ++ rest) ∧
      (∀ e ∈ before, e.request.AboutTime) ∧
      Paced (Event.Timely cancelled) tick check own (.done outcome) middle ∧
      Paced (Event.Timely cancelled) middle
        (match outcome with
          | .ok (some value) => pure (.ok value)
          | .ok none => ticks token interval deadline errors check remaining (tick + interval)
          | .error e => pure (.error e)) rest (.done result) left := by
  obtain ⟨e, wake, rest, rfl, hpause, timely, hwake⟩ := Paced.of_request_bind h
  obtain rfl := elapsed_of_never timely never hpause
  have hclock : e.before.clock = tick :=
    (timely.clock_of_elapsed hpause).trans (Nat.max_eq_right ahead)
  obtain ⟨hour, time, rest, rfl, hnow, timely, htime⟩ := Paced.of_request_bind hwake
  have hhour := (clock_of_due timely hnow trivial).trans hclock
  obtain rfl : tick = time := hhour.symm.trans (Event.clock_of_now hnow)
  rw [if_neg (Nat.not_le.2 early), hhour] at htime
  obtain ⟨outcome, own, rest, middle, rfl, hown, hrest⟩ := Paced.of_bind htime
  refine ⟨[e, hour], outcome, own, rest, middle, rfl, ?_, hown, hrest⟩
  exact List.forall_mem_cons.2 ⟨Event.aboutTime_of_exchange hpause trivial,
    List.forall_mem_singleton.2 (Event.aboutTime_of_exchange hnow trivial)⟩

/-- The course of a poll with swift checks from one of its ticks on: the remaining ones are before the
deadline, and none is past when the poll arrives at it. -/
theorem firstPass_of_ticks {remaining tick : Nat} {passes : Nat → Prop}
    (swift : SwiftCheck cancelled expected counts tally item passes check)
    (idle : IdleInTime counts tally) (never : ∀ moment, ¬cancelled token moment)
    (fits : ∀ j < remaining, tick + j * interval < deadline) (ahead : arrived ≤ tick)
    (intime : arrived ≤ deadline)
    (h : Paced (Event.Timely cancelled) arrived
      (ticks token interval deadline errors check remaining tick) turns (.done result) left)
    (attended : Attended expected counts k turns) :
    ∃ checks, FirstPass (fun j => passes (k + j)) errors interval deadline tick remaining checks
        result left ∧
      turns.filterMap tally = List.replicate checks item := by
  induction remaining generalizing arrived tick k turns with
  | zero =>
      obtain ⟨e, wake, rest, rfl, hpause, timely, hwake⟩ := Paced.of_request_bind h
      obtain rfl := elapsed_of_never timely never hpause
      obtain ⟨rfl, rfl, rfl⟩ := Paced.of_pure hwake
      have time : ∀ e' ∈ [e], e'.request.AboutTime :=
        List.forall_mem_singleton.2 (Event.aboutTime_of_exchange hpause trivial)
      rw [timely.clock_of_elapsed hpause, Nat.max_eq_right intime]
      exact ⟨0, .late fun j hj => (nomatch hj), idle.filterMap_eq_nil time⟩
  | succ remaining ih =>
      have early : tick < deadline := by simpa using fits 0 (Nat.succ_pos remaining)
      obtain ⟨before, outcome, own, rest, middle, rfl, time, hown, hrest⟩ :=
        paced_tick never ahead early h
      obtain ⟨hattended, hlater⟩ := Attended.append_iff.1 (idle.attended time attended)
      obtain ⟨rfl, hone, hitem, hpasses⟩ := swift hown hattended
      rw [hone] at hlater
      have hitems : (before ++ (own ++ rest)).filterMap tally = item :: rest.filterMap tally := by
        rw [List.filterMap_append, List.filterMap_append, idle.filterMap_eq_nil time, hitem]
        rfl
      rw [hitems]
      rcases hpasses with ⟨now, value, rfl⟩ | ⟨fails, rfl⟩
      · obtain ⟨rfl, rfl, hleft⟩ := Paced.of_pure hrest
        refine ⟨1, ?_, rfl⟩
        rw [hleft]
        have hpassed : FirstPass (β := β) (fun j => passes (k + j)) errors interval deadline middle
            (remaining + 1) (0 + 1) (.ok value) (middle + 0 * interval) :=
          .passed (Nat.succ_pos remaining) (fun j hj => (nomatch hj)) now
        simpa using hpassed
      · have hfits : ∀ j < remaining, middle + interval + j * interval < deadline := by
          intro j hj
          have := fits (j + 1) (Nat.succ_lt_succ hj)
          rw [Nat.succ_mul] at this
          omega
        obtain ⟨checks, hcourse, htallied⟩ :=
          ih hfits (Nat.le_add_right middle interval) (Nat.le_of_lt early) hrest hlater
        refine ⟨checks + 1, FirstPass.next ?_ fails, by rw [htallied]; rfl⟩
        have hshift : (fun j => passes (k + 1 + j)) = fun j => passes (k + (j + 1)) := by
          funext j
          rw [Nat.add_assoc, Nat.add_comm 1 j]
        rwa [hshift] at hcourse

/-- A poll with swift checks that pass from that of a number on, without cancellations. -/
theorem swiftEnd_of_poll {timeout : Nat} {needed : Option Nat} (positive : 0 < interval)
    (swift : SwiftCheck cancelled expected counts tally item
      (fun k => ∃ n, needed = some n ∧ n ≤ k + 1) check)
    (idle : IdleInTime counts tally) (never : ∀ moment, ¬cancelled token moment)
    (h : Paced (Event.Timely cancelled) arrived (poll token interval timeout errors check) turns
      (.done result) left) (attended : Attended expected counts 0 turns) :
    ∃ checks duration, SwiftEnd needed errors interval timeout checks result duration ∧
      left = arrived + duration ∧ turns.filterMap tally = List.replicate checks item := by
  obtain ⟨hour, start, rest, rfl, hnow, timely, hstart⟩ := Paced.of_request_bind h
  have hclock := clock_of_due timely hnow trivial
  obtain rfl : arrived = start := hclock.symm.trans (Event.clock_of_now hnow)
  rw [hclock] at hstart
  obtain ⟨setting, _, rest, rfl, hset, timely, halarm⟩ := Paced.of_request_bind hstart
  rw [clock_of_due timely hset trivial] at halarm
  obtain ⟨result', own, rest, middle, rfl, hticks, hrest⟩ := Paced.of_bind halarm
  obtain ⟨dropping, _, rest, rfl, hdrop, timely, hdone⟩ := Paced.of_request_bind hrest
  rw [clock_of_due timely hdrop trivial] at hdone
  obtain ⟨rfl, rfl, rfl⟩ := Paced.of_pure hdone
  have opening : ∀ e ∈ [hour, setting], e.request.AboutTime :=
    List.forall_mem_cons.2 ⟨Event.aboutTime_of_exchange hnow trivial,
      List.forall_mem_singleton.2 (Event.aboutTime_of_exchange hset trivial)⟩
  have closing : ∀ e ∈ [dropping], e.request.AboutTime :=
    List.forall_mem_singleton.2 (Event.aboutTime_of_exchange hdrop trivial)
  have attended : Attended expected counts 0 ([hour, setting] ++ (own ++ [dropping])) := attended
  have fits : ∀ j < (timeout - 1) / interval,
      arrived + interval + j * interval < arrived + timeout := by
    intro j hj
    have := (lt_ticks_iff positive j).1 hj
    rw [Nat.succ_mul] at this
    omega
  obtain ⟨checks, course, htallied⟩ := firstPass_of_ticks swift idle never fits
    (Nat.le_add_right arrived interval) (Nat.le_add_right arrived timeout) hticks
    (Attended.append_iff.1 (idle.attended opening attended)).1
  simp only [Nat.zero_add] at course
  obtain ⟨duration, hleft, hend⟩ := course.swiftEnd positive
  refine ⟨checks, duration, hend, hleft, ?_⟩
  change ([hour, setting] ++ (own ++ [dropping])).filterMap tally = _
  rw [List.filterMap_append, List.filterMap_append, idle.filterMap_eq_nil opening,
    idle.filterMap_eq_nil closing, htallied, List.nil_append, List.append_nil]

end NodeFleet
