import Mathlib.Algebra.Order.Floor.Div
import NodeFleet.Proofs.Routine.Pace

/-!
# Polls are punctual

A poll goes on as long as its next tick is before the deadline; it counts these ticks in advance.
In a prompt history its checks begin at the ticks, or as soon as the check before them has ended,
always before the deadline and never after a cancellation. The first check that yields a value or
fails is the last one. A poll ends with it, or at the deadline, or when its token is cancelled, or
as soon as the check that is running then has ended.
-/

namespace NodeFleet

variable {σ : Signature} {W : World σ} {ε β : Type}

namespace Routine

section Ticks

variable {token : Token} {errors : PollErrors ε}
  {check : Routine σ (Except ε (Option β))} {interval deadline tick : Nat}

/-- How many ticks there are before the deadline, from one of them on. -/
def ticksBefore (interval deadline tick : Nat) : Nat :=
  (deadline - tick) ⌈/⌉ interval

theorem ticksBefore_of_le (h : deadline ≤ tick) : ticksBefore interval deadline tick = 0 := by
  rw [ticksBefore, Nat.sub_eq_zero_of_le h, zero_ceilDiv]

theorem ticksBefore_of_lt (positive : 0 < interval) (h : tick < deadline) :
    ticksBefore interval deadline tick = ticksBefore interval deadline (tick + interval) + 1 := by
  rw [ticksBefore, ticksBefore, Nat.ceilDiv_eq_add_pred_div, Nat.ceilDiv_eq_add_pred_div,
    ← Nat.add_div_right _ positive]
  by_cases hlast : deadline ≤ tick + interval
  · rw [Nat.div_eq_of_lt_le (k := 1), Nat.div_eq_of_lt_le (k := 1)] <;> omega
  · congr 1
    omega

/-- The ticks of a poll are counted in advance, and the count is never what ends it: the poll goes on
as long as its next tick is before the deadline. -/
theorem ticks_ticksBefore (positive : 0 < interval) :
    ticks token interval deadline errors check (ticksBefore interval deadline tick) tick =
      if deadline ≤ tick then giveUp token deadline errors
      else do
        match ← pause (some token) tick with
        | .cancelled => return .error errors.cancelled
        | .elapsed =>
            if deadline ≤ (← now) then return .error errors.timeout
            match ← check with
            | .ok (some value) => return .ok value
            | .ok none =>
                ticks token interval deadline errors check
                  (ticksBefore interval deadline (tick + interval)) (tick + interval)
            | .error e => return .error e := by
  by_cases hlate : deadline ≤ tick
  · rw [if_pos hlate, ticksBefore_of_le hlate, ticks]
  · rw [if_neg hlate, ticksBefore_of_lt positive (Nat.lt_of_not_le hlate)]
    rfl

/-- At its start a poll counts the ticks before its deadline. -/
theorem poll_eq_ticksBefore {timeout : Nat} (positive : 0 < interval) :
    poll token interval timeout errors check = (do
      let start ← now
      withAlarm (start + timeout) <|
        ticks token interval (start + timeout) errors check
          (ticksBefore interval (start + timeout) (start + interval)) (start + interval)) := by
  refine congrArg (now >>= ·) (funext fun start => ?_)
  have hcount : ticksBefore interval (start + timeout) (start + interval) =
      (timeout - 1) / interval := by
    rw [ticksBefore, Nat.ceilDiv_eq_add_pred_div]
    rcases Nat.lt_or_ge (timeout - 1) interval with h | h
    · rw [Nat.div_eq_of_lt h, Nat.div_eq_of_lt]
      omega
    · congr 1
      omega
  rw [hcount]

end Ticks
end Routine

/-- A check of a poll: the turn with which it begins, the one with which it ends, and what it
yields. -/
structure Round (W : World σ) (ε β : Type) where
  begun : Event W
  answered : Event W
  outcome : Except ε (Option β)

namespace Round

/-- When a check begins. -/
def began (round : Round W ε β) : Nat :=
  round.begun.before.clock

/-- When a check ends. -/
def ended (round : Round W ε β) : Nat :=
  round.answered.before.clock

/-- A check is running at a moment. -/
def InFlight (round : Round W ε β) (moment : Nat) : Prop :=
  round.began ≤ moment ∧ moment ≤ round.ended

/-- A check begins at its tick, or when the poll is no longer busy, before the deadline and not after
a cancellation. -/
structure OnTime (cancelled : Nat → Prop) (deadline arrived tick : Nat) (round : Round W ε β) :
    Prop where
  began_eq : round.began = max arrived tick
  early : round.began < deadline
  uncut {moment : Nat} (h : cancelled moment) : round.began ≤ moment
  runs : round.began ≤ round.ended

namespace OnTime

variable {cancelled : Nat → Prop} {deadline arrived tick moment : Nat} {round : Round W ε β}

theorem arrived_le (h : round.OnTime cancelled deadline arrived tick) : arrived ≤ round.began :=
  h.began_eq ▸ Nat.le_max_left arrived tick

theorem tick_le (h : round.OnTime cancelled deadline arrived tick) : tick ≤ round.began :=
  h.began_eq ▸ Nat.le_max_right arrived tick

/-- A check does not begin after a cancellation or after the deadline. -/
theorem began_le (h : round.OnTime cancelled deadline arrived tick)
    (past : cancelled moment ∨ deadline ≤ moment) : round.began ≤ moment := by
  rcases past with hcancelled | hdeadline
  · exact h.uncut hcancelled
  · exact Nat.le_of_lt (Nat.lt_of_lt_of_le h.early hdeadline)

end OnTime

end Round

open Routine (Paced PollErrors conclusive ticks poll)

/-- How a poll goes on that is no longer busy from a moment on and has its next tick at another: its
checks, its result, and when it ends. -/
inductive PollCourse (cancelled : Nat → Prop) (errors : PollErrors ε) (interval deadline : Nat) :
    Nat → Nat → List (Round W ε β) → Except ε β → Nat → Prop
  | cancelled {arrived tick left : Nat} (since : arrived ≤ left) (cut : cancelled left)
      (prompt : ∀ moment, arrived ≤ moment → cancelled moment ∨ deadline ≤ moment →
        left ≤ moment) :
      PollCourse cancelled errors interval deadline arrived tick [] (.error errors.cancelled) left
  | timeout {arrived tick left : Nat} (since : arrived ≤ left) (late : deadline ≤ left)
      (prompt : ∀ moment, arrived ≤ moment → cancelled moment ∨ deadline ≤ moment →
        left ≤ moment) :
      PollCourse cancelled errors interval deadline arrived tick [] (.error errors.timeout) left
  | concluded {arrived tick : Nat} {round : Round W ε β} {result : Except ε β}
      (onTime : round.OnTime cancelled deadline arrived tick)
      (outcome : round.outcome = conclusive result) :
      PollCourse cancelled errors interval deadline arrived tick [round] result round.ended
  | pending {arrived tick left : Nat} {round : Round W ε β} {rounds : List (Round W ε β)}
      {result : Except ε β} (onTime : round.OnTime cancelled deadline arrived tick)
      (outcome : round.outcome = .ok none)
      (rest : PollCourse cancelled errors interval deadline round.ended (tick + interval) rounds
        result left) :
      PollCourse cancelled errors interval deadline arrived tick (round :: rounds) result left

namespace PollCourse

variable {cancelled : Nat → Prop} {errors : PollErrors ε} {interval deadline arrived tick left : Nat}
  {rounds : List (Round W ε β)} {result : Except ε β}

theorem since (h : PollCourse cancelled errors interval deadline arrived tick rounds result left) :
    arrived ≤ left := by
  induction h with
  | cancelled since => exact since
  | timeout since => exact since
  | concluded onTime => exact Nat.le_trans onTime.arrived_le onTime.runs
  | pending onTime _ _ ih => exact Nat.le_trans (Nat.le_trans onTime.arrived_le onTime.runs) ih

/-- Every check begins at its tick or later. -/
theorem tick_le (h : PollCourse cancelled errors interval deadline arrived tick rounds result left)
    (k : Nat) (hk : k < rounds.length) : tick + k * interval ≤ rounds[k].began := by
  induction h generalizing k with
  | cancelled => cases hk
  | timeout => cases hk
  | concluded onTime =>
      obtain rfl : k = 0 := Nat.lt_one_iff.1 hk
      rw [Nat.zero_mul, Nat.add_zero]
      exact onTime.tick_le
  | pending onTime _ _ ih =>
      cases k with
      | zero =>
          rw [Nat.zero_mul, Nat.add_zero]
          exact onTime.tick_le
      | succ k =>
          have hrest := ih k (Nat.lt_of_succ_lt_succ hk)
          rw [List.getElem_cons_succ, Nat.succ_mul]
          omega

/-- Every check begins before the deadline and not after a cancellation. -/
theorem onTime (h : PollCourse cancelled errors interval deadline arrived tick rounds result left) :
    ∀ round ∈ rounds, round.began < deadline ∧ ∀ moment, cancelled moment → round.began ≤ moment := by
  induction h with
  | cancelled => exact List.forall_mem_nil _
  | timeout => exact List.forall_mem_nil _
  | concluded onTime =>
      exact List.forall_mem_singleton.2 ⟨onTime.early, fun _ => onTime.uncut⟩
  | pending onTime _ _ ih =>
      exact List.forall_mem_cons.2 ⟨⟨onTime.early, fun _ => onTime.uncut⟩, ih⟩

/-- A check that yields a value or fails is the last one, and the poll ends with it and has its
result. -/
theorem concludes
    (h : PollCourse cancelled errors interval deadline arrived tick rounds result left) :
    ∀ round ∈ rounds, round.outcome ≠ .ok none →
      rounds.getLast? = some round ∧ round.outcome = conclusive result ∧ left = round.ended := by
  induction h with
  | cancelled => exact List.forall_mem_nil _
  | timeout => exact List.forall_mem_nil _
  | concluded _ outcome => exact List.forall_mem_singleton.2 fun _ => ⟨rfl, outcome, rfl⟩
  | @pending _ _ _ round rounds _ _ outcome _ ih =>
      refine List.forall_mem_cons.2 ⟨fun hne => absurd outcome hne, fun later hlater hne => ?_⟩
      obtain ⟨hlast, hresult⟩ := ih later hlater hne
      exact ⟨by rw [List.getLast?_cons, hlast]; rfl, hresult⟩

/-- A poll without such a check ends because of its token or at the deadline. -/
theorem gives_up (h : PollCourse cancelled errors interval deadline arrived tick rounds result left)
    (pending : ∀ round ∈ rounds, round.outcome = .ok none) :
    (result = .error errors.cancelled ∧ cancelled left) ∨
      (result = .error errors.timeout ∧ deadline ≤ left) := by
  induction h with
  | cancelled _ cut => exact .inl ⟨rfl, cut⟩
  | timeout _ late => exact .inr ⟨rfl, late⟩
  | @concluded _ _ _ result _ outcome =>
      rw [List.forall_mem_singleton.1 pending] at outcome
      cases result <;> cases outcome
  | pending _ _ _ ih => exact ih (List.forall_mem_cons.1 pending).2

/-- A poll that is busy at a moment after which no check begins ends when it is no longer busy. -/
theorem left_eq (h : PollCourse cancelled errors interval deadline arrived tick rounds result left)
    (mono : ∀ {moment later}, moment ≤ later → cancelled moment → cancelled later) {moment : Nat}
    (busy : moment < arrived) (past : cancelled moment ∨ deadline ≤ moment) : left = arrived := by
  have past' : cancelled arrived ∨ deadline ≤ arrived :=
    past.imp (mono (Nat.le_of_lt busy)) fun h => Nat.le_trans h (Nat.le_of_lt busy)
  cases h with
  | cancelled since _ prompt => exact Nat.le_antisymm (prompt _ (Nat.le_refl _) past') since
  | timeout since _ prompt => exact Nat.le_antisymm (prompt _ (Nat.le_refl _) past') since
  | concluded onTime =>
      exact absurd (Nat.le_trans onTime.arrived_le (onTime.began_le past)) (Nat.not_le.2 busy)
  | pending onTime =>
      exact absurd (Nat.le_trans onTime.arrived_le (onTime.began_le past)) (Nat.not_le.2 busy)

/-- A poll ends by the deadline and by a cancellation, or with the check that is running then. -/
theorem ends_by (h : PollCourse cancelled errors interval deadline arrived tick rounds result left)
    (mono : ∀ {moment later}, moment ≤ later → cancelled moment → cancelled later) {moment : Nat}
    (later : arrived ≤ moment) (past : cancelled moment ∨ deadline ≤ moment) :
    left ≤ moment ∨ ∃ round ∈ rounds, round.InFlight moment ∧ left = round.ended := by
  induction h with
  | cancelled _ _ prompt => exact .inl (prompt moment later past)
  | timeout _ _ prompt => exact .inl (prompt moment later past)
  | @concluded _ _ round _ onTime _ =>
      rcases Nat.le_total round.ended moment with hended | hrunning
      · exact .inl hended
      · exact .inr ⟨round, List.mem_cons_self, ⟨onTime.began_le past, hrunning⟩, rfl⟩
  | @pending _ _ _ round _ _ onTime _ rest ih =>
      by_cases hended : round.ended ≤ moment
      · exact (ih hended).imp_right fun ⟨later, hlater, running⟩ =>
          ⟨later, List.mem_cons_of_mem _ hlater, running⟩
      · have hrunning := Nat.lt_of_not_le hended
        exact .inr ⟨round, List.mem_cons_self, ⟨onTime.began_le past, Nat.le_of_lt hrunning⟩,
          rest.left_eq mono hrunning past⟩

/-- The checks of a poll fit into its time. -/
theorem length_mul_lt {start timeout : Nat}
    (h : PollCourse cancelled errors interval (start + timeout) start (start + interval) rounds result
      left) (some : rounds ≠ []) : rounds.length * interval < timeout := by
  have hlt : rounds.length - 1 < rounds.length := Nat.sub_one_lt (mt List.length_eq_zero_iff.1 some)
  have hbegan := h.tick_le _ hlt
  have hearly := (h.onTime _ (List.getElem_mem hlt)).1
  have hsucc : rounds.length * interval = (rounds.length - 1) * interval + interval := by
    rw [← Nat.succ_mul, Nat.succ_eq_add_one, Nat.sub_add_cancel (Nat.zero_lt_of_lt hlt)]
  omega

/-- A poll makes fewer checks than there are intervals in its time, the last of them perhaps cut
off. -/
theorem length_le {start timeout : Nat} (positive : 0 < interval)
    (h : PollCourse cancelled errors interval (start + timeout) start (start + interval) rounds result
      left) : rounds.length ≤ timeout ⌈/⌉ interval - 1 := by
  rcases rounds with _ | ⟨round, rounds⟩
  · exact Nat.zero_le _
  · have hfits := h.length_mul_lt (List.cons_ne_nil _ _)
    rw [Nat.ceilDiv_eq_add_pred_div]
    refine Nat.le_sub_one_of_lt ((Nat.le_div_iff_mul_le positive).2 ?_)
    rw [Nat.succ_mul]
    omega

end PollCourse

/-- What is known of a check that is made in time: it takes certain turns, of which only one is that
of a beginning. -/
structure Round.Made (begins : Event W → Bool) (known : Round W ε β → Prop) (arrived : Nat)
    (turns : List (Event W)) (outcome : Except ε (Option β)) (left : Nat) (round : Round W ε β) :
    Prop where
  began : round.began = arrived
  ended : round.ended = left
  runs : arrived ≤ left
  outcome : round.outcome = outcome
  once : turns.filter begins = [round.begun]
  answered : round.answered ∈ turns
  known : known round

/-- The checks of a poll among its turns. -/
structure Rounds (begins : Event W → Bool) (known : Round W ε β → Prop) (turns : List (Event W))
    (rounds : List (Round W ε β)) : Prop where
  begun : turns.filter begins = rounds.map Round.begun
  answered : ∀ round ∈ rounds, round.answered ∈ turns ∧ known round

namespace Rounds

variable {begins : Event W → Bool} {known : Round W ε β → Prop} {rounds : List (Round W ε β)}
  {turns before rest : List (Event W)}

theorem nil (idle : ∀ e ∈ turns, begins e = false) : Rounds begins known turns [] := by
  refine ⟨?_, List.forall_mem_nil _⟩
  rw [List.map_nil, List.filter_eq_nil_iff]
  exact fun e he => by simp [idle e he]

/-- The turns of a poll in which no check begins may be left out. -/
theorem append (h : Rounds begins known rest rounds) (idle : ∀ e ∈ before, begins e = false)
    (after : ∀ e ∈ turns, begins e = false) :
    Rounds begins known (before ++ rest ++ turns) rounds := by
  constructor
  · rw [List.filter_append, List.filter_append, h.begun,
      List.filter_eq_nil_iff.2 fun e he => by simp [idle e he],
      List.filter_eq_nil_iff.2 fun e he => by simp [after e he]]
    simp
  · intro round hround
    obtain ⟨hanswered, hknown⟩ := h.answered round hround
    exact ⟨List.mem_append_left _ (List.mem_append_right _ hanswered), hknown⟩

theorem cons {round : Round W ε β} {own : List (Event W)} {outcome : Except ε (Option β)}
    {arrived left : Nat} (h : Rounds begins known rest rounds)
    (made : round.Made begins known arrived own outcome left) :
    Rounds begins known (own ++ rest) (round :: rounds) := by
  constructor
  · rw [List.filter_append, made.once, h.begun]
    rfl
  · refine List.forall_mem_cons.2 ⟨⟨List.mem_append_left _ made.answered, made.known⟩, ?_⟩
    exact fun later hlater => ⟨List.mem_append_right _ (h.answered later hlater).1,
      (h.answered later hlater).2⟩

end Rounds

variable [DecidableEq σ.CacheName] {cancelled : Token → Nat → Prop} {token : Token}
  {errors : PollErrors ε} {interval deadline arrived left : Nat} {turns : List (Event W)}
  {result : Except ε β} {check : Routine σ (Except ε (Option β))} {begins : Event W → Bool}
  {known : Round W ε β → Prop}

/-- Whenever a routine is gone through in time, something is known of it as a check. -/
def Checks (cancelled : Token → Nat → Prop) (begins : Event W → Bool) (known : Round W ε β → Prop)
    (check : Routine σ (Except ε (Option β))) : Prop :=
  ∀ {arrived left : Nat} {turns : List (Event W)} {outcome : Except ε (Option β)},
    Paced (Event.Timely cancelled) arrived check turns (.done outcome) left →
      ∃ round : Round W ε β, round.Made begins known arrived turns outcome left

/-- No check begins with a question about time. -/
theorem not_begins {request : Request σ} {answer : request.Answer} {e : Event W}
    (idle : ∀ e : Event W, e.request.AboutTime → begins e = false)
    (answered : e.exchange = ⟨request, answer⟩) (time : request.AboutTime) : begins e = false := by
  refine idle e ?_
  rw [show e.request = request from congrArg Exchange.request answered]
  exact time

/-- A question that is due on arrival is answered then. -/
theorem clock_of_due {request : Request σ} {answer : request.Answer} {e : Event W}
    (timely : e.Timely cancelled arrived) (answered : e.exchange = ⟨request, answer⟩)
    (due : request.DueBy cancelled arrived) : e.before.clock = arrived := by
  refine timely.clock_eq ?_
  rw [show e.request = request from congrArg Exchange.request answered]
  exact due

/-- When a poll that waits for a moment no later than the deadline is found to be cancelled, it has
ended in time. -/
theorem course_of_cut {e : Event W} {time tick : Nat} (timely : e.Timely cancelled arrived)
    (answered : e.exchange = ⟨.pause (some token) time, .cancelled⟩) (early : time ≤ deadline) :
    PollCourse (W := W) (β := β) (cancelled token) errors interval deadline arrived tick []
      (.error errors.cancelled) e.before.clock :=
  .cancelled timely.since (timely.cut answered) fun _ later past =>
    timely.pause_le answered later (past.imp_right fun h => Nat.le_trans early h)

/-- When a poll that has waited for a moment no later than the deadline finds the deadline passed, it
has ended in time. -/
theorem course_of_late {e : Event W} {time tick : Nat} (timely : e.Timely cancelled arrived)
    (answered : e.exchange = ⟨.pause (some token) time, .elapsed⟩) (early : time ≤ deadline)
    (late : deadline ≤ e.before.clock) :
    PollCourse (W := W) (β := β) (cancelled token) errors interval deadline arrived tick []
      (.error errors.timeout) e.before.clock :=
  .timeout timely.since late fun _ later past =>
    timely.pause_le answered later (past.imp_right fun h => Nat.le_trans early h)

/-- A check that is made as soon as the pause for its tick has elapsed, before the deadline, is on
time. -/
theorem onTime_of_made {e : Event W} {tick : Nat} {own : List (Event W)}
    {outcome : Except ε (Option β)} {round : Round W ε β} (timely : e.Timely cancelled arrived)
    (answered : e.exchange = ⟨.pause (some token) tick, .elapsed⟩)
    (made : round.Made begins known e.before.clock own outcome left)
    (early : e.before.clock < deadline) : round.OnTime (cancelled token) deadline arrived tick where
  began_eq := made.began.trans (timely.clock_of_elapsed answered)
  early := made.began ▸ early
  uncut hcut := made.began ▸ (timely.elapsed answered).2 _ hcut
  runs := by
    rw [made.began, made.ended]
    exact made.runs

theorem course_of_giveUp {tick : Nat}
    (idle : ∀ e : Event W, e.request.AboutTime → begins e = false)
    (h : Paced (Event.Timely cancelled) arrived (Routine.giveUp token deadline errors) turns
      (.done result) left) :
    ∃ rounds, PollCourse (cancelled token) errors interval deadline arrived tick rounds result left ∧
      Rounds begins known turns rounds := by
  obtain ⟨e, wake, rest, rfl, hexchange, timely, hwake⟩ := Paced.of_request_bind h
  have hidle := not_begins idle hexchange trivial
  cases wake with
  | cancelled =>
      obtain ⟨rfl, rfl, rfl⟩ := Paced.of_pure hwake
      exact ⟨[], course_of_cut timely hexchange (Nat.le_refl _),
        .nil (List.forall_mem_singleton.2 hidle)⟩
  | elapsed =>
      obtain ⟨rfl, rfl, rfl⟩ := Paced.of_pure hwake
      exact ⟨[], course_of_late timely hexchange (Nat.le_refl _) (timely.elapsed hexchange).1,
        .nil (List.forall_mem_singleton.2 hidle)⟩

/-- The course of a poll from one of its ticks on: the remaining ones are before the deadline. -/
theorem course_of_ticks {remaining tick : Nat} (checks : Checks cancelled begins known check)
    (idle : ∀ e : Event W, e.request.AboutTime → begins e = false)
    (fits : tick + remaining * interval ≤ deadline + interval)
    (h : Paced (Event.Timely cancelled) arrived
      (ticks token interval deadline errors check remaining tick) turns (.done result) left) :
    ∃ rounds, PollCourse (cancelled token) errors interval deadline arrived tick rounds result left ∧
      Rounds begins known turns rounds := by
  induction remaining generalizing arrived tick turns with
  | zero => exact course_of_giveUp idle h
  | succ remaining ih =>
      rw [Nat.succ_mul] at fits
      have early : tick ≤ deadline := by omega
      obtain ⟨e, wake, rest, rfl, hexchange, timely, hwake⟩ := Paced.of_request_bind h
      have hpause := not_begins idle hexchange trivial
      cases wake with
      | cancelled =>
          obtain ⟨rfl, rfl, rfl⟩ := Paced.of_pure hwake
          exact ⟨[], course_of_cut timely hexchange early,
            .nil (List.forall_mem_singleton.2 hpause)⟩
      | elapsed =>
          obtain ⟨hour, time, rest, rfl, hnow, timely', htime⟩ := Paced.of_request_bind hwake
          have hhour := not_begins idle hnow trivial
          have hclock := clock_of_due timely' hnow trivial
          have htold := Event.clock_of_now hnow
          have hidle : ∀ turn ∈ [e, hour], begins turn = false := by simp [hpause, hhour]
          by_cases hlate : deadline ≤ time
          · rw [if_pos hlate] at htime
            obtain ⟨rfl, rfl, rfl⟩ := Paced.of_pure htime
            rw [hclock]
            exact ⟨[], course_of_late timely hexchange early (by omega), .nil hidle⟩
          · rw [if_neg hlate] at htime
            obtain ⟨outcome, own, rest, middle, rfl, hown, hrest⟩ := Paced.of_bind htime
            obtain ⟨round, made⟩ := checks hown
            rw [hclock] at made
            have intime : e.before.clock < deadline := by omega
            have onTime := onTime_of_made timely hexchange made intime
            obtain rfl := made.ended
            have hcons (rounds : List (Round W ε β)) (h : Rounds begins known rest rounds) :
                Rounds begins known (e :: hour :: (own ++ rest)) (round :: rounds) := by
              simpa using (h.cons made).append hidle (List.forall_mem_nil _)
            match outcome with
            | .ok (some value) =>
                obtain ⟨rfl, rfl, rfl⟩ := Paced.of_pure hrest
                exact ⟨[round], .concluded onTime made.outcome,
                  hcons [] (.nil (List.forall_mem_nil _))⟩
            | .error error =>
                obtain ⟨rfl, rfl, rfl⟩ := Paced.of_pure hrest
                exact ⟨[round], .concluded onTime made.outcome,
                  hcons [] (.nil (List.forall_mem_nil _))⟩
            | .ok none =>
                obtain ⟨rounds, course, hrounds⟩ := ih (by omega) hrest
                exact ⟨round :: rounds, .pending onTime made.outcome course, hcons rounds hrounds⟩

/-- The course of a poll from its start. -/
theorem course_of_poll {timeout : Nat} (checks : Checks cancelled begins known check)
    (idle : ∀ e : Event W, e.request.AboutTime → begins e = false)
    (h : Paced (Event.Timely cancelled) arrived (poll token interval timeout errors check) turns
      (.done result) left) :
    ∃ rounds, PollCourse (cancelled token) errors interval (arrived + timeout) arrived
        (arrived + interval) rounds result left ∧
      Rounds begins known turns rounds := by
  obtain ⟨hour, start, rest, rfl, hnow, timely, hstart⟩ := Paced.of_request_bind h
  have hhour := not_begins idle hnow trivial
  have hclock := clock_of_due timely hnow trivial
  obtain rfl : arrived = start := hclock.symm.trans (Event.clock_of_now hnow)
  rw [hclock] at hstart
  obtain ⟨setting, _, rest, rfl, hset, timely, halarm⟩ := Paced.of_request_bind hstart
  have hsetting := not_begins idle hset trivial
  have hclock := clock_of_due timely hset trivial
  rw [hclock] at halarm
  obtain ⟨result', own, rest, middle, rfl, hticks, hrest⟩ := Paced.of_bind halarm
  obtain ⟨dropping, _, rest, rfl, hdrop, timely, hdone⟩ := Paced.of_request_bind hrest
  have hdropping := not_begins idle hdrop trivial
  have hclock := clock_of_due timely hdrop trivial
  rw [hclock] at hdone
  obtain ⟨rfl, rfl, rfl⟩ := Paced.of_pure hdone
  have fits := Nat.div_mul_le_self (timeout - 1) interval
  obtain ⟨rounds, course, hrounds⟩ := course_of_ticks checks idle (by omega) hticks
  have hbefore : ∀ e ∈ [hour, setting], begins e = false := by simp [hhour, hsetting]
  exact ⟨rounds, course, hrounds.append hbefore (List.forall_mem_singleton.2 hdropping)⟩

end NodeFleet
