import NodeFleet.Proofs.Routine.Path
import NodeFleet.Routine.Poll

/-!
# What a poll yields

A poll yields what one of its checks has yielded, or it was cancelled, or it ran out of time. Apart
from what its checks ask it asks only about time.
-/

namespace NodeFleet

/-- A question about time: the hour, a pause or an alarm. -/
def Request.AboutTime {σ : Signature} : Request σ → Prop
  | .now => True
  | .pause _ _ => True
  | .setAlarm _ => True
  | .dropAlarm _ => True
  | _ => False

namespace Routine

variable {σ : Signature} {ε β : Type} {token : Token} {interval deadline : Nat}
  {errors : PollErrors ε} {check : Routine σ (Except ε (Option β))}

/-- What a check has to yield for a poll to yield a result. -/
def conclusive : Except ε β → Except ε (Option β)
  | .ok value => .ok (some value)
  | .error e => .error e

/-- A poll ends as one of its checks does, or because of its token or its deadline. -/
def Concludes (errors : PollErrors ε) (check : Routine σ (Except ε (Option β)))
    (trace : List (Exchange σ)) (result : Except ε β) : Prop :=
  (∃ before own after, trace = before ++ own ++ after ∧ Ends check own (conclusive result)) ∨
    result = .error errors.cancelled ∨ result = .error errors.timeout

theorem Concludes.append_left {trace : List (Exchange σ)} {result : Except ε β}
    (h : Concludes errors check trace result) (earlier : List (Exchange σ)) :
    Concludes errors check (earlier ++ trace) result := by
  rcases h with ⟨before, own, after, rfl, hown⟩ | h
  · exact .inl ⟨earlier ++ before, own, after, by simp, hown⟩
  · exact .inr h

theorem Concludes.append_right {trace : List (Exchange σ)} {result : Except ε β}
    (h : Concludes errors check trace result) (later : List (Exchange σ)) :
    Concludes errors check (trace ++ later) result := by
  rcases h with ⟨before, own, after, rfl, hown⟩ | h
  · exact .inl ⟨before, own, after ++ later, by simp, hown⟩
  · exact .inr h

theorem ends_giveUp {trace : List (Exchange σ)} {result : Except ε β}
    (h : Ends (giveUp token deadline errors) trace result) :
    result = .error errors.cancelled ∨ result = .error errors.timeout := by
  obtain ⟨wake, tail, rfl, hwake⟩ := ends_request_bind.1 h
  cases wake with
  | cancelled => exact .inl (ends_pure.1 hwake).2
  | elapsed => exact .inr (ends_pure.1 hwake).2

theorem ends_ticks {remaining tick : Nat} {trace : List (Exchange σ)} {result : Except ε β}
    (h : Ends (ticks token interval deadline errors check remaining tick) trace result) :
    Concludes errors check trace result := by
  induction remaining generalizing tick trace with
  | zero => exact .inr (ends_giveUp h)
  | succ remaining ih =>
      obtain ⟨wake, tail, rfl, hwake⟩ := ends_request_bind.1 h
      cases wake with
      | cancelled => exact .inr (.inl (ends_pure.1 hwake).2)
      | elapsed =>
          obtain ⟨time, tail, rfl, htime⟩ := ends_request_bind.1 hwake
          by_cases hlate : deadline ≤ time
          · rw [if_pos hlate] at htime
            exact .inr (.inr (ends_pure.1 htime).2)
          · rw [if_neg hlate] at htime
            obtain ⟨outcome, own, rest, rfl, hown, hrest⟩ := ends_bind.1 htime
            match outcome with
            | .ok (some value) =>
                obtain ⟨rfl, rfl⟩ := ends_pure.1 hrest
                exact .inl ⟨[_, _], own, [], rfl, hown⟩
            | .error e =>
                obtain ⟨rfl, rfl⟩ := ends_pure.1 hrest
                exact .inl ⟨[_, _], own, [], rfl, hown⟩
            | .ok none =>
                exact (ih hrest).append_left (⟨_, _⟩ :: ⟨_, _⟩ :: own)

theorem ends_poll {timeout : Nat} {trace : List (Exchange σ)} {result : Except ε β}
    (h : Ends (poll token interval timeout errors check) trace result) :
    Concludes errors check trace result := by
  obtain ⟨start, tail, rfl, hstart⟩ := ends_request_bind.1 h
  obtain ⟨_, tail, rfl, halarm⟩ := ends_request_bind.1 hstart
  obtain ⟨result', own, rest, rfl, hown, hrest⟩ := ends_bind.1 halarm
  obtain ⟨_, tail, rfl, hdone⟩ := ends_request_bind.1 hrest
  obtain ⟨rfl, rfl⟩ := ends_pure.1 hdone
  exact ((ends_ticks hown).append_right [⟨_, _⟩]).append_left [⟨_, _⟩, ⟨_, _⟩]

section Obeys

variable {asks : Request σ → Prop} {yields : Except ε β → Prop}

/-- A poll asks what its checks ask, and about time. -/
theorem obeys_poll {timeout : Nat} (checked : Except ε (Option β) → Prop)
    (hcheck : Obeys asks checked check)
    (htime : ∀ request : Request σ, request.AboutTime → asks request)
    (hresult : ∀ result, checked (conclusive result) → yields result)
    (hcancelled : yields (.error errors.cancelled)) (htimeout : yields (.error errors.timeout)) :
    Obeys asks yields (poll token interval timeout errors check) := by
  have hgiveUp (deadline : Nat) :
      Obeys asks yields (giveUp token deadline errors : Routine σ (Except ε β)) := by
    refine ⟨htime _ trivial, fun wake => ?_⟩
    cases wake with
    | cancelled => exact hcancelled
    | elapsed => exact htimeout
  have hticks (deadline remaining tick : Nat) :
      Obeys asks yields (ticks token interval deadline errors check remaining tick) := by
    induction remaining generalizing tick with
    | zero => exact hgiveUp deadline
    | succ remaining ih =>
        refine ⟨htime _ trivial, fun wake => ?_⟩
        cases wake with
        | cancelled => exact hcancelled
        | elapsed =>
            refine ⟨htime _ trivial, fun time => ?_⟩
            by_cases hlate : deadline ≤ time
            · change Obeys asks yields (if deadline ≤ time then _ else _)
              rw [if_pos hlate]
              exact htimeout
            · change Obeys asks yields (if deadline ≤ time then _ else _)
              rw [if_neg hlate]
              refine hcheck.bind fun outcome houtcome => ?_
              match outcome with
              | .ok (some value) => exact hresult (.ok value) houtcome
              | .error e => exact hresult (.error e) houtcome
              | .ok none => exact ih (tick + interval)
  refine ⟨htime _ trivial, fun start => ?_⟩
  refine ⟨htime _ trivial, fun _ => ?_⟩
  refine (hticks _ _ _).bind fun result hresult => ?_
  exact ⟨htime _ trivial, fun _ => hresult⟩

end Obeys

end Routine

end NodeFleet
