import NodeFleet.Routine.Basic

/-!
# Polling up to a deadline

A check is repeated at equal intervals, the first time one interval after the start, until it
yields a value or fails. A tick that falls due while a check is running is made up for at once.
Before every check the token is looked at first and the deadline second; a tick at the deadline is
no tick. A running check is never interrupted. The alarm for the deadline is set from the start.
-/

namespace NodeFleet.Routine

variable {σ : Signature} {ε β : Type}

/-- How a poll ends without a value. -/
structure PollErrors (ε : Type) where
  cancelled : ε
  timeout : ε

/-- Waits for the deadline and gives up. -/
def giveUp (token : Token) (deadline : Nat) (errors : PollErrors ε) :
    Routine σ (Except ε β) := do
  match ← pause (some token) deadline with
  | .cancelled => return .error errors.cancelled
  | .elapsed => return .error errors.timeout

/-- Makes the remaining ticks, the next of them at `tick`, all of them before the deadline. -/
def ticks (token : Token) (interval deadline : Nat) (errors : PollErrors ε)
    (check : Routine σ (Except ε (Option β))) : Nat → Nat → Routine σ (Except ε β)
  | 0, _ => giveUp token deadline errors
  | remaining + 1, tick => do
      match ← pause (some token) tick with
      | .cancelled => return .error errors.cancelled
      | .elapsed =>
          if deadline ≤ (← now) then return .error errors.timeout
          match ← check with
          | .ok (some value) => return .ok value
          | .ok none => ticks token interval deadline errors check remaining (tick + interval)
          | .error e => return .error e

/-- Repeats a check every `interval` for less than `timeout`. -/
def poll (token : Token) (interval timeout : Nat) (errors : PollErrors ε)
    (check : Routine σ (Except ε (Option β))) : Routine σ (Except ε β) := do
  let start ← now
  withAlarm (start + timeout) <|
    ticks token interval (start + timeout) errors check ((timeout - 1) / interval)
      (start + interval)

end NodeFleet.Routine
