/-!
# Durations

Durations are counted in milliseconds. The text of one gives seconds with the fraction digits it
needs, or milliseconds below a second.
-/

namespace NodeFleet.Text

/-- The text of a number of milliseconds. -/
def duration (milliseconds : Nat) : String :=
  let seconds := milliseconds / 1000
  let rest := milliseconds % 1000
  if milliseconds = 0 then "0ns"
  else if seconds = 0 then s!"{rest}ms"
  else if rest = 0 then s!"{seconds}s"
  else if rest % 100 = 0 then s!"{seconds}.{rest / 100}s"
  else if rest % 10 = 0 then s!"{seconds}.{rest / 100}{rest / 10 % 10}s"
  else s!"{seconds}.{rest / 100}{rest / 10 % 10}{rest % 10}s"

end NodeFleet.Text
