import NodeFleet.Fleet.World
import NodeFleet.Routine.Run
import NodeFleet.Sorting

/-!
# Episodes

An episode is a run of programs on the shared state of a fleet: some of them start at once, others
after a delay. It ends when all programs have ended, and tells what each yielded and how long it
took, which operations of the cloud were called how often, and which launch states were entered.
-/

namespace NodeFleet

/-- What fleets share. -/
abbrev FleetState := Shared fleetSignature fleetWorld

/-- What came of an episode; a program that never ends has no result. -/
structure Episode (α : Type) where
  results : List (Option (α × Nat))
  delayedResults : List (Option (α × Nat))
  /-- The operations that were called, each with its count. -/
  calls : List (Cloud.Operation × Nat)
  /-- The launch states entered; those of one subject are together and in their order. -/
  launches : List (String × LaunchState)

namespace Episode

/-- Which operations are in a list, and how often. -/
def tally (calls : List Cloud.Operation) : List (Cloud.Operation × Nat) :=
  Cloud.Operation.all.filterMap fun op =>
    match (calls.filter fun c => c = op).length with
    | 0 => none
    | count => some (op, count)

/-- A program that starts after a delay, timed from its start. -/
def delayed {α : Type} (p : Nat × Program α) : Program (α × Nat) := do
  Routine.sleep p.1
  p.2.timed

/-- Runs programs that start at once, and others with their delays. -/
def run {α : Type} (s : FleetState) (programs : List (Program α))
    (later : List (Nat × Program α)) : FleetState × Episode α :=
  let start : FleetState := { s with world := { s.world with launches := [] } }
  let (finish, results) := start.run (programs.map Routine.timed ++ later.map delayed)
  let newCalls := finish.world.cloud.calls.length - s.world.cloud.calls.length
  (finish,
    { results := results.take programs.length
      delayedResults := results.drop programs.length
      calls := tally (finish.world.cloud.calls.take newCalls)
      launches := sortBy (fun a b => decide (a.1 ≤ b.1)) finish.world.launches })

end Episode

end NodeFleet
