import NodeFleet.Routine.Machine

/-!
# Running routines to the end

Routines stand in a line: first those that can go on, then those that wait, in the order in which
they began to wait. The first one goes on until it has to wait and then goes to the end of the
line. Those that can go on because of what it did keep their order and get behind those that could
already. When all of them wait, the clock moves to the earliest end of a pause, and those that can
go on line up in the order of the alarms that go off. A run ends when no routine can go on any
more. It does end, since every step takes one routine from a question to what follows the answer.
-/

namespace NodeFleet

variable {σ : Signature} {α : Type}

/-- What a routine may become in one step. -/
inductive Follows : Routine σ α → Routine σ α → Prop
  | next (request : Request σ) (next : request.Answer → Routine σ α) (answer : request.Answer) :
      Follows (next answer) (.ask request next)

theorem Follows.acc (p : Routine σ α) : Acc Follows p := by
  induction p with
  | done a => exact ⟨_, fun _ h => nomatch h⟩
  | ask request next ih =>
      refine ⟨_, fun _ h => ?_⟩
      cases h with
      | next _ _ answer => exact ih answer

/-- One routine of a list has made one step. -/
inductive Progress : List (Routine σ α) → List (Routine σ α) → Prop
  | head {p q : Routine σ α} (rest : List (Routine σ α)) (h : Follows p q) :
      Progress (p :: rest) (q :: rest)
  | tail (p : Routine σ α) {rest others : List (Routine σ α)} (h : Progress rest others) :
      Progress (p :: rest) (p :: others)

theorem Progress.acc_cons {p : Routine σ α} (hp : Acc Follows p) :
    ∀ {rest : List (Routine σ α)}, Acc Progress rest → Acc Progress (p :: rest) := by
  induction hp with
  | intro p _ ihp =>
      intro rest hrest
      induction hrest with
      | intro rest hrest ihrest =>
          refine ⟨_, fun _ h => ?_⟩
          cases h with
          | head _ h => exact ihp _ h ⟨rest, hrest⟩
          | tail _ h => exact ihrest _ h

theorem Progress.acc (ps : List (Routine σ α)) : Acc Progress ps := by
  induction ps with
  | nil => exact ⟨_, fun _ h => nomatch h⟩
  | cons p rest ih => exact Progress.acc_cons (Follows.acc p) ih

theorem Progress.of_set {ps : List (Routine σ α)} {i : Nat} {p q : Routine σ α}
    (hi : ps[i]? = some q) (h : Follows p q) : Progress (ps.set i p) ps := by
  induction ps generalizing i with
  | nil => simp at hi
  | cons first rest ih =>
      cases i with
      | zero =>
          obtain rfl : first = q := by simpa using hi
          exact .head rest h
      | succ i => exact .tail first (ih (by simpa using hi))

instance : WellFoundedRelation (List (Routine σ α)) := ⟨Progress, ⟨Progress.acc⟩⟩

namespace Shared

variable {W : World σ}

/-- Whether a routine of the list is not done and can go on. -/
def canStep (s : Shared σ W) (ps : List (Routine σ α)) (i : Nat) : Bool :=
  match ps[i]? with
  | some (.ask request _) => s.isReady i request
  | _ => false

/-- Lines routines up: those that can go on come first, and nobody else changes places. -/
def lineUp (s : Shared σ W) (ps : List (Routine σ α)) (line : List Nat) : List Nat :=
  line.filter (s.canStep ps) ++ line.filter fun i => !s.canStep ps i

/-- The line after a step of routine `i`, which stays in front if it can go on. -/
def regroup (s : Shared σ W) (ps : List (Routine σ α)) (line : List Nat) (i : Nat) : List Nat :=
  let others := line.erase i
  if s.canStep ps i then i :: s.lineUp ps others else s.lineUp ps (others ++ [i])

/-- The earliest end of a pause after now. -/
def nextWake? (s : Shared σ W) (ps : List (Routine σ α)) : Option Nat :=
  (ps.filterMap fun p => match p with
    | .ask (.pause _ time) _ => if s.clock < time then some time else none
    | _ => none).min?

/-- The routines whose alarms go off at a time, in the order in which these were set. -/
def roused (s : Shared σ W) (time : Nat) : List Nat :=
  ((s.alarms.filter fun a => a.time = time).map (·.routine)).eraseDups

/-- The state and the line at the earliest end of a pause. -/
def wake? (s : Shared σ W) (ps : List (Routine σ α)) (line : List Nat) :
    Option (Shared σ W × List Nat) :=
  (s.nextWake? ps).map fun time =>
    let later := s.moveClock time
    let first := (s.roused time).filter (later.canStep ps)
    (later, first ++ line.filter fun i => !first.contains i)

/-- Which routine goes on, and the state and the line in which it does; the clock has moved if all
waited. -/
def schedule? (s : Shared σ W) (ps : List (Routine σ α)) (line : List Nat) :
    Option (Shared σ W × List Nat × Nat) :=
  match line.find? (s.canStep ps) with
  | some i => some (s, line, i)
  | none =>
      match s.wake? ps line with
      | some (later, line) => (line.find? (later.canStep ps)).map fun i => (later, line, i)
      | none => none

variable [DecidableEq σ.CacheName]

/-- Lets the routines of a line take turns until none can go on. -/
def takeTurns (s : Shared σ W) (ps : List (Routine σ α)) (line : List Nat) :
    Shared σ W × List (Routine σ α) :=
  match s.schedule? ps line with
  | none => (s, ps)
  | some (s, line, i) =>
      match _found : ps[i]? with
      | some (.ask request next) =>
          let (a, s) := s.answer i request
          let s := s.arrive i (next a)
          takeTurns s (ps.set i (next a)) (s.regroup (ps.set i (next a)) line i)
      | _ => (s, ps)
termination_by ps
decreasing_by exact Progress.of_set _found (.next request next _)

/-- Lets every routine arrive at its first question, in the order of the list. -/
def arriveAll (s : Shared σ W) : Nat → List (Routine σ α) → Shared σ W
  | _, [] => s
  | i, p :: rest => (s.arrive i p).arriveAll (i + 1) rest

/-- The result of a routine that is done. -/
def result? : Routine σ α → Option α
  | .done a => some a
  | .ask _ _ => none

/-- Runs a list of routines that start together. -/
def run (s : Shared σ W) (ps : List (Routine σ α)) : Shared σ W × List (Option α) :=
  let final := (s.arriveAll 0 ps).takeTurns ps (List.range ps.length)
  (final.1, final.2.map result?)

end Shared

end NodeFleet
