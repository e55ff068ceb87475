import NodeFleet.Proofs.Routine.Prompt

/-!
# Scripted histories

A script says who takes how many turns, one after another, and when the clock moves. Following it is
a computation, which fails where somebody is to take a turn who cannot; if it succeeds, it has gone
through a history, and what can be decided about its turns and its end is a fact about the history. It
is prompt if the clock moves only while nobody can go on, and then to the earliest end of a pause.
-/

namespace NodeFleet

variable {σ : Signature} {W : World σ} {α : Type}

/-- A move of a script. -/
inductive Move where
  | turns (routine count : Nat)
  | wait (time : Nat)

namespace Config

/-- The result of a routine, if it is done. -/
def result? (d : Config W α) (i : Nat) : Option α :=
  d.routines[i]?.bind Shared.result?

theorem result?_eq_some_iff {d : Config W α} {i : Nat} {a : α} :
    d.result? i = some a ↔ d.routines[i]? = some (.done a) := by
  rw [result?, Option.bind_eq_some_iff]
  constructor
  · rintro ⟨p, found, hresult⟩
    cases p with
    | done b =>
        obtain rfl := Option.some.inj hresult
        exact found
    | ask request next => cases hresult
  · exact fun found => ⟨.done a, found, rfl⟩

/-- The error of a routine, if it has failed. -/
def error? {ε β : Type} (d : Config W (Except ε β)) (i : Nat) : Option ε :=
  match d.result? i with
  | some (.error e) => some e
  | _ => none

theorem error?_eq_some_iff {ε β : Type} {d : Config W (Except ε β)} {i : Nat} {e : ε} :
    d.error? i = some e ↔ d.routines[i]? = some (.done (.error e)) := by
  rw [← result?_eq_some_iff, error?]
  split <;> simp_all

variable [DecidableEq σ.CacheName]

/-- A routine takes so many turns. -/
def advance (i : Nat) : Nat → Config W α → Option (List (Event W) × Config W α)
  | 0, c => some ([], c)
  | count + 1, c =>
      match c.routines[i]? with
      | some (.ask request next) =>
          if c.shared.isReady i request then
            (advance i count (c.turn i request next)).map fun rest =>
              (⟨i, c.shared, request⟩ :: rest.1, rest.2)
          else none
      | _ => none

/-- Goes through the moves of a script. -/
def follow : List Move → Config W α → Option (List (Event W) × Config W α)
  | [], c => some ([], c)
  | .turns i count :: moves, c =>
      (c.advance i count).bind fun first =>
        (follow moves first.2).map fun rest => (first.1 ++ rest.1, rest.2)
  | .wait time :: moves, c =>
      if c.shared.clock ≤ time then follow moves (c.wait time) else none

/-- Whether the clock moves in a script only while nobody can go on, and then to the earliest end of
a pause. -/
def isPrompt : List Move → Config W α → Bool
  | [], _ => true
  | .turns i count :: moves, c => (c.advance i count).all fun first => isPrompt moves first.2
  | .wait time :: moves, c =>
      ((List.range c.routines.length).all fun i => !c.shared.canStep c.routines i) &&
        decide (c.shared.nextWake? c.routines = some time) && isPrompt moves (c.wait time)

variable {c d : Config W α} {events : List (Event W)}

theorem prompt_of_advance {i count : Nat} (h : c.advance i count = some (events, d)) :
    Prompt c events d := by
  induction count generalizing c events with
  | zero =>
      cases h
      exact .refl _
  | succ count ih =>
      rw [advance] at h
      split at h
      next request next found =>
        split at h
        next ready =>
          obtain ⟨⟨rest, last⟩, hrest, hpair⟩ := Option.map_eq_some_iff.1 h
          cases hpair
          exact Prompt.trans (.turn (.refl c) found ready) (ih hrest)
        next => cases h
      next => cases h

theorem steps_of_follow {moves : List Move} (h : c.follow moves = some (events, d)) :
    Steps c events d := by
  induction moves generalizing c events with
  | nil =>
      cases h
      exact .refl _
  | cons move moves ih =>
      cases move with
      | turns i count =>
          obtain ⟨⟨first, middle⟩, hfirst, hbind⟩ := Option.bind_eq_some_iff.1 h
          obtain ⟨⟨rest, last⟩, hrest, hpair⟩ := Option.map_eq_some_iff.1 hbind
          cases hpair
          exact (prompt_of_advance hfirst).steps.trans (ih hrest)
      | wait time =>
          rw [follow] at h
          split at h
          next later => exact Steps.trans (.wait (.refl c) later) (ih h)
          next => cases h

/-- What a script comes to is the case in a history. -/
theorem exists_steps_of_follow (moves : List Move) {P : List (Event W) → Config W α → Prop}
    (h : ∃ path ∈ c.follow moves, P path.1 path.2) : ∃ events d, Steps c events d ∧ P events d := by
  obtain ⟨path, hpath, hcase⟩ := h
  exact ⟨path.1, path.2, steps_of_follow hpath, hcase⟩

/-- Nobody can go on before the moment to which the clock moves. -/
theorem isIdleUntil_of_isPrompt {time : Nat} {moves : List Move}
    (h : c.isPrompt (.wait time :: moves) = true) :
    c.IsIdleUntil time ∧ (c.wait time).isPrompt moves = true := by
  simp only [isPrompt, Bool.and_eq_true, List.all_eq_true, List.mem_range, Bool.not_eq_true',
    decide_eq_true_eq] at h
  obtain ⟨⟨hnone, hwake⟩, hrest⟩ := h
  refine ⟨Shared.isIdleUntil_of_nextWake? hwake fun i => ?_, hrest⟩
  by_cases hi : i < c.routines.length
  · exact hnone i hi
  · rw [Shared.canStep, List.getElem?_eq_none (Nat.le_of_not_lt hi)]

theorem prompt_of_follow {moves : List Move} (h : c.follow moves = some (events, d))
    (prompt : c.isPrompt moves = true) : Prompt c events d := by
  induction moves generalizing c events with
  | nil =>
      cases h
      exact .refl _
  | cons move moves ih =>
      cases move with
      | turns i count =>
          obtain ⟨⟨first, middle⟩, hfirst, hbind⟩ := Option.bind_eq_some_iff.1 h
          obtain ⟨⟨rest, last⟩, hrest, hpair⟩ := Option.map_eq_some_iff.1 hbind
          cases hpair
          rw [isPrompt, hfirst] at prompt
          exact (prompt_of_advance hfirst).trans (ih hrest prompt)
      | wait time =>
          obtain ⟨idle, hmoves⟩ := isIdleUntil_of_isPrompt prompt
          rw [follow] at h
          split at h
          next later => exact Prompt.trans (.wait (.refl c) later idle) (ih h hmoves)
          next => cases h

/-- What a script comes to that moves the clock promptly is the case in a prompt history. -/
theorem exists_prompt_of_follow (moves : List Move) {P : List (Event W) → Config W α → Prop}
    (prompt : c.isPrompt moves = true) (h : ∃ path ∈ c.follow moves, P path.1 path.2) :
    ∃ events d, Prompt c events d ∧ P events d := by
  obtain ⟨path, hpath, hcase⟩ := h
  exact ⟨path.1, path.2, prompt_of_follow hpath prompt, hcase⟩

end Config

end NodeFleet
