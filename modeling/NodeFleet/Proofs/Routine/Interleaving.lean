import Mathlib.Data.List.Basic
import NodeFleet.Proofs.Routine.Path
import NodeFleet.Routine.Run

/-!
# Interleavings of routines

In an interleaving any routine whose question can be answered may take the next turn, and the clock
may move forward at any moment. A history lists the turns with the states in which they were taken.
What happens to one routine along a history is a path of it, and every run to the end is an
interleaving.
-/

namespace NodeFleet

variable {σ : Signature} {W : World σ} {α : Type}

/-- A turn of a routine: the state in which its question was answered, and the question. -/
structure Event (W : World σ) where
  routine : Nat
  before : Shared σ W
  request : Request σ

/-- Routines with the state that they share. -/
structure Config (W : World σ) (α : Type) where
  shared : Shared σ W
  routines : List (Routine σ α)

namespace Event

variable [DecidableEq σ.CacheName]

/-- What was answered. -/
def answer (e : Event W) : e.request.Answer :=
  (e.before.answer e.routine e.request).1

/-- The state in which the answer left what is shared. -/
def after (e : Event W) : Shared σ W :=
  (e.before.answer e.routine e.request).2

/-- The question with its answer. -/
def exchange (e : Event W) : Exchange σ :=
  ⟨e.request, e.answer⟩

end Event

/-- A history that has gone on by a turn is cut at this turn or before it. -/
theorem cut_concat {events first second : List (Event W)} {e last : Event W}
    (h : events ++ [last] = first ++ e :: second) :
    (events = first ∧ last = e ∧ second = []) ∨
      ∃ init, second = init ++ [last] ∧ events = first ++ e :: init := by
  rcases List.eq_nil_or_concat second with rfl | ⟨init, x, rfl⟩
  · obtain ⟨hevents, hlast⟩ := List.append_inj' h rfl
    exact .inl ⟨hevents, List.singleton_inj.1 hlast, rfl⟩
  · rw [List.concat_eq_append, ← List.cons_append, ← List.append_assoc] at h
    obtain ⟨hevents, hlast⟩ := List.append_inj' h rfl
    refine .inr ⟨init, ?_, hevents⟩
    rw [List.concat_eq_append, hlast]

/-- The turns of one routine. -/
def turnsOf (i : Nat) (events : List (Event W)) : List (Event W) :=
  events.filter fun e => e.routine = i

theorem mem_turnsOf {i : Nat} {events : List (Event W)} {e : Event W} :
    e ∈ turnsOf i events ↔ e ∈ events ∧ e.routine = i := by
  simp [turnsOf]

theorem turnsOf_append (i : Nat) (first second : List (Event W)) :
    turnsOf i (first ++ second) = turnsOf i first ++ turnsOf i second :=
  List.filter_append _ _

theorem turnsOf_concat_self (events : List (Event W)) (e : Event W) :
    turnsOf e.routine (events ++ [e]) = turnsOf e.routine events ++ [e] := by
  rw [turnsOf_append]
  simp [turnsOf]

theorem turnsOf_concat_other {i : Nat} {events : List (Event W)} {e : Event W}
    (h : e.routine ≠ i) : turnsOf i (events ++ [e]) = turnsOf i events := by
  rw [turnsOf_append]
  simp [turnsOf, h]

/-- What one routine asked and was answered. -/
def traceOf [DecidableEq σ.CacheName] (i : Nat) (events : List (Event W)) : List (Exchange σ) :=
  (turnsOf i events).map Event.exchange

section Trace

variable [DecidableEq σ.CacheName]

theorem traceOf_append (i : Nat) (first second : List (Event W)) :
    traceOf i (first ++ second) = traceOf i first ++ traceOf i second := by
  rw [traceOf, turnsOf_append, List.map_append]
  rfl

theorem traceOf_concat_self (events : List (Event W)) (e : Event W) :
    traceOf e.routine (events ++ [e]) = traceOf e.routine events ++ [e.exchange] := by
  rw [traceOf, turnsOf_concat_self, List.map_append]
  rfl

theorem traceOf_concat_other {i : Nat} {events : List (Event W)} {e : Event W}
    (h : e.routine ≠ i) : traceOf i (events ++ [e]) = traceOf i events := by
  rw [traceOf, turnsOf_concat_other h]
  rfl

theorem traceOf_append_cons (first second : List (Event W)) (e : Event W) :
    traceOf e.routine (first ++ e :: second) =
      traceOf e.routine first ++ e.exchange :: traceOf e.routine second := by
  rw [traceOf_append]
  simp [traceOf, turnsOf]

theorem traceOf_eq_nil {i : Nat} {events : List (Event W)} (h : ∀ e ∈ events, e.routine ≠ i) :
    traceOf i events = [] := by
  have hnone : turnsOf i events = [] := List.filter_eq_nil_iff.2 fun e he => by simpa using h e he
  rw [traceOf, hnone, List.map_nil]

/-- An exchange of a trace is a turn of the history. -/
theorem exists_turn {i : Nat} {events : List (Event W)} {before after : List (Exchange σ)}
    {x : Exchange σ} (h : traceOf i events = before ++ x :: after) :
    ∃ first r second, events = first ++ r :: second ∧ r.routine = i ∧ r.exchange = x ∧
      traceOf i first = before ∧ traceOf i second = after := by
  obtain ⟨turns, rest, hturns, hbefore, hrest⟩ := List.map_eq_append_iff.1 h
  obtain ⟨r, later, rfl, hr, hafter⟩ := List.map_eq_cons_iff.1 hrest
  obtain ⟨first, tail, rfl, hfirst, htail⟩ := List.filter_eq_append_iff.1 hturns
  obtain ⟨skipped, second, rfl, hskipped, hown, hsecond⟩ := List.filter_eq_cons_iff.1 htail
  refine ⟨first ++ skipped, r, second, by simp, by simpa using hown, hr, ?_, ?_⟩
  · have hnone : turnsOf i skipped = [] := List.filter_eq_nil_iff.2 hskipped
    rw [traceOf_append, traceOf, turnsOf, hfirst, hbefore, traceOf, hnone, List.map_nil,
      List.append_nil]
  · rw [traceOf, turnsOf, hsecond, hafter]

end Trace

namespace Config

variable [DecidableEq σ.CacheName]

/-- The routines have arrived at their first questions. -/
def start (s : Shared σ W) (ps : List (Routine σ α)) : Config W α :=
  ⟨s.arriveAll 0 ps, ps⟩

/-- A routine takes its answer and arrives at what follows. -/
def turn (c : Config W α) (i : Nat) (request : Request σ)
    (next : request.Answer → Routine σ α) : Config W α :=
  let answered := c.shared.answer i request
  ⟨answered.2.arrive i (next answered.1), c.routines.set i (next answered.1)⟩

/-- The clock has moved. -/
def wait (c : Config W α) (time : Nat) : Config W α :=
  ⟨c.shared.moveClock time, c.routines⟩

end Config

/-- Configurations that follow one another by turns of ready routines and movements of the clock,
with the turns that were taken. -/
inductive Steps [DecidableEq σ.CacheName] :
    Config W α → List (Event W) → Config W α → Prop
  | refl (c : Config W α) : Steps c [] c
  | turn {c d : Config W α} {events : List (Event W)} {i : Nat} {request : Request σ}
      {next : request.Answer → Routine σ α} (steps : Steps c events d)
      (found : d.routines[i]? = some (.ask request next))
      (ready : d.shared.isReady i request = true) :
      Steps c (events ++ [⟨i, d.shared, request⟩]) (d.turn i request next)
  | wait {c d : Config W α} {events : List (Event W)} {time : Nat} (steps : Steps c events d)
      (later : d.shared.clock ≤ time) : Steps c events (d.wait time)

namespace Steps

variable [DecidableEq σ.CacheName] {c d e : Config W α} {events others : List (Event W)}

theorem trans (h : Steps c events d) (h' : Steps d others e) : Steps c (events ++ others) e := by
  induction h' with
  | refl => rwa [List.append_nil]
  | turn _ found ready ih =>
      rw [← List.append_assoc]
      exact .turn ih found ready
  | wait _ later ih => exact .wait ih later

theorem length_eq (h : Steps c events d) : d.routines.length = c.routines.length := by
  induction h with
  | refl => rfl
  | turn _ _ _ ih => rw [Config.turn, List.length_set, ih]
  | wait _ _ ih => exact ih

/-- What one routine does along a history is a path of it. -/
theorem path (h : Steps c events d) {i : Nat} {p : Routine σ α} (hp : c.routines[i]? = some p) :
    ∃ q, d.routines[i]? = some q ∧ p.Path (traceOf i events) q := by
  induction h with
  | refl => exact ⟨p, hp, .refl p⟩
  | @turn d events j request next _ found ready ih =>
      obtain ⟨q, hq, hpath⟩ := ih
      by_cases hj : j = i
      · subst hj
        rw [found] at hq
        cases hq
        have hlt : j < d.routines.length := (List.getElem?_eq_some_iff.1 found).1
        refine ⟨_, List.getElem?_set_self hlt, ?_⟩
        have htrace := traceOf_concat_self events ⟨j, d.shared, request⟩
        rw [htrace]
        exact hpath.concat _
      · refine ⟨q, ?_, ?_⟩
        · rw [Config.turn, List.getElem?_set_ne hj]
          exact hq
        · rw [traceOf_concat_other hj]
          exact hpath
  | wait _ _ ih => exact ih

/-- Only routines of the list take turns. -/
theorem exists_routine (h : Steps c events d) {i : Nat} (acted : traceOf i events ≠ []) :
    ∃ p, d.routines[i]? = some p := by
  induction h with
  | refl => exact absurd rfl acted
  | @turn d events j request next _ found _ ih =>
      by_cases hj : j = i
      · subst hj
        have hlt : j < d.routines.length := (List.getElem?_eq_some_iff.1 found).1
        exact ⟨_, List.getElem?_set_self hlt⟩
      · rw [traceOf_concat_other hj] at acted
        obtain ⟨p, hp⟩ := ih acted
        exact ⟨p, by rw [Config.turn, List.getElem?_set_ne hj, hp]⟩
  | wait _ _ ih => exact ih acted

/-- What a routine that is done went through, with its result. -/
theorem ends (h : Steps c events d) {i : Nat} {p : Routine σ α} {a : α}
    (hp : c.routines[i]? = some p) (hdone : d.routines[i]? = some (.done a)) :
    p.Ends (traceOf i events) a := by
  obtain ⟨q, hq, hpath⟩ := h.path hp
  rw [hdone] at hq
  cases hq
  exact hpath

/-- Every turn was taken by a ready routine in a configuration along the history. -/
theorem split {first second : List (Event W)} {event : Event W} (h : Steps c events d)
    (hevents : events = first ++ event :: second) :
    ∃ (m : Config W α) (next : event.request.Answer → Routine σ α),
      Steps c first m ∧ m.shared = event.before ∧
        m.routines[event.routine]? = some (.ask event.request next) ∧
        m.shared.isReady event.routine event.request = true ∧
        Steps (m.turn event.routine event.request next) second d := by
  induction h generalizing second with
  | refl => simp at hevents
  | @turn d events i request next steps found ready ih =>
      rcases cut_concat hevents with ⟨rfl, rfl, rfl⟩ | ⟨init, rfl, hinit⟩
      · exact ⟨d, next, steps, rfl, found, ready, .refl _⟩
      · obtain ⟨m, next', hm, hshared, hfound, hready, hrest⟩ := ih hinit
        exact ⟨m, next', hm, hshared, hfound, hready, .turn hrest found ready⟩
  | wait _ later ih =>
      obtain ⟨m, next', hm, hshared, hfound, hready, hrest⟩ := ih hevents
      exact ⟨m, next', hm, hshared, hfound, hready, .wait hrest later⟩

/-- A routine that asks only what it may ask does so along a history. -/
theorem asks_of {asks : Request σ → Prop} {yields : α → Prop} (h : Steps c events d) {i : Nat}
    {p : Routine σ α} (hp : c.routines[i]? = some p) (obeys : p.Obeys asks yields) :
    ∀ e ∈ events, e.routine = i → asks e.request := by
  rintro e he rfl
  obtain ⟨first, second, hevents⟩ := List.append_of_mem he
  obtain ⟨m, next, hm, _, hfound, _⟩ := h.split hevents
  obtain ⟨q, hq, hpath⟩ := hm.path hp
  rw [hfound] at hq
  cases hq
  exact (obeys.path hpath).2.1

/-- Every turn is taken by a routine of the list. -/
theorem routine_lt (h : Steps c events d) {event : Event W} (he : event ∈ events) :
    event.routine < c.routines.length := by
  obtain ⟨first, second, hevents⟩ := List.append_of_mem he
  obtain ⟨m, next, hm, _, hfound, _⟩ := h.split hevents
  rw [← hm.length_eq]
  exact (List.getElem?_eq_some_iff.1 hfound).1

/-- Routines that ask only what they may ask do so along a history. -/
theorem asks {asks : Request σ → Prop} {yields : α → Prop} (h : Steps c events d)
    (obeys : ∀ p ∈ c.routines, p.Obeys asks yields) : ∀ e ∈ events, asks e.request := by
  intro e he
  have hlt := h.routine_lt he
  exact h.asks_of (List.getElem?_eq_getElem hlt) (obeys _ (List.getElem_mem hlt)) e he rfl

end Steps

end NodeFleet
