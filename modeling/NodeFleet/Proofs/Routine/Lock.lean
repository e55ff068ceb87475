import Mathlib.Data.List.Nodup
import NodeFleet.Proofs.Routine.Interleaving

/-!
# Locks along a history

A routine guards a lock when it takes the lock only while it does not hold it, gives it back only
while it holds it and does not end with it. Along every interleaving of such routines the queue of
the lock holds exactly those that hold the lock or wait for it, each once, with the holder at its
head. So at most one routine holds the lock.
-/

namespace NodeFleet

variable {σ : Signature} {W : World σ} {α β : Type}

namespace Request

/-- The lock that a question gives back. -/
def releases? : Request σ → Option σ.CacheName
  | .release cache => some cache
  | _ => none

/-- The lock that a question asks for. -/
def acquires? : Request σ → Option σ.CacheName
  | .acquire cache => some cache
  | _ => none

variable [DecidableEq σ.CacheName]

/-- Whether a routine holds a lock once its question is answered. -/
def holdsAfter (c : σ.CacheName) (held : Bool) : Request σ → Bool
  | .acquire d => if d = c then true else held
  | .release d => if d = c then false else held
  | _ => held

/-- Whether the question suits a routine that holds a lock or does not. -/
def Suits (c : σ.CacheName) (held : Bool) (request : Request σ) : Prop :=
  (request.acquires? = some c → held = false) ∧ (request.releases? = some c → held = true)

theorem holdsAfter_of_acquires {c : σ.CacheName} {held : Bool} {request : Request σ}
    (h : request.acquires? = some c) : request.holdsAfter c held = true := by
  cases request <;> simp_all [acquires?, holdsAfter]

theorem holdsAfter_of_releases {c : σ.CacheName} {held : Bool} {request : Request σ}
    (h : request.releases? = some c) : request.holdsAfter c held = false := by
  cases request <;> simp_all [releases?, holdsAfter]

theorem holdsAfter_of_ne {c : σ.CacheName} {held : Bool} {request : Request σ}
    (ha : request.acquires? ≠ some c) (hr : request.releases? ≠ some c) :
    request.holdsAfter c held = held := by
  cases request <;> simp_all [acquires?, releases?, holdsAfter]

end Request

namespace Routine

/-- The lock that a routine waits for. -/
def awaits? : Routine σ α → Option σ.CacheName
  | .ask request _ => request.acquires?
  | .done _ => none

variable [DecidableEq σ.CacheName]

/-- A routine that holds a lock, or does not, takes and gives back the lock in turns and ends
without it. -/
def Guards (c : σ.CacheName) : Bool → Routine σ α → Prop
  | held, .done _ => held = false
  | held, .ask request next =>
      request.Suits c held ∧ ∀ answer, Guards c (request.holdsAfter c held) (next answer)

/-- Whether a routine holds a lock after a trace, given whether it did before. -/
def holdsFrom (c : σ.CacheName) (held : Bool) (trace : List (Exchange σ)) : Bool :=
  trace.foldl (fun held x => x.request.holdsAfter c held) held

/-- Whether a routine holds a lock after a trace. -/
def holds (c : σ.CacheName) (trace : List (Exchange σ)) : Bool :=
  holdsFrom c false trace

theorem holdsFrom_append (c : σ.CacheName) (held : Bool) (first second : List (Exchange σ)) :
    holdsFrom c held (first ++ second) = holdsFrom c (holdsFrom c held first) second :=
  List.foldl_append

theorem holds_concat (c : σ.CacheName) (trace : List (Exchange σ)) (x : Exchange σ) :
    holds c (trace ++ [x]) = x.request.holdsAfter c (holds c trace) :=
  holdsFrom_append c false trace [x]

theorem Guards.path {c : σ.CacheName} {held : Bool} {p q : Routine σ α}
    {trace : List (Exchange σ)} (hp : Guards c held p) (h : Path p trace q) :
    Guards c (holdsFrom c held trace) q := by
  induction h generalizing held with
  | refl => exact hp
  | ask answer _ ih => exact ih (hp.2 answer)

/-- A question about neither the lock nor its cache. -/
def LeavesLock (c : σ.CacheName) (request : Request σ) : Prop :=
  request.acquires? ≠ some c ∧ request.releases? ≠ some c

theorem guards_bind_of_leavesLock {c : σ.CacheName} {held : Bool} {p : Routine σ α}
    {f : α → Routine σ β} {yields : α → Prop} (hp : Obeys (LeavesLock c) yields p)
    (hf : ∀ a, yields a → Guards c held (f a)) : Guards c held (p >>= f) := by
  induction p with
  | done a => exact hf a hp
  | ask request next ih =>
      obtain ⟨⟨ha, hr⟩, hnext⟩ := hp
      refine ⟨⟨fun h => absurd h ha, fun h => absurd h hr⟩, fun answer => ?_⟩
      rw [Request.holdsAfter_of_ne ha hr]
      exact ih answer (hnext answer)

theorem guards_of_leavesLock {c : σ.CacheName} {p : Routine σ α} {yields : α → Prop}
    (hp : Obeys (LeavesLock c) yields p) : Guards c false p := by
  have h := guards_bind_of_leavesLock (f := Routine.done) hp fun _ _ => rfl
  rwa [show (p >>= Routine.done) = p from bind_done p] at h

end Routine

/-- A number that is not in a queue of distinct numbers joins it. -/
theorem nodup_join {queue : List Nat} {i : Nat} (nodup : queue.Nodup) (new : i ∉ queue) :
    (queue ++ [i]).Nodup := by
  rw [← List.concat_eq_append]
  exact nodup.concat new

namespace Shared

theorem isReady_acquires {s : Shared σ W} {i : Nat} {request : Request σ} {c : σ.CacheName}
    (ready : s.isReady i request = true) (h : request.acquires? = some c) :
    (s.queues c).head? = some i := by
  cases request with
  | acquire d =>
      obtain rfl : d = c := Option.some.inj h
      simpa [isReady] using ready
  | _ => cases h

variable [DecidableEq σ.CacheName]

theorem queues_updateQueue (s : Shared σ W) (d c : σ.CacheName) (f : List Nat → List Nat) :
    (s.updateQueue d f).queues c = if c = d then f (s.queues d) else s.queues c := rfl

theorem queues_answer (s : Shared σ W) (i : Nat) (request : Request σ) (c : σ.CacheName) :
    (s.answer i request).2.queues c =
      if request.releases? = some c then (s.queues c).tail else s.queues c := by
  cases request with
  | release d =>
      by_cases h : d = c
      · subst h
        simp [answer, queues_updateQueue, Request.releases?]
      · simp [answer, queues_updateQueue, Request.releases?, h, Ne.symm h]
  | _ => rfl

theorem queues_arrive (s : Shared σ W) (i : Nat) (p : Routine σ α) (c : σ.CacheName) :
    (s.arrive i p).queues c = if p.awaits? = some c then s.queues c ++ [i] else s.queues c := by
  cases p with
  | done a => rfl
  | ask request next =>
      cases request with
      | acquire d =>
          by_cases h : d = c
          · subst h
            simp [arrive, queues_updateQueue, Routine.awaits?, Request.acquires?]
          · simp [arrive, queues_updateQueue, Routine.awaits?, Request.acquires?, h, Ne.symm h]
      | _ => rfl

/-- Those that arrive at the lock join its queue in order. -/
theorem queues_arriveAll (s : Shared σ W) (k : Nat) (ps : List (Routine σ α)) (c : σ.CacheName)
    (nodup : (s.queues c).Nodup) (below : ∀ i ∈ s.queues c, i < k) :
    ((s.arriveAll k ps).queues c).Nodup ∧
      ∀ i, i ∈ (s.arriveAll k ps).queues c ↔
        i ∈ s.queues c ∨ ∃ j p, i = k + j ∧ ps[j]? = some p ∧ p.awaits? = some c := by
  induction ps generalizing s k with
  | nil => simp [arriveAll, nodup]
  | cons p ps ih =>
      have hqueue := queues_arrive s k p c
      have hnew : k ∉ s.queues c := fun h => Nat.lt_irrefl k (below k h)
      have hnodup : ((s.arrive k p).queues c).Nodup := by
        rw [hqueue]
        split
        · exact nodup_join nodup hnew
        · exact nodup
      have hbelow : ∀ i ∈ (s.arrive k p).queues c, i < k + 1 := by
        intro i hi
        rw [hqueue] at hi
        split at hi
        · rcases List.mem_append.1 hi with hi | hi
          · exact Nat.lt_succ_of_lt (below i hi)
          · simp_all
        · exact Nat.lt_succ_of_lt (below i hi)
      obtain ⟨hrest, hmem⟩ := ih (s.arrive k p) (k + 1) hnodup hbelow
      refine ⟨hrest, fun i => ?_⟩
      rw [arriveAll, hmem, hqueue]
      constructor
      · rintro (hi | ⟨j, q, rfl, hq, hawaits⟩)
        · split at hi
          next hawaits =>
            rcases List.mem_append.1 hi with hi | hi
            · exact .inl hi
            · exact .inr ⟨0, p, by simpa using hi, rfl, hawaits⟩
          next => exact .inl hi
        · exact .inr ⟨j + 1, q, by omega, hq, hawaits⟩
      · rintro (hi | ⟨j, q, rfl, hq, hawaits⟩)
        · left
          split
          · exact List.mem_append_left _ hi
          · exact hi
        · cases j with
          | zero =>
              obtain rfl : p = q := by simpa using hq
              left
              simp [hawaits]
          | succ j => exact .inr ⟨j, q, by omega, by simpa using hq, hawaits⟩

end Shared

section Invariant

variable [DecidableEq σ.CacheName]

/-- Who stands in the queue of a lock after a history: those that hold the lock or wait for it,
each once, the holder first. -/
structure Queued (c : σ.CacheName) (d : Config W α) (events : List (Event W)) : Prop where
  nodup : (d.shared.queues c).Nodup
  mem_iff (i : Nat) : i ∈ d.shared.queues c ↔
    Routine.holds c (traceOf i events) = true ∨
      ∃ p, d.routines[i]? = some p ∧ p.awaits? = some c
  head (i : Nat) (h : Routine.holds c (traceOf i events) = true) :
    (d.shared.queues c).head? = some i

theorem queued_start {c : σ.CacheName} (s : Shared σ W) (ps : List (Routine σ α))
    (free : s.queues c = []) : Queued c (Config.start s ps) [] := by
  have hnodup : (s.queues c).Nodup := by
    rw [free]
    exact List.nodup_nil
  have hbelow : ∀ i ∈ s.queues c, i < 0 := by
    rw [free]
    exact fun i hi => nomatch hi
  obtain ⟨nodup, mem⟩ := s.queues_arriveAll 0 ps c hnodup hbelow
  refine ⟨nodup, fun i => ?_, fun i h => (nomatch h)⟩
  rw [Config.start, mem, free]
  constructor
  · rintro (hi | ⟨j, p, rfl, hp, hawaits⟩)
    · cases hi
    · exact .inr ⟨p, by simpa using hp, hawaits⟩
  · rintro (hi | ⟨p, hp, hawaits⟩)
    · cases hi
    · exact .inr ⟨i, p, by simp, hp, hawaits⟩

/-- The queue of a lock between an answer and the arrival at what follows, seen from the routine
that was answered. -/
theorem Queued.answered {c : σ.CacheName} {d : Config W α} {events : List (Event W)}
    (h : Queued c d events) {i : Nat} {request : Request σ}
    {next : request.Answer → Routine σ α} (found : d.routines[i]? = some (.ask request next))
    (ready : d.shared.isReady i request = true)
    (suits : request.Suits c (Routine.holds c (traceOf i events))) :
    let queue := (d.shared.answer i request).2.queues c
    queue.Nodup ∧
      (i ∈ queue ↔ request.holdsAfter c (Routine.holds c (traceOf i events)) = true) ∧
      (request.holdsAfter c (Routine.holds c (traceOf i events)) = true →
        queue.head? = some i) ∧
      ∀ j, j ≠ i → (j ∈ queue ↔ j ∈ d.shared.queues c) ∧
        (Routine.holds c (traceOf j events) = true → queue.head? = some j) := by
  simp only [Shared.queues_answer]
  by_cases ha : request.acquires? = some c
  · have hhead := Shared.isReady_acquires ready ha
    have hr : request.releases? ≠ some c := by cases request <;> simp_all [Request.acquires?,
      Request.releases?]
    rw [if_neg hr, Request.holdsAfter_of_acquires ha]
    refine ⟨h.nodup, by simp [List.mem_of_head? hhead], fun _ => hhead, fun j hj => ?_⟩
    exact ⟨Iff.rfl, h.head j⟩
  · by_cases hr : request.releases? = some c
    · have hhead := h.head i (suits.2 hr)
      obtain ⟨rest, hqueue⟩ := List.head?_eq_some_iff.1 hhead
      have hnodup := h.nodup
      rw [hqueue, List.nodup_cons] at hnodup
      rw [if_pos hr, Request.holdsAfter_of_releases hr, hqueue, List.tail_cons]
      refine ⟨hnodup.2, by simp [hnodup.1], fun hfalse => (nomatch hfalse), fun j hj => ?_⟩
      refine ⟨by simp [hj], fun hholds => ?_⟩
      have := h.head j hholds
      rw [hhead] at this
      exact absurd (Option.some.inj this).symm hj
    · rw [if_neg hr, Request.holdsAfter_of_ne ha hr]
      refine ⟨h.nodup, ?_, h.head i, fun j _ => ⟨Iff.rfl, h.head j⟩⟩
      rw [h.mem_iff, found]
      simp [Routine.awaits?, ha]

theorem Queued.turn {c : σ.CacheName} {d : Config W α} {events : List (Event W)}
    (h : Queued c d events) {i : Nat} {request : Request σ}
    {next : request.Answer → Routine σ α} (found : d.routines[i]? = some (.ask request next))
    (ready : d.shared.isReady i request = true)
    (guards : Routine.Guards c (Routine.holds c (traceOf i events)) (.ask request next)) :
    Queued c (d.turn i request next) (events ++ [⟨i, d.shared, request⟩]) := by
  obtain ⟨nodup, hself, hhead, hothers⟩ := h.answered found ready guards.1
  have hnext := guards.2 (d.shared.answer i request).1
  have htrace : Routine.holds c (traceOf i (events ++ [⟨i, d.shared, request⟩])) =
      request.holdsAfter c (Routine.holds c (traceOf i events)) := by
    have := traceOf_concat_self events ⟨i, d.shared, request⟩
    rw [this, Routine.holds_concat]
    rfl
  have hother (j : Nat) (hj : j ≠ i) :
      traceOf j (events ++ [⟨i, d.shared, request⟩]) = traceOf j events :=
    traceOf_concat_other (Ne.symm hj)
  have hlt : i < d.routines.length := (List.getElem?_eq_some_iff.1 found).1
  have hset : (d.routines.set i (next (d.shared.answer i request).1))[i]? =
      some (next (d.shared.answer i request).1) := List.getElem?_set_self hlt
  have hqueue := Shared.queues_arrive (d.shared.answer i request).2 i
    (next (d.shared.answer i request).1) c
  -- A routine that arrives at the lock does not hold it, so it is not in the queue yet.
  have hnew : (next (d.shared.answer i request).1).awaits? = some c →
      i ∉ (d.shared.answer i request).2.queues c := by
    intro hawaits hi
    rw [hself] at hi
    rw [hi] at hnext
    cases hq : next (d.shared.answer i request).1 with
    | done a => rw [hq] at hawaits; cases hawaits
    | ask r n =>
        rw [hq] at hawaits hnext
        exact absurd (hnext.1.1 hawaits) (by decide)
  constructor
  · rw [Config.turn, hqueue]
    split
    next hawaits => exact nodup_join nodup (hnew hawaits)
    next => exact nodup
  · intro j
    rw [Config.turn, hqueue]
    by_cases hj : j = i
    · subst hj
      rw [htrace, hset]
      by_cases hawaits : (next (d.shared.answer j request).1).awaits? = some c
      · simp [hawaits]
      · simp [hawaits, hself]
    · rw [hother j hj, List.getElem?_set_ne (Ne.symm hj), ← h.mem_iff, ← (hothers j hj).1]
      split <;> simp [hj]
  · intro j hholds
    have hfirst : ((d.shared.answer i request).2.queues c).head? = some j := by
      by_cases hj : j = i
      · subst hj
        rw [htrace] at hholds
        exact hhead hholds
      · rw [hother j hj] at hholds
        exact (hothers j hj).2 hholds
    rw [Config.turn, hqueue]
    split
    · rw [List.head?_append, hfirst]
      rfl
    · exact hfirst

/-- Along every interleaving of routines that guard a lock its queue is in order. -/
theorem Steps.queued {c : σ.CacheName} {s : Shared σ W} {ps : List (Routine σ α)}
    {events : List (Event W)} {d : Config W α} (h : Steps (Config.start s ps) events d)
    (free : s.queues c = []) (guards : ∀ p ∈ ps, p.Guards c false) : Queued c d events := by
  induction h with
  | refl => exact queued_start s ps free
  | @turn d events i request next steps found ready ih =>
      have hlt : i < ps.length := by
        have := (List.getElem?_eq_some_iff.1 found).1
        rwa [steps.length_eq] at this
      obtain ⟨q, hq, hpath⟩ := steps.path (List.getElem?_eq_getElem hlt)
      rw [found] at hq
      cases hq
      exact ih.turn found ready ((guards _ (List.getElem_mem hlt)).path hpath)
  | wait _ _ ih =>
      obtain ⟨nodup, mem, head⟩ := ih
      exact ⟨nodup, mem, head⟩

/-- At most one routine holds a lock. -/
theorem Queued.unique {c : σ.CacheName} {d : Config W α} {events : List (Event W)}
    (h : Queued c d events) {i j : Nat} (hi : Routine.holds c (traceOf i events) = true)
    (hj : Routine.holds c (traceOf j events) = true) : i = j := by
  have hhead := h.head i hi
  rw [h.head j hj] at hhead
  exact (Option.some.inj hhead).symm

end Invariant

end NodeFleet
