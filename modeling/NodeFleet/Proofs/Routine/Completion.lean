import NodeFleet.Proofs.Routine.Prompt

/-!
# Runs of orderly routines come to an end

A run stops when no routine can go on, and then every routine that is not done waits for a lock.
Among orderly routines the holder of a lock waits at most for locks of a lower rank, so there is
always one that waits for no lock or holds the one that it waits for. A run of orderly routines from
free locks therefore stops only when all of them are done.
-/

namespace NodeFleet

variable {σ : Signature} {W : World σ} {α : Type}

section Orderly

variable [DecidableEq σ.CacheName] {rank : σ.CacheName → Nat} {bound : Nat} {s : Shared σ W}
  {ps : List (Routine σ α)} {events : List (Event W)} {d : Config W α}

/-- What is left of every routine is orderly with the locks that it holds. -/
theorem Steps.orderly (h : Steps (Config.start s ps) events d)
    (orderly : ∀ p ∈ ps, p.Orderly rank bound []) {i : Nat} {q : Routine σ α}
    (hq : d.routines[i]? = some q) :
    ∃ held, q.Orderly rank bound held ∧
      ∀ c, Routine.holds c (traceOf i events) = decide (c ∈ held) := by
  have hlt : i < ps.length := by
    have := (List.getElem?_eq_some_iff.1 hq).1
    rwa [h.length_eq] at this
  obtain ⟨q', hq', hpath⟩ := h.path (List.getElem?_eq_getElem hlt)
  rw [hq] at hq'
  cases hq'
  exact (orderly _ (List.getElem_mem hlt)).path .nil hpath

/-- Where a routine waits for a lock, some routine waits for none or holds the one that it waits
for. -/
theorem Steps.advances (h : Steps (Config.start s ps) events d)
    (free : ∀ c, s.queues c = []) (orderly : ∀ p ∈ ps, p.Orderly rank bound [])
    {i : Nat} {q : Routine σ α} {c : σ.CacheName} (hq : d.routines[i]? = some q)
    (waits : q.awaits? = some c) :
    ∃ j request next, d.routines[j]? = some (.ask request next) ∧
      ∀ a, request.acquires? = some a → (d.shared.queues a).head? = some j := by
  -- By induction on the rank of the lock: its holder waits for locks of lower ranks only.
  induction hn : rank c using Nat.strongRecOn generalizing i q c with
  | _ n ih =>
      subst hn
      have queued : Queued c d events :=
        h.queued (free c) fun p hp => (orderly p hp).guards .nil c
      have hmem : i ∈ d.shared.queues c := (queued.mem_iff i).2 (.inr ⟨q, hq, waits⟩)
      obtain ⟨j, hhead⟩ : ∃ j, (d.shared.queues c).head? = some j := by
        cases hqueue : d.shared.queues c with
        | nil => simp [hqueue] at hmem
        | cons j rest => exact ⟨j, rfl⟩
      rcases (queued.mem_iff j).1 (List.mem_of_head? hhead) with hholds | ⟨p, hp, hwaits⟩
      · obtain ⟨p, hp⟩ := h.exists_routine (i := j) fun htrace => by
          rw [htrace] at hholds
          cases hholds
        obtain ⟨held, horderly, hheld⟩ := h.orderly orderly hp
        have hc : c ∈ held := of_decide_eq_true ((hheld c).symm.trans hholds)
        cases p with
        | done a =>
            obtain rfl : held = [] := horderly
            cases hc
        | ask request next =>
            cases ha : request.acquires? with
            | none => exact ⟨j, request, next, hp, fun a h => by rw [ha] at h; cases h⟩
            | some a => exact ih (rank a) ((horderly.1.1 a ha).2 c hc) hp ha rfl
      · cases p with
        | done a => cases hwaits
        | ask request next =>
            refine ⟨j, request, next, hp, fun a ha => ?_⟩
            rw [show request.acquires? = some c from hwaits] at ha
            cases ha
            exact hhead

/-- Orderly routines from free locks are never stuck before all of them are done. -/
theorem Steps.done_of_isStuck (h : Steps (Config.start s ps) events d)
    (free : ∀ c, s.queues c = []) (orderly : ∀ p ∈ ps, p.Orderly rank bound [])
    (stuck : d.IsStuck) {i : Nat} (hi : i < ps.length) :
    ∃ a, d.routines[i]? = some (.done a) := by
  rw [← show d.routines.length = ps.length from h.length_eq] at hi
  have hq : d.routines[i]? = some d.routines[i] := List.getElem?_eq_getElem hi
  cases hdone : d.routines[i] with
  | done a => exact ⟨a, by rw [hq, hdone]⟩
  | ask request next =>
      rw [hdone] at hq
      obtain ⟨c, hc, -⟩ := stuck i request next hq
      obtain ⟨j, request', next', hj, hhead⟩ := h.advances free orderly hq hc
      obtain ⟨a, ha, hblocked⟩ := stuck j request' next' hj
      exact absurd (hhead a ha) hblocked

/-- When orderly routines from free locks are all done, the locks are free again. -/
theorem Steps.free_of_done (h : Steps (Config.start s ps) events d)
    (free : ∀ c, s.queues c = []) (orderly : ∀ p ∈ ps, p.Orderly rank bound [])
    (done : ∀ (i : Nat) (q : Routine σ α), d.routines[i]? = some q → ∃ a, q = .done a)
    (c : σ.CacheName) : d.shared.queues c = [] := by
  have queued : Queued c d events := h.queued (free c) fun p hp => (orderly p hp).guards .nil c
  rw [List.eq_nil_iff_forall_not_mem]
  intro i hi
  rcases (queued.mem_iff i).1 hi with hholds | ⟨q, hq, hwaits⟩
  · obtain ⟨q, hq⟩ := h.exists_routine (i := i) fun htrace => by
      rw [htrace] at hholds
      cases hholds
    obtain ⟨a, rfl⟩ := done i q hq
    obtain ⟨held, rfl, hheld⟩ := h.orderly orderly hq
    rw [hheld c] at hholds
    cases hholds
  · obtain ⟨a, rfl⟩ := done i q hq
    cases hwaits

/-- Every history of orderly routines from free locks goes on until all of them are done. -/
theorem Steps.completes (h : Steps (Config.start s ps) events d)
    (free : ∀ c, s.queues c = []) (orderly : ∀ p ∈ ps, p.Orderly rank bound []) :
    ∃ later last, Steps d later last ∧
      ∀ i < ps.length, ∃ a, last.routines[i]? = some (.done a) := by
  have all : ∀ j < d.routines.length, j ∈ List.range d.routines.length :=
    fun j hj => List.mem_range.2 hj
  obtain ⟨later, last, prompt, -, hstuck⟩ := d.shared.takeTurns_prompt d.routines _ all
  exact ⟨later, last, prompt.steps,
    fun i hi => (h.trans prompt.steps).done_of_isStuck free orderly hstuck hi⟩

/-- A run of orderly routines from free locks is an interleaving at whose end all of them are
done. -/
theorem run_completes (s : Shared σ W) (ps : List (Routine σ α))
    (free : ∀ c, s.queues c = []) (orderly : ∀ p ∈ ps, p.Orderly rank bound []) :
    ∃ events d, Steps (Config.start s ps) events d ∧
      s.run ps = (d.shared, d.routines.map Shared.result?) ∧
      ∀ i < ps.length, ∃ a, d.routines[i]? = some (.done a) := by
  obtain ⟨events, d, prompt, hrun, stuck⟩ := run_prompt s ps
  exact ⟨events, d, prompt.steps, hrun,
    fun i hi => Steps.done_of_isStuck prompt.steps free orderly stuck hi⟩

/-- A run of an orderly routine with others from free locks ends it. -/
theorem run_ends_first (s : Shared σ W) {p : Routine σ α} {others : List (Routine σ α)}
    (free : ∀ c, s.queues c = []) (orderly : p.Orderly rank bound [])
    (all : ∀ q ∈ others, q.Orderly rank bound []) :
    ∃ events d a, Steps (Config.start s (p :: others)) events d ∧
      s.run (p :: others) = (d.shared, d.routines.map Shared.result?) ∧
      d.routines[0]? = some (.done a) := by
  obtain ⟨events, d, h, hrun, hdone⟩ :=
    run_completes s (p :: others) free (List.forall_mem_cons.2 ⟨orderly, all⟩)
  obtain ⟨a, ha⟩ := hdone 0 (Nat.succ_pos _)
  exact ⟨events, d, a, h, hrun, ha⟩

end Orderly

end NodeFleet
