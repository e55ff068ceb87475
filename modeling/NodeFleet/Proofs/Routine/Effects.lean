import NodeFleet.Proofs.Routine.Interleaving

/-!
# What a turn changes

An answer changes the entries of a cache only where the question is about that cache, and arriving
at what follows changes no cache. Neither moves the clock.
-/

namespace NodeFleet

variable {σ : Signature} {W : World σ} {α : Type}

namespace Request

/-- The cache that a question is about, its lock included. -/
def cache? : Request σ → Option σ.CacheName
  | .read cache _ => some cache
  | .write cache _ _ _ => some cache
  | .evict cache _ => some cache
  | .purge cache => some cache
  | .count cache => some cache
  | .acquire cache => some cache
  | .release cache => some cache
  | _ => none

/-- The cache whose entries a question may change. -/
def edits? : Request σ → Option σ.CacheName
  | .write cache _ _ _ => some cache
  | .evict cache _ => some cache
  | .purge cache => some cache
  | _ => none

theorem edits?_ne_of_cache?_ne {request : Request σ} {cache : σ.CacheName}
    (h : request.cache? ≠ some cache) : request.edits? ≠ some cache := by
  cases request <;> simp_all [cache?, edits?]

/-- Whether a question sets or removes the entry of a key. -/
def Changes (cache : σ.CacheName) (key : String) : Request σ → Prop
  | .write c k _ _ => c = cache ∧ k = key
  | .evict c k => c = cache ∧ k = key
  | _ => False

end Request

variable [DecidableEq σ.CacheName]

namespace Shared

theorem caches_updateCache (s : Shared σ W) (cache : σ.CacheName)
    (f : Cache (σ.Value cache) → Cache (σ.Value cache)) :
    (s.updateCache cache f).caches cache = f (s.caches cache) := by
  simp [updateCache]

theorem caches_updateCache_ne (s : Shared σ W) {cache other : σ.CacheName} (h : other ≠ cache)
    (f : Cache (σ.Value cache) → Cache (σ.Value cache)) :
    (s.updateCache cache f).caches other = s.caches other := by
  simp [updateCache, h]

theorem caches_answer_write (s : Shared σ W) (i : Nat) (cache : σ.CacheName) (key : String)
    (value : σ.Value cache) (ttl : Nat) :
    (s.answer i (.write cache key value ttl)).2.caches cache =
      (s.caches cache).set s.clock key value ttl :=
  s.caches_updateCache cache fun c => c.set s.clock key value ttl

theorem caches_answer_evict (s : Shared σ W) (i : Nat) (cache : σ.CacheName) (key : String) :
    (s.answer i (.evict cache key)).2.caches cache = (s.caches cache).delete key :=
  s.caches_updateCache cache fun c => c.delete key

theorem caches_arrive (s : Shared σ W) (i : Nat) (p : Routine σ α) :
    (s.arrive i p).caches = s.caches := by
  cases p with
  | done a => rfl
  | ask request next => cases request <;> rfl

theorem clock_arrive (s : Shared σ W) (i : Nat) (p : Routine σ α) :
    (s.arrive i p).clock = s.clock := by
  cases p with
  | done a => rfl
  | ask request next => cases request <;> rfl

theorem world_arrive (s : Shared σ W) (i : Nat) (p : Routine σ α) :
    (s.arrive i p).world = s.world := by
  cases p with
  | done a => rfl
  | ask request next => cases request <;> rfl

theorem clock_answer (s : Shared σ W) (i : Nat) (request : Request σ) :
    (s.answer i request).2.clock = s.clock := by
  cases request <;> rfl

/-- What a question about a cache does to its entries; any other leaves them alone. -/
inductive Edits (cache : σ.CacheName) (s : Shared σ W) :
    Request σ → Cache (σ.Value cache) → Prop
  | write (key : String) (value : σ.Value cache) (ttl : Nat) :
      Edits cache s (.write cache key value ttl) ((s.caches cache).set s.clock key value ttl)
  | evict (key : String) : Edits cache s (.evict cache key) ((s.caches cache).delete key)
  | purge : Edits cache s (.purge cache) ((s.caches cache).purge s.clock)
  | none (request : Request σ) (h : ∀ key, ¬ request.Changes cache key) :
      Edits cache s request (s.caches cache)

theorem edits_answer (s : Shared σ W) (i : Nat) (request : Request σ) (cache : σ.CacheName) :
    Edits cache s request ((s.answer i request).2.caches cache) := by
  cases request with
  | write c key value ttl =>
      by_cases h : cache = c
      · subst h
        rw [answer, caches_updateCache]
        exact .write key value ttl
      · rw [answer, caches_updateCache_ne s h]
        exact .none _ fun k hk => h hk.1.symm
  | evict c key =>
      by_cases h : cache = c
      · subst h
        rw [answer, caches_updateCache]
        exact .evict key
      · rw [answer, caches_updateCache_ne s h]
        exact .none _ fun k hk => h hk.1.symm
  | purge c =>
      by_cases h : cache = c
      · subst h
        rw [answer, caches_updateCache]
        exact .purge
      · rw [answer, caches_updateCache_ne s h]
        exact .none _ fun k hk => hk
  | _ => exact .none _ fun k hk => hk

theorem caches_answer_of_edits?_ne (s : Shared σ W) (i : Nat) {request : Request σ}
    {cache : σ.CacheName} (h : request.edits? ≠ some cache) :
    (s.answer i request).2.caches cache = s.caches cache := by
  have hedits := s.edits_answer i request cache
  generalize (s.answer i request).2.caches cache = edited at hedits ⊢
  cases hedits with
  | none => rfl
  | _ => exact absurd rfl h

end Shared

namespace Config

theorem caches_turn (d : Config W α) (i : Nat) (request : Request σ)
    (next : request.Answer → Routine σ α) :
    (d.turn i request next).shared.caches = (d.shared.answer i request).2.caches :=
  Shared.caches_arrive _ _ _

theorem clock_turn (d : Config W α) (i : Nat) (request : Request σ)
    (next : request.Answer → Routine σ α) :
    (d.turn i request next).shared.clock = d.shared.clock := by
  rw [turn, Shared.clock_arrive, Shared.clock_answer]

theorem world_turn (d : Config W α) (i : Nat) (request : Request σ)
    (next : request.Answer → Routine σ α) :
    (d.turn i request next).shared.world = (d.shared.answer i request).2.world :=
  Shared.world_arrive _ _ _

/-- Arriving at their first questions changes nothing that no single arrival changes. -/
theorem shared_start {γ : Type} (part : Shared σ W → γ)
    (keeps : ∀ (s : Shared σ W) (i : Nat) (p : Routine σ α), part (s.arrive i p) = part s)
    (s : Shared σ W) (ps : List (Routine σ α)) : part (start s ps).shared = part s := by
  rw [start]
  generalize 0 = k
  induction ps generalizing s k with
  | nil => rfl
  | cons p ps ih =>
      rw [Shared.arriveAll]
      exact (ih _ _).trans (keeps s k p)

theorem world_start (s : Shared σ W) (ps : List (Routine σ α)) :
    (start s ps).shared.world = s.world :=
  shared_start Shared.world Shared.world_arrive s ps

theorem caches_start (s : Shared σ W) (ps : List (Routine σ α)) :
    (start s ps).shared.caches = s.caches :=
  shared_start Shared.caches Shared.caches_arrive s ps

theorem clock_start (s : Shared σ W) (ps : List (Routine σ α)) :
    (start s ps).shared.clock = s.clock :=
  shared_start Shared.clock Shared.clock_arrive s ps

end Config

/-- What holds of the world at first and is kept by every turn of a history holds in every turn and
in the end. -/
theorem Steps.invariant {P : W.State → Prop} {c d : Config W α} {events : List (Event W)}
    (h : Steps c events d) (start : P c.shared.world)
    (step : ∀ e ∈ events, P e.before.world → P e.after.world) :
    (∀ e ∈ events, P e.before.world) ∧ P d.shared.world := by
  induction h with
  | refl => exact ⟨fun e he => (nomatch he), start⟩
  | @turn d events i request next _ _ _ ih =>
      obtain ⟨hearlier, hlast⟩ := List.forall_mem_append.1 step
      obtain ⟨hbefore, hnow⟩ := ih hearlier
      refine ⟨List.forall_mem_append.2 ⟨hbefore, List.forall_mem_singleton.2 hnow⟩, ?_⟩
      rw [Config.world_turn]
      exact hlast _ List.mem_cons_self hnow
  | wait _ _ ih => exact ih step

/-- What a turn brings about and later turns keep holds in each of them and in the end. -/
theorem Steps.invariant_after {P : W.State → Prop} {c d : Config W α} {first second : List (Event W)}
    {e : Event W} (h : Steps c (first ++ e :: second) d) (start : P e.after.world)
    (step : ∀ e' ∈ second, P e'.before.world → P e'.after.world) :
    (∀ e' ∈ second, P e'.before.world) ∧ P d.shared.world := by
  obtain ⟨m, next, -, hshared, -, -, hrest⟩ := h.split rfl
  refine hrest.invariant ?_ step
  rw [Config.world_turn, hshared]
  exact start

/-- What a turn brings about and the turns between keep holds when another turn is taken. -/
theorem Steps.holds_until {P : W.State → Prop} {c d : Config W α}
    {first middle last : List (Event W)} {e e' : Event W}
    (h : Steps c (first ++ e :: (middle ++ e' :: last)) d) (start : P e.after.world)
    (step : ∀ e ∈ middle, P e.before.world → P e.after.world) : P e'.before.world := by
  rw [← List.cons_append, ← List.append_assoc] at h
  obtain ⟨m, next, hm, hshared, -, -, -⟩ := h.split rfl
  rw [← hshared]
  exact (hm.invariant_after start step).2

/-- No turn of a history is later than its end. -/
theorem Steps.clock_le {c d : Config W α} {events : List (Event W)} (h : Steps c events d) :
    ∀ e ∈ events, e.before.clock ≤ d.shared.clock := by
  induction h with
  | refl => exact fun e he => (nomatch he)
  | @turn d events i request next _ _ _ ih =>
      rw [Config.clock_turn]
      exact List.forall_mem_append.2 ⟨ih, List.forall_mem_singleton.2 (Nat.le_refl _)⟩
  | wait _ later ih => exact fun e he => Nat.le_trans (ih e he) later

end NodeFleet
