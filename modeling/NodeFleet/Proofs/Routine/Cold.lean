import NodeFleet.Proofs.Cache
import NodeFleet.Proofs.Routine.CacheHistory

/-!
# Reading through a cold cache

A cache is cold for a key if it has nothing fresh under the key. It stays so until somebody writes the
key, however much time passes and whatever else happens to it. So a call that starts then, next to
others who do not write the key, fetches, and goes through whatever its fetch may go through.
-/

namespace NodeFleet

variable {σ : Signature} {W : World σ} {α ε : Type}

theorem Cache.get?_eq_none_of_le {V : Type} {c : Cache V} {now later : Nat} {key : String}
    (h : c.get? now key = none) (hle : now ≤ later) : c.get? later key = none := by
  rw [Option.eq_none_iff_forall_ne_some] at h ⊢
  intro value hvalue
  obtain ⟨entry, hentry, hfresh, rfl⟩ := get?_eq_some_iff.1 hvalue
  exact h entry.value (get?_eq_some_iff.2 ⟨entry, hentry, Nat.lt_of_le_of_lt hle hfresh, rfl⟩)

/-- A question that stores something under a key. -/
def Request.Writes (cache : σ.CacheName) (key : String) : Request σ → Prop
  | .write c k _ _ => c = cache ∧ k = key
  | _ => False

theorem Request.edits?_of_writes {cache : σ.CacheName} {key : String} {request : Request σ}
    (h : request.Writes cache key) : request.edits? = some cache := by
  cases request with
  | write c k value ttl => exact congrArg some h.1
  | _ => exact h.elim

/-- There is nothing fresh under a key. -/
def Shared.Cold (cache : σ.CacheName) (key : String) (s : Shared σ W) : Prop :=
  (s.caches cache).get? s.clock key = none

namespace Routine

variable {cache : σ.CacheName} {key : String} {ttl : Nat}
  {fetch : Routine σ (Except ε (σ.Value cache))} {trace : List (Exchange σ)}
  {r : Except ε (σ.Value cache)}

/-- A call that never finds its key fetches, and it stores what it fetches. -/
theorem ends_cached_cold (h : (cached cache key ttl fetch).Ends trace r)
    (cold : ∀ found, ⟨.read cache key, found⟩ ∈ trace → found = none) :
    ∃ own, fetch.Ends own r ∧ trace = misses cache key ++ own ++ closing cache key ttl r := by
  have hstate := path_cached h
  cases hstate with
  | hit value => cases cold (some value) (List.mem_singleton_self _)
  | returned value => cases cold (some value) (by simp)
  | fetched ends => exact ⟨_, ends, rfl⟩

/-- What a fetch goes through is what a call goes through that finds nothing. -/
theorem ends_cached_of_fetch (h : fetch.Ends trace r) :
    (cached cache key ttl fetch).Ends (misses cache key ++ trace ++ closing cache key ttl r) r := by
  have hstore : (store cache key ttl r).Ends (closing cache key ttl r) r := by
    cases r with
    | ok value =>
        refine ends_request_bind.2 ⟨(), _, rfl, ?_⟩
        exact ends_request_bind.2 ⟨(), [], rfl, ends_pure.2 ⟨rfl, rfl⟩⟩
    | error e => exact ends_request_bind.2 ⟨(), [], rfl, ends_pure.2 ⟨rfl, rfl⟩⟩
  have hfetch : (fetch >>= store cache key ttl).Ends (trace ++ closing cache key ttl r) r :=
    ends_bind.2 ⟨r, trace, _, rfl, h, hstore⟩
  rw [List.append_assoc]
  refine ends_request_bind.2 ⟨none, _, rfl, ?_⟩
  refine ends_request_bind.2 ⟨(), _, rfl, ?_⟩
  exact ends_request_bind.2 ⟨none, _, rfl, hfetch⟩

end Routine

section History

variable [DecidableEq σ.CacheName] {c d : Config W α} {events : List (Event W)}
  {cache : σ.CacheName} {key : String}

theorem Shared.Cold.start {s : Shared σ W} (h : s.Cold cache key) (ps : List (Routine σ α)) :
    (Config.start s ps).shared.Cold cache key := by
  rw [Shared.Cold, Config.caches_start, Config.clock_start]
  exact h

/-- A cache stays cold for a key that nobody writes. -/
theorem Steps.cold (h : Steps c events d) (cold : c.shared.Cold cache key)
    (unwritten : ∀ e ∈ events, ¬e.request.Writes cache key) : d.shared.Cold cache key := by
  induction h with
  | refl => exact cold
  | wait _ later ih => exact Cache.get?_eq_none_of_le (ih unwritten) later
  | @turn d events i request next _ _ _ ih =>
      obtain ⟨hearlier, hlast⟩ := List.forall_mem_append.1 unwritten
      have hbefore := ih hearlier
      have hunwritten : ¬request.Writes cache key := hlast _ List.mem_cons_self
      have hedits := d.shared.edits_answer i request cache
      rw [Shared.Cold, Config.caches_turn, Config.clock_turn]
      generalize (d.shared.answer i request).2.caches cache = edited at hedits ⊢
      cases hedits with
      | write k value ttl =>
          rw [Cache.get?_set, if_neg fun hkey => hunwritten ⟨rfl, hkey.symm⟩]
          exact hbefore
      | evict k =>
          rw [Cache.get?_delete]
          split
          · rfl
          · exact hbefore
      | purge =>
          rw [Cache.get?_purge _ (Nat.le_refl _)]
          exact hbefore
      | none => exact hbefore

/-- A call that starts when its cache is cold for its key fetches, if nobody else writes the key. -/
theorem Steps.fetches_cold {s : Shared σ W} {ps : List (Routine σ (Except ε (σ.Value cache)))}
    {d : Config W (Except ε (σ.Value cache))} {i ttl : Nat}
    {fetch : Routine σ (Except ε (σ.Value cache))} {r : Except ε (σ.Value cache)}
    (h : Steps (Config.start s ps) events d)
    (own : ps[i]? = some (Routine.cached cache key ttl fetch))
    (done : d.routines[i]? = some (.done r)) (cold : s.Cold cache key)
    (others : ∀ e ∈ events, e.routine ≠ i → ¬e.request.Writes cache key) :
    ∃ trace, fetch.Ends trace r ∧
      traceOf i events = Routine.misses cache key ++ trace ++ Routine.closing cache key ttl r := by
  -- What is found is found before the call itself writes anything.
  have unfound (before after : List (Exchange σ)) {value : σ.Value cache}
      (htrace : traceOf i events = before ++ ⟨.read cache key, some value⟩ :: after)
      (hbefore : ∀ x ∈ before, ¬x.request.Writes cache key) : False := by
    obtain ⟨first, e, second, rfl, -, hread, rfl, -⟩ := exists_turn htrace
    obtain ⟨m, next, hm, hshared, -, -, -⟩ := h.split rfl
    have hcold : m.shared.Cold cache key := by
      refine hm.cold (cold.start ps) fun e' he' => ?_
      by_cases hown : e'.routine = i
      · exact hbefore e'.exchange (List.mem_map_of_mem (mem_turnsOf.2 ⟨he', hown⟩))
      · exact others e' (by simp [he']) hown
    have hfound := get?_of_exchange hread
    rw [← hshared] at hfound
    cases hcold.symm.trans hfound
  have hends := h.ends own done
  have hstate := Routine.path_cached hends
  generalize traceOf i events = trace at hstate unfound ⊢
  cases hstate with
  | hit value => exact (unfound [] [] rfl (List.forall_mem_nil _)).elim
  | returned value =>
      refine (unfound [_, _] [_] rfl fun x hx => ?_).elim
      simp only [List.mem_cons, List.not_mem_nil, or_false] at hx
      rcases hx with rfl | rfl <;> exact fun h => h
  | fetched ends => exact ⟨_, ends, rfl⟩

end History

end NodeFleet
