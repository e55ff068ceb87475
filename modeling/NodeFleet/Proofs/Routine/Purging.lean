import NodeFleet.Proofs.Cache
import NodeFleet.Proofs.Routine.Effects

/-!
# Purges cannot be seen

Dropping expired entries changes what is stored but not what can be found in a cache. Routines that
neither purge a cache nor count its entries therefore go through the same turns, at the same times
and with the same answers, whether or not others purge it in between.
-/

namespace NodeFleet

variable {σ : Signature} {W : World σ} {α : Type}

namespace Request

/-- A question that a routine may ask that does nothing but purge a cache from time to time. -/
def Sweeps (cache : σ.CacheName) : Request σ → Prop
  | .now => True
  | .pause _ _ => True
  | .purge c => c = cache
  | _ => False

/-- A question whose answer does not depend on the expired entries of a cache. -/
def Overlooks (cache : σ.CacheName) : Request σ → Prop
  | .purge c => c ≠ cache
  | .count c => c ≠ cache
  | _ => True

end Request

/-- The same state, but for alarms and for entries of a cache that are not found any more. -/
structure Shared.SameBut (cache : σ.CacheName) (s s' : Shared σ W) : Prop where
  clock : s'.clock = s.clock
  cancelled : s'.cancelled = s.cancelled
  queues : s'.queues = s.queues
  world : s'.world = s.world
  others {c : σ.CacheName} (h : c ≠ cache) : s'.caches c = s.caches c
  found {time : Nat} (h : s.clock ≤ time) (key : String) :
    (s'.caches cache).get? time key = (s.caches cache).get? time key

namespace Shared.SameBut

variable {cache : σ.CacheName} {s s' : Shared σ W}

theorem refl (s : Shared σ W) : s.SameBut cache s :=
  ⟨rfl, rfl, rfl, rfl, fun _ => rfl, fun _ _ => rfl⟩

theorem get? (h : s.SameBut cache s') (c : σ.CacheName) (key : String) :
    (s'.caches c).get? s'.clock key = (s.caches c).get? s.clock key := by
  rw [h.clock]
  by_cases hc : c = cache
  · subst hc
    exact h.found (Nat.le_refl _) key
  · rw [h.others hc]

theorem isReady (h : s.SameBut cache s') (i : Nat) (request : Request σ) :
    s'.isReady i request = s.isReady i request := by
  cases request with
  | pause token time =>
      cases token <;> simp [Shared.isReady, isInterrupted, h.clock, h.cancelled]
  | acquire c => rw [Shared.isReady, Shared.isReady, h.queues]
  | _ => rfl

theorem moveClock (h : s.SameBut cache s') {time : Nat} (later : s.clock ≤ time) :
    (s.moveClock time).SameBut cache (s'.moveClock time) :=
  ⟨rfl, h.cancelled, h.queues, h.world, h.others, fun ht => h.found (Nat.le_trans later ht)⟩

variable [DecidableEq σ.CacheName]

theorem arrive (h : s.SameBut cache s') (i : Nat) (p : Routine σ α) :
    (s.arrive i p).SameBut cache (s'.arrive i p) := by
  cases p with
  | done a => exact h
  | ask request next =>
      cases request with
      | acquire c =>
          refine ⟨h.clock, h.cancelled, ?_, h.world, h.others, h.found⟩
          simp only [Shared.arrive, updateQueue, h.queues]
      | _ => exact ⟨h.clock, h.cancelled, h.queues, h.world, h.others, h.found⟩

/-- The same change of a cache leaves what can be found the same. -/
theorem updateCache (h : s.SameBut cache s') (c : σ.CacheName)
    (f : Cache (σ.Value c) → Cache (σ.Value c))
    (same : ∀ (a b : Cache (σ.Value c)), (∀ time, s.clock ≤ time → ∀ key,
        b.get? time key = a.get? time key) →
      ∀ time, s.clock ≤ time → ∀ key, (f b).get? time key = (f a).get? time key) :
    (s.updateCache c f).SameBut cache (s'.updateCache c f) := by
  refine ⟨h.clock, h.cancelled, h.queues, h.world, fun {other} hother => ?_,
    fun {time} htime key => ?_⟩
  · by_cases hc : other = c
    · subst hc
      rw [caches_updateCache, caches_updateCache, h.others hother]
    · rw [caches_updateCache_ne _ hc, caches_updateCache_ne _ hc, h.others hother]
  · by_cases hc : cache = c
    · subst hc
      rw [caches_updateCache, caches_updateCache]
      exact same _ _ (fun _ ht => h.found ht) time htime key
    · rw [caches_updateCache_ne _ hc, caches_updateCache_ne _ hc]
      exact h.found htime key

/-- A question that overlooks expired entries has the same answer and the same effect. -/
theorem answer (h : s.SameBut cache s') (i : Nat) {request : Request σ}
    (overlooks : request.Overlooks cache) :
    (s'.answer i request).1 = (s.answer i request).1 ∧
      (s.answer i request).2.SameBut cache (s'.answer i request).2 := by
  cases request with
  | now => exact ⟨h.clock, h⟩
  | pause token time =>
      refine ⟨?_, h.clock, h.cancelled, h.queues, h.world, h.others, h.found⟩
      cases token <;> simp [Shared.answer, isInterrupted, h.cancelled]
  | setAlarm time => exact ⟨rfl, h.clock, h.cancelled, h.queues, h.world, h.others, h.found⟩
  | dropAlarm time => exact ⟨rfl, h.clock, h.cancelled, h.queues, h.world, h.others, h.found⟩
  | isCancelled token =>
      refine ⟨?_, h⟩
      simp [Shared.answer, h.cancelled]
  | cancel token =>
      refine ⟨rfl, h.clock, ?_, h.queues, h.world, h.others, h.found⟩
      simp [Shared.answer, h.cancelled]
  | read c key => exact ⟨h.get? c key, h⟩
  | write c key value ttl =>
      refine ⟨rfl, ?_⟩
      simp only [Shared.answer, h.clock]
      refine h.updateCache c (fun entries => entries.set s.clock key value ttl) ?_
      intro a b hab time htime other
      rw [Cache.get?_set, Cache.get?_set, hab time htime]
  | evict c key =>
      refine ⟨rfl, h.updateCache c (fun entries => entries.delete key) ?_⟩
      intro a b hab time htime other
      rw [Cache.get?_delete, Cache.get?_delete, hab time htime]
  | purge c =>
      have hc : s'.caches c = s.caches c := h.others overlooks
      simp only [Shared.answer, h.clock]
      refine ⟨by rw [hc], h.updateCache c (fun entries => entries.purge s.clock) ?_⟩
      intro a b hab time htime key
      rw [Cache.get?_purge _ htime, Cache.get?_purge _ htime, hab time htime]
  | count c =>
      have hc : s'.caches c = s.caches c := h.others overlooks
      exact ⟨by simp only [Shared.answer, hc], h⟩
  | acquire c => exact ⟨rfl, h⟩
  | release c =>
      refine ⟨rfl, h.clock, h.cancelled, ?_, h.world, h.others, h.found⟩
      simp only [Shared.answer, updateQueue, h.queues]
  | act action =>
      have hresult : (W.perform action s'.world).1 = (W.perform action s.world).1 := by
        rw [h.world]
      have hworld : (W.perform action s'.world).2 = (W.perform action s.world).2 := by
        rw [h.world]
      exact ⟨hresult, h.clock, h.cancelled, h.queues, hworld, h.others, h.found⟩

/-- A routine that sweeps leaves everything else as it is. -/
theorem sweep (h : s.SameBut cache s') (i : Nat) {request : Request σ}
    (sweeps : request.Sweeps cache) : (s.answer i request).2.SameBut cache s' := by
  cases request with
  | now => exact h
  | pause token time => exact ⟨h.clock, h.cancelled, h.queues, h.world, h.others, h.found⟩
  | purge c =>
      obtain rfl : c = cache := sweeps
      refine ⟨h.clock, h.cancelled, h.queues, h.world, fun {other} hother => ?_,
        fun {time} htime key => ?_⟩
      · simp only [Shared.answer]
        rw [caches_updateCache_ne _ hother, h.others hother]
      · have hnow : s.clock ≤ time := htime
        simp only [Shared.answer]
        rw [caches_updateCache, Cache.get?_purge _ hnow]
        exact h.found hnow key
  | _ => exact sweeps.elim

theorem arrive_sweeps (h : s.SameBut cache s') (i : Nat) {p : Routine σ α}
    (sweeps : p.Obeys (Request.Sweeps cache) fun _ => True) : (s.arrive i p).SameBut cache s' := by
  cases p with
  | done a => exact h
  | ask request next =>
      cases request with
      | acquire c => exact sweeps.1.elim
      | _ => exact ⟨h.clock, h.cancelled, h.queues, h.world, h.others, h.found⟩

end Shared.SameBut

section Erasure

variable [DecidableEq σ.CacheName] {cache : σ.CacheName}

/-- When a turn was taken and by whom, with the question and its answer. -/
def Event.record (e : Event W) : Nat × Nat × Exchange σ :=
  (e.before.clock, e.routine, e.exchange)

/-- Of routines of which some only sweep a cache and the others overlook its expired entries, the
others take the same turns when the first take none. -/
theorem Steps.without_sweeps {s : Shared σ W} {ps : List (Routine σ α)} {events : List (Event W)}
    {d : Config W α} (h : Steps (Config.start s ps) events d) (sweeper : Nat → Bool)
    (sweeps : ∀ (i : Nat) (p : Routine σ α), ps[i]? = some p → sweeper i = true →
      p.Obeys (Request.Sweeps cache) fun _ => True)
    (overlooks : ∀ (i : Nat) (p : Routine σ α), ps[i]? = some p → sweeper i = false →
      p.Obeys (Request.Overlooks cache) fun _ => True) :
    ∃ events' d', Steps (Config.start s ps) events' d' ∧
      events'.map Event.record =
        (events.filter fun e => !sweeper e.routine).map Event.record ∧
      d.shared.SameBut cache d'.shared ∧
      ∀ i, sweeper i = false → d'.routines[i]? = d.routines[i]? := by
  induction h with
  | refl => exact ⟨[], _, .refl _, rfl, .refl _, fun _ _ => rfl⟩
  | @turn d events i request next steps found ready ih =>
      obtain ⟨events', d', steps', hrecords, hsame, hroutines⟩ := ih
      have hlt : i < ps.length := by
        have hlt := (List.getElem?_eq_some_iff.1 found).1
        rwa [steps.length_eq] at hlt
      have hp : ps[i]? = some ps[i] := List.getElem?_eq_getElem hlt
      obtain ⟨q, hq, hpath⟩ := steps.path hp
      rw [found] at hq
      cases hq
      cases hsweeper : sweeper i with
      | true =>
          obtain ⟨-, hsweeps, hnext⟩ := (sweeps i _ hp hsweeper).path hpath
          refine ⟨events', d', steps', ?_, ?_, fun j hj => ?_⟩
          · rw [List.filter_append]
            simp [hsweeper, hrecords]
          · exact (hsame.sweep i hsweeps).arrive_sweeps i (hnext _)
          · have hne : i ≠ j := fun hij => by simp [← hij, hsweeper] at hj
            rw [hroutines j hj, Config.turn, List.getElem?_set_ne hne]
      | false =>
          obtain ⟨-, hoverlooks, -⟩ := (overlooks i _ hp hsweeper).path hpath
          obtain ⟨hanswer, hafter⟩ := hsame.answer i hoverlooks
          have found' : d'.routines[i]? = some (.ask request next) := by
            rw [hroutines i hsweeper, found]
          have ready' : d'.shared.isReady i request = true := by
            rw [hsame.isReady, ready]
          refine ⟨_, _, steps'.turn found' ready', ?_, ?_, fun j hj => ?_⟩
          · rw [List.filter_append, List.map_append, List.map_append, hrecords]
            simp [hsweeper, Event.record, Event.exchange, Event.answer, hanswer, hsame.clock]
          · simp only [Config.turn, hanswer]
            exact hafter.arrive i _
          · simp only [Config.turn, hanswer]
            by_cases hij : i = j
            · subst hij
              rw [List.getElem?_set_self (List.getElem?_eq_some_iff.1 found').1,
                List.getElem?_set_self (List.getElem?_eq_some_iff.1 found).1]
            · rw [List.getElem?_set_ne hij, List.getElem?_set_ne hij, hroutines j hj]
  | @wait d events time steps later ih =>
      obtain ⟨events', d', steps', hrecords, hsame, hroutines⟩ := ih
      have later' : d'.shared.clock ≤ time := by
        rw [hsame.clock]
        exact later
      exact ⟨events', d'.wait time, steps'.wait later', hrecords, hsame.moveClock later, hroutines⟩

end Erasure

end NodeFleet
