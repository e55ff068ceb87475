import Mathlib.Data.List.Induction
import NodeFleet.Proofs.Routine.CacheHistory
import NodeFleet.Proofs.Routine.Completion
import NodeFleet.Proofs.Routine.Purging

/-!
# A cache as a log of writes

Expired entries stay in a cache until they are replaced, removed or purged, so what is stored is not
what a look at the cache finds. What it finds is told by the turns of a history alone: the latest
turn that set or removed the key set it, to a value that is still fresh. A call therefore fetches
when this log has nothing fresh for its key, as long as nobody else changes the key while it looks
twice. Purges leave what can be found as it is, now and at any later time, and so nobody but the
purging routine can tell a history with them from the one without.
-/

namespace NodeFleet

variable {σ : Signature} {W : World σ} {α ε : Type}

section Log

variable {cache : σ.CacheName} {key : String} {value : σ.Value cache} {time : Nat}
  {events : List (Event W)}

/-- The latest turn that set or removed a key set it to a value that is fresh at a time. -/
def Written (cache : σ.CacheName) (key : String) (value : σ.Value cache) (time : Nat)
    (events : List (Event W)) : Prop :=
  ∃ before w after ttl, events = before ++ w :: after ∧ w.request = .write cache key value ttl ∧
    time < w.before.clock + ttl ∧ ∀ x ∈ after, ¬ x.request.Changes cache key

theorem not_written_nil : ¬ Written cache key value time ([] : List (Event W)) := by
  rintro ⟨before, w, after, ttl, h, -⟩
  cases before <;> cases h

theorem written_concat_of_not_changes (i : Nat) (s : Shared σ W) {request : Request σ}
    (h : ¬ request.Changes cache key) :
    Written cache key value time (events ++ [⟨i, s, request⟩]) ↔
      Written cache key value time events := by
  constructor
  · rintro ⟨before, w, after, ttl, hevents, hrequest, hfresh, hafter⟩
    rcases cut_concat hevents with ⟨-, rfl, -⟩ | ⟨init, rfl, hinit⟩
    · obtain rfl := hrequest
      exact absurd ⟨rfl, rfl⟩ h
    · exact ⟨before, w, init, ttl, hinit, hrequest, hfresh,
        fun x hx => hafter x (List.mem_append_left _ hx)⟩
  · rintro ⟨before, w, after, ttl, rfl, hrequest, hfresh, hafter⟩
    refine ⟨before, w, after ++ [⟨i, s, request⟩], ttl, List.append_assoc _ _ _, hrequest,
      hfresh, ?_⟩
    exact List.forall_mem_append.2 ⟨hafter, List.forall_mem_singleton.2 h⟩

/-- A turn that changes a key overrides what was written before. -/
theorem written_concat_of_changes (i : Nat) (s : Shared σ W) {request : Request σ}
    (h : request.Changes cache key) :
    Written cache key value time (events ++ [⟨i, s, request⟩]) ↔
      ∃ ttl, request = .write cache key value ttl ∧ time < s.clock + ttl := by
  constructor
  · rintro ⟨before, w, after, ttl, hevents, hrequest, hfresh, hafter⟩
    rcases cut_concat hevents with ⟨-, rfl, -⟩ | ⟨init, rfl, -⟩
    · exact ⟨ttl, hrequest, hfresh⟩
    · exact absurd h (hafter _ (List.mem_append_right _ List.mem_cons_self))
  · rintro ⟨ttl, hrequest, hfresh⟩
    exact ⟨events, _, [], ttl, rfl, hrequest, hfresh, fun x hx => (nomatch hx)⟩

/-- What was fresh after turns that did not change the key was fresh before them. -/
theorem Written.of_unchanged {later : List (Event W)}
    (h : Written cache key value time (events ++ later))
    (unchanged : ∀ x ∈ later, ¬ x.request.Changes cache key) {earlier : Nat}
    (le : earlier ≤ time) : Written cache key value earlier events := by
  induction later using List.reverseRecOn generalizing time with
  | nil =>
      rw [List.append_nil] at h
      obtain ⟨before, w, after, ttl, hevents, hrequest, hfresh, hafter⟩ := h
      exact ⟨before, w, after, ttl, hevents, hrequest, Nat.lt_of_le_of_lt le hfresh, hafter⟩
  | append_singleton init last ih =>
      obtain ⟨hinit, hlast⟩ := List.forall_mem_append.1 unchanged
      rw [← List.append_assoc] at h
      exact ih ((written_concat_of_not_changes _ _ (hlast last List.mem_cons_self)).1 h) hinit le

variable [DecidableEq σ.CacheName]

/-- From now on a look at the cache finds what the log tells. -/
def TellsLog (cache : σ.CacheName) (d : Config W α) (events : List (Event W)) : Prop :=
  ∀ time, d.shared.clock ≤ time → ∀ key value,
    (d.shared.caches cache).get? time key = some value ↔ Written cache key value time events

theorem TellsLog.turn {d : Config W α} (h : TellsLog cache d events) (i : Nat)
    (request : Request σ) (next : request.Answer → Routine σ α) :
    TellsLog cache (d.turn i request next) (events ++ [⟨i, d.shared, request⟩]) := by
  intro time hclock key value
  rw [Config.clock_turn] at hclock
  rw [Config.caches_turn]
  have hedits := d.shared.edits_answer i request cache
  generalize (d.shared.answer i request).2.caches cache = edited at hedits ⊢
  cases hedits with
  | write k other ttl =>
      rw [Cache.get?_set]
      by_cases hkey : key = k
      · subst hkey
        have hchanges : Request.Changes cache key (.write cache key other ttl) := ⟨rfl, rfl⟩
        rw [if_pos rfl, written_concat_of_changes _ _ hchanges]
        constructor
        · intro hfound
          split at hfound
          next hfresh =>
            cases hfound
            exact ⟨ttl, rfl, hfresh⟩
          next => cases hfound
        · rintro ⟨_, hrequest, hfresh⟩
          cases hrequest
          exact if_pos hfresh
      · have hother : ¬ Request.Changes cache key (.write cache k other ttl) :=
          fun hk => hkey hk.2.symm
        rw [if_neg hkey, written_concat_of_not_changes _ _ hother]
        exact h time hclock key value
  | evict k =>
      rw [Cache.get?_delete]
      by_cases hkey : key = k
      · subst hkey
        have hchanges : Request.Changes cache key (.evict cache key) := ⟨rfl, rfl⟩
        rw [if_pos rfl, written_concat_of_changes _ _ hchanges]
        constructor
        · intro hfound
          cases hfound
        · rintro ⟨_, hrequest, -⟩
          cases hrequest
      · have hother : ¬ Request.Changes cache key (.evict cache k) := fun hk => hkey hk.2.symm
        rw [if_neg hkey, written_concat_of_not_changes _ _ hother]
        exact h time hclock key value
  | purge =>
      have hnone : ¬ Request.Changes cache key (.purge cache) := id
      rw [Cache.get?_purge _ hclock, written_concat_of_not_changes _ _ hnone]
      exact h time hclock key value
  | none _ hnone =>
      rw [written_concat_of_not_changes _ _ (hnone key)]
      exact h time hclock key value

theorem Steps.tells_log {s : Shared σ W} {ps : List (Routine σ α)} {d : Config W α}
    (h : Steps (Config.start s ps) events d) (empty : s.caches cache = .empty) :
    TellsLog cache d events := by
  induction h with
  | refl =>
      intro time _ key value
      rw [Config.caches_start, empty, Cache.get?_empty]
      exact ⟨fun h => (nomatch h), fun h => absurd h not_written_nil⟩
  | turn _ _ _ ih => exact ih.turn _ _ _
  | wait _ later ih => exact fun time hclock => ih time (Nat.le_trans later hclock)

/-- A look in a turn of a history finds what the log of the turns before it tells. -/
theorem Steps.read_iff_written {s : Shared σ W} {ps : List (Routine σ α)}
    {first second : List (Event W)} {r : Event W} {d : Config W α}
    (h : Steps (Config.start s ps) (first ++ r :: second) d) (empty : s.caches cache = .empty)
    {found : Option (σ.Value cache)} (hr : r.exchange = ⟨.read cache key, found⟩) :
    found = some value ↔ Written cache key value r.before.clock first := by
  obtain ⟨m, next, hm, hshared, -⟩ := h.split rfl
  rw [← get?_of_exchange hr, ← hshared]
  exact hm.tells_log empty _ (Nat.le_refl _) key value

end Log

section Calls

variable [DecidableEq σ.CacheName] {cache : σ.CacheName} {s : Shared σ W}
  {ps : List (Participant σ cache ε)} {first events second : List (Event W)}
  {d : Config W (Except ε (σ.Value cache))} {i : Nat} {key : String} {ttl : Nat}
  {fetch : Routine σ (Except ε (σ.Value cache))} {r : Event W}

/-- Between the turns of a routine no other routine sets or removes a key. -/
def Uninterrupted (cache : σ.CacheName) (key : String) (i : Nat) (events : List (Event W)) : Prop :=
  ∀ first a middle b second, events = first ++ a :: (middle ++ b :: second) → a.routine = i →
    b.routine = i → ∀ x ∈ middle, x.routine ≠ i → ¬ x.request.Changes cache key

/-- The first turn of a call is a look at the cache, and the call is over if it finds a value. -/
theorem Steps.first_look (h : Steps (Config.start s (ps.map Participant.routine))
      (first ++ r :: second) d) (call : ps[r.routine]? = some (.call key ttl fetch))
    (begins : traceOf r.routine first = []) :
    ∃ found, r.exchange = ⟨.read cache key, found⟩ ∧ ∀ value, found = some value →
      d.routines[r.routine]? = some (.done (.ok value)) ∧
        traceOf r.routine (first ++ r :: second) = [⟨.read cache key, some value⟩] := by
  have hroutine : (ps.map Participant.routine)[r.routine]? =
      some (Routine.cached cache key ttl fetch) := by
    rw [List.getElem?_map, call]
    rfl
  obtain ⟨q, hq, hpath⟩ := h.path hroutine
  rw [traceOf_append_cons, begins, List.nil_append] at hpath ⊢
  rcases Routine.path_ask_iff.1 hpath with ⟨hnil, -⟩ | ⟨found, tail, htrace, hrest⟩
  · cases hnil
  · obtain ⟨hr, htail⟩ := List.cons.inj htrace
    refine ⟨found, hr, ?_⟩
    rintro value rfl
    obtain ⟨rfl, rfl⟩ := Routine.path_done_iff.1 hrest
    rw [hr, htail]
    exact ⟨hq, rfl⟩

/-- A call whose key is in the log with a fresh value returns this value at once. -/
theorem Steps.call_finds (h : Steps (Config.start s (ps.map Participant.routine))
      (first ++ r :: second) d) (empty : s.caches cache = .empty)
    (call : ps[r.routine]? = some (.call key ttl fetch)) (begins : traceOf r.routine first = [])
    {value : σ.Value cache} (written : Written cache key value r.before.clock first) :
    d.routines[r.routine]? = some (.done (.ok value)) ∧
      traceOf r.routine (first ++ r :: second) = [⟨.read cache key, some value⟩] := by
  obtain ⟨found, hr, hfound⟩ := h.first_look call begins
  exact hfound value ((h.read_iff_written empty hr).2 written)

/-- An uninterrupted call whose key is not in the log with a fresh value has fetched when it is
done. -/
theorem Steps.call_fetches (h : Steps (Config.start s (ps.map Participant.routine))
      (first ++ r :: second) d) (empty : s.caches cache = .empty)
    (call : ps[r.routine]? = some (.call key ttl fetch)) (begins : traceOf r.routine first = [])
    (unwritten : ∀ value, ¬ Written cache key value r.before.clock first)
    (uninterrupted : Uninterrupted cache key r.routine (first ++ r :: second))
    {result : Except ε (σ.Value cache)} (done : d.routines[r.routine]? = some (.done result)) :
    ∃ own, fetch.Ends own result ∧ traceOf r.routine (first ++ r :: second) =
      Routine.misses cache key ++ own ++ Routine.closing cache key ttl result := by
  have hstate := Routine.path_cached (h.participant_path call done)
  generalize htrace : traceOf r.routine (first ++ r :: second) = trace at hstate
  rw [traceOf_append_cons, begins, List.nil_append] at htrace
  cases hstate with
  | fetched ends => exact ⟨_, ends, rfl⟩
  | hit value =>
      obtain ⟨hr, -⟩ := List.cons.inj htrace
      exact absurd ((h.read_iff_written empty hr).1 rfl) (unwritten value)
  | returned value =>
      -- The second look found what was written between the looks, but nobody wrote there.
      obtain ⟨hr, htail⟩ := List.cons.inj htrace
      have hcut : traceOf r.routine second = [⟨.acquire cache, ()⟩] ++
          ⟨.read cache key, some value⟩ :: [⟨.release cache, ()⟩] := htail
      obtain ⟨middle, b, last, rfl, hb, hlook, hmiddle, -⟩ := exists_turn hcut
      have hlooking : ¬ r.request.Changes cache key := by
        rw [show r.request = .read cache key from congrArg Exchange.request hr]
        exact id
      have hbetween : ∀ x ∈ middle, ¬ x.request.Changes cache key := by
        intro x hx
        by_cases hown : x.routine = r.routine
        · have hmem : x.exchange ∈ traceOf r.routine middle :=
            List.mem_map_of_mem (mem_turnsOf.2 ⟨hx, hown⟩)
          rw [hmiddle, List.mem_singleton] at hmem
          rw [show x.request = .acquire cache from congrArg Exchange.request hmem]
          exact id
        · exact uninterrupted first r middle b last rfl rfl hb x hx hown
      rw [← List.cons_append, ← List.append_assoc] at h
      have hwritten := (h.read_iff_written empty hlook).1 rfl
      have hclock : r.before.clock ≤ b.before.clock := by
        obtain ⟨m, next, hm, hshared, -⟩ := h.split rfl
        rw [← hshared]
        exact hm.clock_le r (List.mem_append_right _ List.mem_cons_self)
      have hfirst : Written cache key value r.before.clock first :=
        hwritten.of_unchanged (List.forall_mem_cons.2 ⟨hlooking, hbetween⟩) hclock
      exact absurd hfirst (unwritten value)

/-- What a call sets is what its fetch has yielded, for its key and its time to live. -/
theorem Steps.call_writes (h : Steps (Config.start s (ps.map Participant.routine))
      (first ++ r :: second) d) (call : ps[r.routine]? = some (.call key ttl fetch))
    (fair : fetch.Obeys (Routine.Leaves cache) fun _ => True) {k : String}
    (changes : r.request.Changes cache k) :
    ∃ own value, fetch.Ends own (.ok value) ∧
      traceOf r.routine first = Routine.misses cache key ++ own ∧ k = key ∧
      r.request = .write cache key value ttl := by
  obtain ⟨m, next, hm, -, found, -⟩ := h.split rfl
  have hstate := Routine.path_cached (hm.participant_path call found)
  obtain ⟨i, before, request⟩ := r
  generalize traceOf i first = trace at hstate ⊢
  cases hstate with
  | fetching path =>
      have hleaves := (fair.path path).2.1
      cases request with
      | write c k value ttl => exact absurd (congrArg some changes.1) hleaves
      | evict c k => exact absurd (congrArg some changes.1) hleaves
      | _ => exact changes.elim
  | storing ends next => exact ⟨_, _, ends, rfl, changes.2.symm, rfl⟩
  | _ => exact changes.elim

end Calls

section Results

variable [DecidableEq σ.CacheName] {cache : σ.CacheName} {s : Shared σ W}
  {ps : List (Participant σ cache ε)} {events : List (Event W)}
  {d : Config W (Except ε (σ.Value cache))}

/-- How a cache behaves along a history of calls that read through it and of other routines, told by
the log of the turns that set or removed its keys. Other routines look at the cache, set, remove and
purge with the questions for that. -/
structure RefinesLog (cache : σ.CacheName) (s : Shared σ W) (ps : List (Participant σ cache ε))
    (events : List (Event W)) (d : Config W (Except ε (σ.Value cache))) : Prop where
  /-- A look finds a value exactly if the latest change of the key has set that value less than its
  time to live ago. -/
  looks {first second : List (Event W)} {r : Event W} {key : String}
    {found : Option (σ.Value cache)} (h : events = first ++ r :: second)
    (look : r.exchange = ⟨.read cache key, found⟩) (value : σ.Value cache) :
    found = some value ↔ Written cache key value r.before.clock first
  /-- A call returns a value at once that it would find with a look, and does not fetch. -/
  finds {first second : List (Event W)} {r : Event W} {key : String} {ttl : Nat}
    {fetch : Routine σ (Except ε (σ.Value cache))} (h : events = first ++ r :: second)
    (call : ps[r.routine]? = some (.call key ttl fetch)) (begins : traceOf r.routine first = [])
    {value : σ.Value cache} (written : Written cache key value r.before.clock first) :
    d.routines[r.routine]? = some (.done (.ok value)) ∧
      traceOf r.routine events = [⟨.read cache key, some value⟩]
  /-- An uninterrupted call that would find nothing with a look fetches and returns what it has
  fetched. -/
  fetches {first second : List (Event W)} {r : Event W} {key : String} {ttl : Nat}
    {fetch : Routine σ (Except ε (σ.Value cache))} (h : events = first ++ r :: second)
    (call : ps[r.routine]? = some (.call key ttl fetch)) (begins : traceOf r.routine first = [])
    (unwritten : ∀ value, ¬ Written cache key value r.before.clock first)
    (uninterrupted : Uninterrupted cache key r.routine events) {result : Except ε (σ.Value cache)}
    (done : d.routines[r.routine]? = some (.done result)) :
    ∃ own, fetch.Ends own result ∧
      traceOf r.routine events =
        Routine.misses cache key ++ own ++ Routine.closing cache key ttl result
  /-- A call changes the log only where its fetch has succeeded, by what it fetched. -/
  writes {first second : List (Event W)} {w : Event W} {key k : String} {ttl : Nat}
    {fetch : Routine σ (Except ε (σ.Value cache))} (h : events = first ++ w :: second)
    (call : ps[w.routine]? = some (.call key ttl fetch))
    (fair : fetch.Obeys (Routine.Leaves cache) fun _ => True)
    (changes : w.request.Changes cache k) :
    ∃ own value, fetch.Ends own (.ok value) ∧
      traceOf w.routine first = Routine.misses cache key ++ own ∧ k = key ∧
      w.request = .write cache key value ttl
  /-- A purge answers how many entries it has dropped, and these are the expired ones. -/
  purges {e : Event W} {count : Nat} (h : e ∈ events) (purge : e.exchange = ⟨.purge cache, count⟩) :
    ∃ dropped, dropped.length = count ∧ (∀ x ∈ dropped, x.2.expires ≤ e.before.clock) ∧
      (∀ x ∈ (e.after.caches cache).entries.entries, e.before.clock < x.2.expires) ∧
      (dropped ++ (e.after.caches cache).entries.entries).Perm
        (e.before.caches cache).entries.entries
  /-- Without the routines that only purge the others take the same turns at the same times with the
  same answers. -/
  unseen (sweeper : Nat → Bool)
    (sweeps : ∀ (i : Nat) (p : Participant σ cache ε), ps[i]? = some p → sweeper i = true →
      p.routine.Obeys (Request.Sweeps cache) fun _ => True)
    (overlooks : ∀ (i : Nat) (p : Participant σ cache ε), ps[i]? = some p → sweeper i = false →
      p.routine.Obeys (Request.Overlooks cache) fun _ => True) :
    ∃ events' d', Steps (Config.start s (ps.map Participant.routine)) events' d' ∧
      events'.map Event.record = (events.filter fun e => !sweeper e.routine).map Event.record ∧
      ∀ i, sweeper i = false → d'.routines[i]? = d.routines[i]?
  /-- Routines that take locks in order come to an end, from free locks. -/
  completes {rank : σ.CacheName → Nat} {bound : Nat} (free : ∀ c, s.queues c = [])
    (orderly : ∀ p ∈ ps, p.routine.Orderly rank bound []) :
    ∃ later last, Steps d later last ∧
      ∀ i < ps.length, ∃ result, last.routines[i]? = some (.done result)

theorem exists_dropped_of_purge {e : Event W} {count : Nat}
    (h : e.exchange = ⟨.purge cache, count⟩) :
    ∃ dropped, dropped.length = count ∧ (∀ x ∈ dropped, x.2.expires ≤ e.before.clock) ∧
      (∀ x ∈ (e.after.caches cache).entries.entries, e.before.clock < x.2.expires) ∧
      (dropped ++ (e.after.caches cache).entries.entries).Perm
        (e.before.caches cache).entries.entries := by
  obtain ⟨i, before, request⟩ := e
  obtain ⟨rfl, hcount⟩ := Exchange.mk.inj h
  obtain rfl := eq_of_heq hcount
  have hafter : (Event.after ⟨i, before, .purge cache⟩).caches cache =
      (before.caches cache).purge before.clock :=
    before.caches_updateCache cache fun entries => entries.purge before.clock
  obtain ⟨dropped, hlength, hexpired, hperm⟩ := (before.caches cache).exists_dropped before.clock
  rw [hafter]
  exact ⟨dropped, hlength, hexpired, fun x hx => Cache.fresh_of_mem_purge hx, hperm⟩

/-- A cache that is empty at first refines the log of its writes, under every interleaving of calls
and other routines. -/
theorem refines_log (h : Steps (Config.start s (ps.map Participant.routine)) events d)
    (empty : s.caches cache = .empty) : RefinesLog cache s ps events d := by
  have routine_of {i : Nat} {q : Routine σ (Except ε (σ.Value cache))}
      (hq : (ps.map Participant.routine)[i]? = some q) : ∃ p, ps[i]? = some p ∧ p.routine = q := by
    rw [List.getElem?_map] at hq
    exact Option.map_eq_some_iff.1 hq
  constructor
  case looks =>
    rintro first second r key found rfl look value
    exact h.read_iff_written empty look
  case finds =>
    rintro first second r key ttl fetch rfl call begins value written
    exact h.call_finds empty call begins written
  case fetches =>
    rintro first second r key ttl fetch rfl call begins unwritten uninterrupted result done
    exact h.call_fetches empty call begins unwritten uninterrupted done
  case writes =>
    rintro first second w key k ttl fetch rfl call fair changes
    exact h.call_writes call fair changes
  case purges =>
    intro e count _ purge
    exact exists_dropped_of_purge purge
  case unseen =>
    intro sweeper sweeps overlooks
    obtain ⟨events', d', steps', hrecords, -, hroutines⟩ := h.without_sweeps sweeper
      (fun i q hq hsweeper => by
        obtain ⟨p, hp, rfl⟩ := routine_of hq
        exact sweeps i p hp hsweeper)
      (fun i q hq hsweeper => by
        obtain ⟨p, hp, rfl⟩ := routine_of hq
        exact overlooks i p hp hsweeper)
    exact ⟨events', d', steps', hrecords, hroutines⟩
  case completes =>
    intro rank bound free orderly
    have hsteps := h.completes free (List.forall_mem_map.2 orderly)
    rwa [List.length_map] at hsteps

/-- A text that is set for ten milliseconds, a purge, and a call that would fetch another text. -/
def settingThenFetching : List (Participant textSignature () String) :=
  [.other (.ask (.write () "zones" "z1" 10) fun _ => .done (.ok "set")),
    .other (.ask (.purge ()) fun _ => .done (.ok "purged")),
    .call "zones" 0 (pure (.ok "z2"))]

theorem refines_log_setting_then_fetching :
    ∃ (events : List (Event fetchLog)) (d : Config fetchLog (Except String String)),
      Steps (Config.start (Shared.initial []) (settingThenFetching.map Participant.routine))
          events d ∧
        d.routines = [.done (.ok "set"), .done (.ok "purged"), .done (.ok "z2")] ∧
        RefinesLog () (Shared.initial []) settingThenFetching events d := by
  -- The text has expired when the call looks, and a purge has dropped it before.
  have h := Steps.refl (Config.start (Shared.initial [] : Shared textSignature fetchLog)
    (settingThenFetching.map Participant.routine))
  have h := h.turn (i := 0) rfl rfl
  have h := h.wait (show 0 ≤ 10 from Nat.zero_le 10)
  have h := h.turn (i := 1) rfl rfl
  have h := h.turn (i := 2) rfl rfl
  have h := h.turn (i := 2) rfl rfl
  have h := h.turn (i := 2) rfl rfl
  have h := h.turn (i := 2) rfl rfl
  have h := h.turn (i := 2) rfl rfl
  exact ⟨_, _, h, rfl, refines_log h rfl⟩

end Results

end NodeFleet
