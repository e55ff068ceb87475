import NodeFleet.Proofs.Routine.Cached
import NodeFleet.Routine.TextCache

/-!
# One cache along a history

Any number of calls read through a cache while other routines read, set, remove and purge its
entries. Only calls take the lock of the cache, so the fetches follow one another. What is stored
was stored by a turn of the history with the expiry that follows from it, and while a value that a
call has fetched is fresh no call fetches that key, as long as nobody but the calls sets or removes
it.
-/

namespace NodeFleet

variable {σ : Signature} {W : World σ} {α ε : Type}

/-- A routine around one cache: a call that reads through it, or anything else. -/
inductive Participant (σ : Signature) (cache : σ.CacheName) (ε : Type) where
  | call (key : String) (ttl : Nat) (fetch : Routine σ (Except ε (σ.Value cache)))
  | other (p : Routine σ (Except ε (σ.Value cache)))

namespace Participant

variable {cache : σ.CacheName}

/-- What a participant does. -/
def routine : Participant σ cache ε → Routine σ (Except ε (σ.Value cache))
  | call key ttl fetch => Routine.cached cache key ttl fetch
  | other p => p

/-- A fetch does not use the cache that it fills, and nothing but a call uses the lock. -/
def Fair : Participant σ cache ε → Prop
  | call _ _ fetch => fetch.Obeys (Routine.Leaves cache) fun _ => True
  | other p => p.Obeys (Routine.LeavesLock cache) fun _ => True

variable [DecidableEq σ.CacheName]

theorem Fair.guards {p : Participant σ cache ε} (h : p.Fair) : p.routine.Guards cache false := by
  cases p with
  | call key ttl fetch =>
      apply Routine.guards_cached
      exact Routine.Obeys.mono h (fun _ => Routine.Leaves.leavesLock) fun _ => id
  | other p => exact Routine.guards_of_leavesLock h

end Participant

variable [DecidableEq σ.CacheName] {cache : σ.CacheName}

/-- A call of a routine has begun to fetch and has neither stored a value nor given up. -/
def Fetching (cache : σ.CacheName) (key : String) (i : Nat) (events : List (Event W)) : Prop :=
  ∃ trace, traceOf i events = Routine.misses cache key ++ trace ∧
    ∀ x ∈ trace, Routine.Leaves cache x.request

/-- With this turn after a history a call begins to fetch. -/
def BeginsFetch (cache : σ.CacheName) (key : String) (events : List (Event W))
    (e : Event W) : Prop :=
  traceOf e.routine (events ++ [e]) = Routine.misses cache key

/-- With this turn after a history a call stores what it has fetched. -/
def CompletesFetch (cache : σ.CacheName) (key : String) (value : σ.Value cache) (ttl : Nat)
    (events : List (Event W)) (e : Event W) : Prop :=
  Fetching cache key e.routine events ∧ e.request = .write cache key value ttl

section Exclusion

theorem holdsFrom_of_leaves {held : Bool} {trace : List (Exchange σ)}
    (h : ∀ x ∈ trace, Routine.Leaves cache x.request) :
    Routine.holdsFrom cache held trace = held := by
  induction trace with
  | nil => rfl
  | cons x rest ih =>
      have hx := (h x List.mem_cons_self).leavesLock
      have hrest := ih fun y hy => h y (List.mem_cons_of_mem _ hy)
      rw [Routine.holdsFrom, List.foldl_cons, Request.holdsAfter_of_ne hx.1 hx.2]
      exact hrest

/-- A routine that fetches holds the lock. -/
theorem Fetching.holds {key : String} {i : Nat} {events : List (Event W)}
    (h : Fetching cache key i events) : Routine.holds cache (traceOf i events) = true := by
  obtain ⟨trace, htrace, hleaves⟩ := h
  rw [htrace, Routine.holds, Routine.holdsFrom_append, holdsFrom_of_leaves hleaves]
  simp [Routine.misses, Routine.holdsFrom, Request.holdsAfter]

/-- Only one call fetches at a time. -/
theorem Steps.fetching_unique {s : Shared σ W} {ps : List (Participant σ cache ε)}
    {events : List (Event W)} {d : Config W (Except ε (σ.Value cache))}
    (h : Steps (Config.start s (ps.map Participant.routine)) events d)
    (free : s.queues cache = []) (fair : ∀ p ∈ ps, p.Fair) {i j : Nat} {key key' : String}
    (hi : Fetching cache key i events) (hj : Fetching cache key' j events) : i = j := by
  have queued := h.queued free (List.forall_mem_map.2 fun p hp => (fair p hp).guards)
  exact queued.unique hi.holds hj.holds

end Exclusion

section Reads

/-- A read answers what is fresh in the cache. -/
theorem get?_of_exchange {key : String} {found : Option (σ.Value cache)} {e : Event W}
    (h : e.exchange = ⟨.read cache key, found⟩) :
    (e.before.caches cache).get? e.before.clock key = found := by
  obtain ⟨i, s, request⟩ := e
  obtain ⟨rfl, hanswer⟩ := Exchange.mk.inj h
  exact eq_of_heq hanswer

theorem BeginsFetch.exchange {key : String} {events : List (Event W)} {e : Event W}
    (h : BeginsFetch cache key events e) : e.exchange = ⟨.read cache key, none⟩ := by
  rw [BeginsFetch, traceOf_concat_self] at h
  have hlast := congrArg List.getLast? h
  rw [List.getLast?_concat] at hlast
  exact Option.some.inj hlast

/-- Every entry of a cache was stored by a turn of the history, which also tells its expiry. -/
def Logged (cache : σ.CacheName) (d : Config W α) (events : List (Event W)) : Prop :=
  ∀ key entry, (d.shared.caches cache).entries.get? key = some entry →
    ∃ w ∈ events, ∃ ttl, w.request = .write cache key entry.value ttl ∧
      entry.expires = w.before.clock + ttl

theorem Logged.turn {d : Config W α} {events : List (Event W)} (h : Logged cache d events)
    (i : Nat) (request : Request σ) (next : request.Answer → Routine σ α) :
    Logged cache (d.turn i request next) (events ++ [⟨i, d.shared, request⟩]) := by
  intro key entry hentry
  have hold (hentry : (d.shared.caches cache).entries.get? key = some entry) :
      ∃ w ∈ events ++ [⟨i, d.shared, request⟩], ∃ ttl,
        w.request = .write cache key entry.value ttl ∧ entry.expires = w.before.clock + ttl := by
    obtain ⟨w, hw, ttl, hrequest, hexpires⟩ := h key entry hentry
    exact ⟨w, List.mem_append_left _ hw, ttl, hrequest, hexpires⟩
  rw [Config.caches_turn] at hentry
  have hedits := d.shared.edits_answer i request cache
  generalize (d.shared.answer i request).2.caches cache = edited at hedits hentry
  cases hedits with
  | write k value ttl =>
      rw [Cache.entry_set] at hentry
      split at hentry
      next hkey =>
        cases hentry
        subst hkey
        exact ⟨_, List.mem_append_right _ List.mem_cons_self, ttl, rfl, rfl⟩
      next => exact hold hentry
  | evict k =>
      rw [Cache.entry_delete] at hentry
      split at hentry
      next => cases hentry
      next => exact hold hentry
  | purge =>
      rw [Cache.entry_purge, Option.filter_eq_some_iff] at hentry
      exact hold hentry.1
  | none => exact hold hentry

theorem Steps.logged {s : Shared σ W} {ps : List (Routine σ α)} {events : List (Event W)}
    {d : Config W α} (h : Steps (Config.start s ps) events d)
    (empty : s.caches cache = .empty) : Logged cache d events := by
  induction h with
  | refl =>
      intro key entry hentry
      rw [Config.caches_start, empty] at hentry
      cases hentry
  | turn _ _ _ ih => exact ih.turn _ _ _
  | wait _ _ ih => exact ih

/-- A value that a read finds was stored for that key before, less than its time to live ago. -/
theorem Steps.stored_of_read {s : Shared σ W} {ps : List (Routine σ α)}
    {first second : List (Event W)} {r : Event W} {d : Config W α}
    (h : Steps (Config.start s ps) (first ++ r :: second) d) (empty : s.caches cache = .empty)
    {key : String} {value : σ.Value cache} (hr : r.exchange = ⟨.read cache key, some value⟩) :
    ∃ w ∈ first, ∃ ttl, w.request = .write cache key value ttl ∧
      r.before.clock < w.before.clock + ttl := by
  obtain ⟨m, next, hm, hshared, _⟩ := h.split rfl
  obtain ⟨entry, hentry, hfresh, rfl⟩ := Cache.get?_eq_some_iff.1 (get?_of_exchange hr)
  rw [← hshared] at hentry
  obtain ⟨w, hw, ttl, hrequest, hexpires⟩ := hm.logged empty key entry hentry
  exact ⟨w, hw, ttl, hrequest, hexpires ▸ hfresh⟩

end Reads

section Separation

variable {s : Shared σ W} {ps : List (Participant σ cache ε)} {events : List (Event W)}
  {d : Config W (Except ε (σ.Value cache))}

/-- What a participant does along a history is a path of it. -/
theorem Steps.participant_path (h : Steps (Config.start s (ps.map Participant.routine)) events d)
    {i : Nat} {p : Participant σ cache ε} (hp : ps[i]? = some p)
    {q : Routine σ (Except ε (σ.Value cache))} (hq : d.routines[i]? = some q) :
    p.routine.Path (traceOf i events) q := by
  have hroutine : (ps.map Participant.routine)[i]? = some p.routine := by
    rw [List.getElem?_map, hp]
    rfl
  obtain ⟨q', hq', hpath⟩ := h.path hroutine
  rw [hq] at hq'
  cases hq'
  exact hpath

/-- A call sets a key only when it completes a fetch of that key, and it removes none. -/
theorem fetching_of_changes {key k : String} {ttl : Nat}
    {fetch : Routine σ (Except ε (σ.Value cache))} {request : Request σ}
    {next : request.Answer → Routine σ (Except ε (σ.Value cache))} {i : Nat}
    (hpath : (Routine.cached cache k ttl fetch).Path (traceOf i events) (.ask request next))
    (fair : fetch.Obeys (Routine.Leaves cache) fun _ => True)
    (h : request.Changes cache key) : Fetching cache key i events := by
  have hstate := Routine.path_cached hpath
  generalize htrace : traceOf i events = trace at hstate
  cases hstate with
  | fetching path =>
      have hleaves := (fair.path path).2.1
      cases request with
      | write c k value ttl => exact absurd (congrArg some h.1) hleaves
      | evict c k => exact absurd (congrArg some h.1) hleaves
      | _ => exact h.elim
  | storing ends next =>
      obtain ⟨-, rfl⟩ := h
      exact ⟨_, htrace, (fair.ends ends).1⟩
  | _ => exact h.elim

/-- A routine that fetches after a turn fetched before it or begins to with it. -/
theorem Fetching.of_concat {key : String} {j : Nat} {e : Event W}
    (h : Fetching cache key j (events ++ [e])) :
    Fetching cache key j events ∨ BeginsFetch cache key events e := by
  obtain ⟨trace, htrace, hleaves⟩ := h
  by_cases hj : e.routine = j
  · subst hj
    rcases List.eq_nil_or_concat trace with rfl | ⟨init, last, rfl⟩
    · rw [List.append_nil] at htrace
      exact .inr htrace
    · rw [traceOf_concat_self, List.concat_eq_append, ← List.append_assoc] at htrace
      refine .inl ⟨init, (List.append_inj' htrace rfl).1, fun x hx => hleaves x ?_⟩
      rw [List.concat_eq_append]
      exact List.mem_append_left _ hx
  · rw [traceOf_concat_other hj] at htrace
    exact .inl ⟨trace, htrace, hleaves⟩

/-- Until a time a value is stored under a key and nobody fetches that key. -/
def Kept (key : String) (value : σ.Value cache) (expires : Nat)
    (d : Config W (Except ε (σ.Value cache))) (events : List (Event W)) : Prop :=
  d.shared.clock < expires →
    (d.shared.caches cache).entries.get? key = some ⟨value, expires⟩ ∧
      ∀ j, ¬ Fetching cache key j events

theorem Kept.turn {key : String} {value : σ.Value cache} {expires : Nat}
    (kept : Kept key value expires d events) {i : Nat} {request : Request σ}
    {next : request.Answer → Routine σ (Except ε (σ.Value cache))}
    (unchanged : request.Changes cache key → Fetching cache key i events) :
    Kept key value expires (d.turn i request next) (events ++ [⟨i, d.shared, request⟩]) := by
  intro hclock
  rw [Config.clock_turn] at hclock
  obtain ⟨hentry, hnone⟩ := kept hclock
  have hchanges : ¬ request.Changes cache key := fun h => hnone i (unchanged h)
  constructor
  · rw [Config.caches_turn]
    have hedits := d.shared.edits_answer i request cache
    generalize (d.shared.answer i request).2.caches cache = edited at hedits ⊢
    cases hedits with
    | write k value' ttl =>
        have hkey : key ≠ k := fun hk => hchanges ⟨rfl, hk.symm⟩
        rw [Cache.entry_set, if_neg hkey]
        exact hentry
    | evict k =>
        have hkey : key ≠ k := fun hk => hchanges ⟨rfl, hk.symm⟩
        rw [Cache.entry_delete, if_neg hkey]
        exact hentry
    | purge =>
        rw [Cache.entry_purge, hentry]
        simp [Option.filter, hclock]
    | none => exact hentry
  · intro j hj
    rcases hj.of_concat with hj | hbegins
    · exact hnone j hj
    · have hread := get?_of_exchange hbegins.exchange
      have hfresh : (d.shared.caches cache).get? d.shared.clock key = some value :=
        Cache.get?_eq_some_iff.2 ⟨_, hentry, hclock, rfl⟩
      rw [hfresh] at hread
      cases hread

/-- A fetched value is kept while it is fresh and only calls change its key. -/
theorem Steps.kept {key : String} {value : σ.Value cache} {expires : Nat}
    {d' : Config W (Except ε (σ.Value cache))} {later : List (Event W)}
    (h : Steps (Config.start s (ps.map Participant.routine)) events d)
    (fair : ∀ p ∈ ps, p.Fair) (kept : Kept key value expires d events) (h' : Steps d later d')
    (unchanged : ∀ x ∈ later, (∃ p, ps[x.routine]? = some (.other p)) →
      ¬ x.request.Changes cache key) : Kept key value expires d' (events ++ later) := by
  induction h' with
  | refl => rwa [List.append_nil]
  | @turn d' later i request next steps found ready ih =>
      have hlater := ih fun x hx => unchanged x (List.mem_append_left _ hx)
      rw [← List.append_assoc]
      refine hlater.turn fun hchanges => ?_
      have hsteps := h.trans steps
      have hlt : i < ps.length := by
        have hlt := (List.getElem?_eq_some_iff.1 found).1
        rwa [hsteps.length_eq, Config.start, List.length_map] at hlt
      have hp := List.getElem?_eq_getElem hlt
      cases hcase : ps[i] with
      | other p =>
          rw [hcase] at hp
          exact absurd hchanges (unchanged _ (List.mem_append_right _ List.mem_cons_self) ⟨p, hp⟩)
      | call k ttl fetch =>
          have hfair := fair _ (List.getElem_mem hlt)
          rw [hcase] at hp hfair
          exact fetching_of_changes (hsteps.participant_path hp found) hfair hchanges
  | wait _ later ih =>
      exact fun hclock => ih unchanged (Nat.lt_of_le_of_lt later hclock)

/-- Right after a call has stored what it fetched the value is kept. -/
theorem kept_of_completesFetch {key : String} {value : σ.Value cache} {ttl : Nat}
    (h : Steps (Config.start s (ps.map Participant.routine)) events d)
    (free : s.queues cache = []) (fair : ∀ p ∈ ps, p.Fair) {w : Event W}
    {next : w.request.Answer → Routine σ (Except ε (σ.Value cache))}
    (hw : CompletesFetch cache key value ttl events w) (hshared : d.shared = w.before) :
    Kept key value (w.before.clock + ttl) (d.turn w.routine w.request next) (events ++ [w]) := by
  obtain ⟨i, before, request⟩ := w
  obtain ⟨hfetching, rfl⟩ := hw
  obtain rfl := hshared
  intro _
  constructor
  · rw [Config.caches_turn]
    change ((d.shared.answer i (.write cache key value ttl)).2.caches cache).entries.get? key = _
    rw [Shared.caches_answer_write, Cache.entry_set, if_pos rfl]
  · intro j hj
    rcases hj.of_concat with hold | hbegins
    · obtain rfl : j = i := h.fetching_unique free fair hold hfetching
      obtain ⟨trace, htrace, _⟩ := hfetching
      obtain ⟨trace', htrace', hleaves⟩ := hj
      have hlast := traceOf_concat_self events
        (⟨j, d.shared, .write cache key value ttl⟩ : Event W)
      rw [htrace', htrace, List.append_assoc] at hlast
      have hwrite := hleaves _ (List.append_cancel_left hlast ▸ List.mem_append_right _
        List.mem_cons_self)
      exact hwrite rfl
    · cases hbegins.exchange

end Separation

section Results

variable {s : Shared σ W} {ps : List (Participant σ cache ε)} {events : List (Event W)}
  {d : Config W (Except ε (σ.Value cache))}

/-- How calls share a cache along a history. The turns of a call are told from those of all other
routines, which may set and remove keys at any time. -/
structure SharedReads (cache : σ.CacheName) (ps : List (Participant σ cache ε))
    (events : List (Event W)) (d : Config W (Except ε (σ.Value cache))) : Prop where
  /-- At most one fetch is in flight. -/
  exclusive {i j : Nat} {key key' : String} (hi : Fetching cache key i events)
    (hj : Fetching cache key' j events) : i = j
  /-- A fetch begins only where no fresh value is stored. -/
  needed {first second : List (Event W)} {b : Event W} {key : String}
    (h : events = first ++ b :: second) (begins : BeginsFetch cache key first b) :
    (b.before.caches cache).get? b.before.clock key = none
  /-- After a fetch has succeeded no other begins before the value expires, unless another routine
  sets or removes the key in between. -/
  separated {first middle second : List (Event W)} {w b : Event W} {key : String}
    {value : σ.Value cache} {ttl : Nat}
    (h : events = first ++ w :: (middle ++ b :: second))
    (completes : CompletesFetch cache key value ttl first w)
    (begins : BeginsFetch cache key (first ++ w :: middle) b)
    (unchanged : ∀ x ∈ middle, (∃ p, ps[x.routine]? = some (.other p)) →
      ¬ x.request.Changes cache key) :
    w.before.clock + ttl ≤ b.before.clock
  /-- A value that a call yields was fetched by it, or was stored for its key less than its time to
  live before the call read it. -/
  value {i : Nat} {key : String} {ttl : Nat} {fetch : Routine σ (Except ε (σ.Value cache))}
    {value : σ.Value cache} (call : ps[i]? = some (.call key ttl fetch))
    (result : d.routines[i]? = some (.done (.ok value))) :
    (∃ own, fetch.Ends own (.ok value) ∧
      traceOf i events =
        Routine.misses cache key ++ own ++ Routine.closing (ε := ε) cache key ttl (.ok value)) ∨
      ∃ first r second w kept, events = first ++ r :: second ∧ r.routine = i ∧
        r.exchange = ⟨.read cache key, some value⟩ ∧ w ∈ first ∧
        w.request = .write cache key value kept ∧ r.before.clock < w.before.clock + kept
  /-- An error that a call yields is that of its own fetch. -/
  error {i : Nat} {key : String} {ttl : Nat} {fetch : Routine σ (Except ε (σ.Value cache))} {e : ε}
    (call : ps[i]? = some (.call key ttl fetch))
    (result : d.routines[i]? = some (.done (.error e))) :
    ∃ own, fetch.Ends own (.error e) ∧
      traceOf i events = Routine.misses cache key ++ own ++ [⟨.release cache, ()⟩]
  /-- A call that fails leaves the entries of the cache as they are. -/
  kept {i : Nat} {key : String} {ttl : Nat} {fetch : Routine σ (Except ε (σ.Value cache))} {e : ε}
    (call : ps[i]? = some (.call key ttl fetch))
    (result : d.routines[i]? = some (.done (.error e))) {x : Event W} (hx : x ∈ events)
    (own : x.routine = i) : x.after.caches cache = x.before.caches cache

/-- Calls share a cache in order under every interleaving with one another and with routines that
read, set, remove and purge, from an empty cache with a free lock. -/
theorem shared_reads (h : Steps (Config.start s (ps.map Participant.routine)) events d)
    (free : s.queues cache = []) (empty : s.caches cache = .empty) (fair : ∀ p ∈ ps, p.Fair) :
    SharedReads cache ps events d := by
  constructor
  case exclusive =>
    intro i j key key' hi hj
    exact h.fetching_unique free fair hi hj
  case needed =>
    intro first second b key _ begins
    exact get?_of_exchange begins.exchange
  case separated =>
    intro first middle second w b key value ttl hevents completes begins unchanged
    obtain ⟨m, next, hm, hshared, found, ready, hrest⟩ := h.split hevents
    have kept : Kept key value (w.before.clock + ttl) (m.turn w.routine w.request next)
        (first ++ [w]) := kept_of_completesFetch hm free fair completes hshared
    have hw := hm.turn found ready
    rw [hshared] at hw
    obtain ⟨m', next', hm', hshared', _⟩ := hrest.split rfl
    have hkept := hw.kept fair kept hm' unchanged
    rw [← hshared']
    apply Nat.le_of_not_lt
    intro hclock
    obtain ⟨hentry, _⟩ := hkept hclock
    have hread := get?_of_exchange begins.exchange
    rw [← hshared', Cache.get?_eq_some_iff.2 ⟨_, hentry, hclock, rfl⟩] at hread
    cases hread
  case value =>
    intro i key ttl fetch value call result
    rcases Routine.ends_cached_ok (h.participant_path call result) with
      ⟨before, after, htrace⟩ | hown
    · obtain ⟨first, r, second, rfl, hi, hr, _⟩ := exists_turn htrace
      obtain ⟨w, hw, kept, hrequest, hfresh⟩ := h.stored_of_read empty hr
      exact .inr ⟨first, r, second, w, kept, rfl, hi, hr, hw, hrequest, hfresh⟩
    · exact .inl hown
  case error =>
    intro i key ttl fetch e call result
    exact Routine.ends_cached_error (h.participant_path call result)
  case kept =>
    intro i key ttl fetch e call result x hx own
    apply Shared.caches_answer_of_edits?_ne
    have hfetch := fair _ (List.mem_of_getElem? call)
    apply Routine.edits?_ne_of_ends_error (x := x.exchange) hfetch (h.participant_path call result)
    exact List.mem_map_of_mem (mem_turnsOf.2 ⟨hx, own⟩)

/-- A call whose fetch fails, and one whose fetch yields a text. -/
def failingThenFetching : List (Participant textSignature () String) :=
  [.call "zones" 10 (pure (.error "down")), .call "zones" 10 (pure (.ok "z1"))]

theorem shared_reads_failing_then_fetching :
    ∃ (events : List (Event fetchLog)) (d : Config fetchLog (Except String String)),
      Steps (Config.start (Shared.initial []) (failingThenFetching.map Participant.routine))
          events d ∧
        d.routines = [.done (.error "down"), .done (.ok "z1")] ∧
        SharedReads () failingThenFetching events d := by
  -- Both calls find nothing; the first one fetches in vain, then the second one.
  have h := Steps.refl (Config.start (Shared.initial [] : Shared textSignature fetchLog)
    (failingThenFetching.map Participant.routine))
  have h := h.turn (i := 0) rfl rfl
  have h := h.turn (i := 1) rfl rfl
  have h := h.turn (i := 0) rfl rfl
  have h := h.turn (i := 0) rfl rfl
  have h := h.turn (i := 0) rfl rfl
  have h := h.turn (i := 1) rfl rfl
  have h := h.turn (i := 1) rfl rfl
  have h := h.turn (i := 1) rfl rfl
  have h := h.turn (i := 1) rfl rfl
  have fair : ∀ p ∈ failingThenFetching, p.Fair := by
    intro p hp
    rcases List.mem_cons.1 hp with rfl | hp
    · trivial
    · obtain rfl := List.mem_singleton.1 hp
      trivial
  exact ⟨_, _, h, rfl, shared_reads h rfl rfl fair⟩

end Results

end NodeFleet
