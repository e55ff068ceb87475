import NodeFleet.Proofs.Routine.Effects
import NodeFleet.Proofs.Routine.Lock
import NodeFleet.Routine.Cached

/-!
# The course of a read through a cache

A read through a cache finds the key at once, finds it when it has the lock, or fetches while it
holds the lock. These are all its paths, so what it asked and was answered tells where it stands.
-/

namespace NodeFleet

variable {σ : Signature} {α ε : Type}

namespace Routine

/-- A question that is not about a cache. -/
def Leaves (cache : σ.CacheName) (request : Request σ) : Prop :=
  request.cache? ≠ some cache

theorem Leaves.leavesLock {cache : σ.CacheName} {request : Request σ}
    (h : Leaves cache request) : LeavesLock cache request := by
  cases request <;> simp_all [Leaves, LeavesLock, Request.cache?, Request.acquires?,
    Request.releases?]

/-- What a call went through when it begins to fetch: twice it found nothing, the second time with
the lock. -/
def misses (cache : σ.CacheName) (key : String) : List (Exchange σ) :=
  [⟨.read cache key, none⟩, ⟨.acquire cache, ()⟩, ⟨.read cache key, none⟩]

/-- What a call goes through when its fetch is over. -/
def closing (cache : σ.CacheName) (key : String) (ttl : Nat) :
    Except ε (σ.Value cache) → List (Exchange σ)
  | .ok value => [⟨.write cache key value ttl, ()⟩, ⟨.release cache, ()⟩]
  | .error _ => [⟨.release cache, ()⟩]

/-- Where a call stands after a trace. -/
inductive CallState (cache : σ.CacheName) (key : String) (ttl : Nat)
    (fetch : Routine σ (Except ε (σ.Value cache))) :
    List (Exchange σ) → Routine σ (Except ε (σ.Value cache)) → Prop
  | start (next : Option (σ.Value cache) → Routine σ (Except ε (σ.Value cache))) :
      CallState cache key ttl fetch [] (.ask (.read cache key) next)
  | hit (value : σ.Value cache) :
      CallState cache key ttl fetch [⟨.read cache key, some value⟩] (.done (.ok value))
  | waiting (next : Unit → Routine σ (Except ε (σ.Value cache))) :
      CallState cache key ttl fetch [⟨.read cache key, none⟩] (.ask (.acquire cache) next)
  | checking (next : Option (σ.Value cache) → Routine σ (Except ε (σ.Value cache))) :
      CallState cache key ttl fetch [⟨.read cache key, none⟩, ⟨.acquire cache, ()⟩]
        (.ask (.read cache key) next)
  | found (value : σ.Value cache) (next : Unit → Routine σ (Except ε (σ.Value cache))) :
      CallState cache key ttl fetch
        [⟨.read cache key, none⟩, ⟨.acquire cache, ()⟩, ⟨.read cache key, some value⟩]
        (.ask (.release cache) next)
  | returned (value : σ.Value cache) :
      CallState cache key ttl fetch
        [⟨.read cache key, none⟩, ⟨.acquire cache, ()⟩, ⟨.read cache key, some value⟩,
          ⟨.release cache, ()⟩]
        (.done (.ok value))
  | fetching {trace : List (Exchange σ)} {request : Request σ}
      {next : request.Answer → Routine σ (Except ε (σ.Value cache))}
      (path : Path fetch trace (.ask request next)) :
      CallState cache key ttl fetch (misses cache key ++ trace)
        (.ask request fun answer => next answer >>= store cache key ttl)
  | storing {trace : List (Exchange σ)} {value : σ.Value cache}
      (ends : Ends fetch trace (.ok value))
      (next : Unit → Routine σ (Except ε (σ.Value cache))) :
      CallState cache key ttl fetch (misses cache key ++ trace)
        (.ask (.write cache key value ttl) next)
  | stored {trace : List (Exchange σ)} {value : σ.Value cache}
      (ends : Ends fetch trace (.ok value))
      (next : Unit → Routine σ (Except ε (σ.Value cache))) :
      CallState cache key ttl fetch
        (misses cache key ++ trace ++ [⟨.write cache key value ttl, ()⟩])
        (.ask (.release cache) next)
  | failing {trace : List (Exchange σ)} {e : ε} (ends : Ends fetch trace (.error e))
      (next : Unit → Routine σ (Except ε (σ.Value cache))) :
      CallState cache key ttl fetch (misses cache key ++ trace) (.ask (.release cache) next)
  | fetched {trace : List (Exchange σ)} {result : Except ε (σ.Value cache)}
      (ends : Ends fetch trace result) :
      CallState cache key ttl fetch
        (misses cache key ++ trace ++ closing cache key ttl result) (.done result)

variable {cache : σ.CacheName} {key : String} {ttl : Nat}
  {fetch : Routine σ (Except ε (σ.Value cache))}

theorem path_store {trace first : List (Exchange σ)} {result : Except ε (σ.Value cache)}
    {q : Routine σ (Except ε (σ.Value cache))} (ends : Ends fetch first result)
    (h : Path (store cache key ttl result) trace q) :
    CallState cache key ttl fetch (misses cache key ++ first ++ trace) q := by
  cases result with
  | error e =>
      rcases path_ask_iff.1 h with ⟨rfl, rfl⟩ | ⟨_, tail, rfl, hdone⟩
      · rw [List.append_nil]
        exact .failing ends _
      · obtain ⟨rfl, rfl⟩ := path_done_iff.1 hdone
        exact .fetched ends
  | ok value =>
      rcases path_ask_iff.1 h with ⟨rfl, rfl⟩ | ⟨_, tail, rfl, hwritten⟩
      · rw [List.append_nil]
        exact .storing ends _
      · rcases path_ask_iff.1 hwritten with ⟨rfl, rfl⟩ | ⟨_, tail, rfl, hdone⟩
        · exact .stored ends _
        · obtain ⟨rfl, rfl⟩ := path_done_iff.1 hdone
          exact .fetched ends

theorem path_fetch {trace : List (Exchange σ)} {q : Routine σ (Except ε (σ.Value cache))}
    (h : Path (fetch >>= store cache key ttl) trace q) :
    CallState cache key ttl fetch (misses cache key ++ trace) q := by
  rcases path_bind_iff.1 h with ⟨r, hr, rfl⟩ | ⟨result, first, second, rfl, hfirst, hsecond⟩
  · cases r with
    | ask request next => exact .fetching hr
    | done result =>
        have hstate : CallState cache key ttl fetch (misses cache key ++ trace ++ []) _ :=
          path_store hr (.refl _)
        rwa [List.append_nil] at hstate
  · rw [← List.append_assoc]
    exact path_store hfirst hsecond

/-- Every path of a call ends in one of its states. -/
theorem path_cached {trace : List (Exchange σ)} {q : Routine σ (Except ε (σ.Value cache))}
    (h : Path (cached cache key ttl fetch) trace q) : CallState cache key ttl fetch trace q := by
  rcases path_ask_iff.1 h with ⟨rfl, rfl⟩ | ⟨first, tail, rfl, hread⟩
  · exact .start _
  · cases first with
    | some value =>
        obtain ⟨rfl, rfl⟩ := path_done_iff.1 hread
        exact .hit value
    | none =>
        rcases path_ask_iff.1 hread with ⟨rfl, rfl⟩ | ⟨_, tail, rfl, hlocked⟩
        · exact .waiting _
        · rcases path_ask_iff.1 hlocked with ⟨rfl, rfl⟩ | ⟨second, tail, rfl, hagain⟩
          · exact .checking _
          · cases second with
            | none => exact path_fetch hagain
            | some value =>
                rcases path_ask_iff.1 hagain with ⟨rfl, rfl⟩ | ⟨_, tail, rfl, hdone⟩
                · exact .found value _
                · obtain ⟨rfl, rfl⟩ := path_done_iff.1 hdone
                  exact .returned value

/-- What a call that yields a value went through: it found the value or fetched it. -/
theorem ends_cached_ok {trace : List (Exchange σ)} {value : σ.Value cache}
    (h : (cached cache key ttl fetch).Ends trace (.ok value)) :
    (∃ before after, trace = before ++ ⟨.read cache key, some value⟩ :: after) ∨
      ∃ own, fetch.Ends own (.ok value) ∧
        trace = misses cache key ++ own ++
          closing (ε := ε) cache key ttl (.ok value) := by
  have hstate := path_cached h
  cases hstate with
  | hit => exact .inl ⟨[], [], rfl⟩
  | returned =>
      exact .inl ⟨[⟨.read cache key, none⟩, ⟨.acquire cache, ()⟩], [⟨.release cache, ()⟩], rfl⟩
  | fetched ends => exact .inr ⟨_, ends, rfl⟩

theorem not_act_of_mem_misses {x : Exchange σ} (h : x ∈ misses cache key) (action : σ.Action) :
    x.request ≠ .act action := by
  simp only [misses, List.mem_cons, List.not_mem_nil, or_false] at h
  rcases h with rfl | rfl | rfl <;> exact fun h => (nomatch h)

theorem not_act_of_mem_closing {result : Except ε (σ.Value cache)} {x : Exchange σ}
    (h : x ∈ closing cache key ttl result) (action : σ.Action) : x.request ≠ .act action := by
  cases result with
  | ok value =>
      simp only [closing, List.mem_cons, List.not_mem_nil, or_false] at h
      rcases h with rfl | rfl <;> exact fun h => (nomatch h)
  | error e =>
      obtain rfl := List.mem_singleton.1 h
      exact fun h => (nomatch h)

/-- A call that yields a value did not act, or else it fetched the value. -/
theorem ends_cached_ok_acting {trace : List (Exchange σ)} {value : σ.Value cache}
    (h : (cached cache key ttl fetch).Ends trace (.ok value)) :
    (∀ x ∈ trace, ∀ action, x.request ≠ .act action) ∨
      ∃ own, fetch.Ends own (.ok value) ∧
        trace = misses cache key ++ own ++
          closing (ε := ε) cache key ttl (.ok value) := by
  have hstate := path_cached h
  cases hstate with
  | hit =>
      left
      intro x hx
      obtain rfl := List.mem_singleton.1 hx
      exact fun action h => (nomatch h)
  | returned =>
      left
      intro x hx
      simp only [List.mem_cons, List.not_mem_nil, or_false] at hx
      rcases hx with rfl | rfl | rfl | rfl <;> exact fun action h => (nomatch h)
  | fetched ends => exact .inr ⟨_, ends, rfl⟩

/-- What a call that fails went through: its fetch failed. -/
theorem ends_cached_error {trace : List (Exchange σ)} {e : ε}
    (h : (cached cache key ttl fetch).Ends trace (.error e)) :
    ∃ own, fetch.Ends own (.error e) ∧
      trace = misses cache key ++ own ++ [⟨.release cache, ()⟩] := by
  have hstate := path_cached h
  cases hstate with
  | fetched ends => exact ⟨_, ends, rfl⟩

/-- A call that fails asks nothing that would change the entries of the cache. -/
theorem edits?_ne_of_ends_error {trace : List (Exchange σ)} {e : ε}
    (fair : fetch.Obeys (Leaves cache) fun _ => True)
    (h : (cached cache key ttl fetch).Ends trace (.error e)) {x : Exchange σ}
    (hx : x ∈ trace) : x.request.edits? ≠ some cache := by
  obtain ⟨own, hown, rfl⟩ := ends_cached_error h
  rcases List.mem_append.1 hx with hx | hx
  · rcases List.mem_append.1 hx with hx | hx
    · simp only [misses, List.mem_cons, List.not_mem_nil, or_false] at hx
      rcases hx with rfl | rfl | rfl <;> simp [Request.edits?]
    · exact Request.edits?_ne_of_cache?_ne ((fair.ends hown).1 x hx)
  · obtain rfl := List.mem_singleton.1 hx
    simp [Request.edits?]

/-- A call asks what its fetch asks, and about its cache. -/
theorem obeys_cached_of {asks : Request σ → Prop} {yields : Except ε (σ.Value cache) → Prop}
    (hfetch : Obeys asks yields fetch)
    (hasks : ∀ request, request.cache? = some cache → asks request)
    (hvalue : ∀ value, yields (.ok value)) :
    Obeys asks yields (cached cache key ttl fetch) := by
  refine ⟨hasks _ rfl, fun first => ?_⟩
  cases first with
  | some value => exact hvalue value
  | none =>
      refine ⟨hasks _ rfl, fun _ => ?_⟩
      refine ⟨hasks _ rfl, fun second => ?_⟩
      cases second with
      | some value => exact ⟨hasks _ rfl, fun _ => hvalue value⟩
      | none =>
          change Obeys asks yields (fetch >>= store cache key ttl)
          refine Obeys.bind hfetch fun result hresult => ?_
          cases result with
          | error e => exact ⟨hasks _ rfl, fun _ => hresult⟩
          | ok value =>
              refine ⟨hasks _ rfl, fun _ => ?_⟩
              exact ⟨hasks _ rfl, fun _ => hresult⟩

/-- A call asks what its fetch asks, if that may be anything but an action. -/
theorem obeys_cached {asks : Request σ → Prop} {yields : Except ε (σ.Value cache) → Prop}
    (hfetch : Obeys asks yields fetch)
    (hasks : ∀ request, (∀ action, request ≠ .act action) → asks request)
    (hvalue : ∀ value, yields (.ok value)) :
    Obeys asks yields (cached cache key ttl fetch) := by
  refine obeys_cached_of hfetch (fun request hcache => hasks request ?_) hvalue
  rintro action rfl
  cases hcache

/-- A call leaves a cache alone that is not its own, if its fetch does. -/
theorem leaves_cached {other : σ.CacheName} (hne : cache ≠ other)
    (hfetch : Obeys (Leaves other) (fun _ => True) fetch) :
    Obeys (Leaves other) (fun _ => True) (cached cache key ttl fetch) := by
  refine obeys_cached_of hfetch (fun request hcache hother => ?_) fun _ => trivial
  exact hne (Option.some.inj (hcache.symm.trans hother))

section Guards

theorem leavesLock_read (c d : σ.CacheName) (key : String) :
    LeavesLock c (.read d key : Request σ) :=
  ⟨fun h => (nomatch h), fun h => (nomatch h)⟩

theorem leavesLock_write (c d : σ.CacheName) (key : String) (value : σ.Value d) (ttl : Nat) :
    LeavesLock c (.write d key value ttl : Request σ) :=
  ⟨fun h => (nomatch h), fun h => (nomatch h)⟩

variable [DecidableEq σ.CacheName]

theorem guards_ask {c : σ.CacheName} {held : Bool} {request : Request σ}
    {next : request.Answer → Routine σ α} (h : LeavesLock c request)
    (hnext : ∀ answer, Guards c held (next answer)) : Guards c held (.ask request next) := by
  refine ⟨⟨fun ha => absurd ha h.1, fun hr => absurd hr h.2⟩, fun answer => ?_⟩
  rw [Request.holdsAfter_of_ne h.1 h.2]
  exact hnext answer

theorem guards_release {c : σ.CacheName} {next : Unit → Routine σ α}
    (hnext : Guards c false (next ())) : Guards c true (.ask (.release c) next) := by
  refine ⟨⟨fun ha => (nomatch ha), fun _ => rfl⟩, fun _ => ?_⟩
  rw [Request.holdsAfter_of_releases rfl]
  exact hnext

theorem guards_acquire {c : σ.CacheName} {next : Unit → Routine σ α}
    (hnext : Guards c true (next ())) : Guards c false (.ask (.acquire c) next) := by
  refine ⟨⟨fun _ => rfl, fun hr => (nomatch hr)⟩, fun _ => ?_⟩
  rw [Request.holdsAfter_of_acquires rfl]
  exact hnext

theorem guards_store (result : Except ε (σ.Value cache)) :
    Guards cache true (store cache key ttl result) := by
  cases result with
  | error e => exact guards_release rfl
  | ok value => exact guards_ask (leavesLock_write _ _ _ _ _) fun _ => guards_release rfl

/-- A call guards the lock of its cache if its fetch leaves the lock alone. -/
theorem guards_cached {yields : Except ε (σ.Value cache) → Prop}
    (h : Obeys (LeavesLock cache) yields fetch) :
    Guards cache false (cached cache key ttl fetch) := by
  refine guards_ask (leavesLock_read _ _ _) fun first => ?_
  cases first with
  | some value => rfl
  | none =>
      refine guards_acquire (guards_ask (leavesLock_read _ _ _) fun second => ?_)
      cases second with
      | some value => exact guards_release rfl
      | none =>
          change Guards cache true (fetch >>= store cache key ttl)
          exact guards_bind_of_leavesLock h fun result _ => guards_store result

end Guards

end Routine

end NodeFleet
