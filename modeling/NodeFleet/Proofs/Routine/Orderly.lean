import NodeFleet.Proofs.Routine.Lock
import NodeFleet.Routine.Cached
import NodeFleet.Routine.Poll

/-!
# Locks taken in order

Locks have ranks. A routine is orderly when it gives back its locks in the reverse order of taking
them, takes a lock only of a rank below the ranks of those that it holds, and ends without one. The
ranks of all that it takes are below a bound, so an orderly routine may run while locks above the
bound are held. Reading through a cache is orderly if the fetch stays below the cache.
-/

namespace NodeFleet

variable {σ : Signature} {α β ε : Type} {rank : σ.CacheName → Nat}

namespace Request

/-- A question about no lock. -/
def LockFree (request : Request σ) : Prop :=
  request.acquires? = none ∧ request.releases? = none

/-- The locks that a routine holds once its question is answered, the latest first. -/
def heldAfter (held : List σ.CacheName) : Request σ → List σ.CacheName
  | .acquire c => c :: held
  | .release _ => held.tail
  | _ => held

/-- Whether the question suits the order of the locks that are held. -/
def InOrder (rank : σ.CacheName → Nat) (bound : Nat) (held : List σ.CacheName)
    (request : Request σ) : Prop :=
  (∀ c, request.acquires? = some c → rank c < bound ∧ ∀ d ∈ held, rank c < rank d) ∧
    ∀ c, request.releases? = some c → held.head? = some c

theorem LockFree.inOrder {bound : Nat} {held : List σ.CacheName} {request : Request σ}
    (h : request.LockFree) : request.InOrder rank bound held := by
  constructor
  · intro c hc
    rw [h.1] at hc
    cases hc
  · intro c hc
    rw [h.2] at hc
    cases hc

theorem LockFree.heldAfter {held : List σ.CacheName} {request : Request σ}
    (h : request.LockFree) : request.heldAfter held = held := by
  cases request with
  | acquire c => cases h.1
  | release c => cases h.2
  | _ => rfl

theorem InOrder.append {bound more : Nat} {held outer : List σ.CacheName} {request : Request σ}
    (h : request.InOrder rank bound held) (above : ∀ d ∈ outer, bound ≤ rank d)
    (le : bound ≤ more) : request.InOrder rank more (held ++ outer) := by
  constructor
  · intro c hc
    obtain ⟨hbound, hheld⟩ := h.1 c hc
    refine ⟨Nat.lt_of_lt_of_le hbound le, fun d hd => ?_⟩
    rcases List.mem_append.1 hd with hd | hd
    · exact hheld d hd
    · exact Nat.lt_of_lt_of_le hbound (above d hd)
  · intro c hc
    rw [List.head?_append, h.2 c hc]
    rfl

theorem InOrder.heldAfter_append {bound : Nat} {held outer : List σ.CacheName}
    {request : Request σ} (h : request.InOrder rank bound held) :
    request.heldAfter (held ++ outer) = request.heldAfter held ++ outer := by
  cases request with
  | release c =>
      obtain ⟨rest, rfl⟩ := List.head?_eq_some_iff.1 (h.2 c rfl)
      rfl
  | _ => rfl

/-- The locks that are held stay in the order of their ranks. -/
theorem InOrder.pairwise {bound : Nat} {held : List σ.CacheName} {request : Request σ}
    (h : request.InOrder rank bound held) (sorted : held.Pairwise fun c d => rank c < rank d) :
    (request.heldAfter held).Pairwise fun c d => rank c < rank d := by
  cases request with
  | acquire c => exact List.pairwise_cons.2 ⟨(h.1 c rfl).2, sorted⟩
  | release c => exact sorted.tail
  | _ => exact sorted

variable [DecidableEq σ.CacheName]

/-- The stack of locks agrees with what is known of every single lock. -/
theorem InOrder.mem_heldAfter {bound : Nat} {held : List σ.CacheName} {request : Request σ}
    (h : request.InOrder rank bound held) (sorted : held.Pairwise fun c d => rank c < rank d)
    (c : σ.CacheName) :
    request.holdsAfter c (decide (c ∈ held)) = decide (c ∈ request.heldAfter held) := by
  rw [Bool.eq_iff_iff, decide_eq_true_iff]
  cases request with
  | acquire d =>
      by_cases hd : d = c
      · simp [holdsAfter, Request.heldAfter, hd]
      · simp [holdsAfter, Request.heldAfter, hd, Ne.symm hd]
  | release d =>
      obtain ⟨rest, rfl⟩ := List.head?_eq_some_iff.1 (h.2 d rfl)
      by_cases hd : d = c
      · subst hd
        have hnot : d ∉ rest := fun hmem =>
          Nat.lt_irrefl _ ((List.pairwise_cons.1 sorted).1 d hmem)
        simp [holdsAfter, Request.heldAfter, hnot]
      · simp [holdsAfter, Request.heldAfter, hd, Ne.symm hd]
  | _ => exact decide_eq_true_iff

theorem InOrder.suits {bound : Nat} {held : List σ.CacheName} {request : Request σ}
    (h : request.InOrder rank bound held) (c : σ.CacheName) :
    request.Suits c (decide (c ∈ held)) := by
  constructor
  · intro hc
    exact decide_eq_false fun hmem => Nat.lt_irrefl _ ((h.1 c hc).2 c hmem)
  · intro hc
    exact decide_eq_true (List.mem_of_head? (h.2 c hc))

end Request

namespace Routine

/-- A routine that holds locks takes others in the order of their ranks, all below a bound, gives
them back in the reverse order and ends without one. -/
def Orderly (rank : σ.CacheName → Nat) (bound : Nat) : List σ.CacheName → Routine σ α → Prop
  | held, .done _ => held = []
  | held, .ask request next =>
      request.InOrder rank bound held ∧
        ∀ answer, Orderly rank bound (request.heldAfter held) (next answer)

variable {bound : Nat} {held : List σ.CacheName}

/-- An orderly routine may run while locks above its bound are held. -/
theorem Orderly.bind_under {more : Nat} {outer : List σ.CacheName} {p : Routine σ α}
    {f : α → Routine σ β} (hp : Orderly rank bound held p) (above : ∀ d ∈ outer, bound ≤ rank d)
    (le : bound ≤ more) (hf : ∀ a, Orderly rank more outer (f a)) :
    Orderly rank more (held ++ outer) (p >>= f) := by
  induction p generalizing held with
  | done a =>
      obtain rfl : held = [] := hp
      exact hf a
  | ask request next ih =>
      refine ⟨hp.1.append above le, fun answer => ?_⟩
      rw [hp.1.heldAfter_append]
      exact ih answer (hp.2 answer)

theorem Orderly.bind {p : Routine σ α} {f : α → Routine σ β} (hp : Orderly rank bound [] p)
    (hf : ∀ a, Orderly rank bound [] (f a)) : Orderly rank bound [] (p >>= f) :=
  hp.bind_under (fun _ hd => (nomatch hd)) (Nat.le_refl bound) hf

theorem Orderly.mono {more : Nat} {p : Routine σ α} (hp : Orderly rank bound [] p)
    (le : bound ≤ more) : Orderly rank more [] p := by
  have h : Orderly rank more ([] ++ []) (p >>= Routine.done) :=
    hp.bind_under (fun _ hd => (nomatch hd)) le fun _ => rfl
  rwa [show (p >>= Routine.done) = p from bind_done p] at h

theorem orderly_ask {request : Request σ} {next : request.Answer → Routine σ α}
    (h : request.LockFree) (hnext : ∀ answer, Orderly rank bound held (next answer)) :
    Orderly rank bound held (.ask request next) := by
  refine ⟨h.inOrder, fun answer => ?_⟩
  rw [h.heldAfter]
  exact hnext answer

theorem orderly_request {request : Request σ} (h : request.LockFree) :
    Orderly rank bound [] (Routine.request request) :=
  orderly_ask h fun _ => rfl

/-- A routine that asks about no lock is orderly. -/
theorem orderly_of_lockFree {p : Routine σ α} {yields : α → Prop}
    (hp : Obeys Request.LockFree yields p) : Orderly rank bound [] p := by
  induction p with
  | done a => rfl
  | ask request next ih => exact orderly_ask hp.1 fun answer => ih answer (hp.2 answer)

theorem orderly_run_lift {p : Routine σ α} (h : Orderly rank bound [] p) :
    Orderly rank bound [] (liftM p : ExceptT ε (Routine σ) α).run :=
  Orderly.bind h fun _ => rfl

theorem Orderly.run_bind {x : ExceptT ε (Routine σ) α} {f : α → ExceptT ε (Routine σ) β}
    (hx : Orderly rank bound [] x.run) (hf : ∀ a, Orderly rank bound [] (f a).run) :
    Orderly rank bound [] (x >>= f).run := by
  rw [ExceptT.run_bind]
  apply hx.bind
  intro r
  cases r with
  | error e => rfl
  | ok a => exact hf a

theorem orderly_release {c : σ.CacheName} {next : Unit → Routine σ α}
    (hnext : Orderly rank bound [] (next ())) :
    Orderly rank bound [c] (.ask (.release c) next) :=
  ⟨⟨fun _ h => (nomatch h), fun _ h => h⟩, fun _ => hnext⟩

variable {cache : σ.CacheName} {key : String} {ttl : Nat}

theorem orderly_store (result : Except ε (σ.Value cache)) :
    Orderly rank bound [cache] (store cache key ttl result) := by
  cases result with
  | error e => exact orderly_release rfl
  | ok value => exact orderly_ask ⟨rfl, rfl⟩ fun _ => orderly_release rfl

/-- A call is orderly if its fetch takes only locks below that of the cache. -/
theorem orderly_cached {fetch : Routine σ (Except ε (σ.Value cache))}
    (hfetch : Orderly rank (rank cache) [] fetch) (below : rank cache < bound) :
    Orderly rank bound [] (cached cache key ttl fetch) := by
  refine orderly_ask ⟨rfl, rfl⟩ fun first => ?_
  cases first with
  | some value => rfl
  | none =>
      have hacquire : (.acquire cache : Request σ).InOrder rank bound [] := by
        refine ⟨fun c hc => ?_, fun c hc => (nomatch hc)⟩
        obtain rfl : cache = c := Option.some.inj hc
        exact ⟨below, fun d hd => (nomatch hd)⟩
      refine ⟨hacquire, fun _ => orderly_ask ⟨rfl, rfl⟩ fun second => ?_⟩
      cases second with
      | some value => exact orderly_release rfl
      | none =>
          change Orderly rank bound ([] ++ [cache]) (fetch >>= store cache key ttl)
          refine hfetch.bind_under (fun d hd => ?_) (Nat.le_of_lt below) orderly_store
          obtain rfl := List.mem_singleton.1 hd
          exact Nat.le_refl _

variable [DecidableEq σ.CacheName]

theorem Orderly.guards {p : Routine σ α} (hp : Orderly rank bound held p)
    (sorted : held.Pairwise fun c d => rank c < rank d) (c : σ.CacheName) :
    Guards c (decide (c ∈ held)) p := by
  induction p generalizing held with
  | done a =>
      obtain rfl : held = [] := hp
      rfl
  | ask request next ih =>
      refine ⟨hp.1.suits c, fun answer => ?_⟩
      rw [hp.1.mem_heldAfter sorted c]
      exact ih answer (hp.2 answer) (hp.1.pairwise sorted)

/-- What is left of an orderly routine is orderly with the locks that it holds by then. -/
theorem Orderly.path {p q : Routine σ α} {trace : List (Exchange σ)}
    (hp : Orderly rank bound held p) (sorted : held.Pairwise fun c d => rank c < rank d)
    (h : Path p trace q) :
    ∃ later, Orderly rank bound later q ∧
      ∀ c, holdsFrom c (decide (c ∈ held)) trace = decide (c ∈ later) := by
  induction h generalizing held with
  | refl => exact ⟨held, hp, fun c => rfl⟩
  | @ask request next answer trace q _ ih =>
      obtain ⟨later, hlater, hholds⟩ := ih (hp.2 answer) (hp.1.pairwise sorted)
      refine ⟨later, hlater, fun c => ?_⟩
      rw [← hholds c, ← hp.1.mem_heldAfter sorted c]
      rfl

end Routine

end NodeFleet
