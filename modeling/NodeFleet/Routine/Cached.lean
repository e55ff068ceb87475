import NodeFleet.Routine.Basic

/-!
# Reading through a cache

A fresh value is taken from the cache. Otherwise the routine takes the cache's lock, looks again,
and only then fetches, so at most one routine fetches for a cache at a time and those that waited
find what it stored. A failed fetch stores nothing.
-/

namespace NodeFleet.Routine

variable {σ : Signature} {ε : Type}

/-- What a routine does that holds the lock and has found nothing. -/
def store (cache : σ.CacheName) (key : String) (ttl : Nat) :
    Except ε (σ.Value cache) → Routine σ (Except ε (σ.Value cache))
  | .ok value => do
      request (.write cache key value ttl)
      request (.release cache)
      return .ok value
  | .error e => do
      request (.release cache)
      return .error e

/-- The fresh value of a key, or else what `fetch` yields, stored for so long. -/
def cached (cache : σ.CacheName) (key : String) (ttl : Nat)
    (fetch : Routine σ (Except ε (σ.Value cache))) : Routine σ (Except ε (σ.Value cache)) := do
  match ← request (.read cache key) with
  | some value => return .ok value
  | none =>
      request (.acquire cache)
      match ← request (.read cache key) with
      | some value =>
          request (.release cache)
          return .ok value
      | none => fetch >>= store cache key ttl

end NodeFleet.Routine
