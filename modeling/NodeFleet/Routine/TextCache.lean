import NodeFleet.Routine.Cached
import NodeFleet.Routine.Run

/-!
# A cache of texts

The smallest family of routines that read through a cache: one cache that holds texts, and
numbered fetches that take time and then yield a text or fail with one. The world is the list of
the fetches that were begun.
-/

namespace NodeFleet

/-- One cache of texts; the only action is to note the number of a fetch. -/
abbrev textSignature : Signature where
  CacheName := Unit
  Value _ := String
  Action := Nat
  Result _ := Unit

/-- Notes fetches, the latest first. -/
def fetchLog : World textSignature where
  State := List Nat
  perform number log := ((), number :: log)

/-- A numbered read through the cache, with what a fetch would do; times are in milliseconds. -/
structure TextRead where
  number : Nat
  key : String
  ttl : Nat
  delay : Nat
  outcome : Except String String

namespace TextRead

/-- Fetches the text of a key. -/
def fetch (r : TextRead) : Routine textSignature (Except String String) := do
  Routine.request (.act r.number : Request textSignature)
  Routine.sleep r.delay
  return r.outcome

/-- Reads the text of a key. -/
def routine (r : TextRead) : Routine textSignature (Except String String) :=
  Routine.cached (σ := textSignature) () r.key r.ttl r.fetch

end TextRead

end NodeFleet
