import NodeFleet.Routine.Basic

/-!
# Routines that share a state

The shared state has a clock with the alarms that are set, cancelled tokens, caches, a queue of
waiting routines for the lock of every cache, and the world. The routine at the head of a queue
holds the lock. A question is answered in one step of a routine. Two kinds of questions can wait: a
pause for its time or its token, and an acquisition for its turn in the queue. When a routine
arrives at a pause its alarm is set, until the pause is over; when it arrives at an acquisition it
joins the queue.
-/

namespace NodeFleet

/-- How the actions of a signature are carried out on a world. -/
structure World (σ : Signature) where
  State : Type
  perform : (action : σ.Action) → State → σ.Result action × State

/-- An alarm of a routine, which goes off at a time. -/
structure Alarm where
  routine : Nat
  time : Nat
deriving DecidableEq, Repr

/-- What routines share. Alarms are in the order in which they were set. The queue of a lock holds
the numbers of routines. -/
structure Shared (σ : Signature) (W : World σ) where
  clock : Nat
  alarms : List Alarm
  cancelled : List Token
  caches : (name : σ.CacheName) → Cache (σ.Value name)
  queues : σ.CacheName → List Nat
  world : W.State

namespace Shared

variable {σ : Signature} {W : World σ}

/-- The state at time zero, with empty caches and free locks. -/
def initial (world : W.State) : Shared σ W :=
  ⟨0, [], [], fun _ => .empty, fun _ => [], world⟩

/-- Whether a pause on a token is over because the token is cancelled. -/
def isInterrupted (s : Shared σ W) : Option Token → Bool
  | some token => s.cancelled.contains token
  | none => false

/-- Whether the question of a routine can be answered now. -/
def isReady (s : Shared σ W) (routine : Nat) : Request σ → Bool
  | .pause token time => decide (time ≤ s.clock) || s.isInterrupted token
  | .acquire cache => (s.queues cache).head? == some routine
  | _ => true

variable [DecidableEq σ.CacheName]

/-- Changes one cache. -/
def updateCache (s : Shared σ W) (name : σ.CacheName)
    (f : Cache (σ.Value name) → Cache (σ.Value name)) : Shared σ W :=
  { s with caches := fun other =>
      if h : other = name then h ▸ f (s.caches name) else s.caches other }

/-- Changes the queue of one lock. -/
def updateQueue (s : Shared σ W) (name : σ.CacheName) (f : List Nat → List Nat) : Shared σ W :=
  { s with queues := fun other => if other = name then f (s.queues name) else s.queues other }

/-- Sets an alarm. -/
def setAlarm (s : Shared σ W) (alarm : Alarm) : Shared σ W :=
  { s with alarms := s.alarms ++ [alarm] }

/-- Gives up an alarm, if it is still set. -/
def dropAlarm (s : Shared σ W) (alarm : Alarm) : Shared σ W :=
  { s with alarms := s.alarms.erase alarm }

/-- Moves the clock, and with it the alarms that go off by then. -/
def moveClock (s : Shared σ W) (time : Nat) : Shared σ W :=
  { s with clock := time, alarms := s.alarms.filter fun a => time < a.time }

/-- Answers a question of a routine. -/
def answer (s : Shared σ W) (routine : Nat) :
    (request : Request σ) → request.Answer × Shared σ W
  | .now => (s.clock, s)
  | .pause token time =>
      (if s.isInterrupted token then .cancelled else .elapsed, s.dropAlarm ⟨routine, time⟩)
  | .setAlarm time => ((), s.setAlarm ⟨routine, time⟩)
  | .dropAlarm time => ((), s.dropAlarm ⟨routine, time⟩)
  | .isCancelled token => (s.cancelled.contains token, s)
  | .cancel token => ((), { s with cancelled := token :: s.cancelled })
  | .read cache key => ((s.caches cache).get? s.clock key, s)
  | .write cache key value ttl =>
      ((), s.updateCache cache fun c => c.set s.clock key value ttl)
  | .evict cache key => ((), s.updateCache cache fun c => c.delete key)
  | .purge cache =>
      ((s.caches cache).expiredCount s.clock, s.updateCache cache fun c => c.purge s.clock)
  | .count cache => ((s.caches cache).size, s)
  | .acquire _ => ((), s)
  | .release cache => ((), s.updateQueue cache List.tail)
  | .act action =>
      let result := W.perform action s.world
      (result.1, { s with world := result.2 })

/-- Sets the alarm of a pause or joins the queue of a lock, if a routine has arrived at one. -/
def arrive {α : Type} (s : Shared σ W) (routine : Nat) : Routine σ α → Shared σ W
  | .ask (.pause _ time) _ => s.setAlarm ⟨routine, time⟩
  | .ask (.acquire cache) _ => s.updateQueue cache (· ++ [routine])
  | _ => s

end Shared

end NodeFleet
