import NodeFleet.Cache

/-!
# Routines

A routine either is done or asks a question and goes on with the answer. Questions are about time,
cancellation, caches, the locks of caches, and actions on a shared world. Nothing here says who
answers or in which order the questions of several routines are put; a property that holds for
every answer holds under every schedule.
-/

namespace NodeFleet

/-- The caches of a family of routines, with their value types, and the actions on their shared
world, with their result types. -/
structure Signature where
  CacheName : Type
  Value : CacheName → Type
  Action : Type
  Result : Action → Type

/-- The number of a cancellation token. -/
abbrev Token := Nat

/-- Why a pause ended. -/
inductive Wake where
  | elapsed
  | cancelled
deriving DecidableEq, Repr

/-- The questions of a routine. A pause ends at a point in time, or before it when its token is
cancelled. An alarm that is set for a time does no more than give the routine, if it can go on by
then, an earlier turn. -/
inductive Request (σ : Signature) where
  | now
  | pause (token : Option Token) (time : Nat)
  | setAlarm (time : Nat)
  | dropAlarm (time : Nat)
  | isCancelled (token : Token)
  | cancel (token : Token)
  | read (cache : σ.CacheName) (key : String)
  | write (cache : σ.CacheName) (key : String) (value : σ.Value cache) (ttl : Nat)
  | evict (cache : σ.CacheName) (key : String)
  | purge (cache : σ.CacheName)
  | count (cache : σ.CacheName)
  | acquire (cache : σ.CacheName)
  | release (cache : σ.CacheName)
  | act (action : σ.Action)

/-- The answers to a question. -/
abbrev Request.Answer {σ : Signature} : Request σ → Type
  | .now => Nat
  | .pause _ _ => Wake
  | .setAlarm _ => Unit
  | .dropAlarm _ => Unit
  | .isCancelled _ => Bool
  | .cancel _ => Unit
  | .read cache _ => Option (σ.Value cache)
  | .write _ _ _ _ => Unit
  | .evict _ _ => Unit
  | .purge _ => Nat
  | .count _ => Nat
  | .acquire _ => Unit
  | .release _ => Unit
  | .act action => σ.Result action

/-- A resumable computation. -/
inductive Routine (σ : Signature) (α : Type) where
  | done (result : α)
  | ask (request : Request σ) (next : request.Answer → Routine σ α)

namespace Routine

variable {σ : Signature} {α β γ : Type}

/-- Goes on with another routine when the first is done. -/
def bind (p : Routine σ α) (f : α → Routine σ β) : Routine σ β :=
  match p with
  | .done a => f a
  | .ask request next => .ask request fun answer => (next answer).bind f

instance : Monad (Routine σ) where
  pure := .done
  bind := bind

theorem pure_eq (a : α) : (pure a : Routine σ α) = .done a := rfl

theorem done_bind (a : α) (f : α → Routine σ β) : (Routine.done a >>= f) = f a := rfl

theorem ask_bind (request : Request σ) (next : request.Answer → Routine σ α)
    (f : α → Routine σ β) :
    (Routine.ask request next >>= f) = .ask request fun answer => next answer >>= f := rfl

theorem bind_done (p : Routine σ α) : p.bind .done = p := by
  induction p with
  | done a => rfl
  | ask request next ih => exact congrArg _ (funext ih)

theorem bind_assoc (p : Routine σ α) (f : α → Routine σ β) (g : β → Routine σ γ) :
    (p.bind f).bind g = p.bind fun a => (f a).bind g := by
  induction p with
  | done a => rfl
  | ask request next ih => exact congrArg _ (funext ih)

instance : LawfulMonad (Routine σ) :=
  LawfulMonad.mk' _ bind_done (fun _ _ => rfl) bind_assoc

/-- Asks one question. -/
def request (r : Request σ) : Routine σ r.Answer :=
  .ask r .done

/-- The time. -/
def now : Routine σ Nat := request .now

/-- Waits until a point in time, or until a token is cancelled. -/
def pause (token : Option Token) (time : Nat) : Routine σ Wake :=
  request (.pause token time)

/-- Waits for so long. -/
def sleep (duration : Nat) : Routine σ Unit := do
  let start ← now
  let _ ← pause none (start + duration)
  return ()

/-- A routine during which an alarm is set. -/
def withAlarm (time : Nat) (p : Routine σ α) : Routine σ α := do
  request (.setAlarm time)
  let result ← p
  request (.dropAlarm time)
  return result

/-- A routine with the time that it takes. -/
def timed (p : Routine σ α) : Routine σ (α × Nat) := do
  let start ← now
  let result ← p
  let finish ← now
  return (result, finish - start)

end Routine

end NodeFleet
