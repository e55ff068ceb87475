import NodeFleet.Cloud.Inventory
import NodeFleet.Instance
import NodeFleet.NodeClass.Codec
import NodeFleet.Routine.Machine
import NodeFleet.Resource

/-!
# The world of a fleet

What the programs of a fleet act on: the cloud, the stored node classes, the calendar and a log of
launch states. A call of the cloud is two actions with its latency between them: it is recorded
when it begins and served when the latency is over, so failures and records count as they are by
then. A scripted job answer comes at once and is not recorded.
-/

namespace NodeFleet

/-- The kinds of caches. -/
inductive CacheKind where
  | zones
  | networks
  | templates
  | offerings
  | instances
deriving DecidableEq, Repr

/-- A cache of an owner. -/
structure CacheId where
  owner : Nat
  kind : CacheKind
deriving DecidableEq, Repr

/-- What a cache holds. -/
abbrev CacheId.Value (c : CacheId) : Type :=
  match c.kind with
  | .zones => List Zone
  | .networks => List Network
  | .templates => List Template
  | .offerings => List ServiceOffering
  | .instances => Instance

/-- The state of the world. -/
structure WorldState where
  cloud : Cloud.Inventory
  nodeClasses : Table NodeClass
  today : Instant
  /-- The launch states entered, in order, each with its subject. -/
  launches : List (String × LaunchState)

/-- What a call does when it begins. -/
inductive Opening (α : Type) where
  | answered (reply : Except Cloud.CallError α)
  | delayed (latency : Nat)

/-- Actions on the world. -/
inductive Action where
  | beginCall (call : Cloud.Call)
  | serveCall (call : Cloud.Call)
  | log (subject : String) (state : LaunchState)
  | today
  | nodeClass (name : String)
  | observe
  | change (f : WorldState → WorldState)

/-- The results of actions. -/
abbrev Action.Result : Action → Type
  | .beginCall call => Opening call.Reply
  | .serveCall call => Except Cloud.CallError call.Reply
  | .log _ _ => Unit
  | .today => Instant
  | .nodeClass _ => Option NodeClass
  | .observe => WorldState
  | .change _ => Unit

/-- The caches and actions of a fleet. -/
abbrev fleetSignature : Signature where
  CacheName := CacheId
  Value := CacheId.Value
  Action := Action
  Result := Action.Result

namespace WorldState

/-- Begins a call. -/
def beginCall (w : WorldState) : (call : Cloud.Call) → Opening call.Reply × WorldState
  | .queryJob jobId =>
      match w.cloud.scripted with
      | reply :: rest => (.answered reply, { w with cloud.scripted := rest })
      | [] =>
          (.delayed w.cloud.latency, { w with cloud := w.cloud.record (.queryJob jobId) })
  | call => (.delayed w.cloud.latency, { w with cloud := w.cloud.record call })

/-- Carries out an action. -/
def perform : (action : Action) → WorldState → action.Result × WorldState
  | .beginCall call, w => w.beginCall call
  | .serveCall call, w =>
      let served := w.cloud.serve w.today call
      (served.1, { w with cloud := served.2 })
  | .log subject state, w => ((), { w with launches := w.launches ++ [(subject, state)] })
  | .today, w => (w.today, w)
  | .nodeClass name, w => (w.nodeClasses.get? name, w)
  | .observe, w => (w, w)
  | .change f, w => ((), f w)

end WorldState

/-- The world of a fleet. -/
def fleetWorld : World fleetSignature where
  State := WorldState
  perform := WorldState.perform

/-- A program of a fleet. -/
abbrev Program := Routine fleetSignature

/-- A program that may fail. -/
abbrev Attempt (ε : Type) := ExceptT ε Program

namespace Program

/-- Acts on the world. -/
def act (action : Action) : Program action.Result :=
  Routine.request (.act action : Request fleetSignature)

/-- Calls the cloud. -/
def call (c : Cloud.Call) : Program (Except Cloud.CallError c.Reply) := do
  match ← act (.beginCall c) with
  | .answered reply => return reply
  | .delayed latency =>
      Routine.sleep latency
      act (.serveCall c)

/-- Calls the cloud; an error is put into the context of what was tried. -/
def tryCall (context : String) (c : Cloud.Call) : Attempt ResourceError c.Reply :=
  ExceptT.mk do
    match ← call c with
    | .ok reply => return .ok reply
    | .error e => return .error (.call context e)

/-- Logs a launch state. -/
def log (subject : String) (state : LaunchState) : Program Unit :=
  act (.log subject state)

/-- The current instant of the calendar. -/
def today : Program Instant :=
  act .today

/-- The stored node class of a name. -/
def nodeClass? (name : String) : Program (Option NodeClass) :=
  act (.nodeClass name)

/-- Whether a token is cancelled. -/
def isCancelled (token : Token) : Program Bool :=
  Routine.request (.isCancelled token)

/-- Remembers an instance. -/
def remember (owner : Nat) (key : String) (value : Instance) (ttl : Nat) : Program Unit :=
  Routine.request (.write ⟨owner, .instances⟩ key value ttl : Request fleetSignature)

/-- Forgets an instance. -/
def forget (owner : Nat) (key : String) : Program Unit :=
  Routine.request (.evict ⟨owner, .instances⟩ key : Request fleetSignature)

end Program

end NodeFleet
