import NodeFleet.Fleet.Episode
import NodeFleet.Proofs.Fleet.Calls
import NodeFleet.Proofs.Routine.Interleaving

/-!
# Calls along a history

A call that is not answered by a script is begun, waits for its latency and is served once; its
reply is what the cloud answers in the state in which it is served. Beginning it and waiting leave
the inventory of the cloud as it is, apart from the record of the call.
-/

namespace NodeFleet

open Routine (Ends ends_bind ends_request ends_request_bind)

/-- The exchanges of a call that waited for its latency. -/
def callExchanges (c : Cloud.Call) (latency start : Nat) (wake : Wake)
    (reply : Except Cloud.CallError c.Reply) : List (Exchange fleetSignature) :=
  [⟨.act (.beginCall c), .delayed latency⟩, ⟨.now, start⟩, ⟨.pause none (start + latency), wake⟩,
    ⟨.act (.serveCall c), reply⟩]

/-- A call is answered at once, or it waits and is served. -/
theorem course_of_call {c : Cloud.Call} {trace : List (Exchange fleetSignature)}
    {reply : Except Cloud.CallError c.Reply} (h : Ends (Program.call c) trace reply) :
    trace = [⟨.act (.beginCall c), .answered reply⟩] ∨
      ∃ latency start wake, trace = callExchanges c latency start wake reply := by
  obtain ⟨opening, tail, rfl, hopening⟩ := ends_request_bind.1 h
  cases opening with
  | answered reply =>
      obtain ⟨rfl, rfl⟩ := Routine.ends_pure.1 hopening
      exact .inl rfl
  | delayed latency =>
      obtain ⟨_, slept, served, rfl, hslept, hserved⟩ := ends_bind.1 hopening
      obtain ⟨start, tail, rfl, hstart⟩ := ends_request_bind.1 hslept
      obtain ⟨wake, tail, rfl, hwake⟩ := ends_request_bind.1 hstart
      obtain ⟨rfl, -⟩ := Routine.ends_pure.1 hwake
      obtain rfl := ends_request.1 hserved
      exact .inr ⟨latency, start, wake, rfl⟩

/-- A call that is served in its course is served with its result. -/
theorem served_in_call {c served : Cloud.Call} {trace : List (Exchange fleetSignature)}
    {reply : Except Cloud.CallError c.Reply} {answer : Except Cloud.CallError served.Reply}
    (h : Ends (Program.call c) trace reply)
    (hx : (⟨.act (.serveCall served), answer⟩ : Exchange fleetSignature) ∈ trace) :
    (⟨.act (.serveCall served), answer⟩ : Exchange fleetSignature) =
        ⟨.act (.serveCall c), reply⟩ ∧
      ∃ latency start wake, trace = callExchanges c latency start wake reply := by
  rcases course_of_call h with rfl | ⟨latency, start, wake, rfl⟩
  · cases List.mem_singleton.1 hx
  · refine ⟨?_, latency, start, wake, rfl⟩
    simp only [callExchanges, List.mem_cons, List.not_mem_nil, or_false] at hx
    rcases hx with hx | hx | hx | hx
    · cases hx
    · cases hx
    · cases hx
    · exact hx

namespace Cloud

/-- The call that looks a machine up. -/
abbrev lookup (id : String) : Call := .listMachines { id := some id }

/-- The call that destroys a machine and its record. -/
abbrev destruction (id : String) : Call := .destroyMachine ⟨id, true⟩

namespace Inventory

/-- What is left of a cloud when the record of calls is put aside. -/
def SameStores (inv other : Inventory) : Prop :=
  other = { inv with calls := other.calls }

theorem sameStores_refl (inv : Inventory) : inv.SameStores inv := rfl

theorem sameStores_record (inv : Inventory) (call : Call) : inv.SameStores (inv.record call) := rfl

/-- An operation that does not fail is carried out. -/
theorem serve_of_failure?_eq_none {inv : Inventory} {call : Call} (today : Instant)
    (h : inv.failure? call.operation = none) : inv.serve today call = inv.carryOut today call := by
  rw [serve, h]

end Inventory

end Cloud

namespace WorldState

variable (w : WorldState) {call : Cloud.Call}

/-- Beginning a call records it, unless a script answers it. -/
theorem beginCall_of_ne (h : call.operation ≠ .queryJob) :
    w.beginCall call = (.delayed w.cloud.latency, { w with cloud := w.cloud.record call }) := by
  cases call with
  | queryJob jobId => exact absurd rfl h
  | _ => rfl

theorem beginCall_sameStores (h : call.operation ≠ .queryJob) :
    w.cloud.SameStores (w.beginCall call).2.cloud := by
  rw [w.beginCall_of_ne h]
  exact w.cloud.sameStores_record call

end WorldState

namespace Request

/-- Whether a call that passes a test is served. -/
def serves (test : Cloud.Call → Bool) : Request fleetSignature → Bool
  | .act (.serveCall call) => test call
  | _ => false

theorem exists_of_serves {test : Cloud.Call → Bool} {request : Request fleetSignature}
    (h : request.serves test = true) :
    ∃ call, request = .act (.serveCall call) ∧ test call = true := by
  unfold serves at h
  split at h
  next call => exact ⟨call, rfl, h⟩
  next => cases h

/-- Whether a question serves a certain call. -/
instance (request : Request fleetSignature) (call : Cloud.Call) :
    Decidable (request = .act (.serveCall call)) :=
  decidable_of_iff (request.serves (fun other => decide (other = call)) = true) <| by
    constructor
    · intro h
      obtain ⟨other, rfl, hother⟩ := exists_of_serves h
      rw [of_decide_eq_true hother]
    · rintro rfl
      exact decide_eq_true rfl

end Request

namespace Event

variable {e : Event fleetWorld} {call : Cloud.Call}

/-- A turn that leaves the inventory of the cloud as it is, apart from the record of calls. -/
def KeepsStores (e : Event fleetWorld) : Prop :=
  e.before.world.cloud.SameStores e.after.world.cloud

/-- What is served in a turn is what the cloud answers in its state. -/
theorem served {reply : Except Cloud.CallError call.Reply}
    (h : e.exchange = ⟨.act (.serveCall call), reply⟩) :
    (e.before.world.cloud.serve e.before.world.today call).1 = reply := by
  obtain ⟨i, s, request⟩ := e
  obtain ⟨rfl, hreply⟩ := Exchange.mk.inj h
  exact eq_of_heq hreply

theorem after_served (h : e.request = .act (.serveCall call)) :
    e.after.world.cloud = (e.before.world.cloud.serve e.before.world.today call).2 := by
  obtain ⟨i, s, request⟩ := e
  subst h
  rfl

/-- Only job queries are answered by a script. -/
theorem opening_ne_answered {reply : Except Cloud.CallError call.Reply}
    (hcall : call.operation ≠ .queryJob) :
    e.exchange ≠ ⟨.act (.beginCall call), .answered reply⟩ := by
  obtain ⟨i, s, request⟩ := e
  intro h
  obtain ⟨rfl, hanswer⟩ := Exchange.mk.inj h
  have hbegin := congrArg Prod.fst (WorldState.beginCall_of_ne s.world hcall)
  cases hbegin.symm.trans (eq_of_heq hanswer)

/-- What a turn answers to a look at the stored node classes. -/
theorem stored_of_exchange {name : String} {stored : Option NodeClass}
    (h : e.exchange = ⟨.act (.nodeClass name), stored⟩) :
    e.request = .act (.nodeClass name) ∧ e.before.world.nodeClasses.get? name = stored := by
  obtain ⟨i, s, request⟩ := e
  obtain ⟨rfl, hanswer⟩ := Exchange.mk.inj h
  exact ⟨rfl, eq_of_heq hanswer⟩

/-- What a turn answers to a look at a token. -/
theorem cancelled_of_exchange {token : Token} {answer : Bool}
    (h : e.exchange = ⟨.isCancelled token, answer⟩) :
    e.request = .isCancelled token ∧ e.before.cancelled.contains token = answer := by
  obtain ⟨i, s, request⟩ := e
  obtain ⟨rfl, hanswer⟩ := Exchange.mk.inj h
  exact ⟨rfl, eq_of_heq hanswer⟩

/-- A turn that does not act on the world keeps the inventory. -/
theorem keepsStores_of_not_act (h : ∀ action, e.request ≠ .act action) : e.KeepsStores := by
  obtain ⟨i, s, request⟩ := e
  cases request with
  | act action => exact absurd rfl (h action)
  | _ => exact s.world.cloud.sameStores_refl

theorem keepsStores_of_beginCall (h : e.request = .act (.beginCall call))
    (hcall : call.operation ≠ .queryJob) : e.KeepsStores := by
  obtain ⟨i, s, request⟩ := e
  subst h
  exact s.world.beginCall_sameStores hcall

end Event

section History

variable {events : List (Event fleetWorld)} {i : Nat}

/-- A property of turns holds of the exchanges that come of them. -/
theorem exists_turn_of_mem {x : Exchange fleetSignature} (h : x ∈ traceOf i events) :
    ∃ e ∈ turnsOf i events, e.exchange = x := by
  obtain ⟨e, he, hx⟩ := List.mem_map.1 h
  exact ⟨e, he, hx⟩

end History

end NodeFleet
