import NodeFleet.Proofs.Fleet.Discipline
import NodeFleet.Proofs.Routine.Script

/-!
# What a provisioner is asked to do

An orchestrator demands of a provisioner that it launches, finds, lists and removes nodes, offers
instance types, reports drift and reconciles node classes, and puts questions about the stock to its
fleet. Whoever is served, by whichever provisioner and next to whatever other programs, takes locks
in order and stores no listing but that of the stock. So a history of fair parties never blocks, and
its caches hold what fresh listings would yield.
-/

namespace NodeFleet

open Routine (Ends Obeys Keeps ends_map)
open Program (CallsPlainly)
open Cloud (Inventory)

namespace Request

/-- A question about no lock that stores no listing of the stock. -/
def Harmless : Request fleetSignature → Prop
  | .write cache _ _ _ => cache.kind = .instances
  | .acquire _ => False
  | .release _ => False
  | _ => True

theorem Harmless.lockFree {request : Request fleetSignature} (h : request.Harmless) :
    request.LockFree := by
  cases request with
  | acquire cache => exact h.elim
  | release cache => exact h.elim
  | _ => exact ⟨rfl, rfl⟩

/-- A harmless question is permitted wherever instances may be stored. -/
theorem Harmless.permitted {R : Reliance fleetSignature}
    (instances : ∀ owner key value, R.stores ⟨owner, .instances⟩ key value)
    {request : Request fleetSignature} (h : request.Harmless) : R.Permits request := by
  cases request with
  | write cache key value ttl =>
      obtain ⟨owner, kind⟩ := cache
      obtain rfl : kind = .instances := h
      exact instances owner key value
  | _ => trivial

theorem Harmless.permits {request : Request fleetSignature} (h : request.Harmless)
    (fails : Cloud.Operation → Option String) (inv : Inventory) :
    (listingReliance fails inv).Permits request :=
  h.permitted fun _ _ _ => trivial

theorem Plain.harmless {request : Request fleetSignature} (h : request.Plain) :
    request.Harmless := by
  cases request with
  | write cache key value ttl => exact h.elim
  | acquire cache => exact h.elim
  | release cache => exact h.elim
  | _ => trivial

end Request

open Request (Harmless)

namespace Program

variable {α β : Type} {inv : Inventory}

/-- A program that may run next to fleets that list a stock: it takes locks in order and keeps the
caches of listings as they would be filled afresh. -/
structure Fair (inv : Inventory) (p : Program α) : Prop where
  orderly : p.IsOrderly
  keeps : Keeps (listingReliance (fun _ => none) inv) (fun _ => True) p

theorem fair_of_harmless {p : Program α} (h : Obeys Harmless (fun _ => True) p) : Fair inv p where
  orderly := Routine.orderly_of_lockFree (h.mono (fun _ => Harmless.lockFree) fun _ => id)
  keeps := Routine.keeps_of_obeys h fun _ h => h.permits _ inv

theorem CallsPlainly.harmless {ops : List Cloud.Operation} {request : Request fleetSignature}
    (h : CallsPlainly ops request) : request.Harmless := by
  cases request with
  | write cache key value ttl => exact h.elim
  | acquire cache => exact h.elim
  | release cache => exact h.elim
  | _ => trivial

theorem harmless {ops : List Cloud.Operation} {p : Program α} {yields : α → Prop}
    (h : Obeys (CallsPlainly ops) yields p) : Obeys Harmless (fun _ => True) p :=
  h.mono (fun _ => CallsPlainly.harmless) fun _ _ => trivial

theorem fair_pure (a : α) : Fair inv (pure a : Program α) :=
  ⟨rfl, trivial⟩

theorem Fair.bind {p : Program α} {f : α → Program β} (hp : Fair inv p)
    (hf : ∀ a, Fair inv (f a)) : Fair inv (p >>= f) where
  orderly := hp.orderly.bind fun a => (hf a).orderly
  keeps := hp.keeps.bind fun a _ => (hf a).keeps

/-- A question about the stock may be put at any time. -/
theorem fair_attempt (f : Fleet) (q : Query) : Fair inv (q.attempt f).run :=
  ⟨q.orderly_attempt f, (q.keeps_attempt f rfl).mono fun _ _ => trivial⟩

theorem fair_getInstance (f : Fleet) (id : String) : Fair inv (f.getInstance id).run where
  orderly := f.orderly_getInstance id
  keeps := Routine.keeps_cached (fair_of_harmless (harmless (Fleet.obeys_fetchInstance id))).keeps
    fun _ => Iff.rfl

/-- A launch that is planned takes no locks and stores no listing. -/
theorem harmless_deployment (f : Fleet) (c : NodeClass) (claim : NodeClaim) (token : Token)
    (request : Cloud.DeployRequest) :
    Obeys Harmless (fun _ => True) (f.deployment c claim token request).run := by
  have hlog {α : Type} {action : Action} {f : action.Result → α} :
      Obeys Harmless (fun _ => True) (f <$> act action) := ⟨trivial, fun _ => trivial⟩
  refine obeys_then hlog fun _ => ?_
  refine obeys_then (harmless (obeys_tryCall _ (List.mem_singleton_self _))) fun reply => ?_
  refine obeys_then (harmless (f.obeys_finishJob _ _ token)) fun _ => ?_
  refine obeys_then hlog fun _ => ?_
  refine obeys_then (harmless (f.obeys_awaitState _ _ token)) fun vm => Routine.obeys_run_lift ?_
  exact (harmless (obeys_call (List.mem_singleton_self _))).bind fun _ _ => ⟨rfl, fun _ => trivial⟩

theorem fair_deployment (f : Fleet) (c : NodeClass) (claim : NodeClaim) (token : Token)
    (request : Cloud.DeployRequest) : Fair inv (f.deployment c claim token request).run :=
  fair_of_harmless (harmless_deployment f c claim token request)

/-- What a provisioner does is fair. -/
def fairness (inv : Inventory) : Discipline where
  Holds := Fair inv
  yield := fair_pure
  bind := Fair.bind
  ask _ plain := fair_of_harmless ⟨plain.harmless, fun _ => trivial⟩
  attempt := fair_attempt
  getInstance := fair_getInstance
  deployment := fair_deployment

end Program

/-- What is asked of a provisioner. -/
inductive Demand where
  | create (claim : NodeClaim)
  | get (providerId : String)
  | list
  | delete (claim : NodeClaim)
  | instanceTypes (c : NodeClass)
  | driftReason (claim : NodeClaim)
  | reconcile (c : NodeClass)
  | browse (q : Query)
deriving DecidableEq

/-- What a demand is answered with. -/
abbrev Demand.Answer : Demand → Type
  | .create _ => Except NodeError NodeClaim
  | .get _ => Except NodeError NodeClaim
  | .list => Except NodeError (List NodeClaim)
  | .delete _ => Except NodeError Unit
  | .instanceTypes _ => Except NodeError (List InstanceType)
  | .driftReason _ => Option String
  | .reconcile _ => NodeClass × Option Nat
  | .browse q => Except ResourceError q.Answer

namespace Provisioner

/-- How a provisioner meets a demand. -/
def serve (o : Provisioner) : (demand : Demand) → Program demand.Answer
  | .create claim => (o.create claim).run
  | .get providerId => (o.get providerId).run
  | .list => list.run
  | .delete claim => (o.delete claim).run
  | .instanceTypes c => (o.instanceTypes c).run
  | .driftReason claim => isDrifted claim
  | .reconcile c => o.fleet.reconcile c
  | .browse q => (q.attempt o.fleet).run

end Provisioner

/-- Every demand is met with discipline. -/
theorem Discipline.serve (D : Discipline) (o : Provisioner) (demand : Demand) :
    D.Holds (o.serve demand) := by
  cases demand with
  | create claim => exact D.create o claim
  | get providerId => exact D.get o providerId
  | list => exact D.list
  | delete claim => exact D.delete o claim
  | instanceTypes c => exact D.surface _ (D.attempt o.fleet (.instanceTypes c))
  | driftReason claim => exact D.bind (D.classOf? claim) fun _ => D.yield _
  | reconcile c => exact D.reconcile o.fleet c
  | browse q => exact D.attempt o.fleet q

/-- One of those that take part in a history: a provisioner that meets a demand, or anything else. -/
inductive Party where
  | serves (o : Provisioner) (demand : Demand)
  | other (p : Program Unit)

/-- What a party comes to. -/
inductive Outcome where
  | served (demand : Demand) (answer : demand.Answer)
  | ended

/-- The answer to a demand, if it is what a party has come to. -/
def Outcome.answer? (demand : Demand) : Outcome → Option demand.Answer
  | .served other answer => if h : other = demand then some (h ▸ answer) else none
  | .ended => none

/-- The answer to a demand, if a routine is done with it. -/
def Config.answer? (d : Config fleetWorld Outcome) (i : Nat) (demand : Demand) :
    Option demand.Answer :=
  (d.result? i).bind (Outcome.answer? demand)

theorem Config.done_of_answer? {d : Config fleetWorld Outcome} {i : Nat} {demand : Demand}
    {answer : demand.Answer} (h : d.answer? i demand = some answer) :
    d.routines[i]? = some (.done (.served demand answer)) := by
  obtain ⟨outcome, hresult, hanswer⟩ := Option.bind_eq_some_iff.1 h
  have done := Config.result?_eq_some_iff.1 hresult
  cases outcome with
  | ended => cases hanswer
  | served other found =>
      rw [Outcome.answer?] at hanswer
      split at hanswer
      next hdemand =>
        subst hdemand
        exact Option.some.inj hanswer ▸ done
      next => cases hanswer

namespace Party

/-- What a party does. -/
def program : Party → Program Outcome
  | .serves o demand => Outcome.served demand <$> o.serve demand
  | .other p => (fun _ => .ended) <$> p

/-- The others ask about no lock and store no listing. -/
def Fair : Party → Prop
  | .serves _ _ => True
  | .other p => p.Obeys Harmless fun _ => True

theorem Fair.program {party : Party} {inv : Inventory} (h : party.Fair) :
    Program.Fair inv party.program := by
  cases party with
  | serves o demand => exact (Program.fairness inv).map ((Program.fairness inv).serve o demand) _
  | other p => exact (Program.fairness inv).map (Program.fair_of_harmless h) _

/-- A party that serves a demand is done with what the provisioner answers. -/
theorem ends_serves {o : Provisioner} {demand : Demand} {trace : List (Exchange fleetSignature)}
    {answer : demand.Answer} (h : Ends (serves o demand).program trace (.served demand answer)) :
    Ends (o.serve demand) trace answer := by
  obtain ⟨a, ha, hanswer⟩ := ends_map.1 h
  obtain ⟨-, hanswer⟩ := Outcome.served.inj hanswer
  obtain rfl := eq_of_heq hanswer
  exact ha

end Party

theorem routine_of_party {parties : List Party} {k : Nat} {party : Party}
    (h : parties[k]? = some party) : (parties.map Party.program)[k]? = some party.program := by
  rw [List.getElem?_map, h]
  rfl

/-- From free locks every history of fair parties goes on until all of them are done. -/
theorem Steps.parties_complete {s : FleetState} {parties : List Party}
    {events : List (Event fleetWorld)} {d : Config fleetWorld Outcome}
    (h : Steps (Config.start s (parties.map Party.program)) events d)
    (free : ∀ cache, s.queues cache = []) (fair : ∀ party ∈ parties, party.Fair) :
    ∃ later last, Steps d later last ∧
      ∀ k < parties.length, ∃ outcome, last.routines[k]? = some (.done outcome) := by
  have horderly : ∀ p ∈ parties.map Party.program, p.IsOrderly := by
    intro p hp
    obtain ⟨party, hparty, rfl⟩ := List.mem_map.1 hp
    exact ((fair party hparty).program : Program.Fair {} _).orderly
  obtain ⟨later, last, hlater, hdone⟩ := h.completes free horderly
  exact ⟨later, last, hlater, fun k hk => hdone k (by rwa [List.length_map])⟩

end NodeFleet
