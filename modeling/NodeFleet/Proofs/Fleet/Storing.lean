import NodeFleet.Proofs.Fleet.Finding

/-!
# What is stored for a machine

Whatever is demanded of a provisioner, next to listings of the stock it stores instances: those who
find a machine store its instance, a launch stores that of the machine that it has deployed, and
nobody else stores instances. So it stores for a certain machine nothing but its instance.
-/

namespace NodeFleet

open Routine (Keeps)
open Program (CallsPlainly obeys_call obeys_tryCall obeys_withTags obeys_templateBatches)
open Cloud (VirtualMachine)

namespace Program

/-- A program that stores only what may be stored, if it is answered what may be relied on. -/
abbrev Minds {α : Type} (R : Reliance fleetSignature) (p : Program α) : Prop :=
  Keeps R (fun _ => True) p

variable {α β ε : Type} {R : Reliance fleetSignature}

theorem Minds.next {x : Attempt ε α} {f : α → Attempt ε β} (hx : Minds R x.run)
    (hf : ∀ a, Minds R (f a).run) : Minds R (x >>= f).run :=
  hx.run_bind (fun _ _ => trivial) fun a _ => hf a

theorem Minds.lift {p : Program α} (hp : Minds R p) : Minds R (liftM p : Attempt ε α).run :=
  Routine.keeps_run_lift hp

theorem minds_act (action : Action) : Minds R (act action) :=
  ⟨trivial, fun _ _ => trivial⟩

theorem minds_of_callsPlainly {ops : List Cloud.Operation} {yields : α → Prop} {p : Program α}
    (h : p.Obeys (CallsPlainly ops) yields) : Minds R p :=
  (keeps_of_callsPlainly h).mono fun _ _ => trivial

theorem minds_tryCall (context : String) (call : Cloud.Call) : Minds R (tryCall context call).run :=
  minds_of_callsPlainly (obeys_tryCall context (List.mem_singleton_self call.operation))

/-- A listing that is read through a cache stores no instance. -/
theorem minds_cached (on : R.OnMachines) {cache : CacheId} {key : String} {ttl : Nat}
    {fetch : Program (Except ε cache.Value)} (hfetch : Minds R fetch)
    (other : cache.kind ≠ .instances) :
    Minds R (Routine.cached (σ := fleetSignature) cache key ttl fetch) :=
  Routine.keeps_cached hfetch fun value => ⟨fun _ => on.listings cache key value other, fun _ => trivial⟩

end Program

open Program (Minds minds_act minds_of_callsPlainly minds_tryCall minds_cached)

section Discipline

variable {R : Reliance fleetSignature} (on : R.OnMachines)

include on

theorem Fleet.minds_zones (f : Fleet) : Minds R f.zones.run :=
  minds_cached on ((minds_tryCall _ _).next fun _ => trivial) (by simp)

theorem Fleet.minds_lookupZone (f : Fleet) (idOrName : String) : Minds R (f.lookupZone idOrName).run := by
  refine (f.minds_zones on).next fun zones => ?_
  rw [findOrThrow]
  cases zones.find? _ <;> trivial

/-- A listing of the stock stores no instance. -/
theorem Listing.minds_attempt (f : Fleet) (l : Listing) : Minds R (l.attempt f).run := by
  cases l with
  | zones => exact f.minds_zones on
  | networks zone =>
      refine minds_cached on ?_ (by simp)
      refine (f.minds_lookupZone on zone).next fun found => ?_
      refine (minds_tryCall _ _).next fun records => Minds.lift ?_
      exact minds_of_callsPlainly (obeys_withTags records (List.mem_singleton_self _))
  | templates zone =>
      refine minds_cached on ?_ (by simp)
      refine (f.minds_lookupZone on zone).next fun found => ?_
      refine Minds.next (Minds.lift (minds_of_callsPlainly
        (obeys_templateBatches _ _ (List.mem_singleton_self _)))) fun batches => ?_
      cases joinBatches batches with
      | ok records =>
          exact Minds.lift (minds_of_callsPlainly
            (obeys_withTags _ (List.mem_singleton_self _)))
      | error e => trivial
  | offerings zone =>
      exact minds_cached on ((minds_tryCall _ _).next fun _ => trivial) (by simp)

/-- Answering a question about the stock stores no instance. -/
theorem Query.minds_attempt (f : Fleet) (q : Query) : Minds R (q.attempt f).run := by
  rw [Query.attempt_eq]
  exact (q.source.minds_attempt on f).next fun _ => trivial

omit on

/-- A launch stores what the registration of the machine stores that it has deployed and seen
running. -/
theorem Fleet.minds_deployment_of_register (f : Fleet) (c : NodeClass) (claim : NodeClaim)
    (token : Token) (request : Cloud.DeployRequest) {deploys : String → Prop}
    (deployed : Keeps R (fun r => ∀ reply, r = .ok reply → deploys reply.id)
      (Program.tryCall "deploy virtual machine" (.deployMachine request)).run)
    (found : ∀ id, deploys id → Keeps R (fun r => ∀ vm, r = .ok vm → Minds R (f.register c claim vm))
      (f.awaitState id VirtualMachine.running token).run) :
    Minds R (f.deployment c claim token request).run := by
  refine (minds_act _).lift.next fun _ => ?_
  refine deployed.run_bind (fun _ _ => trivial) fun reply hreply => ?_
  refine (minds_of_callsPlainly (f.obeys_finishJob _ _ token)).next fun _ => ?_
  refine (minds_act _).lift.next fun _ => ?_
  exact (found reply.id (hreply reply rfl)).run_bind (fun _ _ => trivial) fun vm hvm =>
    Minds.lift (hvm vm rfl)

/-- A launch stores the instance of the machine that it has deployed and seen running. -/
theorem Fleet.minds_deployment (f : Fleet) (c : NodeClass) (claim : NodeClaim) (token : Token)
    (request : Cloud.DeployRequest) {deploys : String → Prop}
    (deployed : Keeps R (fun r => ∀ reply, r = .ok reply → deploys reply.id)
      (Program.tryCall "deploy virtual machine" (.deployMachine request)).run)
    (found : ∀ id, deploys id → Keeps R (fun r => ∀ vm, r = .ok vm → ∀ tags : Table String,
        R.stores ⟨f.owner, .instances⟩ (Fleet.instanceKey vm.id) (Instance.ofMachine vm tags))
      (f.awaitState id VirtualMachine.running token).run) :
    Minds R (f.deployment c claim token request).run := by
  refine f.minds_deployment_of_register c claim token request deployed fun id hid =>
    (found id hid).mono fun _ stores vm hvm => ?_
  refine (minds_of_callsPlainly (obeys_call (List.mem_singleton_self _))).bind fun _ _ => ?_
  exact ⟨stores vm hvm _, fun _ _ => trivial⟩

/-- What a provisioner does stores only what may be stored, if those who find and launch machines
do. -/
def Reliance.OnMachines.discipline (on : R.OnMachines)
    (getInstance : ∀ (f : Fleet) (id : String), Minds R (f.getInstance id).run)
    (deployment : ∀ (f : Fleet) (c : NodeClass) (claim : NodeClaim) (token : Token)
      (request : Cloud.DeployRequest), Minds R (f.deployment c claim token request).run) :
    Discipline where
  Holds := Minds R
  yield _ := trivial
  bind first rest := first.bind fun a _ => rest a
  ask request plain := by
    refine ⟨?_, fun _ _ => trivial⟩
    cases request with
    | write cache key value ttl => exact plain.elim
    | _ => trivial
  attempt f q := q.minds_attempt on f
  getInstance := getInstance
  deployment := deployment

end Discipline

variable {owner : Nat} {vm : VirtualMachine} {tags : Table String}

namespace Fleet

variable (f : Fleet) (token : Token)

/-- No machine is deployed under the identifier of the machine. -/
theorem keeps_deploy (context : String) (request : Cloud.DeployRequest) :
    Keeps (machineReliance owner vm tags) (fun r => ∀ reply, r = .ok reply → reply.id ≠ vm.id)
      (Program.tryCall context (.deployMachine request)).run := by
  refine Routine.keeps_of_ends (minds_tryCall _ _) ?_
  rintro trace r hends admitted reply rfl
  rcases ends_tryCall hends with ⟨deployed, hdeployed, hcall⟩ | ⟨e, he, _⟩
  · obtain rfl := Except.ok.inj hdeployed
    exact (admits_of_ends_call hcall (by simp [Cloud.Call.operation]) admitted).2 reply rfl
  · cases he

/-- A machine that is waited for under an identifier has it. -/
theorem keeps_awaitState (id : String) :
    Keeps (machineReliance owner vm tags) (fun r => ∀ found, r = .ok found → found.id = id)
      (f.awaitState id VirtualMachine.running token).run := by
  refine Routine.keeps_of_ends (minds_of_callsPlainly (f.obeys_awaitState _ _ token)) ?_
  rintro trace r hends admitted found rfl
  obtain ⟨page, hanswered, head, -⟩ := f.ends_awaitState token hends
  have on := machineReliance_onMachines owner vm tags
  have hserved := hanswered.served (by simp [Cloud.Call.operation]) (on.delayed_trace admitted)
  exact (admitted _ hserved page rfl).2.2 id rfl found (List.mem_of_head? head)

end Fleet

/-- What a provisioner does stores nothing for a machine but its instance. -/
def storingOnly (owner : Nat) (vm : VirtualMachine) (tags : Table String) : Discipline :=
  (machineReliance_onMachines owner vm tags).discipline
    (fun f id => (keeps_getInstance f id).mono fun _ _ => trivial)
    fun f c claim token request =>
      f.minds_deployment c claim token request (Fleet.keeps_deploy _ request) fun id hid =>
        (f.keeps_awaitState token id).mono fun _ hr found hfound _ _ hkey =>
          absurd (instanceKey_inj.1 hkey) (hr found hfound ▸ hid)

end NodeFleet
