import NodeFleet.Proofs.Fleet.LaunchRecord
import NodeFleet.Proofs.Fleet.Service

/-!
# The course of creating a node

Creating a node reads the stored node class of a claim, lists the instance types of the class,
launches a machine and turns it into a claim. What it went through is cut at these steps.
-/

namespace NodeFleet

open Routine (Ends ends_bind ends_run_bind ends_lift_bind ends_lift_request_bind ends_request_bind)

/-- How far a launch came with its plan, and what it went through. -/
inductive Fleet.PlanCourse (f : Fleet) (c : NodeClass) (claim : NodeClaim)
    (candidates : List InstanceType) (token : Token) (trace : List (Exchange fleetSignature)) :
    Except ResourceError Instance → Prop
  | refused
      (parts : trace = [⟨.act (.log claim.name .requested), ()⟩, ⟨.isCancelled token, true⟩,
        ⟨.act (.log claim.name .failed), ()⟩]) :
      PlanCourse f c claim candidates token trace (.error .cancelled)
  | unplanned {plan : List (Exchange fleetSignature)} {e : ResourceError}
      (planned : Ends (f.plan c claim candidates).run plan (.error e))
      (parts : trace = ⟨.act (.log claim.name .requested), ()⟩ :: ⟨.isCancelled token, false⟩ ::
        (plan ++ [⟨.act (.log claim.name (finalState (.error e))), ()⟩])) :
      PlanCourse f c claim candidates token trace (.error e)
  | planned {plan deployment : List (Exchange fleetSignature)} {request : Cloud.DeployRequest}
      {r : Except ResourceError Instance}
      (planned : Ends (f.plan c claim candidates).run plan (.ok request))
      (deployed : Ends (f.deployment c claim token request).run deployment r)
      (parts : trace = ⟨.act (.log claim.name .requested), ()⟩ :: ⟨.isCancelled token, false⟩ ::
        (plan ++ deployment ++ [⟨.act (.log claim.name (finalState r)), ()⟩])) :
      PlanCourse f c claim candidates token trace r

theorem Fleet.planCourse_of_createInstance {f : Fleet} {c : NodeClass} {claim : NodeClaim}
    {candidates : List InstanceType} {token : Token} {trace : List (Exchange fleetSignature)}
    {r : Except ResourceError Instance}
    (h : Ends (f.createInstance c claim candidates token).run trace r) :
    f.PlanCourse c claim candidates token trace r := by
  obtain ⟨own, rfl, hown⟩ := ends_launch f c claim candidates token h
  rw [Fleet.launch_run] at hown
  obtain ⟨cancelled, rest, rfl, hrest⟩ := ends_request_bind.1 hown
  cases cancelled with
  | true =>
      obtain ⟨rfl, rfl⟩ := Routine.ends_pure.1 hrest
      exact .refused rfl
  | false =>
      rcases ends_run_bind.1 hrest with ⟨e, rfl, hplan⟩ | ⟨request, plan, rest, rfl, hplan, hdeploy⟩
      · exact .unplanned hplan rfl
      · exact .planned hplan hdeploy rfl

namespace Provisioner

theorem ends_surface {α : Type} {wrap : ResourceError → NodeError} {x : Attempt ResourceError α}
    {trace : List (Exchange fleetSignature)} {r : Except NodeError α}
    (h : Ends (surface wrap x).run trace r) :
    (∃ a, r = .ok a ∧ Ends x.run trace (.ok a)) ∨
      ∃ e, r = .error (wrap e) ∧ Ends x.run trace (.error e) := by
  obtain ⟨result, own, rest, rfl, hown, hrest⟩ := ends_bind.1 h
  cases result with
  | ok a =>
      obtain ⟨rfl, rfl⟩ := Routine.ends_pure.1 hrest
      exact .inl ⟨a, rfl, (List.append_nil own).symm ▸ hown⟩
  | error e =>
      obtain ⟨rfl, rfl⟩ := Routine.ends_pure.1 hrest
      exact .inr ⟨e, rfl, (List.append_nil own).symm ▸ hown⟩

/-- What goes on from a surfaced attempt fails as it fails or has its result. -/
theorem ends_surface_bind {α β : Type} {wrap : ResourceError → NodeError}
    {x : Attempt ResourceError α} {f : α → Attempt NodeError β}
    {trace : List (Exchange fleetSignature)} {r : Except NodeError β}
    (h : Ends (surface wrap x >>= f).run trace r) :
    (∃ e, r = .error (wrap e) ∧ Ends x.run trace (.error e)) ∨
      ∃ a own rest, trace = own ++ rest ∧ Ends x.run own (.ok a) ∧ Ends (f a).run rest r := by
  rcases ends_run_bind.1 h with ⟨e, rfl, hfailed⟩ | ⟨a, own, rest, rfl, hown, hrest⟩
  · rcases ends_surface hfailed with ⟨_, ha, _⟩ | ⟨e', he, hends⟩
    · cases ha
    · cases he
      exact .inl ⟨e', rfl, hends⟩
  · rcases ends_surface hown with ⟨_, ha, hends⟩ | ⟨_, he, _⟩
    · cases ha
      exact .inr ⟨a, own, rest, rfl, hends, hrest⟩
    · cases he

variable {o : Provisioner} {claim : NodeClaim} {c : NodeClass} {name : String}
  {trace : List (Exchange fleetSignature)} {r : Except NodeError NodeClaim}

/-- What creating a node does once its node class is at hand. -/
def launchFor (o : Provisioner) (claim : NodeClaim) (c : NodeClass) :
    Attempt NodeError NodeClaim := do
  let types ← surface (fun e => .createFailed "InstanceTypeResolutionFailed" e.message)
    (o.fleet.instanceTypes c)
  let launched ← surface .resource (o.fleet.createInstance c claim types o.shutdown)
  let today ← Program.today
  return ({ launched.toClaim today with nodeClassRef := some c.name }).annotate c

/-- Creating a node begins with its node class, and it goes on if that is ready. -/
theorem course_of_create (named : claim.nodeClassRef = some name)
    (h : Ends (o.create claim).run trace r) :
    ∃ stored rest, trace = ⟨.act (.nodeClass name), stored⟩ :: rest ∧
      ((∃ c, stored = some c ∧ (c.isDeleting = false ∧ c.isReady = true) ∧
          Ends (o.launchFor claim c).run rest r) ∨
        rest = [] ∧ ∃ e, r = .error e ∧
          ∀ c, stored = some c → c.isDeleting = true ∨ c.isReady = false) := by
  obtain ⟨found, look, rest, rfl, hlook, hrest⟩ := ends_lift_bind.1 h
  rw [classOf?, named] at hlook
  obtain ⟨stored, tail, rfl, htail⟩ := ends_request_bind.1 hlook
  obtain ⟨rfl, rfl⟩ := Routine.ends_pure.1 htail
  refine ⟨stored, rest, rfl, ?_⟩
  cases stored with
  | none =>
      obtain ⟨rfl, rfl⟩ := Routine.ends_run_throw.1 hrest
      exact .inr ⟨rfl, _, rfl, fun c hc => by cases hc⟩
  | some c =>
      cases hdeleting : c.isDeleting with
      | true =>
          rw [Option.filter_some, hdeleting] at hrest
          obtain ⟨rfl, rfl⟩ := Routine.ends_run_throw.1 hrest
          refine .inr ⟨rfl, _, rfl, fun c' hc => .inl ?_⟩
          obtain rfl := Option.some.inj hc
          exact hdeleting
      | false =>
          rw [Option.filter_some, hdeleting] at hrest
          change Ends (if !c.isReady then throw (NodeError.classNotReady c.name)
            else o.launchFor claim c).run rest r at hrest
          cases hready : c.isReady with
          | false =>
              rw [hready] at hrest
              obtain ⟨rfl, rfl⟩ := Routine.ends_run_throw.1 hrest
              refine .inr ⟨rfl, _, rfl, fun c' hc => .inr ?_⟩
              obtain rfl := Option.some.inj hc
              exact hready
          | true =>
              rw [hready] at hrest
              exact .inl ⟨c, rfl, ⟨hdeleting, hready⟩, hrest⟩

theorem ends_create (named : claim.nodeClassRef = some name)
    (h : Ends (o.create claim).run trace r) :
    ∃ stored rest, trace = ⟨.act (.nodeClass name), stored⟩ :: rest ∧
      ((∃ c, stored = some c ∧ Ends (o.launchFor claim c).run rest r) ∨
        ∃ e, r = .error e ∧ ∀ c, stored = some c → c.isDeleting = true ∨ c.isReady = false) := by
  obtain ⟨stored, rest, htrace, hrest⟩ := course_of_create named h
  refine ⟨stored, rest, htrace, ?_⟩
  rcases hrest with ⟨c, hc, -, hlaunch⟩ | ⟨-, hfailed⟩
  · exact .inl ⟨c, hc, hlaunch⟩
  · exact .inr hfailed

/-- What came of launching for a node class: its instance types did not resolve, or the launch
failed, or it is launched. -/
theorem ends_launchFor (h : Ends (o.launchFor claim c).run trace r) :
    (∃ e, r = .error (.createFailed "InstanceTypeResolutionFailed" e.message) ∧
      Ends (o.fleet.instanceTypes c).run trace (.error e)) ∨
    ∃ types listing launch, Ends (o.fleet.instanceTypes c).run listing (.ok types) ∧
      ((∃ e, r = .error (.resource e) ∧ trace = listing ++ launch ∧
        Ends (o.fleet.createInstance c claim types o.shutdown).run launch (.error e)) ∨
      ∃ launched today, r = .ok (({ launched.toClaim today with
          nodeClassRef := some c.name }).annotate c) ∧
        trace = listing ++ (launch ++ [⟨.act .today, today⟩]) ∧
        Ends (o.fleet.createInstance c claim types o.shutdown).run launch (.ok launched)) := by
  rcases ends_surface_bind h with ⟨e, rfl, hends⟩ | ⟨types, listing, rest, rfl, hlisting, hrest⟩
  · exact .inl ⟨e, rfl, hends⟩
  refine .inr ⟨types, listing, ?_⟩
  rcases ends_surface_bind hrest with
    ⟨e, rfl, hends⟩ | ⟨launched, launch, rest, rfl, hlaunch, hlast⟩
  · exact ⟨rest, hlisting, .inl ⟨e, rfl, rfl, hends⟩⟩
  · obtain ⟨today, last, rfl, hdone⟩ := ends_lift_request_bind.1 hlast
    obtain ⟨rfl, rfl⟩ := Routine.ends_run_pure.1 hdone
    exact ⟨launch, hlisting, .inr ⟨launched, today, rfl, rfl, hlaunch⟩⟩

end Provisioner

end NodeFleet
