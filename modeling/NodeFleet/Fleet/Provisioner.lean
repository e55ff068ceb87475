import NodeFleet.Drift
import NodeFleet.Fleet.Launch
import NodeFleet.Fleet.Reconcile
import NodeFleet.Settings
import NodeFleet.ProviderId

/-!
# Provisioners

A provisioner serves the orchestrator from one set of settings: it launches, finds, lists and
removes the nodes behind claims, offers instance types and reports drift. A claim is rebuilt from
an instance by the tags and fields of its machine.
-/

namespace NodeFleet

/-- A node condition that may be repaired once it has lasted so many seconds. -/
structure RepairPolicy where
  conditionType : String
  status : ConditionStatus
  toleration : Nat
deriving DecidableEq

/-- The policies of every provisioner: a node that is not ready, or may not be, for half an hour. -/
def repairPolicies : List RepairPolicy :=
  [⟨"Ready", .unmet, 1800⟩, ⟨"Ready", .unknown, 1800⟩]

/-- The labels of a node as far as its machine determines them, in the order of writing. -/
def Instance.labels (i : Instance) : List (String × String) := [
  (Label.topologyZone, i.zone),
  (Label.instanceType, i.serviceOffering),
  (Label.capacityType, Label.onDemand),
  (Label.architecture, Label.amd64),
  (Label.operatingSystem, Label.linux),
  (Label.zoneId, i.zoneId),
  (Label.zoneName, i.zone),
  (Label.networkId, i.networkId),
  (Label.serviceOfferingId, i.serviceOfferingId),
  (Label.serviceOfferingName, i.serviceOffering),
  (Label.templateId, i.templateId),
  (Label.templateName, i.template)]

/-- The claim behind an instance. Empty label values are left out; a machine that is about to go
gives the claim the present instant as the start of its deletion. -/
def Instance.toClaim (i : Instance) (today : Instant) : NodeClaim :=
  let written : Table String := .ofList (i.labels.filter fun l => l.2 ≠ "")
  { name := (i.tag? Tag.nodeClaim).getD i.name
    labels := match i.tag? Tag.nodePool with
      | some pool => written.insert Label.nodePool pool
      | none => written
    nodeClassRef := i.tag? Tag.nodeClass
    creation := i.created
    deletion := if i.isTerminating then some today else none
    status := ⟨ProviderId.format i.zone i.id, i.templateId⟩ }

/-- A fleet with its settings and the token that ends its waits. -/
structure Provisioner where
  settings : Settings
  fleet : Fleet
  shutdown : Token

namespace Provisioner

/-- The name of the provider. -/
def providerName : String := "cloudstack"

/-- The provisioner of settings, with caches of the given owner. -/
def new (settings : Settings) (owner : Nat) (shutdown : Token) : Provisioner where
  settings := settings
  fleet :=
    { owner
      cacheTtl := settings.cacheTtl * 1000
      settings := { clusterName := settings.clusterName, namePrefix := settings.namePrefix } }
  shutdown := shutdown

/-- Shows an error of the fleet to the orchestrator. -/
def surface {α : Type} (wrap : ResourceError → NodeError) (attempt : Attempt ResourceError α) :
    Attempt NodeError α :=
  ExceptT.mk do
    match ← attempt.run with
    | .ok a => return .ok a
    | .error e => return .error (wrap e)

/-- The stored node class of a claim, unless it is being deleted. -/
def classOf? (claim : NodeClaim) : Program (Option NodeClass) := do
  match claim.nodeClassRef with
  | none => return none
  | some name => return (← Program.nodeClass? name).filter fun c => !c.isDeleting

/-- The error for a claim whose node class is missing. -/
def classMissing (claim : NodeClaim) : NodeError :=
  let wanted := claim.nodeClassRef.getD ""
  .insufficientCapacity s!"NodeClass {wanted} not found for NodeClaim {claim.name}"

/-- Launches a node for a claim and yields the claim filled in. -/
def create (o : Provisioner) (claim : NodeClaim) : Attempt NodeError NodeClaim := do
  match ← classOf? claim with
  | none => throw (classMissing claim)
  | some c =>
      if !c.isReady then throw (.classNotReady c.name)
      let types ← surface (fun e => .createFailed "InstanceTypeResolutionFailed" e.message)
        (o.fleet.instanceTypes c)
      let launched ← surface .resource (o.fleet.createInstance c claim types o.shutdown)
      let today ← Program.today
      return ({ launched.toClaim today with nodeClassRef := some c.name }).annotate c

/-- The claim of the machine behind a provider identifier. -/
def get (o : Provisioner) (providerId : String) : Attempt NodeError NodeClaim := do
  let id ← ExceptT.mk (pure (ProviderId.parse providerId))
  let found ← surface
    (fun e => if e.isNotFound then .claimNotFound providerId else .resource e)
    (o.fleet.getInstance id)
  return found.toClaim (← Program.today)

/-- The claims of all managed machines. -/
def list : Attempt NodeError (List NodeClaim) := do
  let instances ← surface .resource Fleet.listInstances
  let today ← Program.today
  return instances.map fun i => i.toClaim today

/-- Removes the machine of a claim. -/
def delete (o : Provisioner) (claim : NodeClaim) : Attempt NodeError Unit := do
  let id ← ExceptT.mk (pure (ProviderId.parse claim.status.providerId))
  surface .resource (o.fleet.deleteInstance id o.shutdown)

/-- The instance types that a node class offers. -/
def instanceTypes (o : Provisioner) (c : NodeClass) : Attempt NodeError (List InstanceType) :=
  surface .resource (o.fleet.instanceTypes c)

/-- Why a claim has drifted, if it has; without a node class it has not. -/
def isDrifted (claim : NodeClaim) : Program (Option String) := do
  return (← classOf? claim).bind claim.driftReason?

end Provisioner

end NodeFleet
