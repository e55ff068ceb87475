import NodeFleet.Proofs.Fleet.Coherence
import NodeFleet.Proofs.NodeClass.Likeness

/-!
# Settings of a node class in its requests

The canonical text of a node class tells every change of its user data, its disk size, its disk
offering and its key pair. A request for a machine carries all of them but the disk offering. So if
one of the others is changed, later machines are requested otherwise than earlier ones, in whatever
state of the caches and the cloud; but a change of the disk offering makes every node drift and leaves
the launches as they are.
-/

namespace NodeFleet

open Routine (Ends)
open Cloud (DeployRequest)

namespace Text

theorem base64_injective : Function.Injective base64 := by
  intro a b h
  exact Option.some.inj ((ofBase64?_eq_some.2 rfl).symm.trans (ofBase64?_eq_some.2 h))

theorem utf8_injective : Function.Injective utf8 := by
  intro a b h
  rw [utf8_eq, utf8_eq, Array.toList_inj] at h
  exact String.toByteArray_inj.1 (ByteArray.ext h)

end Text

namespace NodeClassSpec

/-- Two specs differ in a setting that requests carry, once empty texts and a disk size of zero are
dropped. -/
def DifferWhereCarried (a b : NodeClassSpec) : Prop :=
  nonEmpty? a.userData ≠ nonEmpty? b.userData ∨
    (a.rootDiskSize.filter fun n => n ≠ 0) ≠ (b.rootDiskSize.filter fun n => n ≠ 0) ∨
      nonEmpty? a.sshKeyPair ≠ nonEmpty? b.sshKeyPair

theorem DifferWhereCarried.not_alike {a b : NodeClassSpec} (h : a.DifferWhereCarried b) :
    ¬ a.Alike b := by
  intro alike
  rcases h with userData | rootDiskSize | sshKeyPair
  · exact userData alike.userData
  · exact rootDiskSize alike.rootDiskSize
  · exact sshKeyPair alike.sshKeyPair

end NodeClassSpec

/-- Requests for specs that differ where requests carry it differ, whatever else they are for. -/
theorem Fleet.deployRequest_ne {f f' : Fleet} {spec spec' : NodeClassSpec} {claim claim' : NodeClaim}
    {offeringId offeringId' : String} {zone zone' : Zone} {network network' : Network}
    {template template' : Template} (differ : spec.DifferWhereCarried spec') :
    f.deployRequest spec claim offeringId zone network template ≠
      f'.deployRequest spec' claim' offeringId' zone' network' template' := by
  intro same
  rcases differ with userData | rootDiskSize | sshKeyPair
  · have hdata : ((nonEmpty? spec.userData).map fun data => Text.base64 (Text.utf8 data)) =
        (nonEmpty? spec'.userData).map fun data => Text.base64 (Text.utf8 data) :=
      congrArg DeployRequest.userData same
    exact userData
      (Option.map_injective (Text.base64_injective.comp Text.utf8_injective) hdata)
  · have hsize : spec.rootDiskSize = spec'.rootDiskSize := congrArg DeployRequest.rootDiskSize same
    exact rootDiskSize (congrArg (Option.filter _) hsize)
  · have hpair : spec.sshKeyPair = spec'.sshKeyPair := congrArg DeployRequest.keyPair same
    exact sshKeyPair (congrArg nonEmpty? hpair)

/-- A node class with another disk offering, or with none. -/
def NodeClass.withDiskOffering (c : NodeClass) (offering : Option String) : NodeClass :=
  { c with spec := { c.spec with diskOffering := offering } }

namespace NodeClass

variable (c : NodeClass) (offering : Option String)

/-- The canonical text tells disk offerings apart. -/
theorem canonical?_withDiskOffering_eq_iff :
    (encode (c.withDiskOffering offering).spec).canonical? = (encode c.spec).canonical? ↔
      nonEmpty? offering = nonEmpty? c.spec.diskOffering := by
  rw [NodeClassSpec.canonical?_eq_iff_alike]
  refine ⟨fun h => h.diskOffering, fun h => ?_⟩
  exact {
    zone := rfl
    networkTerms := .refl _
    offeringTerms := .refl _
    templateTerms := .refl _
    userData := rfl
    tags := rfl
    rootDiskSize := rfl
    diskOffering := h
    sshKeyPair := rfl }

/-- No launch looks at the disk offering of its node class. -/
theorem createInstance_withDiskOffering (f : Fleet) (claim : NodeClaim)
    (candidates : List InstanceType) (token : Token) :
    f.createInstance (c.withDiskOffering offering) claim candidates token =
      f.createInstance c claim candidates token :=
  rfl

end NodeClass

section Requests

/-- A worker launches a machine for a claim by a node class: by one that it was given, or by the stored
one, which it has read before anything else. -/
inductive Worker.Launches (f : Fleet) (c : NodeClass) (claim : NodeClaim)
    (trace : List (Exchange fleetSignature)) : Worker → Prop
  | operates {candidates : List InstanceType} {token : Token} :
      Launches f c claim trace (.operates f (.create c claim candidates token))
  | serves {o : Provisioner} {name : String} (fleet : o.fleet = f)
      (read : trace.head? = some ⟨.act (.nodeClass name), some c⟩) :
      Launches f c claim trace (.serves o (.create claim))

/-- In a history from a state on, next to whatever others do, a machine is requested for a claim by a
node class. -/
inductive Requested (s : FleetState) (f : Fleet) (c : NodeClass) (claim : NodeClaim)
    (request : DeployRequest) : Prop
  | intro {workers : List Worker} {events : List (Event fleetWorld)} {d : Config fleetWorld Unit}
      {e : Event fleetWorld} {worker : Worker}
      (steps : Steps (Config.start s (workers.map Worker.program)) events d) (turn : e ∈ events)
      (own : workers[e.routine]? = some worker)
      (launches : worker.Launches f c claim (traceOf e.routine events))
      (deploys : e.request.deploys? = some request) : Requested s f c claim request

namespace Requested

variable {s : FleetState} {f : Fleet} {c : NodeClass} {claim : NodeClaim} {request : DeployRequest}

/-- A requested machine was planned. -/
theorem exists_plan (h : Requested s f c claim request) :
    ∃ candidates plan, Ends (f.plan c claim candidates).run plan (.ok request) := by
  obtain ⟨steps, turn, own, launches, deploys⟩ := h
  rename_i events d e worker
  obtain ⟨first, second, rfl⟩ := List.append_of_mem turn
  have hdeploys : e.exchange.request.deploys? = some request := deploys
  obtain ⟨later, hends⟩ := steps.exists_ends_of_worker own
  cases launches with
  | @operates candidates token =>
      obtain ⟨r, hcreate, -⟩ := Routine.ends_map.1 hends
      obtain ⟨plan, _, _, planned, -⟩ :=
        (Fleet.planCourse_of_createInstance hcreate).cut rfl hdeploys
      exact ⟨candidates, plan, planned⟩
  | @serves o name fleet read =>
      obtain ⟨r, hcreate, -⟩ := Routine.ends_map.1 hends
      have hprepared := Provisioner.preparation_of_create hcreate rfl hdeploys
      rw [traceOf_append_cons first second e] at read
      generalize traceOf e.routine first = trace at hprepared read
      cases hprepared with
      | @intro name' c' types listing plan named _ _ _ planned =>
          rw [List.cons_append, List.head?_cons] at read
          cases read
          exact ⟨types, plan, fleet ▸ planned⟩

/-- A request is made by the settings of the spec. -/
theorem eq_deployRequest (h : Requested s f c claim request) : ∃ offeringId zone network template,
    request = f.deployRequest c.spec claim offeringId zone network template := by
  obtain ⟨candidates, plan, planned⟩ := h.exists_plan
  obtain ⟨offeringId, zone, network, template, _, _, -, -, hrequest⟩ := request_of_ends_plan planned
  exact ⟨offeringId, zone, network, template, hrequest⟩

end Requested

/-- In whatever states and for whatever claims two machines are requested: if the specs of their node
classes differ, but for zero values, in the user data, the disk size or the key pair, then so do the
canonical texts and the requests. The disk offering is in no request; the canonical text tells it apart
nevertheless, and a launch is the same program for every disk offering. -/
theorem requests_tell_settings {s s' : FleetState} {f f' : Fleet} {c c' : NodeClass}
    {claim claim' : NodeClaim} {request request' : DeployRequest}
    (requested : Requested s f c claim request) (requested' : Requested s' f' c' claim' request') :
    (c.spec.DifferWhereCarried c'.spec →
      (encode c.spec).canonical? ≠ (encode c'.spec).canonical? ∧ request ≠ request') ∧
    request.diskOfferingId = none ∧
    ∀ offering : Option String,
      ((encode (c.withDiskOffering offering).spec).canonical? = (encode c.spec).canonical? ↔
        nonEmpty? offering = nonEmpty? c.spec.diskOffering) ∧
      ∀ candidates token, f.createInstance (c.withDiskOffering offering) claim candidates token =
        f.createInstance c claim candidates token := by
  obtain ⟨_, _, _, _, rfl⟩ := requested.eq_deployRequest
  obtain ⟨_, _, _, _, rfl⟩ := requested'.eq_deployRequest
  refine ⟨fun differ => ⟨fun same => ?_, Fleet.deployRequest_ne differ⟩, rfl, fun offering => ?_⟩
  · exact differ.not_alike ((NodeClassSpec.canonical?_eq_iff_alike _ _).1 same)
  · exact ⟨c.canonical?_withDiskOffering_eq_iff offering,
      c.createInstance_withDiskOffering offering f claim⟩

end Requests

section Stocked

/-- A launch by a node class. -/
def launching (c : NodeClass) : Worker :=
  .operates stockedProvisioner.fleet (.create c stockedClaim [smallType] 0)

/-- In the stocked cloud, alone and from empty caches, a machine is requested by a node class. -/
abbrev RequestedAlone (c : NodeClass) (request : DeployRequest) : Prop :=
  Requested (.initial (worldOf stockedCloud)) stockedProvisioner.fleet c stockedClaim request

/-- A launch that comes to a request comes to the same one for every disk offering. -/
theorem exists_requestedAlone {c : NodeClass}
    (comes : ∃ path ∈ (Config.start (.initial (worldOf stockedCloud) : FleetState)
        ([launching c].map Worker.program)).follow [.turns 0 50],
      ∃ e ∈ path.1, e.routine = 0 ∧ e.request.deploys?.isSome = true) :
    ∃ request, RequestedAlone c request ∧
      ∀ offering, RequestedAlone (c.withDiskOffering offering) request := by
  obtain ⟨⟨events, d⟩, hfollow, e, he, hown, hdeploys⟩ := comes
  have steps := Config.steps_of_follow hfollow
  obtain ⟨request, hrequest⟩ := Option.isSome_iff_exists.1 hdeploys
  have own (c : NodeClass) : [launching c][e.routine]? = some (launching c) := by
    rw [hown]
    rfl
  refine ⟨request, .intro steps he (own c) .operates hrequest, fun offering => ?_⟩
  have same : (launching (c.withDiskOffering offering)).program = (launching c).program := by
    rw [launching, Worker.program, Fleet.operate, c.createInstance_withDiskOffering]
    rfl
  have hprograms : [launching c].map Worker.program =
      [launching (c.withDiskOffering offering)].map Worker.program := by
    rw [List.map_singleton, List.map_singleton, same]
  rw [hprograms] at steps
  exact .intro steps he (own _) .operates hrequest

/-- Two node classes that differ in their user data, with the requests for them. -/
theorem requests_tell_settings_of_user_data :
    ∃ request request', RequestedAlone reconciledClass request ∧ RequestedAlone dataClass request' ∧
      reconciledClass.spec.DifferWhereCarried dataClass.spec ∧
      (encode reconciledClass.spec).canonical? ≠ (encode dataClass.spec).canonical? ∧
      request ≠ request' ∧ request.diskOfferingId = none := by
  obtain ⟨request, requested, -⟩ :=
    exists_requestedAlone (c := reconciledClass) (by decide +kernel)
  obtain ⟨request', requested', -⟩ := exists_requestedAlone (c := dataClass) (by decide +kernel)
  have differ : reconciledClass.spec.DifferWhereCarried dataClass.spec := .inl (by decide)
  obtain ⟨htells, hnone, -⟩ := requests_tell_settings requested requested'
  obtain ⟨htexts, hrequests⟩ := htells differ
  exact ⟨request, request', requested, requested', differ, htexts, hrequests, hnone⟩

/-- Two node classes that differ in their disk offering only have different texts, and yet the same
machine is requested by both. -/
theorem exists_disk_offering_without_effect :
    ∃ request, RequestedAlone reconciledClass request ∧
      RequestedAlone (reconciledClass.withDiskOffering (some "fast")) request ∧
      nonEmpty? reconciledClass.spec.diskOffering ≠
        nonEmpty? (reconciledClass.withDiskOffering (some "fast")).spec.diskOffering ∧
      (encode reconciledClass.spec).canonical? ≠
        (encode (reconciledClass.withDiskOffering (some "fast")).spec).canonical? := by
  obtain ⟨request, requested, still⟩ :=
    exists_requestedAlone (c := reconciledClass) (by decide +kernel)
  have differ : nonEmpty? reconciledClass.spec.diskOffering ≠
      nonEmpty? (reconciledClass.withDiskOffering (some "fast")).spec.diskOffering := by
    decide
  refine ⟨request, requested, still (some "fast"), differ, fun same => differ ?_⟩
  exact ((reconciledClass.canonical?_withDiskOffering_eq_iff (some "fast")).1 same.symm).symm

end Stocked

end NodeFleet
