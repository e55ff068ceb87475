import NodeFleet.Proofs.Fleet.Requesting

/-!
# The zone of a requested machine

A launch places its machine in the first zone of a name or an identifier, as it finds it in its list
of zones, enabled or not. That the zone is enabled was checked by the pass that left the node class
ready, for the zone that the class named then and in the list of that pass. So the zone of a request
is enabled if the class still names the same zone and both have looked in the same list.
-/

namespace NodeFleet

open Routine (Ends ends_run_bind_ok)
open Cloud (DeployRequest)

section Lookup

variable {f : Fleet} {idOrName : String} {zone : Zone} {trace : List (Exchange fleetSignature)}

/-- A zone is found in a list by its name or its identifier. -/
def FoundIn (zones : List Zone) (idOrName : String) (zone : Zone) : Prop :=
  zones.find? (fun z => z.name = idOrName || z.id = idOrName) = some zone

theorem FoundIn.unique {zones : List Zone} {other : Zone} (h : FoundIn zones idOrName zone)
    (h' : FoundIn zones idOrName other) : zone = other :=
  Option.some.inj (Eq.trans (Eq.symm h) h')

theorem ends_findOrThrow {α : Type} {items : List α} {test : α → Bool} {kind name : String} {a : α}
    (h : Ends (findOrThrow items test kind name).run trace (.ok a)) :
    trace = [] ∧ items.find? test = some a := by
  rw [findOrThrow] at h
  cases hfound : items.find? test with
  | none =>
      rw [hfound] at h
      cases (Routine.ends_run_throw.1 h).2
  | some item =>
      rw [hfound] at h
      obtain ⟨rfl, ha⟩ := Routine.ends_run_pure.1 h
      cases ha
      exact ⟨rfl, rfl⟩

theorem ends_lookupZone (h : Ends (f.lookupZone idOrName).run trace (.ok zone)) :
    ∃ zones, Ends f.zones.run trace (.ok zones) ∧ FoundIn zones idOrName zone := by
  obtain ⟨zones, own, rest, rfl, hzones, hrest⟩ := ends_run_bind_ok h
  obtain ⟨rfl, hfound⟩ := ends_findOrThrow hrest
  exact ⟨zones, (List.append_nil own).symm ▸ hzones, hfound⟩

theorem ends_enabledZone (h : Ends (f.enabledZone idOrName).run trace (.ok zone)) :
    ∃ zones, Ends f.zones.run trace (.ok zones) ∧ FoundIn zones idOrName zone ∧
      zone.isEnabled = true := by
  obtain ⟨found, own, rest, rfl, hlookup, hrest⟩ := ends_run_bind_ok h
  cases henabled : found.isEnabled with
  | false =>
      rw [henabled] at hrest
      cases (Routine.ends_run_throw.1 hrest).2
  | true =>
      rw [henabled] at hrest
      obtain ⟨rfl, hzone⟩ := Routine.ends_run_pure.1 hrest
      cases hzone
      obtain ⟨zones, hzones, hfound⟩ := ends_lookupZone hlookup
      exact ⟨zones, (List.append_nil own).symm ▸ hzones, hfound, henabled⟩

end Lookup

/-- What is planned is the request of a node class and a claim for an offering, a zone that was looked
up, a network and a template. -/
theorem request_of_ends_plan {f : Fleet} {c : NodeClass} {claim : NodeClaim}
    {candidates : List InstanceType} {request : DeployRequest}
    {trace : List (Exchange fleetSignature)}
    (h : Ends (f.plan c claim candidates).run trace (.ok request)) :
    ∃ offeringId zone network template own rest, trace = own ++ rest ∧
      Ends (f.lookupZone c.spec.zone).run own (.ok zone) ∧
      request = f.deployRequest c.spec claim offeringId zone network template := by
  obtain ⟨offeringId, first, rest, rfl, hoffering, hrest⟩ := ends_run_bind_ok h
  obtain ⟨rfl, -⟩ := Routine.ends_pure.1 hoffering
  obtain ⟨zone, own, rest, rfl, hlookup, hrest⟩ := ends_run_bind_ok hrest
  obtain ⟨networks, second, rest, rfl, -, hrest⟩ := ends_run_bind_ok hrest
  obtain ⟨templates, third, rest, rfl, -, hrest⟩ := ends_run_bind_ok hrest
  cases hnetwork : networks.head? with
  | none =>
      rw [hnetwork] at hrest
      cases (Routine.ends_run_throw.1 hrest).2
  | some network =>
      cases htemplate : templates.head? with
      | none =>
          rw [hnetwork, htemplate] at hrest
          cases (Routine.ends_run_throw.1 hrest).2
      | some template =>
          rw [hnetwork, htemplate] at hrest
          obtain ⟨-, hrequest⟩ := Routine.ends_run_pure.1 hrest
          exact ⟨offeringId, zone, network, template, own, _, rfl, hlookup, Except.ok.inj hrequest⟩

/-- What is planned is placed in the zone that was looked up for it. -/
theorem zone_of_ends_plan {f : Fleet} {c : NodeClass} {claim : NodeClaim}
    {candidates : List InstanceType} {request : DeployRequest}
    {trace : List (Exchange fleetSignature)}
    (h : Ends (f.plan c claim candidates).run trace (.ok request)) :
    ∃ zones zone own rest, trace = own ++ rest ∧ Ends f.zones.run own (.ok zones) ∧
      FoundIn zones c.spec.zone zone ∧ request.zoneId = zone.id := by
  obtain ⟨_, zone, _, _, own, rest, rfl, hlookup, rfl⟩ := request_of_ends_plan h
  obtain ⟨zones, hzones, hfound⟩ := ends_lookupZone hlookup
  exact ⟨zones, zone, own, rest, rfl, hzones, hfound, rfl⟩

/-- How the zone of a request came about before it: the node class of the claim was read and found
ready, and the first zone of the name or identifier that it gives was taken from a list. -/
structure Placement (o : Provisioner) (claim : NodeClaim) (request : DeployRequest)
    (before : List (Exchange fleetSignature)) (c : NodeClass) (zones : List Zone) (zone : Zone) :
    Prop where
  stored : ∃ name, claim.nodeClassRef = some name ∧ ⟨.act (.nodeClass name), some c⟩ ∈ before
  kept : c.isDeleting = false
  ready : c.isReady = true
  listed : ∃ first own rest, before = first ++ (own ++ rest) ∧ Ends o.fleet.zones.run own (.ok zones)
  found : FoundIn zones c.spec.zone zone
  requested : request.zoneId = zone.id

theorem Provisioner.Preparation.placement {o : Provisioner} {claim : NodeClaim}
    {request : DeployRequest} {before : List (Exchange fleetSignature)}
    (h : o.Preparation claim request before) :
    ∃ c zones zone, Placement o claim request before c zones zone := by
  cases h with
  | @intro name c types listing plan named kept ready listed planned =>
      obtain ⟨zones, zone, own, rest, rfl, hzones, hfound, hrequest⟩ := zone_of_ends_plan planned
      refine ⟨c, zones, zone, ⟨name, named, List.mem_cons_self⟩, kept, ready, ?_, hfound, hrequest⟩
      exact ⟨⟨.act (.nodeClass name), some c⟩ :: (listing ++
          [⟨.act (.log claim.name .requested), ()⟩, ⟨.isCancelled o.shutdown, false⟩]), own,
        rest ++ [⟨.act (.log claim.name .deploying), ()⟩], by simp, hzones⟩

/-- A pass that leaves a node class ready begins by listing the zones, and finds that of the class
enabled. -/
theorem enabled_of_reconcile {f : Fleet} {c after : NodeClass} {retryAfter : Option Nat}
    {trace : List (Exchange fleetSignature)} (h : Ends (f.reconcile c) trace (after, retryAfter))
    (kept : c.isDeleting = false) (ready : after.isReady = true) :
    ∃ zones zone own rest, trace = own ++ rest ∧ Ends f.zones.run own (.ok zones) ∧
      FoundIn zones c.spec.zone zone ∧ zone.isEnabled = true := by
  obtain ⟨resolution, stages, time, rfl, hstages, -⟩ := stages_of_reconcile h kept ready
  obtain ⟨zone, own, rest, rfl, hzone, -⟩ := ends_run_bind_ok hstages
  obtain ⟨zones, hzones, hfound, henabled⟩ := ends_enabledZone (ends_inStage hzone)
  exact ⟨zones, zone, own, _, List.append_assoc _ _ _, hzones, hfound, henabled⟩

/-- Whoever requests a machine for a claim in a history has read a ready node class and requests it
for the zone that the class names, as it was found in a list of zones. Every pass in the history that
left a node class with the same zone ready has found it enabled in its own list; so if one of them
has looked in the same list as the launch, the zone of the request is enabled in it. -/
theorem request_names_listed_zone {s : FleetState} {parties : List Party}
    {events : List (Event fleetWorld)} {d : Config fleetWorld Outcome} {k : Nat} {o : Provisioner}
    {claim : NodeClaim} {before after : List (Exchange fleetSignature)}
    {x : Exchange fleetSignature} {request : DeployRequest}
    (steps : Steps (Config.start s (parties.map Party.program)) events d)
    (party : parties[k]? = some (.serves o (.create claim)))
    (cut : traceOf k events = before ++ x :: after) (deploys : x.request.deploys? = some request) :
    ∃ c zones zone, Placement o claim request before c zones zone ∧
      ∀ (i : Nat) (validator : Provisioner) (old ready : NodeClass) (retryAfter : Option Nat),
        parties[i]? = some (.serves validator (.reconcile old)) →
        d.routines[i]? = some (.done (.served (.reconcile old) (ready, retryAfter))) →
        old.isDeleting = false → ready.isReady = true → old.spec.zone = c.spec.zone →
        ∃ validated own rest, traceOf i events = own ++ rest ∧
          Ends validator.fleet.zones.run own (.ok validated) ∧
          (∃ enabled, FoundIn validated c.spec.zone enabled ∧ enabled.isEnabled = true) ∧
          (validated = zones → zone.isEnabled = true) := by
  obtain ⟨c, zones, zone, hplacement⟩ := (steps.preparation party cut deploys).placement
  refine ⟨c, zones, zone, hplacement, ?_⟩
  intro i validator old ready retryAfter pass passed kept isReady same
  have hpass := Party.ends_serves (steps.ends (routine_of_party pass) passed)
  obtain ⟨validated, enabled, own, rest, htrace, hvalidated, hfound, henabled⟩ :=
    enabled_of_reconcile hpass kept isReady
  rw [same] at hfound
  refine ⟨validated, own, rest, htrace, hvalidated, ⟨enabled, hfound, henabled⟩, ?_⟩
  rintro rfl
  rwa [hplacement.found.unique hfound]

/-- After a pass has left a node class ready, a machine is requested for it. -/
theorem request_names_listed_zone_when_stocked :
    ∃ events d before x after request c zones zone,
      Steps (Config.start (.initial (worldOf stockedCloud) : FleetState)
        (stockedParties.map Party.program)) events d ∧
      traceOf 2 events = before ++ x :: after ∧ x.request.deploys? = some request ∧
      Placement stockedProvisioner stockedClaim request before c zones zone := by
  obtain ⟨events, d, steps, e, he, hown, hdeploys⟩ :
      ∃ events d, Steps (Config.start (.initial (worldOf stockedCloud) : FleetState)
          (stockedParties.map Party.program)) events d ∧
        ∃ e ∈ events, e.routine = 2 ∧ e.request.deploys?.isSome = true :=
    Config.exists_steps_of_follow [.turns 0 55, .turns 1 1, .turns 2 15] (by decide +kernel)
  obtain ⟨request, hrequest⟩ := Option.isSome_iff_exists.1 hdeploys
  obtain ⟨first, second, rfl⟩ := List.append_of_mem he
  have hcut := traceOf_append_cons first second e
  rw [hown] at hcut
  obtain ⟨c, zones, zone, hplacement, -⟩ := request_names_listed_zone steps rfl hcut hrequest
  exact ⟨_, d, _, _, _, request, c, zones, zone, steps, hcut, hrequest, hplacement⟩

section Disabled

/-- The stocked cloud with a second zone, which is disabled, and resources in it. -/
def halfDisabledCloud : Cloud.Inventory :=
  { stockedCloud with
    zones := stockedCloud.zones ++
      [{ id := "z2", name := "zone-2", allocationState := "Disabled" }]
    networks := stockedCloud.networks ++
      [{ id := "net2", name := "net-1", zoneId := "z2", state := "Implemented" }]
    templates := stockedCloud.templates ++
      [{ id := "t2", name := "template-1", zoneId := "z2", status := "Download Complete",
         isReady := true, isFeatured := true }] }

/-- The node class as a pass leaves it, with the disabled zone written into it after that. -/
def movedClass : NodeClass :=
  { reconciledClass with spec := { stockedClass.spec with zone := "zone-2" } }

/-- Somebody who stores a node class. -/
def storing (c : NodeClass) : Party :=
  .other (Program.act (.change fun w => { w with nodeClasses := w.nodeClasses.insert c.name c }))

/-- A pass over the node class, the storing of what it comes to, the move of the class to the other
zone, and a launch. -/
def movingParties : List Party := [
  .serves stockedProvisioner (.reconcile stockedClass),
  storing reconciledClass,
  storing movedClass,
  .serves stockedProvisioner (.create stockedClaim)]

/-- A launch for a node class that was moved to another zone since it was found ready requests a
machine in that zone, although the zone is disabled all the time. -/
theorem exists_request_for_disabled_zone :
    ∃ (events : List (Event fleetWorld)) (d : Config fleetWorld Outcome) (e : Event fleetWorld)
      (request : DeployRequest),
      Steps (Config.start (.initial (worldOf halfDisabledCloud)) (movingParties.map Party.program))
        events d ∧
      e ∈ turnsOf 3 events ∧ e.request.deploys? = some request ∧
      ∀ e' ∈ events, (e'.before.world.cloud.zones.filter fun z => z.id = request.zoneId).map
        (·.allocationState) = ["Disabled"] := by
  obtain ⟨events, d, steps, e, he, hown, request, hrequest, disabled⟩ :
      ∃ events d, Steps (Config.start (.initial (worldOf halfDisabledCloud) : FleetState)
          (movingParties.map Party.program)) events d ∧
        ∃ e ∈ events, e.routine = 3 ∧ ∃ request ∈ e.request.deploys?, ∀ e' ∈ events,
          (e'.before.world.cloud.zones.filter fun z => z.id = request.zoneId).map
            (·.allocationState) = ["Disabled"] :=
    Config.exists_steps_of_follow [.turns 0 55, .turns 1 1, .turns 2 1, .turns 3 51]
      (by decide +kernel)
  exact ⟨events, d, e, request, steps, mem_turnsOf.2 ⟨he, hown⟩, hrequest, disabled⟩

end Disabled

end NodeFleet
