import NodeFleet.Proofs.Base64
import NodeFleet.Proofs.Fleet.Provenance

/-!
# Requested machines are coherent

The request for a machine is put together from lists that were fetched at different times, perhaps
by others, while networks, templates, offerings and machines change and calls fail. As long as the
list of zones stays the same, all parts of it belong together: they are of the zone that the node
class names, their records were usable when they were listed, the terms of the node class pick them,
and the user data can be read back.
-/

namespace NodeFleet

open Routine (Keeps Ends)
open Program (keeps_next)
open Cloud (DeployRequest)
open Selectable (Picks picked_of_resolve)

/-- The parts of a request belong together: one zone, a network and a template that were listed
under its identifier, were usable in these lists and are picked by terms, and an offering, a name, a
disk size, a key pair and user data as the node class, the claim and the candidates have it. -/
structure Coherent (replied : Replies) (zones : List Zone) (f : Fleet) (spec : NodeClassSpec)
    (claim : NodeClaim) (candidates : List InstanceType) (request : DeployRequest) : Prop where
  zone : ∃ zone, FoundIn zones spec.zone zone ∧ request.zoneId = zone.id
  network : ∃ listed network, replied.ListsNetworks request.zoneId listed ∧ network ∈ listed ∧
    (network.state = "Implemented" ∨ network.state = "Setup") ∧
    (∃ term ∈ spec.networkTerms, ∃ position, Picks listed term.widen position network) ∧
    request.networkIds = [network.id]
  /-- The cloud has replied a record of the network that was usable. -/
  networkRecord : ∃ record, replied.RecordsNetwork request.zoneId record ∧
    (record.state = "Implemented" ∨ record.state = "Setup") ∧ request.networkIds = [record.id]
  template : ∃ listed template, replied.ListsTemplates request.zoneId listed ∧
    template ∈ listed ∧ template.isReady = true ∧ template.status = "Download Complete" ∧
    (∃ term ∈ spec.templateTerms, ∃ position, Picks listed term position template) ∧
    request.templateId = template.id
  /-- The cloud has replied a record of the template that was usable. -/
  templateRecord : ∃ record, replied.RecordsTemplate request.zoneId record ∧
    record.isReady = true ∧ record.status = "Download Complete" ∧ request.templateId = record.id
  offering : ∃ chosen, f.chooseType candidates = some chosen ∧
    chosen.requirement? Label.serviceOfferingId = some request.offeringId ∧
    (f.chooseType = firstAvailable? → ∃ before after, candidates = before ++ chosen :: after ∧
      chosen.isAvailable = true ∧ ∀ other ∈ before, other.isAvailable = false)
  name : request.name = some s!"{f.settings.namePrefix}-{claim.name}"
  displayName : request.displayName = some s!"{f.settings.namePrefix}-{claim.name}"
  rootDiskSize : request.rootDiskSize = spec.rootDiskSize
  keyPair : request.keyPair = spec.sshKeyPair
  userData : ∀ text, request.userData = some text ↔ ∃ data, spec.userData = some data ∧
    data ≠ "" ∧ Text.ofBase64? text = some data.toUTF8.data.toList

section Plan

variable {replied : Replies} {zones : List Zone} (fixed : replied.ListsZones zones) (f : Fleet)

/-- The user data of a request are those of the node class, in base 64. -/
theorem userData_deployRequest (spec : NodeClassSpec) (text : String) :
    ((nonEmpty? spec.userData).map fun data => Text.base64 (Text.utf8 data)) = some text ↔
      ∃ data, spec.userData = some data ∧ data ≠ "" ∧
        Text.ofBase64? text = some data.toUTF8.data.toList := by
  rw [Option.map_eq_some_iff]
  refine exists_congr fun data => ?_
  rw [Selectable.nonEmpty?_eq_some, Selectable.Asks, and_assoc, Text.ofBase64?_eq_some,
    ← Text.utf8_eq, eq_comm (a := text)]

theorem firstAvailable?_eq_some {candidates : List InstanceType} {chosen : InstanceType}
    (h : firstAvailable? candidates = some chosen) :
    ∃ before after, candidates = before ++ chosen :: after ∧ chosen.isAvailable = true ∧
      ∀ other ∈ before, other.isAvailable = false := by
  obtain ⟨available, before, after, hcut, hbefore⟩ := List.find?_eq_some_iff_append.1 h
  exact ⟨before, after, hcut, available, fun other hother => by simpa using hbefore other hother⟩

theorem chooseOffering_eq_ok {candidates : List InstanceType} {id : String}
    (h : f.chooseOffering candidates = .ok id) :
    ∃ chosen, f.chooseType candidates = some chosen ∧
      chosen.requirement? Label.serviceOfferingId = some id ∧
      (f.chooseType = firstAvailable? → ∃ before after, candidates = before ++ chosen :: after ∧
        chosen.isAvailable = true ∧ ∀ other ∈ before, other.isAvailable = false) := by
  rw [Fleet.chooseOffering] at h
  split at h
  next => cases h
  next chosen hchosen =>
    split at h
    next offeringId hid =>
      obtain rfl := Except.ok.inj h
      exact ⟨chosen, hchosen, hid, fun first => firstAvailable?_eq_some (first ▸ hchosen)⟩
    next => cases h

include fixed

/-- What a fleet resolves of networks are usable networks that were listed under the zone and that
terms pick. -/
theorem keeps_pickedNetworks (terms : List SelectorTerm) (zone : String) :
    Keeps (provenance replied zones)
      (Ensures fun resolved => ∃ found listed, FoundIn zones zone found ∧
        replied.ListsNetworks found.id listed ∧ ∀ network ∈ resolved,
          network.isUsable = true ∧
            ∃ term ∈ terms, ∃ position, Picks listed term.widen position network)
      (f.resolveNetworks terms zone).run := by
  refine keeps_next (f.keeps_listedNetworks fixed zone) ?_
  rintro listed ⟨found, hfound, hlisted⟩ resolved hresolved
  refine ⟨found, listed, hfound, hlisted, fun network hnetwork => ?_⟩
  rw [← SelectorTerm.map_criteria_widen] at hresolved
  obtain ⟨husable, wide, hwide, hpicks⟩ := picked_of_resolve hresolved hnetwork
  obtain ⟨term, hterm, rfl⟩ := List.mem_map.1 hwide
  exact ⟨husable, term, hterm, hpicks⟩

/-- What a fleet resolves of templates are usable templates that were listed under the zone and that
terms pick. -/
theorem keeps_pickedTemplates (terms : List TemplateTerm) (zone : String) :
    Keeps (provenance replied zones)
      (Ensures fun resolved => ∃ found listed, FoundIn zones zone found ∧
        replied.ListsTemplates found.id listed ∧ ∀ template ∈ resolved,
          template.isUsable = true ∧
            ∃ term ∈ terms, ∃ position, Picks listed term position template)
      (f.resolveTemplates terms zone).run := by
  refine keeps_next (f.keeps_listedTemplates fixed zone) ?_
  rintro listed ⟨found, hfound, hlisted⟩ resolved hresolved
  exact ⟨found, listed, hfound, hlisted, fun template => picked_of_resolve hresolved⟩

/-- What a fleet plans is coherent. -/
theorem keeps_coherentPlan (c : NodeClass) (claim : NodeClaim) (candidates : List InstanceType) :
    Keeps (provenance replied zones) (Ensures (Coherent replied zones f c.spec claim candidates))
      (f.plan c claim candidates).run := by
  refine keeps_next (P := fun id => f.chooseOffering candidates = .ok id) (fun _ h => h)
    fun offeringId hoffering => ?_
  refine keeps_next (f.keeps_foundZone fixed c.spec.zone) fun zone hzone => ?_
  refine keeps_next (keeps_pickedNetworks fixed f c.spec.networkTerms c.spec.zone) ?_
  rintro networks ⟨found, listed, hfound, hlisted, hnetworks⟩
  obtain rfl := hzone.unique hfound
  refine keeps_next (keeps_pickedTemplates fixed f c.spec.templateTerms c.spec.zone) ?_
  rintro templates ⟨found, listed', hfound', hlisted', htemplates⟩
  obtain rfl := hzone.unique hfound'
  cases hnetwork : networks.head? with
  | none => exact ensures_error _
  | some network =>
      cases htemplate : templates.head? with
      | none => exact ensures_error _
      | some template =>
          obtain ⟨usable, term, hterm, position, hpicks⟩ :=
            hnetworks network (List.mem_of_head? hnetwork)
          obtain ⟨usable', term', hterm', position', hpicks'⟩ :=
            htemplates template (List.mem_of_head? htemplate)
          have hstate : network.state = "Implemented" ∨ network.state = "Setup" := by
            simpa [Network.isUsable] using usable
          have hready : template.isReady = true ∧ template.status = "Download Complete" := by
            simpa [Template.isUsable] using usable'
          obtain ⟨record, hrecord, shows⟩ := hlisted.exists_record hpicks.mem
          obtain ⟨record', hrecord', shows'⟩ := hlisted'.exists_record hpicks'.mem
          exact ensures_ok.2
            { zone := ⟨zone, hzone, rfl⟩
              network := ⟨listed, network, hlisted, hpicks.mem, hstate,
                ⟨term, hterm, position, hpicks⟩, rfl⟩
              networkRecord := ⟨record, hrecord, shows.state ▸ hstate,
                congrArg (fun id => [id]) shows.id⟩
              template := ⟨listed', template, hlisted', hpicks'.mem, hready.1, hready.2,
                ⟨term', hterm', position', hpicks'⟩, rfl⟩
              templateRecord := ⟨record', hrecord', shows'.isReady ▸ hready.1,
                shows'.status ▸ hready.2, shows'.id⟩
              offering := chooseOffering_eq_ok f hoffering
              name := rfl
              displayName := rfl
              rootDiskSize := rfl
              keyPair := rfl
              userData := userData_deployRequest c.spec }

end Plan

section History

variable {events : List (Event fleetWorld)} {zones : List Zone} {e : Event fleetWorld}

/-- What is served in a turn of a history is a reply of it. -/
theorem Event.yields_replied (he : e ∈ events) :
    e.Yields (provenance (Replied events) zones) := by
  rintro action haction
  cases action with
  | beginCall call =>
      intro hcall
      exact ⟨_, congrArg Prod.fst (WorldState.beginCall_of_ne e.before.world hcall)⟩
  | serveCall call =>
      refine ⟨e, he, ?_⟩
      obtain ⟨i, s, request⟩ := e
      obtain rfl : request = .act (.serveCall call) := haction
      rfl
  | _ => trivial

/-- If the list of zones stays the same, it is the one that is replied. -/
theorem listsZones_of_fixed (fixed : ∀ turn ∈ events, turn.before.world.cloud.zoneList = zones) :
    (Replied events).ListsZones zones := by
  rintro records ⟨turn, hturn, hexchange⟩
  have hserved := Event.served hexchange
  rw [Cloud.Inventory.serve] at hserved
  split at hserved
  · cases hserved
  · obtain rfl := Except.ok.inj hserved
    exact fixed turn hturn

variable {w : WorldState} {workers : List Worker} {first second : List (Event fleetWorld)}
  {d : Config fleetWorld Unit}

/-- Everything that a worker is answered may be relied on. -/
theorem Steps.sourced (fair : ∀ worker ∈ workers, worker.Fair)
    (steps : Steps (Config.start (.initial w : FleetState) (workers.map Worker.program)) events d)
    (fixed : ∀ turn ∈ events, turn.before.world.cloud.zoneList = zones) (k : Nat) :
    ∀ x ∈ traceOf k events, (provenance (Replied events) zones).Admits x := by
  have hkeeps : ∀ (i : Nat) (p : Program Unit),
      (Config.start (.initial w : FleetState) (workers.map Worker.program)).routines[i]? = some p →
        p.Keeps (provenance (Replied events) zones) fun _ => True := by
    intro i p hp
    obtain ⟨worker, hworker, rfl⟩ := List.mem_map.1 (List.mem_of_getElem? hp)
    exact (sourcing (listsZones_of_fixed fixed)).worker (fun _ => minds_of_harmless)
      (fair worker hworker)
  have hholds : (provenance (Replied events) zones).Holds
      (Config.start (.initial w : FleetState) (workers.map Worker.program)).shared :=
    Reliance.Holds.congr (Reliance.holds_of_empty fun _ => rfl) (Config.caches_start _ _)
  obtain ⟨-, -, hadmits⟩ := steps.keeps hholds hkeeps fun turn hturn => Event.yields_replied hturn
  intro x hx
  obtain ⟨turn, hturn, rfl⟩ := exists_turn_of_mem hx
  exact hadmits turn (mem_turnsOf.1 hturn).1

/-- What a worker went through that has taken a turn can go on to an end. -/
theorem Steps.exists_ends_of_worker {s : FleetState}
    (steps : Steps (Config.start s (workers.map Worker.program)) (first ++ e :: second) d)
    {worker : Worker} (hworker : workers[e.routine]? = some worker) :
    ∃ later, Ends worker.program (traceOf e.routine first ++ e.exchange :: later) () := by
  obtain ⟨q, -, hpath⟩ := steps.path (routine_of_worker hworker)
  obtain ⟨rest, _, hends⟩ := hpath.exists_ends
  rw [traceOf_append_cons first second e, List.append_assoc] at hends
  exact ⟨_, hends⟩

end History

section Stale

/-- The node class as a pass leaves it, with user data. -/
def dataClass : NodeClass :=
  { reconciledClass with spec := { stockedClass.spec with userData := some "hi" } }

/-- A world around the stocked cloud in which the node class is stored. -/
def dataWorld : WorldState :=
  { worldOf stockedCloud with nodeClasses := .ofList [("class", dataClass)] }

/-- Somebody who lists networks, somebody who takes all networks away, a launch and the creation of
a node. -/
def launchers : List Worker := [
  .serves stockedProvisioner (.browse (.networks "zone-1")),
  .other (Program.act (.change fun w => { w with cloud := { w.cloud with networks := [] } })),
  .operates stockedProvisioner.fleet (.create dataClass stockedClaim [smallType] 0),
  .serves stockedProvisioner (.create stockedClaim)]

theorem exists_launchers_history : ∃ events d,
    Steps (Config.start (.initial dataWorld : FleetState) (launchers.map Worker.program)) events d ∧
    (∀ turn ∈ events, turn.before.world.cloud.zoneList = stockedCloud.zoneList) ∧
    ∀ k ∈ [2, 3], ∃ first e second request, events = first ++ e :: second ∧ e.routine = k ∧
      e.request.deploys? = some request := by
  obtain ⟨events, d, steps, fixed, hturns⟩ :
      ∃ events d, Steps (Config.start (.initial dataWorld : FleetState)
          (launchers.map Worker.program)) events d ∧
        (∀ turn ∈ events, turn.before.world.cloud.zoneList = stockedCloud.zoneList) ∧
        ∀ k ∈ [2, 3], ∃ e ∈ events, e.routine = k ∧ e.request.deploys?.isSome = true :=
    Config.exists_steps_of_follow [.turns 0 22, .turns 1 1, .turns 2 28, .turns 3 17]
      (by decide +kernel)
  refine ⟨events, d, steps, fixed, fun k hk => ?_⟩
  obtain ⟨e, he, hown, hdeploys⟩ := hturns k hk
  obtain ⟨request, hrequest⟩ := Option.isSome_iff_exists.1 hdeploys
  obtain ⟨first, second, hcut⟩ := List.append_of_mem he
  exact ⟨first, e, second, request, hcut, hown, hrequest⟩

end Stale

end NodeFleet
