import NodeFleet.Cloud.Call

/-!
# A cloud in memory

An inventory of zones, networks, templates, service offerings, machines and tags that serves every
call. It records the operations called and the requests deployed, and its failures, its latency,
the progress of machines and the course of jobs are set from outside. Machines and jobs are
numbered by one counter.
-/

namespace NodeFleet.Cloud

/-- The state of a cloud. -/
structure Inventory where
  zones : List ZoneRecord := []
  networks : List NetworkRecord := []
  templates : List TemplateRecord := []
  offerings : List OfferingRecord := []
  machines : List VirtualMachine := []
  tags : List ResourceTag := []
  /-- The operations called, the latest first. -/
  calls : List Operation := []
  /-- Messages of the operations that fail, the latest first. -/
  failures : List (Operation × String) := []
  /-- Resources whose tags cannot be listed. -/
  failingTags : List String := []
  /-- Template filters that cannot be listed. -/
  failingFilters : List TemplateFilter := []
  /-- How long every call takes, in milliseconds. -/
  latency : Nat := 0
  /-- The requests deployed, in order. -/
  deployed : List DeployRequest := []
  /-- How often a starting machine was listed. -/
  sightings : Table Nat := .empty
  /-- At which sighting a starting machine is running, if ever. -/
  runningAfter : Option Nat := some 0
  /-- How many queries find a new job pending; without it nothing is a job. -/
  jobPolls : Option Nat := none
  /-- With which message jobs fail. -/
  jobFailure : Option String := none
  /-- How many more queries find a job pending. -/
  jobs : Table Nat := .empty
  /-- The number given out last. -/
  lastNumber : Nat := 0
  /-- Answers that the next job queries give in place of the cloud. -/
  scripted : List (Except CallError JobResult) := []

/-- Whether a query leaves a field open or asks for its value. -/
def admits (wanted : Option String) (value : String) : Bool :=
  match wanted with
  | some w => value = w
  | none => true

/-- Whether a query asks for a machine. -/
def MachineQuery.admits (q : MachineQuery) (vm : VirtualMachine) : Bool :=
  Cloud.admits q.id vm.id && Cloud.admits q.zoneId vm.zoneId && Cloud.admits q.name vm.name

/-- Whether a filter covers a template. -/
def TemplateFilter.covers (f : TemplateFilter) (t : TemplateRecord) : Bool :=
  match f with
  | .featured => t.isFeatured
  | .community => t.isPublic
  | .selfOwned => !t.isFeatured && !t.isPublic
  | .executable | .all => true

namespace Inventory

/-- The error of something that does not exist. -/
def absent (message : String) : CallError :=
  .api 431 message

/-- The error of a cloud that fails. -/
def broken (message : String) : CallError :=
  .api 530 message

/-- The name of a zone, empty if there is none. -/
def zoneName (inv : Inventory) (zoneId : String) : String :=
  ((inv.zones.find? fun z => z.id = zoneId).map (·.name)).getD ""

/-- The tags of a resource, of whatever kind. -/
def tagsOf (inv : Inventory) (resourceId : String) : List ResourceTag :=
  inv.tags.filter fun t => t.resourceId = resourceId

/-- The message with which an operation fails. -/
def failure? (inv : Inventory) (op : Operation) : Option String :=
  inv.failures.lookup op

/-- How often an operation was called. -/
def callCount (inv : Inventory) (op : Operation) : Nat :=
  (inv.calls.filter fun c => c = op).length

/-- The machine of an identifier. -/
def machine? (inv : Inventory) (id : String) : Option VirtualMachine :=
  inv.machines.find? fun vm => vm.id = id

/-- Makes an operation fail. -/
def fail (inv : Inventory) (op : Operation) (message : String) : Inventory :=
  { inv with failures := (op, message) :: inv.failures }

/-- Lets an operation succeed again. -/
def clearFailure (inv : Inventory) (op : Operation) : Inventory :=
  { inv with failures := inv.failures.filter fun f => f.1 ≠ op }

/-- Adds a tag to a resource. -/
def addTag (inv : Inventory) (resourceId : String) (kind : ResourceKind) (key value : String) :
    Inventory :=
  { inv with tags := inv.tags ++ [⟨key, value, resourceId, kind.name⟩] }

/-- Starts a job, if requests are completed by jobs. -/
def startJob (inv : Inventory) : Option String × Inventory :=
  match inv.jobPolls with
  | none => (none, inv)
  | some polls =>
      let number := inv.lastNumber + 1
      let jobId := s!"job-{number}"
      (some jobId, { inv with lastNumber := number, jobs := inv.jobs.insert jobId polls })

/-- The interfaces of the machine with a number. -/
def nicsOf (number : Nat) (networkIds : List String) : List Nic :=
  networkIds.mapIdx fun i networkId =>
    { id := s!"nic-{number}-{i}"
      networkId
      ipAddress := s!"10.1.{i}.{number}"
      isDefault := i == 0 }

/-- The machine with a number, as a request describes it. -/
def newMachine (inv : Inventory) (today : Instant) (number : Nat) (r : DeployRequest) :
    VirtualMachine :=
  let id := s!"vm-{number}"
  let name := r.name.getD id
  { id
    name
    displayName := r.displayName.getD name
    state := if inv.runningAfter = some 0 then VirtualMachine.running else VirtualMachine.starting
    zoneId := r.zoneId
    zoneName := inv.zoneName r.zoneId
    offeringId := r.offeringId
    offeringName := ((inv.offerings.find? fun o => o.id = r.offeringId).map (·.name)).getD ""
    templateId := r.templateId
    templateName := ((inv.templates.find? fun t => t.id = r.templateId).map (·.name)).getD ""
    created := today.creationText
    nics := nicsOf number r.networkIds }

/-- Deploys a machine. -/
def deploy (inv : Inventory) (today : Instant) (r : DeployRequest) : DeployReply × Inventory :=
  let number := inv.lastNumber + 1
  let machine := inv.newMachine today number r
  let started := startJob
    { inv with
      lastNumber := number
      machines := inv.machines ++ [machine]
      deployed := inv.deployed ++ [r] }
  (⟨machine.id, started.1⟩, started.2)

/-- A machine at one more sighting, and how often it has been sighted. -/
def sight (runningAfter : Option Nat) (sightings : Table Nat) (vm : VirtualMachine) :
    VirtualMachine × Table Nat :=
  if vm.state = VirtualMachine.starting then
    let seen := (sightings.get? vm.id).getD 0 + 1
    let up := match runningAfter with
      | some n => decide (n ≤ seen)
      | none => false
    (if up then { vm with state := VirtualMachine.running } else vm, sightings.insert vm.id seen)
  else (vm, sightings)

/-- Sights the machines that a query asks for: all machines after it, those asked for, and the
sightings. -/
def sightAll (runningAfter : Option Nat) (q : MachineQuery) :
    Table Nat → List VirtualMachine → List VirtualMachine × List VirtualMachine × Table Nat
  | sightings, [] => ([], [], sightings)
  | sightings, vm :: rest =>
      if q.admits vm then
        let (vm, sightings) := sight runningAfter sightings vm
        let (all, listed, sightings) := sightAll runningAfter q sightings rest
        (vm :: all, vm :: listed, sightings)
      else
        let (all, listed, sightings) := sightAll runningAfter q sightings rest
        (vm :: all, listed, sightings)

/-- Lists machines with their stored tags. -/
def listMachines (inv : Inventory) (q : MachineQuery) : Page VirtualMachine × Inventory :=
  let (all, listed, sightings) := sightAll inv.runningAfter q inv.sightings inv.machines
  (.ofList (listed.map fun vm => { vm with tags := inv.tagsOf vm.id }),
    { inv with machines := all, sightings })

/-- Removes the first machine of an identifier. -/
def removeMachine (id : String) (machines : List VirtualMachine) : List VirtualMachine :=
  machines.eraseP fun vm => vm.id = id

/-- Marks the first machine of an identifier as destroyed. -/
def markDestroyed (id : String) : List VirtualMachine → List VirtualMachine
  | [] => []
  | vm :: rest =>
      if vm.id = id then { vm with state := VirtualMachine.destroyed } :: rest
      else vm :: markDestroyed id rest

/-- Destroys a machine; an expunged one leaves no record and no tags. -/
def destroy (inv : Inventory) (r : DestroyRequest) : Except CallError JobTicket × Inventory :=
  match inv.machine? r.id with
  | none => (.error (absent s!"Unable to find VM by id {r.id}"), inv)
  | some _ =>
      let after :=
        if r.expunge then
          { inv with
            machines := removeMachine r.id inv.machines
            tags := inv.tags.filter fun t => t.resourceId ≠ r.id }
        else { inv with machines := markDestroyed r.id inv.machines }
      let started := after.startJob
      (.ok ⟨started.1⟩, started.2)

/-- The service offerings of a query. -/
def listOfferings (inv : Inventory) (q : OfferingQuery) : List OfferingRecord :=
  inv.offerings.filter fun o => admits q.id o.id && admits q.name o.name

/-- The templates of a query, with the current names of their zones. -/
def listTemplates (inv : Inventory) (q : TemplateQuery) :
    Except CallError (List TemplateRecord) :=
  if inv.failingFilters.contains q.filter then
    .error (broken s!"templatefilter {q.filter.name} unavailable")
  else
    .ok <| (inv.templates.filter fun t =>
      q.filter.covers t && admits q.zoneId t.zoneId && admits q.id t.id).map fun t =>
        { t with zoneName := inv.zoneName t.zoneId }

/-- The networks of a query, with the current names of their zones. -/
def listNetworks (inv : Inventory) (q : NetworkQuery) : List NetworkRecord :=
  (inv.networks.filter fun n => admits q.zoneId n.zoneId && admits q.id n.id).map fun n =>
    { n with zoneName := inv.zoneName n.zoneId }

/-- The zones of a query. -/
def listZones (inv : Inventory) (q : ZoneQuery) : List ZoneRecord :=
  inv.zones.filter fun z => admits q.id z.id && admits q.name z.name

/-- Replaces the tag of a resource under a key. -/
def putTag (kind : ResourceKind) (resourceId : String) (tags : List ResourceTag)
    (entry : String × String) : List ResourceTag :=
  (tags.filter fun t => !(t.resourceId = resourceId && t.key = entry.1))
    ++ [⟨entry.1, entry.2, resourceId, kind.name⟩]

/-- Sets tags on resources. -/
def createTags (inv : Inventory) (w : TagWrite) : Inventory :=
  let setAll tags id := w.tags.entries.foldl (putTag w.kind id) tags
  { inv with tags := w.resourceIds.foldl setAll inv.tags }

/-- The tags of a resource of a kind. -/
def listTags (inv : Inventory) (q : TagQuery) : Except CallError (List ResourceTag) :=
  if inv.failingTags.contains q.resourceId then
    .error (broken s!"failed to list tags of {q.resourceId}")
  else
    .ok (inv.tags.filter fun t => t.resourceId = q.resourceId && t.resourceType = q.kind.name)

/-- Removes tags from resources of a kind. -/
def deleteTags (inv : Inventory) (r : TagRemoval) : Inventory :=
  { inv with tags := inv.tags.filter fun t =>
      !(r.resourceIds.contains t.resourceId && t.resourceType = r.kind.name
        && (r.tags.isEmpty || r.tags.contains t.key)) }

/-- What a job that failed answers. -/
def failedJob (jobId message : String) : JobResult where
  jobId := jobId
  statusCode := 2
  resultCode := 530
  result := some (.obj [("errorcode", wholeNumber 530), ("errortext", .str message)])

/-- Answers a job query; a pending job is one query nearer to its end. -/
def queryJob (inv : Inventory) (jobId : String) : Except CallError JobResult × Inventory :=
  match inv.jobs.get? jobId with
  | none => (.error (absent s!"Unable to find async job {jobId}"), inv)
  | some (remaining + 1) =>
      (.ok { jobId, statusCode := 0 }, { inv with jobs := inv.jobs.insert jobId remaining })
  | some 0 =>
      match inv.jobFailure with
      | some message => (.ok (failedJob jobId message), inv)
      | none => (.ok { jobId, statusCode := 1 }, inv)

/-- Carries out a call that does not fail as a whole. -/
def carryOut (inv : Inventory) (today : Instant) :
    (call : Call) → Except CallError call.Reply × Inventory
  | .deployMachine r =>
      let done := inv.deploy today r
      (.ok done.1, done.2)
  | .listMachines q =>
      let done := inv.listMachines q
      (.ok done.1, done.2)
  | .destroyMachine r => inv.destroy r
  | .listOfferings q => (.ok (inv.listOfferings q), inv)
  | .listTemplates q => (inv.listTemplates q, inv)
  | .listNetworks q => (.ok (inv.listNetworks q), inv)
  | .listZones q => (.ok (inv.listZones q), inv)
  | .createTags w => (.ok (), inv.createTags w)
  | .listTags q => (inv.listTags q, inv)
  | .deleteTags r => (.ok (), inv.deleteTags r)
  | .queryJob jobId => inv.queryJob jobId

/-- Serves a call after its latency: an operation that fails changes nothing. -/
def serve (inv : Inventory) (today : Instant) (call : Call) :
    Except CallError call.Reply × Inventory :=
  match inv.failure? call.operation with
  | some message => (.error (broken message), inv)
  | none => inv.carryOut today call

/-- Records that a call has begun. -/
def record (inv : Inventory) (call : Call) : Inventory :=
  { inv with calls := call.operation :: inv.calls }

end Inventory

end NodeFleet.Cloud
