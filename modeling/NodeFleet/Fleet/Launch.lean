import NodeFleet.Fleet.Listing
import NodeFleet.NodeClaim
import NodeFleet.Routine.Poll

/-!
# Launching and removing machines

A launch resolves what it needs, deploys, waits for the job of the deployment and then for the
machine to run, tags the machine and remembers it. A removal destroys a machine that is known and
waits for the job. The states entered on the way are logged; every wait ends when its token is
cancelled. Calls that were made are not taken back when a later step fails.
-/

namespace NodeFleet

/-- How often a job is queried, in milliseconds. -/
def jobPollInterval : Nat := 5000

/-- What an answer to a job query means for the wait. -/
def jobOutcome (jobId : String) (r : Cloud.JobResult) :
    Except Cloud.CallError (Option (Option Json)) :=
  match r.status with
  | .succeeded => .ok (some r.result)
  | .failed => .error (.jobFailed jobId r.errorText)
  | .pending => .ok none
  | .unknown code => .error (.unknownJobStatus jobId code)

/-- Waits until a job has ended and yields its payload. -/
def Program.awaitJob (jobId : String) (timeout : Nat) (token : Token) :
    Program (Except Cloud.CallError (Option Json)) :=
  Routine.poll token jobPollInterval timeout ⟨.cancelled, .jobTimeout jobId⟩ do
    match ← call (.queryJob jobId) with
    | .ok r => return jobOutcome jobId r
    | .error e => return .error e

namespace Fleet

/-- The key under which an instance is remembered. -/
def instanceKey (id : String) : String :=
  s!"instance-{id}"

/-- Waits for the job of a request, if it has one. -/
def finishJob (f : Fleet) (context : String) (jobId : Option String) (token : Token) :
    Attempt ResourceError Unit :=
  match jobId with
  | none => return ()
  | some id => do
      match ← Program.awaitJob id f.settings.jobTimeout token with
      | .ok _ => return ()
      | .error e => throw (.ofJobError context e)

/-- Looks at a machine once: none while it is in another state than the wanted one. -/
def checkState (id target : String) :
    Program (Except ResourceError (Option Cloud.VirtualMachine)) :=
  ExceptT.run do
    let page ← Program.tryCall s!"get VM {id}" (.listMachines { id := some id })
    match page.items.head? with
    | none => throw (.notFound "instance" id)
    | some vm => return if vm.state = target then some vm else none

/-- Waits until a machine is in a state. -/
def awaitState (f : Fleet) (id target : String) (token : Token) :
    Attempt ResourceError Cloud.VirtualMachine :=
  ExceptT.mk <| Routine.poll token f.settings.pollInterval f.settings.readyTimeout
    ⟨.cancelled, .timeout s!"VM {id} to reach state {target}"⟩ (checkState id target)

/-- The tags of a machine launched for a claim. Those of the node class are set last. -/
def machineTags (f : Fleet) (c : NodeClass) (claim : NodeClaim) : Table String :=
  let own : Table String := .ofList [
    (Tag.managedBy, Tag.manager),
    (Tag.cluster f.settings.clusterName, Tag.owned),
    (Tag.nodeClass, c.name),
    (Tag.nodeClaim, claim.name)]
  let pooled := match claim.nodePool? with
    | some pool => own.insert Tag.nodePool pool
    | none => own
  pooled.insertAll c.spec.tags.entries

/-- The request for the machine of a claim. -/
def deployRequest (f : Fleet) (spec : NodeClassSpec) (claim : NodeClaim) (offeringId : String)
    (zone : Zone) (network : Network) (template : Template) : Cloud.DeployRequest :=
  let name := s!"{f.settings.namePrefix}-{claim.name}"
  { offeringId
    templateId := template.id
    zoneId := zone.id
    networkIds := [network.id]
    name := some name
    displayName := some name
    userData := (nonEmpty? spec.userData).map fun data => Text.base64 (Text.utf8 data)
    rootDiskSize := spec.rootDiskSize
    keyPair := spec.sshKeyPair }

/-- The service offering of the candidate that the fleet chooses. -/
def chooseOffering (f : Fleet) (candidates : List InstanceType) : Except ResourceError String :=
  match f.chooseType candidates with
  | none => .error .noInstanceType
  | some chosen =>
      match chosen.requirement? Label.serviceOfferingId with
      | some id => .ok id
      | none =>
          .error (.invalidInstanceType chosen.name
            ("missing requirement " ++ Label.serviceOfferingId))

/-- Resolves what a launch needs into its request. -/
def plan (f : Fleet) (c : NodeClass) (claim : NodeClaim) (candidates : List InstanceType) :
    Attempt ResourceError Cloud.DeployRequest := do
  let offeringId ← ExceptT.mk (pure (f.chooseOffering candidates))
  let zone ← f.lookupZone c.spec.zone
  let networks ← f.resolveNetworks c.spec.networkTerms c.spec.zone
  let templates ← f.resolveTemplates c.spec.templateTerms c.spec.zone
  match networks.head?, templates.head? with
  | some network, some template =>
      return f.deployRequest c.spec claim offeringId zone network template
  | _, _ => throw (.noMatch "network" c.spec.zone)

/-- Tags a running machine and remembers it. A failure to tag is passed over. -/
def register (f : Fleet) (c : NodeClass) (claim : NodeClaim) (vm : Cloud.VirtualMachine) :
    Program Instance := do
  let tags := f.machineTags c claim
  let _ ← Program.call (.createTags ⟨[vm.id], .machine, tags⟩)
  let launched := Instance.ofMachine vm tags
  Program.remember f.owner (instanceKey launched.id) launched f.cacheTtl
  return launched

/-- Launches a machine from its plan to its registration. -/
def launch (f : Fleet) (c : NodeClass) (claim : NodeClaim) (candidates : List InstanceType)
    (token : Token) : Attempt ResourceError Instance := do
  if ← Program.isCancelled token then throw .cancelled
  let request ← f.plan c claim candidates
  Program.log claim.name .deploying
  let reply ← Program.tryCall "deploy virtual machine" (.deployMachine request)
  f.finishJob "deploy virtual machine" reply.jobId token
  Program.log claim.name .polling
  let vm ← f.awaitState reply.id Cloud.VirtualMachine.running token
  f.register c claim vm

/-- The last state of a launch that failed. -/
def failureState : ResourceError → LaunchState
  | .timeout _ => .timedOut
  | _ => .failed

/-- Launches a machine for a claim and logs how the launch begins and ends. -/
def createInstance (f : Fleet) (c : NodeClass) (claim : NodeClaim)
    (candidates : List InstanceType) (token : Token) : Attempt ResourceError Instance :=
  ExceptT.mk do
    Program.log claim.name .requested
    match ← (f.launch c claim candidates token).run with
    | .ok launched =>
        Program.log claim.name .running
        return .ok launched
    | .error e =>
        Program.log claim.name (failureState e)
        return .error e

/-- Reads a machine with its tags; where they cannot be listed, those of its record count. -/
def fetchInstance (id : String) : Attempt ResourceError Instance := do
  let page ← Program.tryCall s!"get VM {id}" (.listMachines { id := some id })
  match page.items.head? with
  | none => throw (.notFound "instance" id)
  | some vm =>
      match ← Program.call (.listTags ⟨vm.id, .machine⟩) with
      | .ok tags => return .ofMachine vm (tagTable tags)
      | .error _ => return .ofMachine vm (tagTable vm.tags)

/-- The instance of a machine. -/
def getInstance (f : Fleet) (id : String) : Attempt ResourceError Instance :=
  Program.cached ⟨f.owner, .instances⟩ (instanceKey id) f.cacheTtl (fetchInstance id)

/-- The managed instances among machines; one whose tags cannot be listed is left out. -/
def managedInstances : List Cloud.VirtualMachine → Program (List Instance)
  | [] => return []
  | vm :: rest => do
      let tags ← Program.call (.listTags ⟨vm.id, .machine⟩)
      let others ← managedInstances rest
      match tags with
      | .ok tags =>
          let found := Instance.ofMachine vm (tagTable tags)
          return if found.isManaged then found :: others else others
      | .error _ => return others

/-- All managed instances. -/
def listInstances : Attempt ResourceError (List Instance) := do
  let page ← Program.tryCall "list VMs" (.listMachines {})
  managedInstances page.items

/-- Destroys a machine that is known to exist. -/
def destroyInstance (f : Fleet) (id : String) (token : Token) : Attempt ResourceError Unit := do
  Program.log id .destroying
  let ticket ← Program.tryCall s!"destroy VM {id}" (.destroyMachine ⟨id, true⟩)
  Program.forget f.owner (instanceKey id)
  f.finishJob s!"destroy VM {id}" ticket.jobId token
  Program.log id .destroyed

/-- Removes a machine; one that is not found counts as removed. -/
def deleteInstance (f : Fleet) (id : String) (token : Token) : Attempt ResourceError Unit :=
  ExceptT.mk do
    match ← (f.getInstance id).run with
    | .ok _ => (f.destroyInstance id token).run
    | .error e => return if e.isNotFound then .ok () else .error e

end Fleet

end NodeFleet
