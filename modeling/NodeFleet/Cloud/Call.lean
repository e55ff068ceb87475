import NodeFleet.Cloud.Record

/-!
# Calls of the cloud

The requests that the cloud serves, what it answers to each, and the ways in which a call fails.
-/

namespace NodeFleet.Cloud

/-- Which templates a listing covers. -/
inductive TemplateFilter where
  | featured
  | community
  | selfOwned
  | executable
  | all
deriving DecidableEq, Repr

namespace TemplateFilter

/-- Every filter. -/
def every : List TemplateFilter := [.featured, .community, .selfOwned, .executable, .all]

/-- The name of a filter in requests. -/
def name : TemplateFilter → String
  | .featured => "featured"
  | .community => "community"
  | .selfOwned => "self"
  | .executable => "executable"
  | .all => "all"

end TemplateFilter

/-- A request for a new machine; user data are base 64, the disk size is in gigabytes. -/
structure DeployRequest where
  offeringId : String
  templateId : String
  zoneId : String
  networkIds : List String := []
  name : Option String := none
  displayName : Option String := none
  userData : Option String := none
  rootDiskSize : Option Int64 := none
  diskOfferingId : Option String := none
  keyPair : Option String := none
deriving DecidableEq

/-- Which machines to list; an absent field admits all. -/
structure MachineQuery where
  id : Option String := none
  zoneId : Option String := none
  name : Option String := none
deriving DecidableEq

/-- A request to destroy a machine, and whether to forget it as well. -/
structure DestroyRequest where
  id : String
  expunge : Bool := false
deriving DecidableEq

/-- Which service offerings to list. -/
structure OfferingQuery where
  id : Option String := none
  name : Option String := none
deriving DecidableEq

/-- Which templates to list. -/
structure TemplateQuery where
  filter : TemplateFilter
  zoneId : Option String := none
  id : Option String := none
deriving DecidableEq

/-- Which networks to list. -/
structure NetworkQuery where
  zoneId : Option String := none
  id : Option String := none
deriving DecidableEq

/-- Which zones to list. -/
structure ZoneQuery where
  available : Option Bool := none
  id : Option String := none
  name : Option String := none
deriving DecidableEq

/-- Tags to be set on resources of a kind. -/
structure TagWrite where
  resourceIds : List String
  kind : ResourceKind
  tags : Table String
deriving DecidableEq

/-- Whose tags to list. -/
structure TagQuery where
  resourceId : String
  kind : ResourceKind
deriving DecidableEq

/-- Keys to be removed from resources of a kind; without keys every tag goes. -/
structure TagRemoval where
  resourceIds : List String
  kind : ResourceKind
  tags : Table String := .empty
deriving DecidableEq

/-- The operations of the cloud. -/
inductive Operation where
  | deployMachine
  | listMachines
  | destroyMachine
  | listOfferings
  | listTemplates
  | listNetworks
  | listZones
  | createTags
  | listTags
  | deleteTags
  | queryJob
deriving DecidableEq, Repr

namespace Operation

/-- All operations. -/
def all : List Operation := [
  .deployMachine, .listMachines, .destroyMachine, .listOfferings, .listTemplates, .listNetworks,
  .listZones, .createTags, .listTags, .deleteTags, .queryJob]

/-- The name of an operation in the interface of the cloud. -/
def name : Operation → String
  | .deployMachine => "DeployVirtualMachine"
  | .listMachines => "ListVirtualMachines"
  | .destroyMachine => "DestroyVirtualMachine"
  | .listOfferings => "ListServiceOfferings"
  | .listTemplates => "ListTemplates"
  | .listNetworks => "ListNetworks"
  | .listZones => "ListZones"
  | .createTags => "CreateTags"
  | .listTags => "ListTags"
  | .deleteTags => "DeleteTags"
  | .queryJob => "QueryAsyncJob"

end Operation

/-- A call: an operation with its parameters. -/
inductive Call where
  | deployMachine (request : DeployRequest)
  | listMachines (query : MachineQuery)
  | destroyMachine (request : DestroyRequest)
  | listOfferings (query : OfferingQuery)
  | listTemplates (query : TemplateQuery)
  | listNetworks (query : NetworkQuery)
  | listZones (query : ZoneQuery)
  | createTags (request : TagWrite)
  | listTags (query : TagQuery)
  | deleteTags (request : TagRemoval)
  | queryJob (jobId : String)
deriving DecidableEq

namespace Call

/-- The operation of a call. -/
def operation : Call → Operation
  | .deployMachine _ => .deployMachine
  | .listMachines _ => .listMachines
  | .destroyMachine _ => .destroyMachine
  | .listOfferings _ => .listOfferings
  | .listTemplates _ => .listTemplates
  | .listNetworks _ => .listNetworks
  | .listZones _ => .listZones
  | .createTags _ => .createTags
  | .listTags _ => .listTags
  | .deleteTags _ => .deleteTags
  | .queryJob _ => .queryJob

/-- What a call answers when it succeeds. -/
abbrev Reply : Call → Type
  | .deployMachine _ => DeployReply
  | .listMachines _ => Page VirtualMachine
  | .destroyMachine _ => JobTicket
  | .listOfferings _ => List OfferingRecord
  | .listTemplates _ => List TemplateRecord
  | .listNetworks _ => List NetworkRecord
  | .listZones _ => List ZoneRecord
  | .createTags _ => Unit
  | .listTags _ => List ResourceTag
  | .deleteTags _ => Unit
  | .queryJob _ => JobResult

end Call

/-- How a call, or the wait for a job, fails. -/
inductive CallError where
  | api (code : UInt16) (message : String)
  | transport (message : String)
  | jobFailed (jobId : String) (message : String)
  | jobTimeout (jobId : String)
  | unknownJobStatus (jobId : String) (status : Int32)
  | cancelled
  | invalidConnection (message : String)
  | malformed (message : String)
deriving DecidableEq

namespace CallError

/-- The kind of the error. -/
def kind : CallError → String
  | .api _ _ => "Api"
  | .transport _ => "Transport"
  | .jobFailed _ _ => "AsyncJobFailed"
  | .jobTimeout _ => "AsyncJobTimeout"
  | .unknownJobStatus _ _ => "UnknownJobStatus"
  | .cancelled => "Cancelled"
  | .invalidConnection _ => "InvalidConfig"
  | .malformed _ => "Json"

/-- The wording of the error. -/
def message : CallError → String
  | .api code message => s!"CloudStack API error ({code.toNat}): {message}"
  | .transport message => s!"Transport error: {message}"
  | .jobFailed jobId message => s!"async job {jobId} failed: {message}"
  | .jobTimeout jobId => s!"timeout waiting for async job {jobId}"
  | .unknownJobStatus jobId status =>
      s!"unknown job status {status.toInt} for async job {jobId}"
  | .cancelled => "Operation cancelled"
  | .invalidConnection message => s!"Invalid client configuration: {message}"
  | .malformed message => s!"JSON error: {message}"

end CallError

end NodeFleet.Cloud
