import NodeFleet.Json.Codec

/-!
# Records of the cloud

What the cloud answers about zones, networks, templates, service offerings, virtual machines, tags
and jobs, with the JSON form of each record. Most fields may be absent; identifiers, names and the
zone of a record may not.
-/

namespace NodeFleet.Cloud

/-- The kinds of resources that carry tags. -/
inductive ResourceKind where
  | machine
  | network
  | template
deriving DecidableEq, Repr

namespace ResourceKind

/-- All kinds. -/
def all : List ResourceKind := [.machine, .network, .template]

/-- The name of a kind in requests and tags. -/
def name : ResourceKind → String
  | .machine => "UserVm"
  | .network => "Network"
  | .template => "Template"

end ResourceKind

/-- A tag of a resource. -/
structure ResourceTag where
  key : String
  value : String
  resourceId : String := ""
  resourceType : String := ""
deriving DecidableEq

/-- A network interface of a virtual machine. -/
structure Nic where
  id : String
  networkId : String
  networkName : String := ""
  ipAddress : String := ""
  isDefault : Bool := false
deriving DecidableEq

/-- A virtual machine. -/
structure VirtualMachine where
  id : String
  name : String
  displayName : String := ""
  state : String
  zoneId : String
  zoneName : String := ""
  offeringId : String := ""
  offeringName : String := ""
  templateId : String := ""
  templateName : String := ""
  created : String := ""
  nics : List Nic := []
  tags : List ResourceTag := []
deriving DecidableEq

namespace VirtualMachine

/-- The state of a machine that is up. -/
def running : String := "Running"

/-- The state of a machine that comes up. -/
def starting : String := "Starting"

/-- The state of a machine that is gone but still listed. -/
def destroyed : String := "Destroyed"

/-- Whether the machine is up. -/
def isRunning (vm : VirtualMachine) : Bool :=
  vm.state = running

/-- The network of the first interface. -/
def networkId? (vm : VirtualMachine) : Option String :=
  vm.nics.head?.map (·.networkId)

/-- The address of the first interface, unless it is empty. -/
def ipAddress? (vm : VirtualMachine) : Option String :=
  (vm.nics.head?.map (·.ipAddress)).filter fun ip => ip ≠ ""

end VirtualMachine

/-- A zone. -/
structure ZoneRecord where
  id : String
  name : String
  networkType : String := ""
  allocationState : String := ""
  localStorageEnabled : Bool := false
  securityGroupsEnabled : Bool := false
deriving DecidableEq

/-- A network. -/
structure NetworkRecord where
  id : String
  name : String
  zoneId : String
  zoneName : String := ""
  networkType : String := ""
  state : String := ""
  cidr : String := ""
  gateway : String := ""
deriving DecidableEq

/-- A template. -/
structure TemplateRecord where
  id : String
  name : String
  displayText : String := ""
  zoneId : String
  zoneName : String := ""
  osTypeId : String := ""
  osTypeName : String := ""
  status : String := ""
  isReady : Bool := false
  isPublic : Bool := false
  isFeatured : Bool := false
deriving DecidableEq

/-- A service offering; the memory is in megabytes. -/
structure OfferingRecord where
  id : String
  name : String
  cpuNumber : UInt32 := 0
  cpuSpeed : UInt32 := 0
  memory : UInt64 := 0
  networkRate : UInt32 := 0
deriving DecidableEq

/-- Listed items with their count. -/
structure Page (α : Type) where
  count : UInt64
  items : List α
deriving DecidableEq

/-- A page with all the items. -/
def Page.ofList {α : Type} (items : List α) : Page α :=
  ⟨UInt64.ofNat items.length, items⟩

/-- The answer to a deployment: the machine, and the job that completes it. -/
structure DeployReply where
  id : String
  jobId : Option String
deriving DecidableEq

/-- The job that completes a request. -/
structure JobTicket where
  jobId : Option String
deriving DecidableEq

/-- How far a job is. -/
inductive JobStatus where
  | pending
  | succeeded
  | failed
  | unknown (code : Int32)
deriving DecidableEq

/-- The status behind a code. -/
def JobStatus.ofCode (code : Int32) : JobStatus :=
  if code = 0 then .pending
  else if code = 1 then .succeeded
  else if code = 2 then .failed
  else .unknown code

/-- The answer to a job query. -/
structure JobResult where
  jobId : String
  statusCode : Int32
  resultCode : Int32 := 0
  result : Option Json := none

namespace JobResult

/-- How far the job is. -/
def status (r : JobResult) : JobStatus :=
  JobStatus.ofCode r.statusCode

/-- Why the job failed: the error text of an object, a bare text, or any other value as it is. -/
def errorText (r : JobResult) : String :=
  match r.result with
  | some (.obj fields) =>
      match (Json.obj fields).field? "errortext" with
      | some (.str text) => text
      | _ => (Json.obj fields).text
  | some (.str text) => text
  | some other => other.text
  | none => "unknown error"

end JobResult

instance : Encode ResourceTag where
  encode t := .obj <|
    Json.field "key" t.key
      ++ Json.field "value" t.value
      ++ Json.field "resourceid" t.resourceId
      ++ Json.field "resourcetype" t.resourceType

instance : Decode ResourceTag where
  decode j := do
    let j := Json.named ["key", "value", "resourceid", "resourcetype"] j
    let key ← Json.requiredField "key" j
    let value ← Json.requiredField "value" j
    let resourceId ← Json.fieldOr "resourceid" "" j
    let resourceType ← Json.fieldOr "resourcetype" "" j
    return { key, value, resourceId, resourceType }

instance : Encode Nic where
  encode n := .obj <|
    Json.field "id" n.id
      ++ Json.field "networkid" n.networkId
      ++ Json.field "networkname" n.networkName
      ++ Json.field "ipaddress" n.ipAddress
      ++ Json.field "isdefault" n.isDefault

instance : Decode Nic where
  decode j := do
    let j := Json.named ["id", "networkid", "networkname", "ipaddress", "isdefault"] j
    let id ← Json.requiredField "id" j
    let networkId ← Json.requiredField "networkid" j
    let networkName ← Json.fieldOr "networkname" "" j
    let ipAddress ← Json.fieldOr "ipaddress" "" j
    let isDefault ← Json.fieldOr "isdefault" false j
    return { id, networkId, networkName, ipAddress, isDefault }

instance : Encode VirtualMachine where
  encode v := .obj <|
    Json.field "id" v.id
      ++ Json.field "name" v.name
      ++ Json.field "displayname" v.displayName
      ++ Json.field "state" v.state
      ++ Json.field "zoneid" v.zoneId
      ++ Json.field "zonename" v.zoneName
      ++ Json.field "serviceofferingid" v.offeringId
      ++ Json.field "serviceofferingname" v.offeringName
      ++ Json.field "templateid" v.templateId
      ++ Json.field "templatename" v.templateName
      ++ Json.field "created" v.created
      ++ Json.field "nic" v.nics
      ++ Json.field "tags" v.tags

instance : Decode VirtualMachine where
  decode j := do
    let j := Json.named [
      "id", "name", "displayname", "state", "zoneid", "zonename", "serviceofferingid",
      "serviceofferingname", "templateid", "templatename", "created", "nic", "tags"] j
    let id ← Json.requiredField "id" j
    let name ← Json.requiredField "name" j
    let displayName ← Json.fieldOr "displayname" "" j
    let state ← Json.requiredField "state" j
    let zoneId ← Json.requiredField "zoneid" j
    let zoneName ← Json.fieldOr "zonename" "" j
    let offeringId ← Json.fieldOr "serviceofferingid" "" j
    let offeringName ← Json.fieldOr "serviceofferingname" "" j
    let templateId ← Json.fieldOr "templateid" "" j
    let templateName ← Json.fieldOr "templatename" "" j
    let created ← Json.fieldOr "created" "" j
    let nics ← Json.fieldOr "nic" [] j
    let tags ← Json.fieldOr "tags" [] j
    return {
      id, name, displayName, state, zoneId, zoneName, offeringId, offeringName, templateId,
      templateName, created, nics, tags }

instance : Encode ZoneRecord where
  encode z := .obj <|
    Json.field "id" z.id
      ++ Json.field "name" z.name
      ++ Json.field "networktype" z.networkType
      ++ Json.field "allocationstate" z.allocationState
      ++ Json.field "localstorageenabled" z.localStorageEnabled
      ++ Json.field "securitygroupsenabled" z.securityGroupsEnabled

instance : Decode ZoneRecord where
  decode j := do
    let j := Json.named [
      "id", "name", "networktype", "allocationstate", "localstorageenabled",
      "securitygroupsenabled"] j
    let id ← Json.requiredField "id" j
    let name ← Json.requiredField "name" j
    let networkType ← Json.fieldOr "networktype" "" j
    let allocationState ← Json.fieldOr "allocationstate" "" j
    let localStorageEnabled ← Json.fieldOr "localstorageenabled" false j
    let securityGroupsEnabled ← Json.fieldOr "securitygroupsenabled" false j
    return {
      id, name, networkType, allocationState, localStorageEnabled, securityGroupsEnabled }

instance : Encode NetworkRecord where
  encode n := .obj <|
    Json.field "id" n.id
      ++ Json.field "name" n.name
      ++ Json.field "zoneid" n.zoneId
      ++ Json.field "zonename" n.zoneName
      ++ Json.field "type" n.networkType
      ++ Json.field "state" n.state
      ++ Json.field "cidr" n.cidr
      ++ Json.field "gateway" n.gateway

instance : Decode NetworkRecord where
  decode j := do
    let j := Json.named ["id", "name", "zoneid", "zonename", "type", "state", "cidr", "gateway"] j
    let id ← Json.requiredField "id" j
    let name ← Json.requiredField "name" j
    let zoneId ← Json.requiredField "zoneid" j
    let zoneName ← Json.fieldOr "zonename" "" j
    let networkType ← Json.fieldOr "type" "" j
    let state ← Json.fieldOr "state" "" j
    let cidr ← Json.fieldOr "cidr" "" j
    let gateway ← Json.fieldOr "gateway" "" j
    return { id, name, zoneId, zoneName, networkType, state, cidr, gateway }

instance : Encode TemplateRecord where
  encode t := .obj <|
    Json.field "id" t.id
      ++ Json.field "name" t.name
      ++ Json.field "displaytext" t.displayText
      ++ Json.field "zoneid" t.zoneId
      ++ Json.field "zonename" t.zoneName
      ++ Json.field "ostypeid" t.osTypeId
      ++ Json.field "ostypename" t.osTypeName
      ++ Json.field "status" t.status
      ++ Json.field "isready" t.isReady
      ++ Json.field "ispublic" t.isPublic
      ++ Json.field "isfeatured" t.isFeatured

instance : Decode TemplateRecord where
  decode j := do
    let j := Json.named [
      "id", "name", "displaytext", "zoneid", "zonename", "ostypeid", "ostypename", "status",
      "isready", "ispublic", "isfeatured"] j
    let id ← Json.requiredField "id" j
    let name ← Json.requiredField "name" j
    let displayText ← Json.fieldOr "displaytext" "" j
    let zoneId ← Json.requiredField "zoneid" j
    let zoneName ← Json.fieldOr "zonename" "" j
    let osTypeId ← Json.fieldOr "ostypeid" "" j
    let osTypeName ← Json.fieldOr "ostypename" "" j
    let status ← Json.fieldOr "status" "" j
    let isReady ← Json.fieldOr "isready" false j
    let isPublic ← Json.fieldOr "ispublic" false j
    let isFeatured ← Json.fieldOr "isfeatured" false j
    return {
      id, name, displayText, zoneId, zoneName, osTypeId, osTypeName, status, isReady, isPublic,
      isFeatured }

instance : Encode OfferingRecord where
  encode o := .obj <|
    Json.field "id" o.id
      ++ Json.field "name" o.name
      ++ Json.field "cpunumber" o.cpuNumber
      ++ Json.field "cpuspeed" o.cpuSpeed
      ++ Json.field "memory" o.memory
      ++ Json.field "networkrate" o.networkRate

instance : Decode OfferingRecord where
  decode j := do
    let j := Json.named ["id", "name", "cpunumber", "cpuspeed", "memory", "networkrate"] j
    let id ← Json.requiredField "id" j
    let name ← Json.requiredField "name" j
    let cpuNumber ← Json.fieldOr "cpunumber" 0 j
    let cpuSpeed ← Json.fieldOr "cpuspeed" 0 j
    let memory ← Json.fieldOr "memory" 0 j
    let networkRate ← Json.fieldOr "networkrate" 0 j
    return { id, name, cpuNumber, cpuSpeed, memory, networkRate }

instance {α : Type} [Encode α] : Encode (Page α) where
  encode p := .obj (Json.field "count" p.count ++ Json.field "items" p.items)

instance {α : Type} [Decode α] : Decode (Page α) where
  decode j := do
    let j := Json.named ["count", "items"] j
    let count ← Json.requiredField "count" j
    let items ← Json.requiredField "items" j
    return { count, items }

instance : Encode DeployReply where
  encode r := .obj (Json.field "id" r.id ++ Json.fieldOf? "jobid" r.jobId)

instance : Decode DeployReply where
  decode j := do
    let j := Json.named ["id", "jobid"] j
    let id ← Json.requiredField "id" j
    let jobId ← Json.optionalField "jobid" j
    return { id, jobId }

instance : Encode JobTicket where
  encode t := .obj (Json.fieldOf? "jobid" t.jobId)

instance : Decode JobTicket where
  decode j := do
    let j := Json.named ["jobid"] j
    let jobId ← Json.optionalField "jobid" j
    return { jobId }

instance : Encode JobResult where
  encode r := .obj <|
    Json.field "jobid" r.jobId
      ++ Json.field "jobstatus" r.statusCode
      ++ Json.field "jobresultcode" r.resultCode
      ++ Json.fieldOf? "jobresult" r.result

instance : Decode JobResult where
  decode j := do
    let j := Json.named ["jobid", "jobstatus", "jobresultcode", "jobresult"] j
    let jobId ← Json.requiredField "jobid" j
    let statusCode ← Json.requiredField "jobstatus" j
    let resultCode ← Json.fieldOr "jobresultcode" 0 j
    let result ← Json.optionalField "jobresult" j
    return { jobId, statusCode, resultCode, result }

end NodeFleet.Cloud
