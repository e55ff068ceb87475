import NodeFleet.Cloud.Record
import NodeFleet.InstanceType
import NodeFleet.WellKnown
import NodeFleet.Selection

/-!
# Zones, networks, templates and service offerings

The resources that a launch needs, made from the records of the cloud. A zone has to be enabled, a
network in use and a template complete; a service offering can always be used. Only networks and
templates carry tags.
-/

namespace NodeFleet

/-- A zone. -/
structure Zone where
  id : String
  name : String
  networkType : String
  allocationState : String
  localStorageEnabled : Bool
  securityGroupsEnabled : Bool
deriving DecidableEq

namespace Zone

/-- Whether new machines may be placed in the zone. -/
def isEnabled (z : Zone) : Bool :=
  z.allocationState = "Enabled"

/-- The zone of a record. -/
def ofRecord (r : Cloud.ZoneRecord) : Zone :=
  ⟨r.id, r.name, r.networkType, r.allocationState, r.localStorageEnabled,
    r.securityGroupsEnabled⟩

end Zone

instance : Selectable Zone where
  kind := "zone"
  id := Zone.id
  name := Zone.name
  tags _ := .empty
  hasOsType _ _ := false
  isUsable := Zone.isEnabled

/-- A network with its tags. -/
structure Network where
  id : String
  name : String
  zone : String
  zoneId : String
  networkType : String
  state : String
  cidr : String
  gateway : String
  tags : Table String
deriving DecidableEq

namespace Network

/-- Whether machines can be attached. -/
def isUsable (n : Network) : Bool :=
  n.state = "Implemented" || n.state = "Setup"

/-- The network of a record. -/
def ofRecord (r : Cloud.NetworkRecord) (tags : Table String) : Network :=
  ⟨r.id, r.name, r.zoneName, r.zoneId, r.networkType, r.state, r.cidr, r.gateway, tags⟩

end Network

instance : Selectable Network where
  kind := "network"
  id := Network.id
  name := Network.name
  tags := Network.tags
  hasOsType _ _ := false
  isUsable := Network.isUsable

/-- A template with its tags; `osType` is the identifier of the operating system. -/
structure Template where
  id : String
  name : String
  displayText : String
  zone : String
  zoneId : String
  osType : String
  osTypeName : String
  status : String
  isReady : Bool
  isPublic : Bool
  isFeatured : Bool
  tags : Table String
deriving DecidableEq

namespace Template

/-- Whether machines can boot from the template. -/
def isUsable (t : Template) : Bool :=
  t.isReady && t.status = "Download Complete"

/-- The template of a record. -/
def ofRecord (r : Cloud.TemplateRecord) (tags : Table String) : Template :=
  ⟨r.id, r.name, r.displayText, r.zoneName, r.zoneId, r.osTypeId, r.osTypeName, r.status,
    r.isReady, r.isPublic, r.isFeatured, tags⟩

end Template

instance : Selectable Template where
  kind := "template"
  id := Template.id
  name := Template.name
  tags := Template.tags
  hasOsType t os := t.osTypeName = os || t.osType = os
  isUsable := Template.isUsable

/-- A service offering; speed in megahertz, memory in megabytes, rate in megabits. -/
structure ServiceOffering where
  id : String
  name : String
  cpuNumber : UInt32
  cpuSpeed : UInt32
  memory : UInt64
  networkRate : UInt32
deriving DecidableEq

namespace ServiceOffering

/-- The offering of a record. -/
def ofRecord (r : Cloud.OfferingRecord) : ServiceOffering :=
  ⟨r.id, r.name, r.cpuNumber, r.cpuSpeed, r.memory, r.networkRate⟩

/-- A nominal price per hour: 0.04 for a core and 0.005 for a gigabyte of memory. -/
def price (o : ServiceOffering) : Float :=
  o.cpuNumber.toFloat * 0.04 + (o.memory.toFloat / 1024.0) * 0.005

/-- What a machine of this offering provides. -/
def capacity (o : ServiceOffering) : Resources :=
  ⟨o.cpuNumber.toUInt64 * 1000, o.memory * 1048576, 110⟩

/-- What is set aside on every machine. -/
def overhead : Resources :=
  ⟨100, 268435456, 0⟩

/-- The instance type that the offering makes in a zone. -/
def offeredIn (o : ServiceOffering) (zone : String) : InstanceType where
  name := o.name
  requirements := .ofList [
    (Label.instanceType, [o.name]),
    (Label.topologyZone, [zone]),
    (Label.capacityType, [Label.onDemand]),
    (Label.architecture, [Label.amd64]),
    (Label.operatingSystem, [Label.linux]),
    (Label.serviceOfferingId, [o.id])]
  offerings := [⟨zone, Label.onDemand, o.price, true⟩]
  capacity := o.capacity
  overhead := overhead

end ServiceOffering

instance : Selectable ServiceOffering where
  kind := "service offering"
  id := ServiceOffering.id
  name := ServiceOffering.name
  tags _ := .empty
  hasOsType _ _ := false
  isUsable _ := true

end NodeFleet
