import NodeFleet.Cloud.Record

/-!
# Stock records

Records with usual settings, which differ in their identifiers, names and sizes only. Each can be
used for launching as it is.
-/

namespace NodeFleet.Cloud

/-- An enabled zone with advanced networking. -/
def ZoneRecord.stock (id name : String) : ZoneRecord :=
  { id, name, networkType := "Advanced", allocationState := "Enabled" }

/-- An isolated network in use. -/
def NetworkRecord.stock (id name zoneId : String) : NetworkRecord where
  id := id
  name := name
  zoneId := zoneId
  networkType := "Isolated"
  state := "Implemented"
  cidr := "10.1.0.0/16"
  gateway := "10.1.0.1"

/-- A complete template that is featured and public. -/
def TemplateRecord.stock (id name zoneId : String) : TemplateRecord where
  id := id
  name := name
  displayText := name
  zoneId := zoneId
  osTypeId := "ostype-ubuntu"
  osTypeName := "Ubuntu 22.04 LTS"
  status := "Download Complete"
  isReady := true
  isPublic := true
  isFeatured := true

/-- A service offering with cores of two gigahertz; the memory is in megabytes. -/
def OfferingRecord.stock (id name : String) (cpuNumber : UInt32) (memory : UInt64) :
    OfferingRecord :=
  { id, name, cpuNumber, cpuSpeed := 2000, memory }

end NodeFleet.Cloud
