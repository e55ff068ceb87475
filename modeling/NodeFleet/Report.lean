import NodeFleet.Fleet.Provisioner

/-!
# Reports

The JSON in which results and errors of a fleet are shown. Every field is written, with `null`
where there is no value, and what follows from the fields, such as whether a zone is enabled,
stands beside them. An error is shown by its kind and its wording. A price is written as the
sixteen hexadecimal digits of its bits, which loses nothing.
-/

namespace NodeFleet

/-- An error of a kind, in words. -/
def errorReport (kind message : String) : Json :=
  .obj (Json.field "error" kind ++ Json.field "message" message)

instance : Encode Cloud.CallError := ⟨fun e => errorReport e.kind e.message⟩

instance : Encode ResourceError := ⟨fun e => errorReport e.kind e.message⟩

instance : Encode NodeError := ⟨fun e => errorReport e.kind e.message⟩

instance : Encode SettingsError := ⟨fun e => errorReport e.kind e.message⟩

/-- The bits of a price, the highest first. -/
def priceText (price : Float) : String :=
  let bits := price.toBits
  Text.hex ((List.range 8).map fun i => (bits >>> UInt64.ofNat (56 - 8 * i)).toUInt8)

/-- An offering as a place and a price. -/
def Offering.quote (o : Offering) : List (String × Json) :=
  Json.field "zone" o.zone
    ++ Json.field "capacityType" o.capacityType
    ++ Json.field "price" (priceText o.price)

instance : Encode Offering where
  encode o := .obj (o.quote ++ Json.field "available" o.available)

instance : Encode InstanceType where
  encode t := .obj <|
    Json.field "name" t.name
      ++ Json.field "requirements" t.requirements
      ++ Json.field "offerings" t.offerings
      ++ Json.field "capacity" t.capacity
      ++ Json.field "overhead" t.overhead

instance : Encode Criteria where
  encode c := .obj <|
    Json.field "id" c.id
      ++ Json.field "name" c.name
      ++ Json.field "os_type" c.osType
      ++ Json.field "tags" c.tags

instance : Encode Zone where
  encode z := .obj <|
    Json.field "id" z.id
      ++ Json.field "name" z.name
      ++ Json.field "network_type" z.networkType
      ++ Json.field "allocation_state" z.allocationState
      ++ Json.field "local_storage_enabled" z.localStorageEnabled
      ++ Json.field "security_groups_enabled" z.securityGroupsEnabled
      ++ Json.field "is_enabled" z.isEnabled

instance : Encode Network where
  encode n := .obj <|
    Json.field "id" n.id
      ++ Json.field "name" n.name
      ++ Json.field "zone" n.zone
      ++ Json.field "zone_id" n.zoneId
      ++ Json.field "network_type" n.networkType
      ++ Json.field "state" n.state
      ++ Json.field "cidr" n.cidr
      ++ Json.field "gateway" n.gateway
      ++ Json.field "tags" n.tags

instance : Encode Template where
  encode t := .obj <|
    Json.field "id" t.id
      ++ Json.field "name" t.name
      ++ Json.field "display_text" t.displayText
      ++ Json.field "zone" t.zone
      ++ Json.field "zone_id" t.zoneId
      ++ Json.field "os_type" t.osType
      ++ Json.field "os_type_name" t.osTypeName
      ++ Json.field "status" t.status
      ++ Json.field "is_ready" t.isReady
      ++ Json.field "is_public" t.isPublic
      ++ Json.field "is_featured" t.isFeatured
      ++ Json.field "tags" t.tags

instance : Encode ServiceOffering where
  encode o := .obj <|
    Json.field "id" o.id
      ++ Json.field "name" o.name
      ++ Json.field "cpu_number" o.cpuNumber
      ++ Json.field "cpu_speed" o.cpuSpeed
      ++ Json.field "memory" o.memory
      ++ Json.field "network_rate" o.networkRate

instance : Encode Instance where
  encode i := .obj <|
    Json.field "id" i.id
      ++ Json.field "name" i.name
      ++ Json.field "state" i.state
      ++ Json.field "zone" i.zone
      ++ Json.field "zone_id" i.zoneId
      ++ Json.field "service_offering" i.serviceOffering
      ++ Json.field "service_offering_id" i.serviceOfferingId
      ++ Json.field "template" i.template
      ++ Json.field "template_id" i.templateId
      ++ Json.field "network_id" i.networkId
      ++ Json.field "ip_address" i.ipAddress
      ++ Json.field "created_time" i.created
      ++ Json.field "tags" i.tags
      ++ Json.field "is_running" i.isRunning
      ++ Json.field "is_terminating" i.isTerminating
      ++ Json.field "is_managed" i.isManaged

instance : Encode Cloud.DeployRequest where
  encode r := .obj <|
    Json.field "service_offering_id" r.offeringId
      ++ Json.field "template_id" r.templateId
      ++ Json.field "zone_id" r.zoneId
      ++ Json.field "network_ids" r.networkIds
      ++ Json.field "name" r.name
      ++ Json.field "display_name" r.displayName
      ++ Json.field "user_data" r.userData
      ++ Json.field "root_disk_size" r.rootDiskSize
      ++ Json.field "disk_offering_id" r.diskOfferingId
      ++ Json.field "key_pair" r.keyPair

instance : Encode LaunchSettings where
  encode s := .obj <|
    Json.field "cluster_name" s.clusterName
      ++ Json.field "name_prefix" s.namePrefix
      ++ Json.field "poll_ms" (wholeNumber s.pollInterval)
      ++ Json.field "ready_ms" (wholeNumber s.readyTimeout)
      ++ Json.field "job_ms" (wholeNumber s.jobTimeout)

instance : Encode RepairPolicy where
  encode p := .obj <|
    Json.field "type" p.conditionType
      ++ Json.field "status" p.status
      ++ Json.field "toleration_s" (wholeNumber p.toleration)

end NodeFleet
