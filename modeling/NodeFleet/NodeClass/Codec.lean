import NodeFleet.Digest.ConfigHash
import NodeFleet.Json.Codec
import NodeFleet.NodeClass.Basic

/-!
# Node classes as JSON

The JSON form of every part of a node class. Tags, optional settings and empty status lists are
left out; the selector lists are always written.
-/

namespace NodeFleet

instance : Encode SelectorTerm where
  encode t := .obj <|
    Json.fieldUnless t.tags.isEmpty "tags" t.tags
      ++ Json.fieldOf? "id" t.id
      ++ Json.fieldOf? "name" t.name

instance : Decode SelectorTerm where
  decode j := do
    let j := Json.named ["tags", "id", "name"] j
    let tags ← Json.fieldOr "tags" Table.empty j
    let id ← Json.optionalField "id" j
    let name ← Json.optionalField "name" j
    return { tags, id, name }

instance : Encode TemplateTerm where
  encode t := .obj <|
    Json.fieldUnless t.tags.isEmpty "tags" t.tags
      ++ Json.fieldOf? "id" t.id
      ++ Json.fieldOf? "name" t.name
      ++ Json.fieldOf? "osType" t.osType

instance : Decode TemplateTerm where
  decode j := do
    let j := Json.named ["tags", "id", "name", "osType"] j
    let tags ← Json.fieldOr "tags" Table.empty j
    let id ← Json.optionalField "id" j
    let name ← Json.optionalField "name" j
    let osType ← Json.optionalField "osType" j
    return { tags, id, name, osType }

instance : Encode NodeClassSpec where
  encode s := .obj <|
    Json.field "zone" s.zone
      ++ Json.field "networkSelectorTerms" s.networkTerms
      ++ Json.field "serviceOfferingSelectorTerms" s.offeringTerms
      ++ Json.field "templateSelectorTerms" s.templateTerms
      ++ Json.fieldOf? "userData" s.userData
      ++ Json.fieldUnless s.tags.isEmpty "tags" s.tags
      ++ Json.fieldOf? "rootDiskSize" s.rootDiskSize
      ++ Json.fieldOf? "diskOffering" s.diskOffering
      ++ Json.fieldOf? "sshKeyPair" s.sshKeyPair

instance : Decode NodeClassSpec where
  decode j := do
    let j := Json.named [
      "zone", "networkSelectorTerms", "serviceOfferingSelectorTerms", "templateSelectorTerms",
      "userData", "tags", "rootDiskSize", "diskOffering", "sshKeyPair"] j
    let zone ← Json.requiredField "zone" j
    let networkTerms ← Json.fieldOr "networkSelectorTerms" [] j
    let offeringTerms ← Json.fieldOr "serviceOfferingSelectorTerms" [] j
    let templateTerms ← Json.fieldOr "templateSelectorTerms" [] j
    let userData ← Json.optionalField "userData" j
    let tags ← Json.fieldOr "tags" Table.empty j
    let rootDiskSize ← Json.optionalField "rootDiskSize" j
    let diskOffering ← Json.optionalField "diskOffering" j
    let sshKeyPair ← Json.optionalField "sshKeyPair" j
    return {
      zone, networkTerms, offeringTerms, templateTerms, userData, tags, rootDiskSize,
      diskOffering, sshKeyPair }

instance : Encode NetworkStatus where
  encode n := .obj <|
    Json.field "id" n.id
      ++ Json.field "name" n.name
      ++ Json.field "zone" n.zone
      ++ Json.fieldUnless n.networkType.isEmpty "networkType" n.networkType

instance : Decode NetworkStatus where
  decode j := do
    let j := Json.named ["id", "name", "zone", "networkType"] j
    let id ← Json.requiredField "id" j
    let name ← Json.requiredField "name" j
    let zone ← Json.requiredField "zone" j
    let networkType ← Json.fieldOr "networkType" "" j
    return { id, name, zone, networkType }

instance : Encode OfferingStatus where
  encode o := .obj <|
    Json.field "id" o.id
      ++ Json.field "name" o.name
      ++ Json.field "cpuNumber" o.cpuNumber
      ++ Json.field "cpuSpeed" o.cpuSpeed
      ++ Json.field "memory" o.memory
      ++ Json.field "networkRate" o.networkRate

instance : Decode OfferingStatus where
  decode j := do
    let j := Json.named ["id", "name", "cpuNumber", "cpuSpeed", "memory", "networkRate"] j
    let id ← Json.requiredField "id" j
    let name ← Json.requiredField "name" j
    let cpuNumber ← Json.requiredField "cpuNumber" j
    let cpuSpeed ← Json.fieldOr "cpuSpeed" 0 j
    let memory ← Json.requiredField "memory" j
    let networkRate ← Json.fieldOr "networkRate" 0 j
    return { id, name, cpuNumber, cpuSpeed, memory, networkRate }

instance : Encode TemplateStatus where
  encode t := .obj <|
    Json.field "id" t.id
      ++ Json.field "name" t.name
      ++ Json.fieldUnless t.osType.isEmpty "osType" t.osType
      ++ Json.field "zone" t.zone

instance : Decode TemplateStatus where
  decode j := do
    let j := Json.named ["id", "name", "osType", "zone"] j
    let id ← Json.requiredField "id" j
    let name ← Json.requiredField "name" j
    let osType ← Json.fieldOr "osType" "" j
    let zone ← Json.requiredField "zone" j
    return { id, name, osType, zone }

instance : Encode ConditionStatus := ⟨fun s => .str s.text⟩

/-- The status of a written form. -/
def ConditionStatus.ofText (text : String) : Except DecodeError ConditionStatus :=
  match ConditionStatus.all.find? fun s => s.text = text with
  | some s => .ok s
  | none => .error .mismatch

/-- A status is a string, or an object with the string as its only key and `null` under it. -/
instance : Decode ConditionStatus where
  decode
    | .str text => ConditionStatus.ofText text
    | .obj [(text, .null)] => ConditionStatus.ofText text
    | _ => .error .mismatch

instance : Encode Condition where
  encode c := .obj <|
    Json.field "type" c.type
      ++ Json.field "status" c.status
      ++ Json.field "reason" c.reason
      ++ Json.field "message" c.message
      ++ Json.field "lastTransitionTime" c.lastTransition
      ++ Json.field "observedGeneration" c.observedGeneration

instance : Decode Condition where
  decode j := do
    let j := Json.named [
      "type", "status", "reason", "message", "lastTransitionTime", "observedGeneration"] j
    let type ← Json.requiredField "type" j
    let status ← Json.requiredField "status" j
    let reason ← Json.requiredField "reason" j
    let message ← Json.requiredField "message" j
    let lastTransition ← Json.requiredField "lastTransitionTime" j
    let observedGeneration ← Json.fieldOr "observedGeneration" 0 j
    return { type, status, reason, message, lastTransition, observedGeneration }

instance : Encode NodeClassStatus where
  encode s := .obj <|
    Json.fieldUnless s.networks.isEmpty "networks" s.networks
      ++ Json.fieldUnless s.offerings.isEmpty "serviceOfferings" s.offerings
      ++ Json.fieldUnless s.templates.isEmpty "templates" s.templates
      ++ Json.fieldUnless s.conditions.isEmpty "conditions" s.conditions

instance : Decode NodeClassStatus where
  decode j := do
    let j := Json.named ["networks", "serviceOfferings", "templates", "conditions"] j
    let networks ← Json.fieldOr "networks" [] j
    let offerings ← Json.fieldOr "serviceOfferings" [] j
    let templates ← Json.fieldOr "templates" [] j
    let conditions ← Json.fieldOr "conditions" [] j
    return { networks, offerings, templates, conditions }

instance : Encode NodeClass where
  encode c := .obj <|
    Json.field "name" c.name
      ++ Json.field "generation" c.generation
      ++ Json.fieldOf? "deletionTimestamp" c.deletion
      ++ Json.field "spec" c.spec
      ++ Json.field "status" c.status

instance : Decode NodeClass where
  decode j := do
    let j := Json.named ["name", "generation", "deletionTimestamp", "spec", "status"] j
    let name ← Json.requiredField "name" j
    let generation ← Json.fieldOr "generation" 0 j
    let deletion ← Json.optionalField "deletionTimestamp" j
    let spec ← Json.requiredField "spec" j
    let status ← Json.fieldOr "status" {} j
    return { name, generation, deletion, spec, status }

/-- The hash by which a change of the spec is seen. -/
def NodeClassSpec.hash (s : NodeClassSpec) : ConfigHash :=
  ConfigHash.ofJson (encode s)

/-- The hash of the spec of a node class. -/
def NodeClass.hash (c : NodeClass) : ConfigHash :=
  c.spec.hash

end NodeFleet
