import NodeFleet.Fleet.World
import NodeFleet.Routine.Cached

/-!
# Listings of a fleet

A fleet lists zones, networks, templates and service offerings through caches of its own. Networks
and templates are listed for a zone that is looked up first, and every one comes with its tags;
where the tags cannot be listed it has none. Templates are listed under three filters, and a filter
that fails is passed over as long as another one does not. Resolving selects from a listing.
-/

namespace NodeFleet

/-- The settings of launching and removing machines; times are in milliseconds. -/
structure LaunchSettings where
  clusterName : String
  namePrefix : String := "karpenter"
  pollInterval : Nat := 5000
  readyTimeout : Nat := 300000
  jobTimeout : Nat := 300000
deriving DecidableEq

/-- The first candidate with an available offering. -/
def firstAvailable? (candidates : List InstanceType) : Option InstanceType :=
  candidates.find? (·.isAvailable)

/-- The caches of an owner, how long they keep what they list, and how machines are launched. -/
structure Fleet where
  owner : Nat
  cacheTtl : Nat
  settings : LaunchSettings
  chooseType : List InstanceType → Option InstanceType := firstAvailable?

/-- Joins batches in order and passes over failed ones; if all of them failed, so does the whole,
with the last error. -/
def joinBatches {ε α : Type} (batches : List (Except ε (List α))) : Except ε (List α) :=
  let arrived := batches.filterMap fun b => match b with
    | .ok items => some items
    | .error _ => none
  let errors := batches.filterMap fun b => match b with
    | .ok _ => none
    | .error e => some e
  match arrived, errors.getLast? with
  | [], some e => .error e
  | _, _ => .ok arrived.flatten

/-- The first item that satisfies a test, or the error of its absence. -/
def findOrThrow {α : Type} (items : List α) (test : α → Bool) (kind name : String) :
    Attempt ResourceError α :=
  match items.find? test with
  | some item => return item
  | none => throw (.notFound kind name)

/-- The tags of a resource; none where they cannot be listed. -/
def Program.tagsOf (resourceId : String) (kind : Cloud.ResourceKind) : Program (Table String) := do
  match ← call (.listTags ⟨resourceId, kind⟩) with
  | .ok tags => return tagTable tags
  | .error _ => return .empty

/-- The resources of records of a kind, each made with its tags. -/
def Program.withTags {R T : Type} (kind : Cloud.ResourceKind) (id : R → String)
    (make : R → Table String → T) : List R → Program (List T)
  | [] => return []
  | r :: rest => do
      let tags ← tagsOf (id r) kind
      let others ← withTags kind id make rest
      return make r tags :: others

/-- The templates of a zone under every one of some filters. -/
def Program.templateBatches (zoneId : String) :
    List Cloud.TemplateFilter →
      Program (List (Except Cloud.CallError (List Cloud.TemplateRecord)))
  | [] => return []
  | filter :: rest => do
      let batch ← call (.listTemplates { filter, zoneId := some zoneId })
      let others ← templateBatches zoneId rest
      return batch :: others

/-- The filters under which templates are listed. -/
def templateFilters : List Cloud.TemplateFilter :=
  [.featured, .community, .selfOwned]

/-- A value read through a cache. -/
def Program.cached (cache : CacheId) (key : String) (ttl : Nat)
    (fetch : Attempt ResourceError cache.Value) : Attempt ResourceError cache.Value :=
  ExceptT.mk (Routine.cached (σ := fleetSignature) cache key ttl fetch.run)

namespace Fleet

/-- Lists the zones that are available to the account. -/
def fetchZones : Attempt ResourceError (List Zone) := do
  let records ← Program.tryCall "list zones" (.listZones { available := some true })
  return records.map Zone.ofRecord

/-- All zones. -/
def zones (f : Fleet) : Attempt ResourceError (List Zone) :=
  Program.cached ⟨f.owner, .zones⟩ "zones" f.cacheTtl fetchZones

/-- The zone of an identifier. -/
def zone (f : Fleet) (id : String) : Attempt ResourceError Zone := do
  findOrThrow (← f.zones) (fun z => z.id = id) "zone" id

/-- The zone of a name. -/
def zoneNamed (f : Fleet) (name : String) : Attempt ResourceError Zone := do
  findOrThrow (← f.zones) (fun z => z.name = name) "zone" name

/-- The first zone with a name or an identifier, enabled or not. -/
def lookupZone (f : Fleet) (idOrName : String) : Attempt ResourceError Zone := do
  findOrThrow (← f.zones) (fun z => z.name = idOrName || z.id = idOrName) "zone" idOrName

/-- The zone with a name or an identifier, which has to be enabled. -/
def enabledZone (f : Fleet) (idOrName : String) : Attempt ResourceError Zone := do
  let zone ← f.lookupZone idOrName
  if zone.isEnabled then return zone
  else throw (.zoneNotEnabled idOrName zone.allocationState)

/-- The enabled zones that terms pick. -/
def resolveZones (f : Fleet) (terms : List SelectorTerm) : Attempt ResourceError (List Zone) := do
  let zones ← f.zones
  ExceptT.mk (pure (Selectable.resolve zones (terms.map (·.criteria)) "*"))

/-- Lists the networks of a zone. -/
def fetchNetworks (f : Fleet) (zone : String) : Attempt ResourceError (List Network) := do
  let found ← f.lookupZone zone
  let records ← Program.tryCall s!"list networks in zone {zone}"
    (.listNetworks { zoneId := some found.id })
  Program.withTags .network Cloud.NetworkRecord.id Network.ofRecord records

/-- The networks of a zone. -/
def networks (f : Fleet) (zone : String) : Attempt ResourceError (List Network) :=
  Program.cached ⟨f.owner, .networks⟩ s!"networks-{zone}" f.cacheTtl (f.fetchNetworks zone)

/-- The usable networks of a zone that terms pick. -/
def resolveNetworks (f : Fleet) (terms : List SelectorTerm) (zone : String) :
    Attempt ResourceError (List Network) := do
  let networks ← f.networks zone
  ExceptT.mk (pure (Selectable.resolve networks (terms.map (·.criteria)) zone))

/-- The network of an identifier in a zone. -/
def network (f : Fleet) (id zone : String) : Attempt ResourceError Network := do
  findOrThrow (← f.networks zone) (fun n => n.id = id) "network" id

/-- Lists the templates of a zone, every identifier once. -/
def fetchTemplates (f : Fleet) (zone : String) : Attempt ResourceError (List Template) := do
  let found ← f.lookupZone zone
  let batches ← Program.templateBatches found.id templateFilters
  match joinBatches batches with
  | .ok records =>
      Program.withTags .template Cloud.TemplateRecord.id Template.ofRecord (firstPerKey (·.id) records)
  | .error e => throw (.call s!"list templates in zone {zone}" e)

/-- The templates of a zone. -/
def templates (f : Fleet) (zone : String) : Attempt ResourceError (List Template) :=
  Program.cached ⟨f.owner, .templates⟩ s!"templates-{zone}" f.cacheTtl (f.fetchTemplates zone)

/-- The usable templates of a zone that terms pick. -/
def resolveTemplates (f : Fleet) (terms : List TemplateTerm) (zone : String) :
    Attempt ResourceError (List Template) := do
  let templates ← f.templates zone
  ExceptT.mk (pure (Selectable.resolve templates (terms.map (·.criteria)) zone))

/-- The template of an identifier in a zone. -/
def template (f : Fleet) (id zone : String) : Attempt ResourceError Template := do
  findOrThrow (← f.templates zone) (fun t => t.id = id) "template" id

/-- Lists all service offerings. -/
def fetchOfferings : Attempt ResourceError (List ServiceOffering) := do
  let records ← Program.tryCall "list service offerings" (.listOfferings {})
  return records.map ServiceOffering.ofRecord

/-- The service offerings, kept for every zone apart. -/
def offerings (f : Fleet) (zone : String) : Attempt ResourceError (List ServiceOffering) :=
  Program.cached ⟨f.owner, .offerings⟩ s!"service-offerings-{zone}" f.cacheTtl fetchOfferings

/-- The service offerings that terms pick. -/
def resolveOfferings (f : Fleet) (terms : List SelectorTerm) (zone : String) :
    Attempt ResourceError (List ServiceOffering) := do
  let offerings ← f.offerings zone
  ExceptT.mk (pure (Selectable.resolve offerings (terms.map (·.criteria)) zone))

/-- The instance types that a node class offers. -/
def instanceTypes (f : Fleet) (c : NodeClass) : Attempt ResourceError (List InstanceType) := do
  let offerings ← f.resolveOfferings c.spec.offeringTerms c.spec.zone
  return offerings.map (·.offeredIn c.spec.zone)

/-- The instance type of a name that a node class offers. -/
def instanceType (f : Fleet) (c : NodeClass) (name : String) :
    Attempt ResourceError InstanceType := do
  findOrThrow (← f.instanceTypes c) (fun t => t.name = name) "instance type" name

end Fleet

end NodeFleet
