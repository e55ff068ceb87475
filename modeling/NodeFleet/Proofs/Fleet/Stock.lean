import NodeFleet.Fleet.Listing
import NodeFleet.Proofs.Fleet.Serving

/-!
# The stock of a cloud

The stock of a cloud are its zones, networks, templates and service offerings with their tags, and
which tags and template filters cannot be listed. What the calls that list it reply depends on
nothing else, apart from the operations that fail as a whole. So do the lists that a fleet makes of
these replies.
-/

namespace NodeFleet

namespace Cloud

/-- A call that lists zones, networks, templates, service offerings or tags on these. -/
def Call.ListsStock : Call → Prop
  | .listZones _ => True
  | .listNetworks _ => True
  | .listTemplates _ => True
  | .listOfferings _ => True
  | .listTags q => q.kind ≠ .machine
  | _ => False

theorem Call.ListsStock.ne_queryJob {call : Call} (h : call.ListsStock) :
    call.operation ≠ .queryJob := by
  cases call with
  | queryJob jobId => exact h.elim
  | _ => exact fun he => (nomatch he)

namespace Inventory

/-- The tags that are on no machine. -/
def stockTags (inv : Inventory) : List ResourceTag :=
  inv.tags.filter fun t => t.resourceType ≠ ResourceKind.machine.name

/-- Two clouds with the same stock. -/
structure SameStock (inv other : Inventory) : Prop where
  zones : other.zones = inv.zones
  networks : other.networks = inv.networks
  templates : other.templates = inv.templates
  offerings : other.offerings = inv.offerings
  tags : other.stockTags = inv.stockTags
  failingTags : other.failingTags = inv.failingTags
  failingFilters : other.failingFilters = inv.failingFilters

theorem SameStock.refl (inv : Inventory) : inv.SameStock inv :=
  ⟨rfl, rfl, rfl, rfl, rfl, rfl, rfl⟩

instance (inv other : Inventory) : Decidable (inv.SameStock other) :=
  decidable_of_iff
    (other.zones = inv.zones ∧ other.networks = inv.networks ∧ other.templates = inv.templates ∧
      other.offerings = inv.offerings ∧ other.stockTags = inv.stockTags ∧
      other.failingTags = inv.failingTags ∧ other.failingFilters = inv.failingFilters)
    ⟨fun ⟨zones, networks, templates, offerings, tags, failing, filters⟩ =>
      ⟨zones, networks, templates, offerings, tags, failing, filters⟩,
      fun h => ⟨h.zones, h.networks, h.templates, h.offerings, h.tags, h.failingTags,
        h.failingFilters⟩⟩

theorem SameStores.sameStock {inv other third : Inventory} (h : inv.SameStock other)
    (h' : other.SameStores third) : inv.SameStock third := by
  rw [h']
  exact ⟨h.zones, h.networks, h.templates, h.offerings, h.tags, h.failingTags, h.failingFilters⟩

/-- What a cloud replies to a call that does not fail as a whole. -/
def reply (inv : Inventory) (call : Call) : Except CallError call.Reply :=
  (inv.carryOut (.ofSeconds 0) call).1

/-- What a cloud replies in which whole operations may fail. -/
def replyUnder (fails : Operation → Option String) (inv : Inventory) (call : Call) :
    Except CallError call.Reply :=
  match fails call.operation with
  | some message => .error (broken message)
  | none => inv.reply call

section SameStock

variable {inv other : Inventory}

theorem SameStock.zoneName_eq (h : inv.SameStock other) : other.zoneName = inv.zoneName := by
  funext id
  rw [zoneName, h.zones]
  rfl

theorem SameStock.listTags_eq (h : inv.SameStock other) {q : TagQuery} (hkind : q.kind ≠ .machine) :
    other.listTags q = inv.listTags q := by
  have hname : q.kind.name ≠ ResourceKind.machine.name := by
    cases hk : q.kind with
    | machine => exact absurd hk hkind
    | _ => decide
  have hfilter (third : Inventory) :
      third.tags.filter (fun t => t.resourceId = q.resourceId && t.resourceType = q.kind.name) =
        third.stockTags.filter fun t =>
          t.resourceId = q.resourceId && t.resourceType = q.kind.name := by
    rw [stockTags, List.filter_filter]
    apply List.filter_congr
    intro t _
    by_cases ht : t.resourceType = q.kind.name
    · simp [ht, hname]
    · simp [ht]
  rw [listTags, h.failingTags, hfilter, h.tags, ← hfilter]
  rfl

/-- Clouds with the same stock reply alike to the calls that list it. -/
theorem SameStock.carryOut_eq (h : inv.SameStock other) (today : Instant) {call : Call}
    (hcall : call.ListsStock) : (other.carryOut today call).1 = inv.reply call := by
  cases call with
  | listZones q =>
      change Except.ok (other.listZones q) = .ok (inv.listZones q)
      rw [listZones, h.zones]
      rfl
  | listNetworks q =>
      change Except.ok (other.listNetworks q) = .ok (inv.listNetworks q)
      rw [listNetworks, h.networks, h.zoneName_eq]
      rfl
  | listTemplates q =>
      change other.listTemplates q = inv.listTemplates q
      rw [listTemplates, h.templates, h.failingFilters, h.zoneName_eq]
      rfl
  | listOfferings q =>
      change Except.ok (other.listOfferings q) = .ok (inv.listOfferings q)
      rw [listOfferings, h.offerings]
      rfl
  | listTags q => exact h.listTags_eq hcall
  | _ => exact hcall.elim

/-- What is served to a call that lists the stock. -/
theorem SameStock.serve_eq (h : inv.SameStock other) (today : Instant) {call : Call}
    (hcall : call.ListsStock) :
    (other.serve today call).1 = inv.replyUnder other.failure? call := by
  rw [serve, replyUnder]
  cases other.failure? call.operation with
  | some message => rfl
  | none => exact h.carryOut_eq today hcall

end SameStock

section Lists

variable (inv : Inventory)

/-- The first item that satisfies a test, or the error of its absence. -/
def found {α : Type} (items : List α) (test : α → Bool) (kind name : String) :
    Except ResourceError α :=
  match items.find? test with
  | some item => .ok item
  | none => .error (.notFound kind name)

/-- The zones. -/
def zoneList : List Zone :=
  (inv.listZones { available := some true }).map Zone.ofRecord

/-- The zone with a name or an identifier. -/
def zoneFor (idOrName : String) : Except ResourceError Zone :=
  found inv.zoneList (fun z => z.name = idOrName || z.id = idOrName) "zone" idOrName

/-- The tags of a resource; none where they cannot be listed. -/
def tagTableOf (resourceId : String) (kind : ResourceKind) : Table String :=
  match inv.listTags ⟨resourceId, kind⟩ with
  | .ok tags => tagTable tags
  | .error _ => .empty

/-- The networks of a zone with their tags. -/
def networkList (zone : String) : Except ResourceError (List Network) := do
  let found ← inv.zoneFor zone
  return (inv.listNetworks { zoneId := some found.id }).map fun r =>
    Network.ofRecord r (inv.tagTableOf r.id .network)

/-- The templates that batches of records make, with their tags. -/
def templatesOf (zone : String) (batches : List (Except CallError (List TemplateRecord))) :
    Except ResourceError (List Template) :=
  match joinBatches batches with
  | .ok records =>
      .ok <| (firstPerKey (·.id) records).map fun r =>
        Template.ofRecord r (inv.tagTableOf r.id .template)
  | .error e => .error (.call s!"list templates in zone {zone}" e)

/-- The templates of a zone with their tags. -/
def templateList (zone : String) : Except ResourceError (List Template) := do
  let found ← inv.zoneFor zone
  inv.templatesOf zone <| templateFilters.map fun filter =>
    inv.listTemplates { filter, zoneId := some found.id }

/-- The service offerings. -/
def offeringList : List ServiceOffering :=
  (inv.listOfferings {}).map ServiceOffering.ofRecord

end Lists

end Inventory

end Cloud

/-- A world around a cloud. -/
def worldOf (cloud : Cloud.Inventory) : WorldState where
  cloud := cloud
  nodeClasses := .empty
  today := .ofSeconds 0
  launches := []

end NodeFleet
