import NodeFleet.Proofs.Fleet.Effects
import NodeFleet.Proofs.Fleet.Listing
import NodeFleet.Proofs.Fleet.Order

/-!
# Questions about the stock

Everything that a fleet answers about zones, networks, templates, service offerings and instance
types is one of four listings followed by a choice from the list. So what holds of the listings,
that they are as expected, call listing operations only and take locks in order, holds of every
question.
-/

namespace NodeFleet

open Routine (Keeps Obeys)
open Program (CallsOnly Asked)
open Cloud (Inventory Operation)
open Cloud.Inventory (found)

namespace Fleet

/-- The operations by which a fleet lists the stock of a cloud. -/
def listing : List Operation :=
  [.listZones, .listNetworks, .listTemplates, .listOfferings, .listTags]

end Fleet

open Fleet (listing)

/-- The listings that are read through caches. -/
inductive Listing where
  | zones
  | networks (zone : String)
  | templates (zone : String)
  | offerings (zone : String)

namespace Listing

/-- What is listed. -/
abbrev Item : Listing → Type
  | .zones => Zone
  | .networks _ => Network
  | .templates _ => Template
  | .offerings _ => ServiceOffering

/-- Lists through a cache. -/
def attempt (f : Fleet) : (l : Listing) → Attempt ResourceError (List l.Item)
  | .zones => f.zones
  | .networks zone => f.networks zone
  | .templates zone => f.templates zone
  | .offerings zone => f.offerings zone

/-- The list that the stock makes. -/
def expected (inv : Inventory) : (l : Listing) → Except ResourceError (List l.Item)
  | .zones => .ok inv.zoneList
  | .networks zone => inv.networkList zone
  | .templates zone => inv.templateList zone
  | .offerings _ => .ok inv.offeringList

variable (f : Fleet)

theorem keeps_attempt {fails : Operation → Option String} {inv : Inventory}
    (hlisted : fails .listTags = none) (l : Listing) :
    Keeps (listingReliance fails inv) (Faithful fails (l.expected inv)) (l.attempt f).run := by
  cases l with
  | zones => exact f.keeps_zones
  | networks zone => exact f.keeps_networks hlisted zone
  | templates zone => exact f.keeps_templates hlisted zone
  | offerings zone => exact f.keeps_offerings zone

theorem obeys_attempt (l : Listing) : Obeys (CallsOnly listing) Asked (l.attempt f).run := by
  have hmono {α : Type} {p : Program (Except ResourceError α)}
      (h : Obeys (CallsOnly Fleet.resolving) Asked p) : Obeys (CallsOnly listing) Asked p :=
    h.mono (fun _ => CallsOnly.mono (by simp [Fleet.resolving, listing])) fun _ => id
  cases l with
  | zones => exact hmono f.obeys_zones
  | networks zone => exact hmono (f.obeys_networks zone)
  | templates zone => exact hmono (f.obeys_templates zone)
  | offerings zone => exact f.obeys_offerings zone (by simp [listing])

theorem orderly_attempt (l : Listing) : (l.attempt f).run.IsOrderly := by
  cases l with
  | zones => exact f.orderly_zones.mono (Nat.le_succ 1)
  | networks zone => exact f.orderly_networks zone
  | templates zone => exact f.orderly_templates zone
  | offerings zone => exact f.orderly_offerings zone

end Listing

/-- The questions that a fleet answers about the stock of a cloud. -/
inductive Query where
  | zones
  | zone (id : String)
  | zoneNamed (name : String)
  | lookupZone (idOrName : String)
  | enabledZone (idOrName : String)
  | resolveZones (terms : List SelectorTerm)
  | networks (zone : String)
  | network (id zone : String)
  | resolveNetworks (terms : List SelectorTerm) (zone : String)
  | templates (zone : String)
  | template (id zone : String)
  | resolveTemplates (terms : List TemplateTerm) (zone : String)
  | offerings (zone : String)
  | resolveOfferings (terms : List SelectorTerm) (zone : String)
  | instanceTypes (c : NodeClass)
  | instanceType (c : NodeClass) (name : String)
deriving DecidableEq

namespace Query

/-- What a question asks for. -/
abbrev Answer : Query → Type
  | .zones => List Zone
  | .zone _ => Zone
  | .zoneNamed _ => Zone
  | .lookupZone _ => Zone
  | .enabledZone _ => Zone
  | .resolveZones _ => List Zone
  | .networks _ => List Network
  | .network _ _ => Network
  | .resolveNetworks _ _ => List Network
  | .templates _ => List Template
  | .template _ _ => Template
  | .resolveTemplates _ _ => List Template
  | .offerings _ => List ServiceOffering
  | .resolveOfferings _ _ => List ServiceOffering
  | .instanceTypes _ => List InstanceType
  | .instanceType _ _ => InstanceType

/-- How a fleet answers a question. -/
def attempt (f : Fleet) : (q : Query) → Attempt ResourceError q.Answer
  | .zones => f.zones
  | .zone id => f.zone id
  | .zoneNamed name => f.zoneNamed name
  | .lookupZone idOrName => f.lookupZone idOrName
  | .enabledZone idOrName => f.enabledZone idOrName
  | .resolveZones terms => f.resolveZones terms
  | .networks z => f.networks z
  | .network id z => f.network id z
  | .resolveNetworks terms z => f.resolveNetworks terms z
  | .templates z => f.templates z
  | .template id z => f.template id z
  | .resolveTemplates terms z => f.resolveTemplates terms z
  | .offerings z => f.offerings z
  | .resolveOfferings terms z => f.resolveOfferings terms z
  | .instanceTypes c => f.instanceTypes c
  | .instanceType c name => f.instanceType c name

/-- The listing from which a question is answered. -/
abbrev source : Query → Listing
  | .zones => .zones
  | .zone _ => .zones
  | .zoneNamed _ => .zones
  | .lookupZone _ => .zones
  | .enabledZone _ => .zones
  | .resolveZones _ => .zones
  | .networks z => .networks z
  | .network _ z => .networks z
  | .resolveNetworks _ z => .networks z
  | .templates z => .templates z
  | .template _ z => .templates z
  | .resolveTemplates _ z => .templates z
  | .offerings z => .offerings z
  | .resolveOfferings _ z => .offerings z
  | .instanceTypes c => .offerings c.spec.zone
  | .instanceType c _ => .offerings c.spec.zone

/-- The answer that a list makes. -/
def choose : (q : Query) → List q.source.Item → Except ResourceError q.Answer
  | .zones, items => .ok items
  | .zone id, items => found items (fun z => z.id = id) "zone" id
  | .zoneNamed name, items => found items (fun z => z.name = name) "zone" name
  | .lookupZone idOrName, items =>
      found items (fun z => z.name = idOrName || z.id = idOrName) "zone" idOrName
  | .enabledZone idOrName, items => do
      let z ← found items (fun z => z.name = idOrName || z.id = idOrName) "zone" idOrName
      if z.isEnabled then return z else throw (.zoneNotEnabled idOrName z.allocationState)
  | .resolveZones terms, items => Selectable.resolve items (terms.map (·.criteria)) "*"
  | .networks _, items => .ok items
  | .network id _, items => found items (fun n => n.id = id) "network" id
  | .resolveNetworks terms z, items => Selectable.resolve items (terms.map (·.criteria)) z
  | .templates _, items => .ok items
  | .template id _, items => found items (fun t => t.id = id) "template" id
  | .resolveTemplates terms z, items => Selectable.resolve items (terms.map (·.criteria)) z
  | .offerings _, items => .ok items
  | .resolveOfferings terms z, items => Selectable.resolve items (terms.map (·.criteria)) z
  | .instanceTypes c, items => do
      let resolved ← Selectable.resolve items (c.spec.offeringTerms.map (·.criteria)) c.spec.zone
      return resolved.map (·.offeredIn c.spec.zone)
  | .instanceType c name, items => do
      let resolved ← Selectable.resolve items (c.spec.offeringTerms.map (·.criteria)) c.spec.zone
      found (resolved.map (·.offeredIn c.spec.zone)) (fun t => t.name = name) "instance type" name

/-- The answer that the stock makes. -/
def expected (inv : Inventory) (q : Query) : Except ResourceError q.Answer :=
  q.source.expected inv >>= q.choose

theorem findOrThrow_eq {α : Type} (items : List α) (test : α → Bool) (kind name : String) :
    findOrThrow items test kind name = ExceptT.mk (pure (found items test kind name)) := by
  rw [findOrThrow, found]
  cases items.find? test <;> rfl

/-- Choices after a choice make one choice. -/
theorem pure_bind_eq {α β : Type} (r : Except ResourceError α) {f : α → Attempt ResourceError β}
    {k : α → Except ResourceError β} (h : ∀ a, f a = ExceptT.mk (pure (k a))) :
    (ExceptT.mk (pure r) >>= f) = ExceptT.mk (pure (r >>= k)) := by
  cases r with
  | ok a => exact h a
  | error e => rfl

theorem instanceTypes_eq (f : Fleet) (c : NodeClass) :
    f.instanceTypes c = f.offerings c.spec.zone >>= fun items =>
      ExceptT.mk (pure ((Query.instanceTypes c).choose items)) := by
  refine (bind_assoc (f.offerings c.spec.zone) _ _).trans (bind_congr fun items => ?_)
  exact pure_bind_eq _ fun resolved => rfl

/-- A question is answered by listing and choosing. -/
theorem attempt_eq (f : Fleet) (q : Query) :
    q.attempt f = q.source.attempt f >>= fun items => ExceptT.mk (pure (q.choose items)) := by
  cases q with
  | zones => exact (bind_pure f.zones).symm
  | zone id => exact bind_congr fun items => findOrThrow_eq _ _ _ _
  | zoneNamed name => exact bind_congr fun items => findOrThrow_eq _ _ _ _
  | lookupZone idOrName => exact bind_congr fun items => findOrThrow_eq _ _ _ _
  | enabledZone idOrName =>
      refine (bind_assoc f.zones _ _).trans (bind_congr fun items => ?_)
      rw [findOrThrow_eq]
      refine pure_bind_eq _ fun z => ?_
      split <;> rfl
  | resolveZones terms => rfl
  | networks z => exact (bind_pure (f.networks z)).symm
  | network id z => exact bind_congr fun items => findOrThrow_eq _ _ _ _
  | resolveNetworks terms z => rfl
  | templates z => exact (bind_pure (f.templates z)).symm
  | template id z => exact bind_congr fun items => findOrThrow_eq _ _ _ _
  | resolveTemplates terms z => rfl
  | offerings z => exact (bind_pure (f.offerings z)).symm
  | resolveOfferings terms z => rfl
  | instanceTypes c => exact instanceTypes_eq f c
  | instanceType c name =>
      change (f.instanceTypes c >>= fun types => findOrThrow types _ _ _) = _
      rw [instanceTypes_eq, bind_assoc]
      refine bind_congr fun items => (pure_bind_eq _ fun types => findOrThrow_eq _ _ _ _).trans ?_
      rw [choose, choose]
      cases Selectable.resolve items (c.spec.offeringTerms.map (·.criteria)) c.spec.zone <;> rfl

variable (f : Fleet) (q : Query)

/-- Whatever expired or failed before, the answer is the one that the stock makes, or an operation
fails as a whole. -/
theorem keeps_attempt {fails : Operation → Option String} {inv : Inventory}
    (hlisted : fails .listTags = none) :
    Keeps (listingReliance fails inv) (Faithful fails (q.expected inv)) (q.attempt f).run := by
  rw [attempt_eq, expected]
  refine Program.keeps_bind (q.source.keeps_attempt f hlisted) (fun e he => ?_) fun items h => ?_
  · rw [he]
    rfl
  · rw [h]
    exact faithful_self _

theorem obeys_attempt : Obeys (CallsOnly listing) (fun _ => True) (q.attempt f).run := by
  rw [attempt_eq]
  exact (q.source.obeys_attempt f).run_bind (fun _ _ => trivial) fun items _ => trivial

theorem orderly_attempt : (q.attempt f).run.IsOrderly := by
  rw [attempt_eq]
  exact (q.source.orderly_attempt f).run_bind fun items => rfl

end Query

end NodeFleet
