import Mathlib.Data.List.Forall2
import NodeFleet.Proofs.Fleet.Stock
import NodeFleet.Proofs.Routine.Reliance

/-!
# Listings follow the stock

The caches of zones, networks, templates and service offerings hold nothing but what a fresh listing
of the stock would yield. A program that reads through them keeps it so: a hit is such a listing, a
fetch through the cache of zones uses one, and a failed or half finished fetch stores nothing. What
is read is therefore the fresh listing, or the failure of an operation that fails as a whole.
-/

namespace NodeFleet

open Routine (Keeps)
open Cloud (Inventory Call Operation)
open Cloud.Inventory (found)

/-- What the caches of listings may hold: what a fresh listing of the stock yields. -/
def storesListing (inv : Inventory) : (cache : CacheId) → String → cache.Value → Prop
  | ⟨_, .zones⟩, key, value => key = "zones" → inv.zoneList = value
  | ⟨_, .networks⟩, key, value =>
      ∀ zone : String, key = s!"networks-{zone}" → inv.networkList zone = .ok value
  | ⟨_, .templates⟩, key, value =>
      ∀ zone : String, key = s!"templates-{zone}" → inv.templateList zone = .ok value
  | ⟨_, .offerings⟩, key, value =>
      ∀ zone : String, key = s!"service-offerings-{zone}" → inv.offeringList = value
  | ⟨_, .instances⟩, _, _ => True

/-- What the cloud answers while some operations fail as a whole: calls wait for their latency, and
those that list the stock are served from it. -/
def listsStock (fails : Operation → Option String) (inv : Inventory) :
    (action : Action) → action.Result → Prop
  | .beginCall call, opening => call.operation ≠ .queryJob → ∃ latency, opening = .delayed latency
  | .serveCall call, reply => call.ListsStock → reply = inv.replyUnder fails call
  | _, _ => True

/-- The reliance of programs that read listings of the stock. -/
def listingReliance (fails : Operation → Option String) (inv : Inventory) :
    Reliance fleetSignature where
  stores := storesListing inv
  results := listsStock fails inv

section Stores

variable {fails : Operation → Option String} {inv : Inventory} {owner : Nat} {zone : String}

theorem stores_zones {value : List Zone} :
    (.ok inv.zoneList : Except ResourceError (List Zone)) = .ok value ↔
      (listingReliance fails inv).stores ⟨owner, .zones⟩ "zones" value := by
  change _ ↔ ("zones" = "zones" → inv.zoneList = value)
  simp

theorem stores_networks {value : List Network} :
    inv.networkList zone = .ok value ↔
      (listingReliance fails inv).stores ⟨owner, .networks⟩ s!"networks-{zone}" value := by
  change _ ↔
    ∀ other : String, s!"networks-{zone}" = s!"networks-{other}" →
      inv.networkList other = .ok value
  constructor
  · intro h other hother
    obtain rfl := (String.append_right_inj _).1 hother
    exact h
  · exact fun h => h zone rfl

theorem stores_templates {value : List Template} :
    inv.templateList zone = .ok value ↔
      (listingReliance fails inv).stores ⟨owner, .templates⟩ s!"templates-{zone}" value := by
  change _ ↔
    ∀ other : String, s!"templates-{zone}" = s!"templates-{other}" →
      inv.templateList other = .ok value
  constructor
  · intro h other hother
    obtain rfl := (String.append_right_inj _).1 hother
    exact h
  · exact fun h => h zone rfl

theorem stores_offerings {value : List ServiceOffering} :
    (.ok inv.offeringList : Except ResourceError (List ServiceOffering)) = .ok value ↔
      (listingReliance fails inv).stores ⟨owner, .offerings⟩ s!"service-offerings-{zone}"
        value := by
  change _ ↔
    ∀ other : String, s!"service-offerings-{zone}" = s!"service-offerings-{other}" →
      inv.offeringList = value
  constructor
  · intro h _ _
    exact Except.ok.inj h
  · exact fun h => congrArg _ (h zone rfl)

end Stores

/-- The error of a call whose operation fails as a whole. -/
def Injected (fails : Operation → Option String) (e : ResourceError) : Prop :=
  ∃ op message context, fails op = some message ∧ e = .call context (Inventory.broken message)

/-- A result that is an expected one, or the error of an operation that fails as a whole. -/
def Faithful {α : Type} (fails : Operation → Option String)
    (expected r : Except ResourceError α) : Prop :=
  r = expected ∨ ∃ e, r = .error e ∧ Injected fails e

section Faithful

variable {α : Type} {fails : Operation → Option String} {expected : Except ResourceError α}

theorem faithful_self (r : Except ResourceError α) : Faithful fails r r := .inl rfl

theorem faithful_injected {op : Operation} {message : String} (context : String)
    (h : fails op = some message) :
    Faithful fails expected (.error (.call context (Inventory.broken message))) :=
  .inr ⟨_, rfl, op, message, context, h, rfl⟩

theorem faithful_ok {a : α} : Faithful fails expected (.ok a) ↔ expected = .ok a := by
  constructor
  · rintro (h | ⟨e, he, _⟩)
    · exact h.symm
    · cases he
  · exact fun h => .inl h.symm

theorem Faithful.error {e : ResourceError} (h : Faithful fails expected (.error e)) :
    expected = .error e ∨ Injected fails e := by
  rcases h with h | ⟨e', he, hinjected⟩
  · exact .inl h.symm
  · cases he
    exact .inr hinjected

/-- Where no operation fails as a whole the result is the expected one. -/
theorem Faithful.eq {r : Except ResourceError α} (h : Faithful (fun _ => none) expected r) :
    r = expected := by
  rcases h with h | ⟨e, _, op, message, context, hfails, _⟩
  · exact h
  · cases hfails

end Faithful

namespace Program

variable {α β : Type} {fails : Operation → Option String} {inv : Inventory}
  {R : Reliance fleetSignature} {expected : Except ResourceError β}

/-- What goes on from an expected value and passes an expected error on is as expected. -/
theorem keeps_bind {x : Attempt ResourceError α} {f : α → Attempt ResourceError β}
    {first : Except ResourceError α} (hx : Keeps R (Faithful fails first) x.run)
    (herror : ∀ e, first = .error e → expected = .error e)
    (hf : ∀ a, first = .ok a → Keeps R (Faithful fails expected) (f a).run) :
    Keeps R (Faithful fails expected) (x >>= f).run := by
  apply hx.run_bind
  · intro e he
    rcases he.error with hfirst | hinjected
    · rw [herror e hfirst]
      exact faithful_self _
    · exact .inr ⟨e, rfl, hinjected⟩
  · exact fun a ha => hf a (faithful_ok.1 ha)

/-- What goes on from a value that is expected for sure. -/
theorem keeps_bind_ok {x : Attempt ResourceError α} {f : α → Attempt ResourceError β} {a : α}
    (hx : Keeps R (Faithful fails (.ok a)) x.run)
    (hf : Keeps R (Faithful fails expected) (f a).run) :
    Keeps R (Faithful fails expected) (x >>= f).run := by
  refine keeps_bind hx (fun e he => (nomatch he)) fun b hb => ?_
  cases hb
  exact hf

theorem keeps_findOrThrow (items : List α) (test : α → Bool) (kind name : String) :
    Keeps R (Faithful fails (found items test kind name))
      (findOrThrow items test kind name).run := by
  rw [findOrThrow, found]
  cases items.find? test with
  | some item => exact faithful_self _
  | none => exact faithful_self _

/-- A call that waits for its latency yields what it may be served with. -/
theorem keeps_call_of_delayed {call : Call}
    (delayed : ∀ opening, R.results (.beginCall call) opening →
      ∃ latency, opening = .delayed latency) :
    Keeps R (R.results (.serveCall call)) (Program.call call) := by
  refine ⟨trivial, fun opening hopening => ?_⟩
  obtain ⟨latency, rfl⟩ := delayed opening hopening
  exact ⟨trivial, fun start _ => ⟨trivial, fun wake _ => ⟨trivial, fun reply hreply => hreply⟩⟩⟩

theorem keeps_call (call : Call) (h : call.ListsStock) :
    Keeps (listingReliance fails inv) (fun reply => reply = inv.replyUnder fails call)
      (Program.call call) := by
  have hserved : Keeps (listingReliance fails inv) (listsStock fails inv (.serveCall call))
      (Program.call call) :=
    keeps_call_of_delayed fun _ hopening => hopening h.ne_queryJob
  exact hserved.mono fun _ hreply => hreply h

/-- A call that the cloud can serve yields its reply, unless its operation fails as a whole. -/
theorem keeps_tryCall (context : String) (call : Call) (h : call.ListsStock) {reply : call.Reply}
    (hreply : inv.reply call = .ok reply) :
    Keeps (listingReliance fails inv) (Faithful fails (.ok reply))
      (tryCall context call).run := by
  refine (keeps_call call h).bind fun served hserved => ?_
  rw [hserved, Inventory.replyUnder, hreply]
  cases hfails : fails call.operation with
  | some message => exact faithful_injected context hfails
  | none => exact faithful_self _

/-- A read through a cache is as expected if its fetch is, and if the cache may hold just what is
expected. -/
theorem keeps_cached {cache : CacheId} {key : String} {ttl : Nat}
    {fetch : Attempt ResourceError cache.Value} {expected : Except ResourceError cache.Value}
    (hfetch : Keeps R (Faithful fails expected) fetch.run)
    (hstores : ∀ value, expected = .ok value ↔ R.stores cache key value) :
    Keeps R (Faithful fails expected) (cached cache key ttl fetch).run :=
  Routine.keeps_cached hfetch fun value => faithful_ok.trans (hstores value)

theorem keeps_templateBatches (zoneId : String) (filters : List Cloud.TemplateFilter) :
    Keeps (listingReliance fails inv)
      (fun batches => batches = filters.map fun filter =>
        inv.replyUnder fails (.listTemplates { filter, zoneId := some zoneId }))
      (templateBatches zoneId filters) := by
  induction filters with
  | nil => exact rfl
  | cons filter rest ih =>
      refine (keeps_call (.listTemplates { filter, zoneId := some zoneId }) trivial).bind
        fun batch hbatch => ?_
      refine ih.bind fun others hothers => ?_
      rw [hbatch, hothers]
      exact rfl

/-- Batches that fail as a whole make the error of their operation. -/
theorem faithful_templatesOf (zone zoneId : String) :
    Faithful fails
      (inv.templatesOf zone (templateFilters.map fun filter =>
        inv.listTemplates { filter, zoneId := some zoneId }))
      (inv.templatesOf zone (templateFilters.map fun filter =>
        inv.replyUnder fails (.listTemplates { filter, zoneId := some zoneId }))) := by
  cases hfails : fails .listTemplates with
  | some message =>
      simp only [Inventory.replyUnder, Call.operation, hfails]
      exact faithful_injected _ hfails
  | none =>
      simp only [Inventory.replyUnder, Call.operation, hfails]
      exact faithful_self _

variable {S T : Type}

/-- Where tags of resources are listed as they should be, every resource is made of its record with such
tags. -/
theorem keeps_withTags {R : Reliance fleetSignature} {kind : Cloud.ResourceKind} {id : S → String}
    {make : S → Table String → T} {tagged : String → Table String → Prop}
    (htags : ∀ id, Keeps R (tagged id) (tagsOf id kind)) (records : List S) :
    Keeps R (List.Forall₂ (fun r t => ∃ tags, tagged (id r) tags ∧ t = make r tags) records)
      (withTags kind id make records) := by
  induction records with
  | nil => exact .nil
  | cons r rest ih =>
      refine (htags (id r)).bind fun tags htags => ih.bind fun others hothers => ?_
      exact .cons ⟨tags, htags, rfl⟩ hothers

variable (hlisted : fails .listTags = none)

include hlisted

theorem keeps_tagsOf (id : String) {kind : Cloud.ResourceKind} (hkind : kind ≠ .machine) :
    Keeps (listingReliance fails inv) (fun tags => tags = inv.tagTableOf id kind)
      (tagsOf id kind) := by
  refine (keeps_call (.listTags ⟨id, kind⟩) hkind).bind fun reply hreply => ?_
  have heq : reply = inv.listTags ⟨id, kind⟩ := by
    rw [hreply, Inventory.replyUnder, Call.operation, hlisted]
    rfl
  rw [Inventory.tagTableOf, ← heq]
  cases reply <;> exact rfl

theorem keeps_withStoredTags {kind : Cloud.ResourceKind} (hkind : kind ≠ .machine)
    {id : S → String} {make : S → Table String → T} (records : List S) :
    Keeps (listingReliance fails inv)
      (fun resources => resources = records.map fun r => make r (inv.tagTableOf (id r) kind))
      (withTags kind id make records) := by
  refine (keeps_withTags (fun id => keeps_tagsOf hlisted id hkind) records).mono fun resources h => ?_
  have hsame : List.Forall₂ Eq (records.map fun r => make r (inv.tagTableOf (id r) kind))
      resources := by
    refine List.forall₂_map_left_iff.2 (h.imp ?_)
    rintro r _ ⟨_, rfl, rfl⟩
    rfl
  rw [List.forall₂_eq_eq_eq] at hsame
  exact hsame.symm

theorem keeps_templatesOf (zone : String)
    (batches : List (Except Cloud.CallError (List Cloud.TemplateRecord))) :
    Keeps (listingReliance fails inv) (fun r => r = inv.templatesOf zone batches)
      (match joinBatches batches with
        | .ok records =>
            (liftM (withTags .template Cloud.TemplateRecord.id Template.ofRecord
              (firstPerKey (·.id) records)) :
              Attempt ResourceError (List Template))
        | .error e => throw (ResourceError.call s!"list templates in zone {zone}" e)).run := by
  rw [Inventory.templatesOf]
  cases joinBatches batches with
  | ok records =>
      apply Routine.keeps_run_lift
      exact (keeps_withStoredTags hlisted (by decide) _).mono fun templates h => congrArg _ h
  | error e => exact rfl

end Program

namespace Fleet

open Program

variable (f : Fleet) {fails : Operation → Option String} {inv : Inventory}

theorem keeps_zones :
    Keeps (listingReliance fails inv) (Faithful fails (.ok inv.zoneList)) f.zones.run := by
  refine keeps_cached ?_ fun value => stores_zones
  exact keeps_bind_ok (keeps_tryCall _ (.listZones _) trivial rfl) (faithful_self _)

theorem keeps_lookupZone (idOrName : String) :
    Keeps (listingReliance fails inv) (Faithful fails (inv.zoneFor idOrName))
      (f.lookupZone idOrName).run :=
  keeps_bind_ok f.keeps_zones (keeps_findOrThrow _ _ _ _)

theorem keeps_offerings (zone : String) :
    Keeps (listingReliance fails inv) (Faithful fails (.ok inv.offeringList))
      (f.offerings zone).run := by
  refine keeps_cached ?_ fun value => stores_offerings
  exact keeps_bind_ok (keeps_tryCall _ (.listOfferings _) trivial rfl) (faithful_self _)

variable (hlisted : fails .listTags = none)

include hlisted

theorem keeps_networks (zone : String) :
    Keeps (listingReliance fails inv) (Faithful fails (inv.networkList zone))
      (f.networks zone).run := by
  refine keeps_cached ?_ fun value => stores_networks
  refine keeps_bind (f.keeps_lookupZone zone) (fun e he => ?_) fun found hfound => ?_
  · rw [Inventory.networkList, he]
    rfl
  · refine keeps_bind_ok (keeps_tryCall _ (.listNetworks _) trivial rfl)
      (Routine.keeps_run_lift ?_)
    refine (keeps_withStoredTags hlisted (by decide) _).mono fun networks hnetworks => ?_
    rw [Inventory.networkList, hfound, hnetworks]
    exact faithful_self _

theorem keeps_templates (zone : String) :
    Keeps (listingReliance fails inv) (Faithful fails (inv.templateList zone))
      (f.templates zone).run := by
  refine keeps_cached ?_ fun value => stores_templates
  refine keeps_bind (f.keeps_lookupZone zone) (fun e he => ?_) fun found hfound => ?_
  · rw [Inventory.templateList, he]
    rfl
  · have hbatches : Keeps (listingReliance fails inv)
        (fun r => r = .ok (templateFilters.map fun filter =>
          inv.replyUnder fails (.listTemplates { filter, zoneId := some found.id })))
        (liftM (templateBatches found.id templateFilters) :
          Attempt ResourceError (List (Except Cloud.CallError (List Cloud.TemplateRecord)))).run :=
      Routine.keeps_run_lift
        ((keeps_templateBatches found.id templateFilters).mono fun batches h => congrArg _ h)
    refine hbatches.run_bind (fun e he => (nomatch he)) fun batches h => ?_
    obtain rfl := Except.ok.inj h
    refine (keeps_templatesOf hlisted zone _).mono fun r hr => ?_
    rw [Inventory.templateList, hfound, hr]
    exact faithful_templatesOf zone found.id

end Fleet

namespace Event

/-- What a turn is answered by a cloud with the stock and the failures that are relied on. -/
theorem yields_of_sameStock {e : Event fleetWorld} {inv : Inventory}
    (stock : inv.SameStock e.before.world.cloud) :
    e.Yields (listingReliance e.before.world.cloud.failure? inv) := by
  obtain ⟨i, s, request⟩ := e
  rintro action -
  cases action with
  | beginCall call =>
      intro hcall
      exact ⟨_, congrArg Prod.fst (WorldState.beginCall_of_ne s.world hcall)⟩
  | serveCall call => exact fun hcall => stock.serve_eq s.world.today hcall
  | _ => trivial

end Event

end NodeFleet
