import NodeFleet.Proofs.Fleet.Placement
import NodeFleet.Proofs.Fleet.Resources
import NodeFleet.Proofs.Fleet.Storing
import NodeFleet.Proofs.Fleet.Workers

/-!
# Where listings come from

Networks, templates and their tags may change at any time, and what caches hold may be out of date.
Still every list of networks or templates that a fleet works with was replied at some time, under
the identifier of one zone and with tags that were replied as well. As long as the list of zones
stays the same, this zone is the one that the key of the list stands for, whoever fetched the list
and whenever that was.
-/

namespace NodeFleet

open Routine (Keeps Ends)
open Program (Minds keeps_call_of_delayed)
open Cloud (DeployRequest)

/-- Which replies calls were served with. -/
abbrev Replies :=
  (call : Cloud.Call) → Except Cloud.CallError call.Reply → Prop

/-- The replies of a history. -/
def Replied (events : List (Event fleetWorld)) : Replies :=
  fun call reply => ∃ e ∈ events, e.exchange = ⟨.act (.serveCall call), reply⟩

/-- A result that has a property, unless it is an error. -/
def Ensures {α : Type} (P : α → Prop) (r : Except ResourceError α) : Prop :=
  ∀ a, r = .ok a → P a

theorem ensures_ok {α : Type} {P : α → Prop} {a : α} : Ensures P (.ok a) ↔ P a :=
  ⟨fun h => h a rfl, fun h _ hb => Except.ok.inj hb ▸ h⟩

theorem ensures_error {α : Type} {P : α → Prop} (e : ResourceError) : Ensures P (.error e) :=
  fun _ h => (nomatch h)

namespace Replies

variable (replied : Replies)

/-- The tags of a resource as they were listed; none if the listing failed. -/
def Tagged (id : String) (kind : Cloud.ResourceKind) (tags : Table String) : Prop :=
  ∃ reply, replied (.listTags ⟨id, kind⟩) reply ∧ GivesTags reply tags

/-- Networks that were listed under the identifier of a zone: each shows a record of one listing, and
has the tags that were listed for it. -/
def ListsNetworks (zoneId : String) (networks : List Network) : Prop :=
  ∃ records, replied (.listNetworks { zoneId := some zoneId }) (.ok records) ∧
    List.Forall₂ (fun r n => n.Shows r ∧ replied.Tagged r.id .network n.tags) records networks

/-- The batches that the listings of a zone under the three filters were answered. -/
structure ListsBatches (zoneId : String) (b : TemplateBatches) : Prop where
  featured : replied (.listTemplates { filter := .featured, zoneId := some zoneId }) b.featured
  community : replied (.listTemplates { filter := .community, zoneId := some zoneId }) b.community
  selfOwned : replied (.listTemplates { filter := .selfOwned, zoneId := some zoneId }) b.selfOwned

/-- Templates that were listed under the identifier of a zone: each shows the first record of its
identifier in the batches that arrived, and has the tags that were listed for it. -/
def ListsTemplates (zoneId : String) (templates : List Template) : Prop :=
  ∃ b records, replied.ListsBatches zoneId b ∧ (∀ e, ¬b.FailedWith e) ∧
    FirstRecords b.arrived records ∧
    List.Forall₂ (fun r t => t.Shows r ∧ replied.Tagged r.id .template t.tags) records templates

/-- The record of a network was replied under the identifier of a zone. -/
def RecordsNetwork (zoneId : String) (record : Cloud.NetworkRecord) : Prop :=
  ∃ records, replied (.listNetworks { zoneId := some zoneId }) (.ok records) ∧ record ∈ records

/-- The record of a template was replied under the identifier of a zone and one of the filters. -/
def RecordsTemplate (zoneId : String) (record : Cloud.TemplateRecord) : Prop :=
  ∃ filter ∈ [Cloud.TemplateFilter.featured, .community, .selfOwned], ∃ records,
    replied (.listTemplates { filter, zoneId := some zoneId }) (.ok records) ∧ record ∈ records

/-- Whenever zones were listed, they were these. -/
def ListsZones (zones : List Zone) : Prop :=
  ∀ records, replied (.listZones { available := some true }) (.ok records) →
    records.map Zone.ofRecord = zones

variable {replied : Replies} {zoneId : String}

/-- A network that was listed shows a record that was replied. -/
theorem ListsNetworks.exists_record {networks : List Network} {n : Network}
    (h : replied.ListsNetworks zoneId networks) (hn : n ∈ networks) :
    ∃ record, replied.RecordsNetwork zoneId record ∧ n.Shows record := by
  obtain ⟨records, hrecords, shown⟩ := h
  obtain ⟨record, hrecord, shows, -⟩ := exists_mem_of_forall₂ (List.Forall₂.flip shown) hn
  exact ⟨record, ⟨records, hrecords, hrecord⟩, shows⟩

/-- A template that was listed shows a record that was replied. -/
theorem ListsTemplates.exists_record {templates : List Template} {t : Template}
    (h : replied.ListsTemplates zoneId templates) (ht : t ∈ templates) :
    ∃ record, replied.RecordsTemplate zoneId record ∧ t.Shows record := by
  obtain ⟨b, records, listed, -, first, shown⟩ := h
  obtain ⟨record, hrecord, shows, -⟩ := exists_mem_of_forall₂ (List.Forall₂.flip shown) ht
  obtain ⟨batch, hbatch, hreply⟩ := b.mem_arrived.1 (first.mem hrecord)
  refine ⟨record, ?_, shows⟩
  rcases hreply with hreply | hreply | hreply
  · exact ⟨.featured, by simp, batch, hreply ▸ listed.featured, hbatch⟩
  · exact ⟨.community, by simp, batch, hreply ▸ listed.community, hbatch⟩
  · exact ⟨.selfOwned, by simp, batch, hreply ▸ listed.selfOwned, hbatch⟩

end Replies

/-- What caches may hold when the zones never change: these zones, and lists of networks and
templates that were listed under the zone of their key. -/
def storesListed (replied : Replies) (zones : List Zone) :
    (cache : CacheId) → String → cache.Value → Prop
  | ⟨_, .zones⟩, _, value => value = zones
  | ⟨_, .networks⟩, key, value => ∀ zone : String, key = s!"networks-{zone}" →
      ∃ found, FoundIn zones zone found ∧ replied.ListsNetworks found.id value
  | ⟨_, .templates⟩, key, value => ∀ zone : String, key = s!"templates-{zone}" →
      ∃ found, FoundIn zones zone found ∧ replied.ListsTemplates found.id value
  | _, _, _ => True

/-- Calls wait for their latency and are served with replies of the history. -/
def servesReplies (replied : Replies) : (action : Action) → action.Result → Prop
  | .beginCall call, opening => call.operation ≠ .queryJob → ∃ latency, opening = .delayed latency
  | .serveCall call, reply => replied call reply
  | _, _ => True

/-- The reliance of programs that work with what was listed. -/
def provenance (replied : Replies) (zones : List Zone) : Reliance fleetSignature where
  stores := storesListed replied zones
  results := servesReplies replied

section Programs

variable {replied : Replies} {zones : List Zone} {α β : Type}

/-- What goes on from a result that has a property. -/
theorem Program.keeps_next {R : Reliance fleetSignature} {x : Attempt ResourceError α}
    {f : α → Attempt ResourceError β} {P : α → Prop} {Q : β → Prop}
    (hx : Keeps R (Ensures P) x.run) (hf : ∀ a, P a → Keeps R (Ensures Q) (f a).run) :
    Keeps R (Ensures Q) (x >>= f).run :=
  hx.run_bind (fun e _ => ensures_error e) fun a ha => hf a (ensures_ok.1 ha)

theorem Program.keeps_replied (call : Cloud.Call) (h : call.operation ≠ .queryJob) :
    Keeps (provenance replied zones) (replied call) (Program.call call) := by
  have hserved : Keeps (provenance replied zones) (servesReplies replied (.serveCall call))
      (Program.call call) :=
    keeps_call_of_delayed fun _ hopening => hopening h
  exact hserved

theorem Program.keeps_tryReplied (context : String) (call : Cloud.Call)
    (h : call.operation ≠ .queryJob) :
    Keeps (provenance replied zones) (Ensures fun reply => replied call (.ok reply))
      (Program.tryCall context call).run := by
  refine (keeps_replied call h).bind fun reply hreply => ?_
  cases reply with
  | ok reply => exact ensures_ok.2 hreply
  | error e => exact ensures_error _

theorem Program.keeps_tagged (id : String) (kind : Cloud.ResourceKind) :
    Keeps (provenance replied zones) (replied.Tagged id kind) (Program.tagsOf id kind) := by
  refine (keeps_replied (.listTags ⟨id, kind⟩) (by simp [Cloud.Call.operation])).bind
    fun reply hreply => ?_
  cases reply with
  | ok listed => exact ⟨_, hreply, givesTags_iff.2 rfl⟩
  | error e => exact ⟨_, hreply, givesTags_iff.2 rfl⟩

theorem Program.keeps_repliedBatches (zoneId : String) (filters : List Cloud.TemplateFilter) :
    Keeps (provenance replied zones)
      (List.Forall₂ (fun filter batch =>
        replied (.listTemplates { filter, zoneId := some zoneId }) batch) filters)
      (Program.templateBatches zoneId filters) := by
  induction filters with
  | nil => exact .nil
  | cons filter rest ih =>
      refine (keeps_replied (.listTemplates { filter, zoneId := some zoneId })
        (by simp [Cloud.Call.operation])).bind fun batch hbatch => ih.bind fun others hothers => ?_
      exact .cons hbatch hothers

/-- Batches that were replied under the filters are the three of a zone. -/
theorem Replies.exists_listsBatches {zoneId : String}
    {batches : List (Except Cloud.CallError (List Cloud.TemplateRecord))}
    (h : List.Forall₂ (fun filter batch =>
      replied (.listTemplates { filter, zoneId := some zoneId }) batch) templateFilters batches) :
    ∃ b : TemplateBatches, batches = [b.featured, b.community, b.selfOwned] ∧
      replied.ListsBatches zoneId b := by
  rcases h with _ | ⟨hfeatured, _ | ⟨hcommunity, _ | ⟨hselfOwned, ⟨⟩⟩⟩⟩
  exact ⟨⟨_, _, _⟩, rfl, hfeatured, hcommunity, hselfOwned⟩

theorem keeps_found {R : Reliance fleetSignature} (items : List α) (test : α → Bool)
    (kind name : String) :
    Keeps R (Ensures fun a => items.find? test = some a)
      (findOrThrow items test kind name).run := by
  rw [findOrThrow]
  cases hfound : items.find? test with
  | some item => exact ensures_ok.2 rfl
  | none => exact ensures_error _

namespace Fleet

open Program

variable (f : Fleet) (fixed : replied.ListsZones zones)

include fixed

theorem keeps_listedZones :
    Keeps (provenance replied zones) (Ensures fun listed => listed = zones) f.zones.run := by
  refine Routine.keeps_cached ?_ fun value => ensures_ok
  refine keeps_next (keeps_tryReplied _ (.listZones { available := some true })
    (by simp [Cloud.Call.operation])) fun records hrecords => ?_
  exact ensures_ok.2 (fixed records hrecords)

theorem keeps_foundZone (idOrName : String) :
    Keeps (provenance replied zones) (Ensures (FoundIn zones idOrName))
      (f.lookupZone idOrName).run := by
  refine keeps_next (f.keeps_listedZones fixed) fun listed hlisted => ?_
  rw [hlisted]
  exact keeps_found _ _ _ _

/-- The networks that a fleet works with for a zone were listed under its identifier. -/
theorem keeps_listedNetworks (zone : String) :
    Keeps (provenance replied zones)
      (Ensures fun networks => ∃ found, FoundIn zones zone found ∧
        replied.ListsNetworks found.id networks)
      (f.networks zone).run := by
  refine Routine.keeps_cached ?_ fun value => ensures_ok.trans ?_
  · refine keeps_next (f.keeps_foundZone fixed zone) fun found hfound => ?_
    refine keeps_next (keeps_tryReplied _ (.listNetworks { zoneId := some found.id })
      (by simp [Cloud.Call.operation])) fun records hrecords => Routine.keeps_run_lift ?_
    refine (keeps_withTags (fun id => keeps_tagged id .network) records).mono fun networks h =>
      ensures_ok.2 ⟨found, hfound, records, hrecords, h.imp ?_⟩
    rintro r _ ⟨tags, htags, rfl⟩
    exact ⟨Network.shows_iff.2 rfl, htags⟩
  · constructor
    · intro h other hother
      obtain rfl := (String.append_right_inj _).1 hother
      exact h
    · exact fun h => h zone rfl

/-- The templates that a fleet works with for a zone were listed under its identifier. -/
theorem keeps_listedTemplates (zone : String) :
    Keeps (provenance replied zones)
      (Ensures fun templates => ∃ found, FoundIn zones zone found ∧
        replied.ListsTemplates found.id templates)
      (f.templates zone).run := by
  refine Routine.keeps_cached ?_ fun value => ensures_ok.trans ?_
  · refine keeps_next (f.keeps_foundZone fixed zone) fun found hfound => ?_
    refine keeps_next (P := fun batches => List.Forall₂ (fun filter batch =>
        replied (.listTemplates { filter, zoneId := some found.id }) batch) templateFilters batches)
      (Routine.keeps_run_lift ?_) fun batches hbatches => ?_
    · exact (keeps_repliedBatches found.id templateFilters).mono fun _ h => ensures_ok.2 h
    obtain ⟨b, rfl, hlisted⟩ := Replies.exists_listsBatches hbatches
    rcases b.joinBatches_eq with ⟨e, -, hjoined⟩ | ⟨harrived, hjoined⟩
    · rw [hjoined]
      exact ensures_error _
    · rw [hjoined]
      refine Routine.keeps_run_lift ?_
      refine (keeps_withTags (fun id => keeps_tagged id .template) _).mono fun templates h =>
        ensures_ok.2 ⟨found, hfound, b, _, hlisted, harrived, firstRecords_iff.2 rfl, h.imp ?_⟩
      rintro r _ ⟨tags, htags, rfl⟩
      exact ⟨Template.shows_iff.2 rfl, htags⟩
  · constructor
    · intro h other hother
      obtain rfl := (String.append_right_inj _).1 hother
      exact h
    · exact fun h => h zone rfl

end Fleet

theorem minds_of_harmless {p : Program α} (h : p.Obeys Request.Harmless fun _ => True) :
    Minds (provenance replied zones) p :=
  Routine.keeps_of_obeys h fun _ hrequest => hrequest.permitted fun _ _ _ => trivial

theorem Query.minds_listed (fixed : replied.ListsZones zones) (f : Fleet) (q : Query) :
    Minds (provenance replied zones) (q.attempt f).run := by
  rw [Query.attempt_eq]
  refine Minds.next ?_ fun _ => trivial
  cases q.source with
  | zones => exact (f.keeps_listedZones fixed).mono fun _ _ => trivial
  | networks zone => exact (f.keeps_listedNetworks fixed zone).mono fun _ _ => trivial
  | templates zone => exact (f.keeps_listedTemplates fixed zone).mono fun _ _ => trivial
  | offerings zone =>
      exact Routine.keeps_cached ((Program.minds_tryCall _ _).next fun _ => trivial)
        fun _ => Iff.rfl

/-- Everybody works with what was listed. -/
def sourcing (fixed : replied.ListsZones zones) : Discipline where
  Holds := Minds (provenance replied zones)
  yield _ := trivial
  bind first rest := first.bind fun a _ => rest a
  ask _ plain := minds_of_harmless ⟨plain.harmless, fun _ => trivial⟩
  attempt f q := q.minds_listed fixed f
  getInstance f id := by
    refine Routine.keeps_cached ?_ fun _ => Iff.rfl
    exact minds_of_harmless (Program.harmless (Fleet.obeys_fetchInstance id))
  deployment f c claim token request :=
    minds_of_harmless (Program.harmless_deployment f c claim token request)

end Programs

end NodeFleet
