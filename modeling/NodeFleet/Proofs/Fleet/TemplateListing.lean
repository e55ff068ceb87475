import NodeFleet.Proofs.Fleet.Placement
import NodeFleet.Proofs.Fleet.Registration
import NodeFleet.Proofs.Fleet.Resources
import NodeFleet.Proofs.Routine.Cold

/-!
# Listing templates into a cold cache

Templates of a zone are listed under three filters, and any of the listings may fail. A listing that
finds nothing in the cache fails if its zone is not found or if all three fail, and then it stores
nothing. Otherwise it yields, and stores, the first record of every identifier in the batches that
arrived, in their order, with its tags where these can be listed. A cloud in memory covers each of
its templates by one of the filters, so none of a zone is missed.
-/

namespace NodeFleet

open Routine (Ends Obeys Leaves ends_bind ends_run_bind ends_run_lift ends_run_throw ends_lift_bind
  misses closing)
open Program (obeys_then obeys_tryCall obeys_findOrThrow obeys_templateBatches obeys_withTags
  withTags)
open Cloud (CallError ResourceTag TemplateRecord TemplateFilter Inventory)

namespace TemplateBatches

variable (b : TemplateBatches)

/-- The three listings of a zone, one after another. -/
inductive Listed (zoneId : String) : List (Exchange fleetSignature) → Prop
  | intro {first second third : List (Exchange fleetSignature)}
      (featured : Ends (Program.call
        (.listTemplates { filter := .featured, zoneId := some zoneId })) first b.featured)
      (community : Ends (Program.call
        (.listTemplates { filter := .community, zoneId := some zoneId })) second b.community)
      (selfOwned : Ends (Program.call
        (.listTemplates { filter := .selfOwned, zoneId := some zoneId })) third b.selfOwned) :
      Listed zoneId (first ++ (second ++ third))

end TemplateBatches

/-- The tags of records are listed one after another, and every record becomes a template that shows it
and has the tags that were listed for it. -/
inductive TagsEach :
    List TemplateRecord → List (Exchange fleetSignature) → List Template → Prop
  | nil : TagsEach [] [] []
  | cons {r : TemplateRecord} {rest : List TemplateRecord} {t : Template}
      {own tail : List (Exchange fleetSignature)} {reply : Except CallError (List ResourceTag)}
      {others : List Template}
      (listed : Ends (Program.call (.listTags ⟨r.id, .template⟩)) own reply)
      (shows : t.Shows r) (tags : GivesTags reply t.tags) (more : TagsEach rest tail others) :
      TagsEach (r :: rest) (own ++ tail) (t :: others)

theorem TagsEach.ids {records : List TemplateRecord} {trace : List (Exchange fleetSignature)}
    {templates : List Template} (h : TagsEach records trace templates) :
    templates.map (·.id) = records.map (·.id) := by
  induction h with
  | nil => rfl
  | cons _ shows _ _ ih => rw [List.map_cons, List.map_cons, ih, shows.id]

namespace Program

variable {trace : List (Exchange fleetSignature)}

theorem ends_callExchanges (c : Cloud.Call) (reply : Except CallError c.Reply) :
    Ends (call c) (callExchanges c 0 0 .elapsed reply) reply :=
  .ask _ (.ask _ (.ask _ (.ask _ (.refl _))))

theorem ends_tagsOf {id : String} {kind : Cloud.ResourceKind} {tags : Table String}
    (h : Ends (tagsOf id kind) trace tags) :
    ∃ reply, Ends (call (.listTags ⟨id, kind⟩)) trace reply ∧ GivesTags reply tags := by
  obtain ⟨reply, own, rest, rfl, hcall, hrest⟩ := ends_bind.1 h
  refine ⟨reply, ?_⟩
  rw [givesTags_iff]
  cases reply with
  | ok found =>
      obtain ⟨rfl, rfl⟩ := Routine.ends_pure.1 hrest
      exact ⟨(List.append_nil own).symm ▸ hcall, rfl⟩
  | error e =>
      obtain ⟨rfl, rfl⟩ := Routine.ends_pure.1 hrest
      exact ⟨(List.append_nil own).symm ▸ hcall, rfl⟩

theorem ends_withTags {records : List TemplateRecord} {templates : List Template}
    (h : Ends (withTags .template TemplateRecord.id Template.ofRecord records) trace templates) :
    TagsEach records trace templates := by
  induction records generalizing trace templates with
  | nil =>
      obtain ⟨rfl, rfl⟩ := Routine.ends_pure.1 h
      exact .nil
  | cons r rest ih =>
      obtain ⟨tags, own, tail, rfl, htags, htail⟩ := ends_bind.1 h
      obtain ⟨others, more, last, rfl, hmore, hlast⟩ := ends_bind.1 htail
      obtain ⟨rfl, rfl⟩ := Routine.ends_pure.1 hlast
      obtain ⟨reply, hcall, hgives⟩ := ends_tagsOf htags
      rw [List.append_nil]
      exact .cons hcall (Template.shows_iff.2 rfl) hgives (ih hmore)

theorem ends_templateBatches_cons {zoneId : String} {filter : TemplateFilter}
    {filters : List TemplateFilter} {outcomes : List (Except CallError (List TemplateRecord))}
    (h : Ends (templateBatches zoneId (filter :: filters)) trace outcomes) :
    ∃ batch others own rest, trace = own ++ rest ∧ outcomes = batch :: others ∧
      Ends (call (.listTemplates { filter, zoneId := some zoneId })) own batch ∧
      Ends (templateBatches zoneId filters) rest others := by
  obtain ⟨batch, own, rest, rfl, hcall, hrest⟩ := ends_bind.1 h
  obtain ⟨others, rest, last, rfl, hothers, hlast⟩ := ends_bind.1 hrest
  obtain ⟨rfl, rfl⟩ := Routine.ends_pure.1 hlast
  exact ⟨batch, others, own, rest, by rw [List.append_nil], rfl, hcall, hothers⟩

theorem ends_templateBatches {zoneId : String}
    {outcomes : List (Except CallError (List TemplateRecord))}
    (h : Ends (templateBatches zoneId templateFilters) trace outcomes) :
    ∃ b : TemplateBatches, outcomes = [b.featured, b.community, b.selfOwned] ∧
      b.Listed zoneId trace := by
  obtain ⟨featured, outcomes, first, rest, rfl, rfl, hfeatured, hrest⟩ :=
    ends_templateBatches_cons h
  obtain ⟨community, outcomes, second, rest, rfl, rfl, hcommunity, hrest⟩ :=
    ends_templateBatches_cons hrest
  obtain ⟨selfOwned, outcomes, third, rest, rfl, rfl, hselfOwned, hrest⟩ :=
    ends_templateBatches_cons hrest
  obtain ⟨rfl, rfl⟩ := Routine.ends_pure.1 hrest
  rw [List.append_nil]
  exact ⟨⟨featured, community, selfOwned⟩, rfl, .intro hfeatured hcommunity hselfOwned⟩

theorem exists_withTags (tags : String → Except CallError (List ResourceTag))
    (records : List TemplateRecord) :
    ∃ trace, Ends (withTags .template TemplateRecord.id Template.ofRecord records) trace
      (records.map fun r => Template.ofRecord r (tagsIn (tags r.id))) := by
  induction records with
  | nil => exact ⟨[], Routine.ends_pure.2 ⟨rfl, rfl⟩⟩
  | cons r rest ih =>
      obtain ⟨tail, htail⟩ := ih
      have htags : Ends (tagsOf r.id .template)
          (callExchanges (.listTags ⟨r.id, .template⟩) 0 0 .elapsed (tags r.id) ++ [])
          (tagsIn (tags r.id)) := by
        refine ends_bind.2 ⟨tags r.id, _, [], rfl, ends_callExchanges _ _, ?_⟩
        cases tags r.id <;> exact Routine.ends_pure.2 ⟨rfl, rfl⟩
      refine ⟨_, ends_bind.2 ⟨_, _, tail ++ [], rfl, htags, ?_⟩⟩
      exact ends_bind.2 ⟨_, tail, [], rfl, htail, Routine.ends_pure.2 ⟨rfl, rfl⟩⟩

end Program

/-- Every three batches may be listed. -/
theorem TemplateBatches.exists_listed (b : TemplateBatches) (zoneId : String) :
    ∃ listing, Ends (Program.templateBatches zoneId templateFilters) listing
      [b.featured, b.community, b.selfOwned] ∧ b.Listed zoneId listing := by
  have hlisting : ∃ listing, Ends (Program.templateBatches zoneId templateFilters) listing
      [b.featured, b.community, b.selfOwned] := by
    have hcons {filter : TemplateFilter} {filters : List TemplateFilter}
        {others : List (Except CallError (List TemplateRecord))}
        (batch : Except CallError (List TemplateRecord))
        (h : ∃ rest, Ends (Program.templateBatches zoneId filters) rest others) :
        ∃ trace, Ends (Program.templateBatches zoneId (filter :: filters)) trace
          (batch :: others) := by
      obtain ⟨rest, hrest⟩ := h
      refine ⟨_, ends_bind.2 ⟨batch, _, rest ++ [], rfl,
        Program.ends_callExchanges (.listTemplates { filter, zoneId := some zoneId }) batch, ?_⟩⟩
      exact ends_bind.2 ⟨others, rest, [], rfl, hrest, Routine.ends_pure.2 ⟨rfl, rfl⟩⟩
    exact hcons _ (hcons _ (hcons _ ⟨[], Routine.ends_pure.2 ⟨rfl, rfl⟩⟩))
  obtain ⟨listing, h⟩ := hlisting
  obtain ⟨other, hother, hlisted⟩ := Program.ends_templateBatches h
  obtain ⟨rfl⟩ : other = b := by
    obtain ⟨featured, community, selfOwned⟩ := other
    simpa [TemplateBatches.ext_iff, eq_comm] using hother
  exact ⟨listing, h, hlisted⟩

/-- What three listings come to. If all of them failed it is the error of the last one, and no tags
are listed. Otherwise it is the first record of every identifier in the batches that arrived, each
with its tags. -/
inductive TemplateOutcome (zone : String) (b : TemplateBatches) :
    List (Exchange fleetSignature) → Except ResourceError (List Template) → Prop
  | unlisted {e : CallError} (failed : b.FailedWith e) :
      TemplateOutcome zone b [] (.error (.call s!"list templates in zone {zone}" e))
  | listed {tagging : List (Exchange fleetSignature)} {records : List TemplateRecord}
      {templates : List Template} (arrived : ∀ e, ¬b.FailedWith e)
      (first : FirstRecords b.arrived records) (tagged : TagsEach records tagging templates) :
      TemplateOutcome zone b tagging (.ok templates)

namespace Fleet

/-- The cache in which a fleet keeps templates. -/
abbrev templateCache (f : Fleet) : fleetSignature.CacheName := (⟨f.owner, .templates⟩ : CacheId)

/-- The key under which the templates of a zone are kept. -/
abbrev templateKey (zone : String) : String := s!"templates-{zone}"

/-- What a listing goes through that finds nothing in the cache: it takes the lock, fetches, and stores
what it has fetched. -/
def missing (f : Fleet) (zone : String) (own : List (Exchange fleetSignature))
    (r : Except ResourceError (List Template)) : List (Exchange fleetSignature) :=
  misses f.templateCache (templateKey zone) ++ own ++
    closing f.templateCache (templateKey zone) f.cacheTtl r

/-- How the templates of a zone are fetched: the zone is looked up, and where it is found its templates
are listed under the three filters. -/
inductive TemplateCourse (f : Fleet) (zone : String) :
    List (Exchange fleetSignature) → Except ResourceError (List Template) → Prop
  | unplaced {look : List (Exchange fleetSignature)} {e : ResourceError}
      (looked : Ends (f.lookupZone zone).run look (.error e)) :
      TemplateCourse f zone look (.error e)
  | placed {look listing tagging : List (Exchange fleetSignature)} {found : Zone}
      {b : TemplateBatches} {r : Except ResourceError (List Template)}
      (looked : Ends (f.lookupZone zone).run look (.ok found))
      (listed : b.Listed found.id listing) (outcome : TemplateOutcome zone b tagging r) :
      TemplateCourse f zone (look ++ (listing ++ tagging)) r

variable {f : Fleet} {zone : String} {trace : List (Exchange fleetSignature)}
  {r : Except ResourceError (List Template)}

theorem course_of_fetchTemplates (h : Ends (f.fetchTemplates zone).run trace r) :
    f.TemplateCourse zone trace r := by
  rcases ends_run_bind.1 h with ⟨e, rfl, hlook⟩ | ⟨found, look, rest, rfl, hlook, hrest⟩
  · exact .unplaced hlook
  obtain ⟨outcomes, listing, tagging, rfl, hlisting, hjoined⟩ := ends_lift_bind.1 hrest
  obtain ⟨b, rfl, hlisted⟩ := Program.ends_templateBatches hlisting
  rcases b.joinBatches_eq with ⟨e, hfailed, hjoin⟩ | ⟨harrived, hjoin⟩
  · rw [hjoin] at hjoined
    obtain ⟨rfl, rfl⟩ := ends_run_throw.1 hjoined
    exact .placed hlook hlisted (.unlisted hfailed)
  · rw [hjoin] at hjoined
    obtain ⟨templates, htagged, rfl⟩ := ends_run_lift.1 hjoined
    exact .placed hlook hlisted
      (.listed harrived (firstRecords_iff.2 rfl) (Program.ends_withTags htagged))

/-- The cache of templates is left alone while templates are fetched. -/
theorem leaves_fetchTemplates (f : Fleet) (zone : String) :
    Obeys (Leaves f.templateCache) (fun _ => True) (f.fetchTemplates zone).run := by
  have hcalls {α : Type} {ops : List Cloud.Operation} {p : Program α} {yields : α → Prop}
      (h : Obeys (Program.CallsPlainly ops) yields p) :
      Obeys (Leaves f.templateCache) (fun _ => True) p := by
    refine h.mono (fun request hrequest => ?_) fun _ _ => trivial
    cases request with
    | act action => exact fun h => (nomatch h)
    | _ => first | exact hrequest.elim | exact fun h => (nomatch h)
  have hzones : Obeys (Leaves f.templateCache) (fun _ => True)
      f.zones.run := by
    refine Routine.leaves_cached (fun h => by cases h) ?_
    exact obeys_then (hcalls (obeys_tryCall _ (List.mem_singleton_self _))) fun _ => trivial
  have hlook : Obeys (Leaves f.templateCache) (fun _ => True)
      (f.lookupZone zone).run :=
    obeys_then hzones fun zones => (obeys_findOrThrow zones _ _ _).mono (fun _ => id) fun _ _ => trivial
  refine obeys_then hlook fun found => ?_
  refine obeys_then (Routine.obeys_run_lift
    (hcalls (obeys_templateBatches _ _ (List.mem_singleton_self _)))) fun batches => ?_
  cases joinBatches batches with
  | ok records =>
      exact Routine.obeys_run_lift (hcalls (obeys_withTags _ (List.mem_singleton_self _)))
  | error e => trivial

/-- Every outcome of the three listings, and every tags, may be met once the zone is found. -/
theorem exists_templates_of_batches {look : List (Exchange fleetSignature)} {found : Zone}
    (looked : Ends (f.lookupZone zone).run look (.ok found)) (b : TemplateBatches)
    (tags : String → Except CallError (List ResourceTag)) :
    ∃ listing tagging r, b.Listed found.id listing ∧ TemplateOutcome zone b tagging r ∧
      (∀ templates, r = .ok templates → ∀ t ∈ templates, GivesTags (tags t.id) t.tags) ∧
      Ends (f.templates zone).run (f.missing zone (look ++ (listing ++ tagging)) r) r := by
  obtain ⟨listing, hlisting, hlisted⟩ := b.exists_listed found.id
  rcases b.joinBatches_eq with ⟨e, hfailed, hjoin⟩ | ⟨harrived, hjoin⟩
  · refine ⟨listing, [], _, hlisted, .unlisted hfailed, fun _ h => (nomatch h),
      Routine.ends_cached_of_fetch (ends_run_bind.2 (.inr ⟨found, look, _, rfl, looked, ?_⟩))⟩
    refine ends_lift_bind.2 ⟨_, listing, [], rfl, hlisting, ?_⟩
    rw [hjoin]
    exact ends_run_throw.2 ⟨rfl, rfl⟩
  · obtain ⟨tagging, htagging⟩ := Program.exists_withTags tags (firstPerKey (·.id) b.arrived)
    refine ⟨listing, tagging, _, hlisted,
      .listed harrived (firstRecords_iff.2 rfl) (Program.ends_withTags htagging), ?_,
      Routine.ends_cached_of_fetch (ends_run_bind.2 (.inr ⟨found, look, _, rfl, looked, ?_⟩))⟩
    · rintro templates htemplates t ht
      obtain rfl := Except.ok.inj htemplates
      obtain ⟨record, -, rfl⟩ := List.mem_map.1 ht
      exact givesTags_iff.2 rfl
    · refine ends_lift_bind.2 ⟨_, listing, tagging, rfl, hlisting, ?_⟩
      rw [hjoin]
      exact ends_run_lift.2 ⟨_, htagging, rfl⟩

end Fleet

section Memory

/-- A cloud has just these templates, and can list them under every filter that is used. -/
structure Cloud.Inventory.Offers (inv : Inventory) (records : List TemplateRecord) : Prop where
  templates : inv.templates = records
  works : inv.failure? .listTemplates = none
  filters : ∀ filter ∈ templateFilters, filter ∉ inv.failingFilters

instance (inv : Inventory) (records : List TemplateRecord) : Decidable (inv.Offers records) :=
  decidable_of_iff
    (inv.templates = records ∧ inv.failure? .listTemplates = none ∧
      ∀ filter ∈ templateFilters, filter ∉ inv.failingFilters)
    ⟨fun ⟨templates, works, filters⟩ => ⟨templates, works, filters⟩,
      fun h => ⟨h.templates, h.works, h.filters⟩⟩

/-- What is listed under a filter are the templates of the zone that it covers. -/
theorem Cloud.Inventory.Offers.serve {inv : Inventory} {records : List TemplateRecord}
    (offers : inv.Offers records) {filter : TemplateFilter} (used : filter ∈ templateFilters)
    (today : Instant) (zoneId : String) :
    ∃ batch : List TemplateRecord,
      (inv.serve today (.listTemplates { filter, zoneId := some zoneId })).1 = .ok batch ∧
      ∀ id, id ∈ batch.map (·.id) ↔
        ∃ t ∈ records, filter.covers t = true ∧ t.zoneId = zoneId ∧ t.id = id := by
  have hserve : (inv.serve today (.listTemplates { filter, zoneId := some zoneId })).1 =
      inv.listTemplates { filter, zoneId := some zoneId } := by
    rw [Inventory.serve_of_failure?_eq_none today offers.works]
    rfl
  have hfilter : ¬inv.failingFilters.contains filter = true := by
    rw [List.contains_iff_mem]
    exact offers.filters filter used
  rw [hserve, Inventory.listTemplates, if_neg hfilter]
  refine ⟨_, rfl, fun id => ?_⟩
  simp only [List.map_map, List.mem_map, List.mem_filter, offers.templates, Cloud.admits,
    Bool.and_eq_true, decide_eq_true_eq, Function.comp_apply, and_true, and_assoc]

variable {zoneId : String} {b : TemplateBatches} {listing : List (Exchange fleetSignature)}
  {events : List (Event fleetWorld)} {i : Nat} {records : List TemplateRecord}

/-- Every template of a zone is covered by one of the filters, so the three batches have it. -/
theorem TemplateBatches.Listed.covers (listed : b.Listed zoneId listing)
    (within : ∀ x ∈ listing, x ∈ traceOf i events)
    (offers : ∀ e ∈ turnsOf i events, e.before.world.cloud.Offers records) :
    (∀ e, ¬b.FailedWith e) ∧
      ∀ id, id ∈ b.arrived.map (·.id) ↔ ∃ t ∈ records, t.zoneId = zoneId ∧ t.id = id := by
  have hbatch {filter : TemplateFilter} {own : List (Exchange fleetSignature)}
      {reply : Except CallError (List TemplateRecord)} (used : filter ∈ templateFilters)
      (h : Ends (Program.call (.listTemplates { filter, zoneId := some zoneId })) own reply)
      (hown : ∀ x ∈ own, x ∈ listing) :
      ∃ batch : List TemplateRecord, reply = .ok batch ∧ ∀ id, id ∈ batch.map (·.id) ↔
        ∃ t ∈ records, filter.covers t = true ∧ t.zoneId = zoneId ∧ t.id = id := by
    have hserved := Answered.served (ends_call h).2.2.1 (by simp [Cloud.Call.operation])
      ((delayed_traceOf i events).sub fun x hx => within x (hown x hx))
    obtain ⟨e, he, hexchange⟩ := exists_turn_of_mem (within _ (hown _ hserved))
    rw [← Event.served hexchange]
    exact (offers e he).serve used e.before.world.today zoneId
  cases listed with
  | intro hfeatured hcommunity hselfOwned =>
      obtain ⟨featured, hfeatured, memFeatured⟩ :=
        hbatch (by decide) hfeatured fun x hx => by simp [hx]
      obtain ⟨community, hcommunity, memCommunity⟩ :=
        hbatch (by decide) hcommunity fun x hx => by simp [hx]
      obtain ⟨selfOwned, hselfOwned, memSelfOwned⟩ :=
        hbatch (by decide) hselfOwned fun x hx => by simp [hx]
      have harrived : b.arrived = featured ++ community ++ selfOwned := by
        rw [TemplateBatches.arrived, hfeatured, hcommunity, hselfOwned]
        rfl
      refine ⟨fun e hfailed => ?_, fun id => ?_⟩
      · obtain ⟨first, hfirst⟩ := hfailed.1
        cases hfeatured.symm.trans hfirst
      · rw [harrived, List.map_append, List.map_append, List.mem_append, List.mem_append,
          memFeatured, memCommunity, memSelfOwned]
        constructor
        · rintro ((⟨t, ht, -, hzone⟩ | ⟨t, ht, -, hzone⟩) | ⟨t, ht, -, hzone⟩) <;>
            exact ⟨t, ht, hzone⟩
        · rintro ⟨t, ht, hzone⟩
          by_cases featured : t.isFeatured = true
          · exact .inl (.inl ⟨t, ht, featured, hzone⟩)
          by_cases community : t.isPublic = true
          · exact .inl (.inr ⟨t, ht, community, hzone⟩)
          · exact .inr ⟨t, ht, by simp [TemplateFilter.covers, featured, community], hzone⟩

end Memory

/-- A listing of the templates of a zone that is carried out from a state on in which its cache is cold
for the zone, next to others who do not store templates of the zone. -/
structure ListsCold (f : Fleet) (zone : String) (s : FleetState) (i : Nat)
    (events : List (Event fleetWorld))
    (d : Config fleetWorld (Except ResourceError (List Template)))
    (r : Except ResourceError (List Template)) : Prop where
  steps : ∃ ps : List (Program (Except ResourceError (List Template))),
    ps[i]? = some (f.templates zone).run ∧ Steps (Config.start s ps) events d
  done : d.routines[i]? = some (.done r)
  cold : s.Cold f.templateCache (Fleet.templateKey zone)
  others : ∀ e ∈ events, e.routine ≠ i →
    ¬e.request.Writes f.templateCache (Fleet.templateKey zone)

namespace ListsCold

variable {f : Fleet} {zone : String} {s : FleetState} {i : Nat}
  {events : List (Event fleetWorld)}
  {d : Config fleetWorld (Except ResourceError (List Template))}
  {r : Except ResourceError (List Template)}

theorem course (h : ListsCold f zone s i events d r) :
    ∃ own, f.TemplateCourse zone own r ∧ traceOf i events = f.missing zone own r := by
  obtain ⟨⟨ps, own, steps⟩, done, cold, others⟩ := h
  obtain ⟨trace, hfetch, htrace⟩ := steps.fetches_cold own done cold others
  exact ⟨trace, Fleet.course_of_fetchTemplates hfetch, htrace⟩

/-- A listing that fails leaves the cache cold. -/
theorem cold_of_error (h : ListsCold f zone s i events d r) {e : ResourceError}
    (failed : r = .error e) : d.shared.Cold f.templateCache (Fleet.templateKey zone) := by
  subst failed
  obtain ⟨⟨ps, own, steps⟩, done, cold, others⟩ := h
  refine steps.cold (cold.start ps) fun x hx hwrites => ?_
  by_cases hown : x.routine = i
  · have hedits := Routine.edits?_ne_of_ends_error (f.leaves_fetchTemplates zone)
      (steps.ends own done) (List.mem_map_of_mem (mem_turnsOf.2 ⟨hx, hown⟩))
    exact hedits (Request.edits?_of_writes hwrites)
  · exact others x hx hown hwrites

end ListsCold

/-- A listing of templates that finds nothing in the cache looks its zone up and lists the zone under
the three filters. It fails just when the zone is not found, or when all three listings fail, with the
error of the last; then it stores nothing. Otherwise it stores and yields the first record of every
identifier in the batches that arrived, each with its tags. Every outcome of the listings may be met,
and from free locks a listing comes to an end. Of a cloud in memory that can list its templates under
every filter it yields just the identifiers of the zone. -/
theorem cold_template_listing (f : Fleet) (zone : String) :
    (∀ trace r, Ends (f.templates zone).run trace r →
      (∀ found, ⟨.read f.templateCache (Fleet.templateKey zone), found⟩ ∈ trace → found = none) →
        ∃ own, f.TemplateCourse zone own r ∧ trace = f.missing zone own r) ∧
    (∀ look found (b : TemplateBatches) (tags : String → Except CallError (List ResourceTag)),
      Ends (f.lookupZone zone).run look (.ok found) →
        ∃ listing tagging r, b.Listed found.id listing ∧ TemplateOutcome zone b tagging r ∧
          (∀ templates, r = .ok templates → ∀ t ∈ templates, GivesTags (tags t.id) t.tags) ∧
          Ends (f.templates zone).run (f.missing zone (look ++ (listing ++ tagging)) r) r) ∧
    (∀ s i events d r, ListsCold f zone s i events d r →
      ∃ own, f.TemplateCourse zone own r ∧ traceOf i events = f.missing zone own r ∧
        ((∃ e, r = .error e) → d.shared.Cold f.templateCache (Fleet.templateKey zone))) ∧
    (∀ s : FleetState, s.Cold f.templateCache (Fleet.templateKey zone) →
      (∀ cache, s.queues cache = []) →
        ∃ events d r, ListsCold f zone s 0 events d r ∧
          s.run [(f.templates zone).run] = (d.shared, d.routines.map Shared.result?)) ∧
    ∀ s i events d r records, ListsCold f zone s i events d r →
      (∀ e ∈ turnsOf i events, e.before.world.cloud.Offers records) →
        (∃ look e, r = .error e ∧ Ends (f.lookupZone zone).run look (.error e) ∧
          traceOf i events = f.missing zone look r) ∨
        ∃ look rest found templates, r = .ok templates ∧
          Ends (f.lookupZone zone).run look (.ok found) ∧
          traceOf i events = f.missing zone (look ++ rest) r ∧
          (templates.map (·.id)).Nodup ∧
          ∀ id, id ∈ templates.map (·.id) ↔ ∃ t ∈ records, t.zoneId = found.id ∧ t.id = id := by
  refine ⟨?_, ?_, ?_, ?_, ?_⟩
  · intro trace r h cold
    obtain ⟨own, hfetch, htrace⟩ := Routine.ends_cached_cold h cold
    exact ⟨own, Fleet.course_of_fetchTemplates hfetch, htrace⟩
  · intro look found b tags looked
    exact Fleet.exists_templates_of_batches looked b tags
  · intro s i events d r h
    obtain ⟨own, hcourse, htrace⟩ := h.course
    exact ⟨own, hcourse, htrace, fun ⟨e, failed⟩ => h.cold_of_error failed⟩
  · intro s cold free
    obtain ⟨events, d, r, steps, hrun, done⟩ :=
      run_ends_first s free (f.orderly_templates zone) (List.forall_mem_nil _)
    refine ⟨events, d, r, ⟨⟨_, rfl, steps⟩, done, cold, fun e he hne => ?_⟩, hrun⟩
    exact absurd (Nat.lt_one_iff.1 (steps.routine_lt he)) hne
  · intro s i events d r records h offers
    obtain ⟨own, hcourse, htrace⟩ := h.course
    cases hcourse with
    | unplaced looked => exact .inl ⟨own, _, rfl, looked, htrace⟩
    | @placed look listing tagging found b r looked listed outcome =>
        have within : ∀ x ∈ listing, x ∈ traceOf i events := by
          intro x hx
          rw [htrace, Fleet.missing]
          simp [hx]
        obtain ⟨unfailed, ids⟩ := listed.covers within offers
        cases outcome with
        | unlisted failed => exact absurd failed (unfailed _)
        | @listed tagging records templates arrived first tagged =>
            refine .inr ⟨look, listing ++ tagging, found, templates, rfl, looked, htrace, ?_⟩
            rw [tagged.ids]
            exact ⟨first.ids.1, fun id => (first.ids.2 id).trans (ids id)⟩

/-- The stocked cloud with a template that two filters cover, two that one filter covers, and one of
another zone. The first is tagged twice under one key, and the tags of the third cannot be listed. -/
def overlappingCloud : Inventory :=
  { stockedCloud with
    templates := [
      { id := "t1", name := "template-1", zoneId := "z1", isFeatured := true, isPublic := true },
      { id := "t2", name := "template-2", zoneId := "z1", isPublic := true },
      { id := "t3", name := "template-3", zoneId := "z1" },
      { id := "t4", name := "template-4", zoneId := "z2", isPublic := true }]
    tags := [⟨"env", "test", "t1", "Template"⟩, ⟨"env", "prod", "t1", "Template"⟩,
      ⟨"env", "prod", "t3", "Template"⟩]
    failingTags := ["t3"] }

/-- The same cloud, where templates cannot be listed under some filters. -/
def filteredCloud (failing : List TemplateFilter) : Inventory :=
  { overlappingCloud with failingFilters := failing }

/-- A listing of the templates of the first zone by one provisioner, next to nobody else. -/
def listingIn (cloud : Inventory) : Config fleetWorld (Except ResourceError (List Template)) :=
  Config.start (.initial (worldOf cloud)) [(stockedProvisioner.fleet.templates "zone-1").run]

theorem listsCold_of_alone {cloud : Inventory} {events : List (Event fleetWorld)}
    {d : Config fleetWorld (Except ResourceError (List Template))}
    {r : Except ResourceError (List Template)} (steps : Steps (listingIn cloud) events d)
    (done : d.routines[0]? = some (.done r)) (alone : ∀ e ∈ events, e.routine = 0) :
    ListsCold stockedProvisioner.fleet "zone-1" (.initial (worldOf cloud)) 0 events d r where
  steps := ⟨_, rfl, steps⟩
  done := done
  cold := rfl
  others e he other := absurd (alone e he) other

/-- A template that two batches have is listed once, with the tag that was set last, and that of
another zone is not. Where one filter fails, what only it covers is missed; where all fail, nothing is
listed or stored. -/
theorem cold_template_listing_of_overlapping :
    (∃ (events : List (Event fleetWorld))
      (d : Config fleetWorld (Except ResourceError (List Template))) (templates : List Template)
      (found : Zone),
      ListsCold stockedProvisioner.fleet "zone-1" (.initial (worldOf overlappingCloud)) 0 events d
        (.ok templates) ∧
      templates.map (fun t => (t.id, t.tags.get? "env")) =
        [("t1", some "prod"), ("t2", none), ("t3", none)] ∧
      ∀ id, id ∈ ["t1", "t2", "t3"] ↔
        ∃ t ∈ overlappingCloud.templates, t.zoneId = found.id ∧ t.id = id) ∧
    (∃ (events : List (Event fleetWorld))
      (d : Config fleetWorld (Except ResourceError (List Template))) (templates : List Template)
      (own : List (Exchange fleetSignature)),
      ListsCold stockedProvisioner.fleet "zone-1" (.initial (worldOf (filteredCloud [.community])))
        0 events d (.ok templates) ∧
      templates.map (fun t => (t.id, t.tags.get? "env")) = [("t1", some "prod"), ("t3", none)] ∧
      stockedProvisioner.fleet.TemplateCourse "zone-1" own (.ok templates) ∧
      traceOf 0 events = stockedProvisioner.fleet.missing "zone-1" own (.ok templates)) ∧
    ∃ (events : List (Event fleetWorld))
      (d : Config fleetWorld (Except ResourceError (List Template))),
      ListsCold stockedProvisioner.fleet "zone-1" (.initial (worldOf (filteredCloud templateFilters)))
        0 events d (.error (.call "list templates in zone zone-1"
          (Inventory.broken "templatefilter self unavailable"))) ∧
      d.shared.Cold stockedProvisioner.fleet.templateCache (Fleet.templateKey "zone-1") := by
  obtain ⟨-, -, courses, -, covered⟩ := cold_template_listing stockedProvisioner.fleet "zone-1"
  refine ⟨?_, ?_, ?_⟩
  · obtain ⟨events, d, steps, ⟨r, hdone, templates, hlisted, htemplates⟩, hevents⟩ :
        ∃ events d, Steps (listingIn overlappingCloud) events d ∧
          (∃ r ∈ d.result? 0, ∃ templates ∈ r.toOption,
            templates.map (fun t => (t.id, t.tags.get? "env")) =
              [("t1", some "prod"), ("t2", none), ("t3", none)]) ∧
          ∀ e ∈ events, e.routine = 0 ∧
            e.before.world.cloud.Offers overlappingCloud.templates :=
      Config.exists_steps_of_follow [.turns 0 38] (by decide +kernel)
    have lists := listsCold_of_alone steps (Config.result?_eq_some_iff.1 hdone)
      fun e he => (hevents e he).1
    rcases covered _ 0 events d r _ lists fun e he => (hevents e (mem_turnsOf.1 he).1).2 with
      ⟨look, e, rfl, -⟩ | ⟨look, rest, found, listed, rfl, -, -, -, hcovered⟩
    · cases hlisted
    · obtain rfl : listed = templates := Option.some.inj hlisted
      have hids : listed.map (·.id) = ["t1", "t2", "t3"] := by
        have hfirst := congrArg (List.map Prod.fst) htemplates
        rwa [List.map_map] at hfirst
      rw [hids] at hcovered
      exact ⟨events, d, listed, found, lists, htemplates, hcovered⟩
  · obtain ⟨events, d, steps, ⟨r, hdone, templates, hlisted, htemplates⟩, alone⟩ :
        ∃ events d, Steps (listingIn (filteredCloud [.community])) events d ∧
          (∃ r ∈ d.result? 0, ∃ templates ∈ r.toOption,
            templates.map (fun t => (t.id, t.tags.get? "env")) =
              [("t1", some "prod"), ("t3", none)]) ∧
          ∀ e ∈ events, e.routine = 0 :=
      Config.exists_steps_of_follow [.turns 0 34] (by decide +kernel)
    have lists := listsCold_of_alone steps (Config.result?_eq_some_iff.1 hdone) alone
    obtain ⟨own, course, htrace, -⟩ := courses _ _ _ _ _ lists
    cases r with
    | error e => cases hlisted
    | ok listed =>
        obtain rfl : listed = templates := Option.some.inj hlisted
        exact ⟨events, d, listed, own, lists, htemplates, course, htrace⟩
  · obtain ⟨events, d, steps, hfailed, alone⟩ :
        ∃ events d, Steps (listingIn (filteredCloud templateFilters)) events d ∧
          d.error? 0 = some (.call "list templates in zone zone-1"
            (Inventory.broken "templatefilter self unavailable")) ∧
          ∀ e ∈ events, e.routine = 0 :=
      Config.exists_steps_of_follow [.turns 0 25] (by decide +kernel)
    have lists := listsCold_of_alone steps (Config.error?_eq_some_iff.1 hfailed) alone
    obtain ⟨own, -, -, cold⟩ := courses _ _ _ _ _ lists
    exact ⟨events, d, lists, cold ⟨_, rfl⟩⟩

end NodeFleet
