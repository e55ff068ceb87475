import NodeFleet.Fleet.Listing
import NodeFleet.Proofs.Picks
import NodeFleet.Proofs.Table

/-!
# Resources and their records

What a fleet works with are resources that are made of the records that the cloud lists. A resource
shows its record field by field, and it has the tags that were listed for it: of tags with one key the
last one. Of templates that arrive in three batches the first record of every identifier counts, in
the order in which they arrive. These relations are stated here without the functions that make the
resources, and each of these functions is shown to give the one thing that is related.
-/

namespace NodeFleet

open Cloud (CallError ResourceTag NetworkRecord TemplateRecord)
open Selectable (IsFirst firstPerKey_sublist firstPerKey_map mem_firstPerKey_of_ordered)

section Tags

variable {table : Table String} {tags : List ResourceTag}

/-- A table has the tags of a list: the value of a key is that of the last tag with the key. -/
def HoldsTags (table : Table String) (tags : List ResourceTag) : Prop :=
  ∀ key value, table.get? key = some value ↔
    ∃ before tag after, tags = before ++ tag :: after ∧ tag.key = key ∧ tag.value = value ∧
      ∀ later ∈ after, later.key ≠ key

theorem holdsTags_tagTable (tags : List ResourceTag) : HoldsTags (tagTable tags) tags := by
  intro key value
  rw [tagTable, Table.get?_ofList_eq_some_iff]
  constructor
  · rintro ⟨before, after, hcut, last⟩
    obtain ⟨before, rest, rfl, rfl, hrest⟩ := List.map_eq_append_iff.1 hcut
    obtain ⟨tag, after, rfl, htag, rfl⟩ := List.map_eq_cons_iff.1 hrest
    obtain ⟨hkey, hvalue⟩ := Prod.mk.inj htag
    exact ⟨before, tag, after, rfl, hkey, hvalue,
      fun later hlater => last _ (List.mem_map_of_mem hlater)⟩
  · rintro ⟨before, tag, after, rfl, rfl, rfl, last⟩
    refine ⟨before.map fun t => (t.key, t.value), after.map fun t => (t.key, t.value), ?_, ?_⟩
    · rw [List.map_append, List.map_cons]
    · exact List.forall_mem_map.2 last

theorem HoldsTags.eq_tagTable (h : HoldsTags table tags) : table = tagTable tags :=
  Table.eq_of_get?_eq fun key => Option.ext fun value =>
    (h key value).trans (holdsTags_tagTable tags key value).symm

/-- The tags that an answer to the question for them gives: those that are listed, and none if it is an
error. -/
inductive GivesTags : Except CallError (List ResourceTag) → Table String → Prop
  | listed {tags : List ResourceTag} {table : Table String} (holds : HoldsTags table tags) :
      GivesTags (.ok tags) table
  | unlisted {e : CallError} : GivesTags (.error e) .empty

/-- The tags that are made of an answer. -/
def tagsIn : Except CallError (List ResourceTag) → Table String
  | .ok tags => tagTable tags
  | .error _ => .empty

theorem givesTags_iff {reply : Except CallError (List ResourceTag)} :
    GivesTags reply table ↔ table = tagsIn reply := by
  constructor
  · rintro (holds | _)
    · exact holds.eq_tagTable
    · rfl
  · rintro rfl
    cases reply with
    | ok tags => exact .listed (holdsTags_tagTable tags)
    | error e => exact .unlisted

end Tags

/-- A network shows the fields of a record. -/
structure Network.Shows (n : Network) (r : NetworkRecord) : Prop where
  id : n.id = r.id
  name : n.name = r.name
  zone : n.zone = r.zoneName
  zoneId : n.zoneId = r.zoneId
  networkType : n.networkType = r.networkType
  state : n.state = r.state
  cidr : n.cidr = r.cidr
  gateway : n.gateway = r.gateway

theorem Network.shows_iff {n : Network} {r : NetworkRecord} :
    n.Shows r ↔ n = .ofRecord r n.tags := by
  constructor
  · rintro ⟨id, name, zone, zoneId, networkType, state, cidr, gateway⟩
    rw [ofRecord, ← id, ← name, ← zone, ← zoneId, ← networkType, ← state, ← cidr, ← gateway]
  · intro h
    rw [h]
    exact ⟨rfl, rfl, rfl, rfl, rfl, rfl, rfl, rfl⟩

/-- A template shows the fields of a record. -/
structure Template.Shows (t : Template) (r : TemplateRecord) : Prop where
  id : t.id = r.id
  name : t.name = r.name
  displayText : t.displayText = r.displayText
  zone : t.zone = r.zoneName
  zoneId : t.zoneId = r.zoneId
  osType : t.osType = r.osTypeId
  osTypeName : t.osTypeName = r.osTypeName
  status : t.status = r.status
  isReady : t.isReady = r.isReady
  isPublic : t.isPublic = r.isPublic
  isFeatured : t.isFeatured = r.isFeatured

theorem Template.shows_iff {t : Template} {r : TemplateRecord} :
    t.Shows r ↔ t = .ofRecord r t.tags := by
  constructor
  · rintro ⟨id, name, displayText, zone, zoneId, osType, osTypeName, status, isReady, isPublic,
      isFeatured⟩
    rw [ofRecord, ← id, ← name, ← displayText, ← zone, ← zoneId, ← osType, ← osTypeName, ← status,
      ← isReady, ← isPublic, ← isFeatured]
  · intro h
    rw [h]
    exact ⟨rfl, rfl, rfl, rfl, rfl, rfl, rfl, rfl, rfl, rfl, rfl⟩

/-- Records are the first ones of every identifier in a list: those at places before which no other
has the identifier, in the order of the places. -/
def FirstRecords (arrived records : List TemplateRecord) : Prop :=
  ∃ places : List (TemplateRecord × Nat), places.Pairwise (fun p q => p.2 < q.2) ∧
    (∀ p, p ∈ places ↔ IsFirst arrived (fun r => r.id = p.1.id) p.2 p.1) ∧
    records = places.map Prod.fst

section FirstRecords

variable {arrived records : List TemplateRecord}

theorem pairwise_zipIdx (arrived : List TemplateRecord) :
    arrived.zipIdx.Pairwise fun p q => p.2 < q.2 := by
  rw [List.pairwise_iff_getElem]
  intro i j hi hj hij
  simpa using hij

theorem isFirst_iff_zipIdx {p : TemplateRecord × Nat} :
    IsFirst arrived (fun r => r.id = p.1.id) p.2 p.1 ↔
      p ∈ arrived.zipIdx ∧ ∀ q ∈ arrived.zipIdx, q.1.id = p.1.id → ¬q.2 < p.2 := by
  have hmem (q : TemplateRecord × Nat) : q ∈ arrived.zipIdx ↔ arrived[q.2]? = some q.1 :=
    List.mem_zipIdx_iff_getElem?
  constructor
  · intro h
    refine ⟨(hmem p).2 h.here, fun q hq hid hlt => ?_⟩
    exact h.first q.2 hlt q.1 ((hmem q).1 hq) hid
  · rintro ⟨hp, hfirst⟩
    refine ⟨(hmem p).1 hp, rfl, fun earlier hlt other hother hid => ?_⟩
    exact hfirst (other, earlier) ((hmem _).2 hother) hid hlt

/-- The first record of every identifier with its place in a list. -/
def firstPlaces (arrived : List TemplateRecord) : List (TemplateRecord × Nat) :=
  firstPerKey (fun p => p.1.id) arrived.zipIdx

theorem pairwise_firstPlaces (arrived : List TemplateRecord) :
    (firstPlaces arrived).Pairwise fun p q => p.2 < q.2 :=
  (pairwise_zipIdx arrived).sublist (firstPerKey_sublist _)

theorem mem_firstPlaces {p : TemplateRecord × Nat} :
    p ∈ firstPlaces arrived ↔ IsFirst arrived (fun r => r.id = p.1.id) p.2 p.1 := by
  rw [isFirst_iff_zipIdx]
  exact mem_firstPerKey_of_ordered (fun p => Nat.lt_irrefl p.2) (fun h => Nat.lt_asymm h)
    (pairwise_zipIdx arrived) p

theorem map_fst_firstPlaces (arrived : List TemplateRecord) :
    (firstPlaces arrived).map Prod.fst = firstPerKey (·.id) arrived :=
  calc (firstPlaces arrived).map Prod.fst
      = firstPerKey (·.id) (arrived.zipIdx.map Prod.fst) :=
        (firstPerKey_map Prod.fst arrived.zipIdx).symm
    _ = firstPerKey (·.id) arrived := by rw [List.zipIdx_map_fst]

theorem nodup_of_ascending {places : List (TemplateRecord × Nat)}
    (h : places.Pairwise fun p q => p.2 < q.2) : places.Nodup := by
  apply h.imp
  rintro p q hpq rfl
  exact Nat.lt_irrefl p.2 hpq

/-- What is kept of every identifier are the first records, and there are no others. -/
theorem firstRecords_iff : FirstRecords arrived records ↔ records = firstPerKey (·.id) arrived := by
  rw [← map_fst_firstPlaces]
  have ordered := pairwise_firstPlaces arrived
  constructor
  · rintro ⟨places, ascending, mem_places, rfl⟩
    congr 1
    apply List.Perm.eq_of_pairwise (fun p q _ _ hpq hqp => absurd hqp (Nat.lt_asymm hpq))
      ascending ordered
    rw [List.perm_ext_iff_of_nodup (nodup_of_ascending ascending) (nodup_of_ascending ordered)]
    intro p
    rw [mem_places, mem_firstPlaces]
  · rintro rfl
    exact ⟨firstPlaces arrived, ordered, fun _ => mem_firstPlaces, rfl⟩

theorem FirstRecords.mem {r : TemplateRecord} (h : FirstRecords arrived records)
    (hr : r ∈ records) : r ∈ arrived := by
  obtain ⟨places, -, first, rfl⟩ := h
  obtain ⟨place, hplace, rfl⟩ := List.mem_map.1 hr
  exact List.mem_of_getElem? ((first place).1 hplace).here

/-- Every identifier of a list is that of one first record. -/
theorem FirstRecords.ids (h : FirstRecords arrived records) :
    (records.map (·.id)).Nodup ∧ ∀ id, id ∈ records.map (·.id) ↔ id ∈ arrived.map (·.id) := by
  obtain rfl := firstRecords_iff.1 h
  refine ⟨nodup_map_firstPerKey arrived, fun id => ⟨fun hid => ?_, fun hid => ?_⟩⟩
  · obtain ⟨r, hr, rfl⟩ := List.mem_map.1 hid
    exact List.mem_map_of_mem (mem_of_mem_firstPerKey hr)
  · obtain ⟨r, hr, rfl⟩ := List.mem_map.1 hid
    obtain ⟨kept, hkept, hid⟩ : ∃ kept ∈ firstPerKey (·.id) arrived, kept.id = r.id :=
      exists_mem_firstPerKey hr
    exact List.mem_map.2 ⟨kept, hkept, hid⟩

end FirstRecords

/-- What the listings of the templates of a zone under the three filters are answered. -/
@[ext]
structure TemplateBatches where
  featured : Except CallError (List TemplateRecord)
  community : Except CallError (List TemplateRecord)
  selfOwned : Except CallError (List TemplateRecord)

namespace TemplateBatches

variable (b : TemplateBatches)

/-- All three have failed, the last one with the error. -/
def FailedWith (e : CallError) : Prop :=
  (∃ first, b.featured = .error first) ∧ (∃ second, b.community = .error second) ∧
    b.selfOwned = .error e

/-- The records of the batches that arrived, in the order of the filters. -/
def arrived : List TemplateRecord :=
  b.featured.toOption.getD [] ++ b.community.toOption.getD [] ++ b.selfOwned.toOption.getD []

theorem mem_arrived {r : TemplateRecord} : r ∈ b.arrived ↔ ∃ batch : List TemplateRecord,
    r ∈ batch ∧ (b.featured = .ok batch ∨ b.community = .ok batch ∨ b.selfOwned = .ok batch) := by
  have hbatch (reply : Except CallError (List TemplateRecord)) :
      r ∈ reply.toOption.getD [] ↔ ∃ batch : List TemplateRecord, r ∈ batch ∧ reply = .ok batch := by
    cases reply <;> simp [Except.toOption]
  simp only [arrived, List.mem_append, hbatch, and_or_left, exists_or, or_assoc]

/-- Joining the batches fails when all of them did, and else yields what arrived. -/
theorem joinBatches_eq :
    (∃ e, b.FailedWith e ∧ joinBatches [b.featured, b.community, b.selfOwned] = .error e) ∨
      (∀ e, ¬b.FailedWith e) ∧
        joinBatches [b.featured, b.community, b.selfOwned] = .ok b.arrived := by
  obtain ⟨featured, community, selfOwned⟩ := b
  cases featured <;> cases community <;> cases selfOwned <;>
    simp [joinBatches, FailedWith, arrived, Except.toOption]

end TemplateBatches

end NodeFleet
