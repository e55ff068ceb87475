import NodeFleet.NodeClass.Codec
import NodeFleet.Proofs.Json.Fields
import NodeFleet.Proofs.Selection
import NodeFleet.Resource

/-!
# What a spec resolves to, seen from its canonical text

The canonical text drops empty settings, empty terms and the order of terms. Selection asks for
nothing where a setting is empty, picks nothing for an empty term and picks the same resources in
any order of terms. So two specs with one canonical text resolve alike. Tags are the exception: a
tag with an empty value is dropped from the text and still asked for by the term.
-/

namespace NodeFleet

open Json (Same left? prunedFields)
open Selectable (ResolvedAlike resolve resolve_alike)

namespace Table

/-- Whether every value of the table is a text that is not empty. -/
def Filled (t : Table String) : Prop :=
  ∀ entry ∈ t.entries, entry.2 ≠ ""

instance (t : Table String) : Decidable t.Filled :=
  inferInstanceAs (Decidable (∀ entry ∈ t.entries, entry.2 ≠ ""))

theorem eq_of_entries_perm {V : Type} {t u : Table V} (h : t.entries.Perm u.entries) : t = u := by
  have hentries : t.entries = u.entries := by
    apply List.Perm.eq_of_pairwise ?_ t.ascending u.ascending h
    intro a b _ _ hab hba
    exact absurd (String.lt_trans hab hba) (String.lt_irrefl _)
  cases t
  cases u
  cases hentries
  rfl

/-- A field that holds a text. -/
def textField (entry : String × String) : String × Json :=
  (entry.1, .str entry.2)

theorem textField_injective : Function.Injective textField := by
  rintro ⟨key, value⟩ ⟨key', value'⟩ h
  cases h
  rfl

theorem prunedFields_textField {entries : List (String × String)}
    (h : ∀ entry ∈ entries, entry.2 ≠ "") :
    prunedFields (entries.map textField) = entries.map textField := by
  induction entries with
  | nil => rfl
  | cons entry rest ih =>
      have hne : (Json.str entry.2).pruned.isZero = false := by
        simpa [Json.pruned, Json.isZero] using h entry List.mem_cons_self
      rw [List.map_cons, textField, prunedFields, hne, if_neg Bool.false_ne_true,
        ih fun e he => h e (List.mem_cons_of_mem _ he)]
      rfl

theorem left?_encode_of_isEmpty {t : Table String} (h : t.isEmpty = true) :
    left? (encode t) = none := by
  change left? (.obj (t.entries.map textField)) = none
  rw [List.isEmpty_iff.1 h]
  rfl

theorem left?_encode {t : Table String} (h : t.Filled) :
    left? (encode t) =
      if t.isEmpty then none else some (.obj (t.entries.map textField)) := by
  change left? (.obj (t.entries.map textField)) = _
  rw [left?, Json.pruned, prunedFields_textField h, Json.isZero, List.isEmpty_map]
  rfl

theorem eq_of_forall₂_same {entries : List (String × String)} {fields : List (String × Json)}
    (keys : (entries.map textField).map Prod.fst = fields.map Prod.fst)
    (paired : List.Forall₂ Same ((entries.map textField).map Prod.snd) (fields.map Prod.snd)) :
    entries.map textField = fields := by
  induction entries generalizing fields with
  | nil =>
      cases fields with
      | nil => rfl
      | cons field rest => cases keys
  | cons entry entries ih =>
      cases fields with
      | nil => cases keys
      | cons field rest =>
          obtain ⟨hkey, hkeys⟩ := List.cons.inj keys
          obtain ⟨hvalue, hvalues⟩ := List.forall₂_cons.1 paired
          have hfield : textField entry = field := by
            obtain ⟨key, value⟩ := field
            cases hvalue
            exact Prod.ext hkey rfl
          rw [List.map_cons, hfield, ih hkeys hvalues]

/-- Tables without empty values are told apart by what is left of their JSON forms. -/
theorem eq_of_rel_left? {t u : Table String} (ht : t.Filled) (hu : u.Filled)
    (h : Option.Rel Same (left? (encode t)) (left? (encode u))) : t = u := by
  rw [left?_encode ht, left?_encode hu] at h
  by_cases hte : t.isEmpty = true <;> by_cases hue : u.isEmpty = true
  · apply eq_of_entries_perm
    rw [List.isEmpty_iff.1 hte, List.isEmpty_iff.1 hue]
  · rw [if_pos hte, if_neg hue] at h
    cases h
  · rw [if_neg hte, if_pos hue] at h
    cases h
  · rw [if_neg hte, if_neg hue] at h
    cases h with
    | some hsame =>
        cases hsame with
        | obj keys paired order =>
            rw [← eq_of_forall₂_same keys paired] at order
            exact eq_of_entries_perm ((List.map_perm_map_iff textField_injective).1 order)

end Table

theorem bind_left?_str (text : Option String) :
    (text.bind fun s => left? (encode s)) = (nonEmpty? text).map Json.str := by
  cases text with
  | none => rfl
  | some s =>
      change left? (.str s) = _
      rw [Json.left?_str]
      by_cases h : s = "" <;> simp [nonEmpty?, Option.filter, h]

theorem eq_of_rel_map_str {x y : Option String}
    (h : Option.Rel Same (x.map Json.str) (y.map Json.str)) : x = y := by
  cases x <;> cases y <;> cases h
  · rfl
  case some hsame =>
      cases hsame
      rfl

namespace TemplateTerm

/-- The fields of the JSON form of a term. -/
def fields (t : TemplateTerm) : List (String × Json) :=
  Json.fieldUnless t.tags.isEmpty "tags" t.tags
    ++ Json.fieldOf? "id" t.id
    ++ Json.fieldOf? "name" t.name
    ++ Json.fieldOf? "osType" t.osType

theorem keys_fields_nodup (t : TemplateTerm) : (t.fields.map Prod.fst).Nodup := by
  have hkeys : (t.fields.map Prod.fst).Sublist ["tags", "id", "name", "osType"] := by
    simp only [fields, List.map_append]
    exact (((Json.keys_fieldUnless_sublist _ "tags" _).append
      (Json.keys_fieldOf?_sublist "id" _)).append
      (Json.keys_fieldOf?_sublist "name" _)).append (Json.keys_fieldOf?_sublist "osType" _)
  exact List.Nodup.sublist hkeys (by decide)

theorem lookup_id (t : TemplateTerm) :
    (prunedFields t.fields).lookup "id" = t.criteria.id.map Json.str := by
  simp [fields, Json.prunedFields_append, List.lookup_append, Json.lookup_fieldUnless,
    Json.lookup_fieldOf?, bind_left?_str, criteria]

theorem lookup_name (t : TemplateTerm) :
    (prunedFields t.fields).lookup "name" = t.criteria.name.map Json.str := by
  simp [fields, Json.prunedFields_append, List.lookup_append, Json.lookup_fieldUnless,
    Json.lookup_fieldOf?, bind_left?_str, criteria]

theorem lookup_osType (t : TemplateTerm) :
    (prunedFields t.fields).lookup "osType" = t.criteria.osType.map Json.str := by
  simp [fields, Json.prunedFields_append, List.lookup_append, Json.lookup_fieldUnless,
    Json.lookup_fieldOf?, bind_left?_str, criteria]

theorem lookup_tags (t : TemplateTerm) :
    (prunedFields t.fields).lookup "tags" = left? (encode t.criteria.tags) := by
  have hempty : t.tags.isEmpty = true → left? (encode t.tags) = none :=
    Table.left?_encode_of_isEmpty
  cases he : t.tags.isEmpty <;>
    simp [fields, Json.prunedFields_append, List.lookup_append, Json.lookup_fieldUnless,
      Json.lookup_fieldOf?, criteria, he, hempty]

/-- Terms of which the same is left ask for the same. -/
theorem criteria_eq_of_rel_left? {t u : TemplateTerm} (ht : t.tags.Filled) (hu : u.tags.Filled)
    (h : Option.Rel Same (left? (encode t)) (left? (encode u))) : t.criteria = u.criteria := by
  have hlookup (key : String) :
      Option.Rel Same ((prunedFields t.fields).lookup key) ((prunedFields u.fields).lookup key) :=
    Json.rel_lookup_of_rel_left? h t.keys_fields_nodup key
  have hid := hlookup "id"
  have hname := hlookup "name"
  have hos := hlookup "osType"
  have htags := hlookup "tags"
  rw [lookup_id, lookup_id] at hid
  rw [lookup_name, lookup_name] at hname
  rw [lookup_osType, lookup_osType] at hos
  rw [lookup_tags, lookup_tags] at htags
  rw [Criteria.mk.injEq]
  exact ⟨eq_of_rel_map_str hid, eq_of_rel_map_str hname, eq_of_rel_map_str hos,
    Table.eq_of_rel_left? ht hu htags⟩

/-- A term of which nothing is left asks for nothing. -/
theorem criteria_eq_blank {t : TemplateTerm} (ht : t.tags.Filled)
    (h : (encode t).pruned.isZero = true) : t.criteria = .blank := by
  have hblank : (encode ({} : TemplateTerm)).pruned.isZero = true := rfl
  apply criteria_eq_of_rel_left? (u := {}) ht (fun entry hentry => nomatch hentry)
  rw [Json.left?_eq_none.2 h, Json.left?_eq_none.2 hblank]
  exact .none

/-- What a list of terms asks for is asked for by every list of which the same is left. -/
theorem mem_criteria_of_rel_left? {ts us : List TemplateTerm} (hts : ∀ t ∈ ts, t.tags.Filled)
    (hus : ∀ u ∈ us, u.tags.Filled) (h : Option.Rel Same (left? (encode ts)) (left? (encode us)))
    {c : Criteria} (hc : c ≠ .blank) (hmem : c ∈ ts.map criteria) : c ∈ us.map criteria := by
  obtain ⟨t, ht, rfl⟩ := List.mem_map.1 hmem
  have hleft : (encode t).pruned.isZero = false := by
    rw [← Bool.not_eq_true]
    exact fun hzero => hc (criteria_eq_blank (hts t ht) hzero)
  obtain ⟨y, hy, hsame⟩ :=
    Json.exists_same_of_rel_left? h (List.mem_map_of_mem (f := encode) ht) hleft
  obtain ⟨u, hu, rfl⟩ := List.mem_map.1 hy
  rw [criteria_eq_of_rel_left? (hts t ht) (hus u hu)]
  · exact List.mem_map_of_mem hu
  · rw [Json.left?_of_isZero_eq_false hleft,
      Json.left?_of_isZero_eq_false (hsame.isZero_eq ▸ hleft)]
    exact .some hsame

end TemplateTerm

namespace SelectorTerm

/-- The template term that asks for the same. -/
def widen (t : SelectorTerm) : TemplateTerm :=
  { t with osType := none }

theorem encode_widen (t : SelectorTerm) : encode t.widen = encode t := by
  change Json.obj (_ ++ []) = _
  rw [List.append_nil]
  rfl

theorem encode_map_widen (ts : List SelectorTerm) : encode (ts.map widen) = encode ts := by
  change Json.arr ((ts.map widen).map encode) = Json.arr (ts.map encode)
  rw [List.map_map]
  congr 2
  exact funext encode_widen

theorem map_criteria_widen (ts : List SelectorTerm) :
    (ts.map widen).map TemplateTerm.criteria = ts.map criteria := by
  rw [List.map_map]
  rfl

theorem mem_criteria_of_rel_left? {ts us : List SelectorTerm} (hts : ∀ t ∈ ts, t.tags.Filled)
    (hus : ∀ u ∈ us, u.tags.Filled) (h : Option.Rel Same (left? (encode ts)) (left? (encode us)))
    {c : Criteria} (hc : c ≠ .blank) (hmem : c ∈ ts.map criteria) : c ∈ us.map criteria := by
  rw [← encode_map_widen ts, ← encode_map_widen us] at h
  rw [← map_criteria_widen] at hmem ⊢
  apply TemplateTerm.mem_criteria_of_rel_left? _ _ h hc hmem
  · exact List.forall_mem_map.2 hts
  · exact List.forall_mem_map.2 hus

end SelectorTerm

namespace NodeClassSpec

/-- Whether no selector term asks for a tag with an empty value. -/
structure TagsFilled (s : NodeClassSpec) : Prop where
  network : ∀ t ∈ s.networkTerms, t.tags.Filled
  offering : ∀ t ∈ s.offeringTerms, t.tags.Filled
  template : ∀ t ∈ s.templateTerms, t.tags.Filled

/-- The fields of the JSON form of a spec. -/
def fields (s : NodeClassSpec) : List (String × Json) :=
  Json.field "zone" s.zone
    ++ Json.field "networkSelectorTerms" s.networkTerms
    ++ Json.field "serviceOfferingSelectorTerms" s.offeringTerms
    ++ Json.field "templateSelectorTerms" s.templateTerms
    ++ Json.fieldOf? "userData" s.userData
    ++ Json.fieldUnless s.tags.isEmpty "tags" s.tags
    ++ Json.fieldOf? "rootDiskSize" s.rootDiskSize
    ++ Json.fieldOf? "diskOffering" s.diskOffering
    ++ Json.fieldOf? "sshKeyPair" s.sshKeyPair

theorem keys_fields_nodup (s : NodeClassSpec) : (s.fields.map Prod.fst).Nodup := by
  have hkeys : (s.fields.map Prod.fst).Sublist
      (["zone", "networkSelectorTerms", "serviceOfferingSelectorTerms", "templateSelectorTerms"]
        ++ ["userData"] ++ ["tags"] ++ ["rootDiskSize"] ++ ["diskOffering"] ++ ["sshKeyPair"]) := by
    simp only [fields, List.map_append]
    refine List.Sublist.append ?_ (Json.keys_fieldOf?_sublist "sshKeyPair" _)
    refine List.Sublist.append ?_ (Json.keys_fieldOf?_sublist "diskOffering" _)
    refine List.Sublist.append ?_ (Json.keys_fieldOf?_sublist "rootDiskSize" _)
    refine List.Sublist.append ?_ (Json.keys_fieldUnless_sublist _ "tags" _)
    refine List.Sublist.append ?_ (Json.keys_fieldOf?_sublist "userData" _)
    exact List.Sublist.refl _
  exact List.Nodup.sublist hkeys (by decide)

section Lookup

variable (s : NodeClassSpec)

theorem lookup_zone : (prunedFields s.fields).lookup "zone" = left? (encode s.zone) := by
  simp [fields, Json.prunedFields_append, List.lookup_append, Json.lookup_field,
    Json.lookup_fieldUnless, Json.lookup_fieldOf?]

theorem lookup_networkTerms :
    (prunedFields s.fields).lookup "networkSelectorTerms" = left? (encode s.networkTerms) := by
  simp [fields, Json.prunedFields_append, List.lookup_append, Json.lookup_field,
    Json.lookup_fieldUnless, Json.lookup_fieldOf?]

theorem lookup_offeringTerms :
    (prunedFields s.fields).lookup "serviceOfferingSelectorTerms" =
      left? (encode s.offeringTerms) := by
  simp [fields, Json.prunedFields_append, List.lookup_append, Json.lookup_field,
    Json.lookup_fieldUnless, Json.lookup_fieldOf?]

theorem lookup_templateTerms :
    (prunedFields s.fields).lookup "templateSelectorTerms" = left? (encode s.templateTerms) := by
  simp [fields, Json.prunedFields_append, List.lookup_append, Json.lookup_field,
    Json.lookup_fieldUnless, Json.lookup_fieldOf?]

end Lookup

section SameText

variable {a b : NodeClassSpec} (same : (encode a).canonical? = (encode b).canonical?)
include same

theorem rel_lookup (key : String) :
    Option.Rel Same ((prunedFields a.fields).lookup key) ((prunedFields b.fields).lookup key) :=
  Json.rel_lookup_of_rel_left? (Json.rel_left?_of_canonical?_eq same) a.keys_fields_nodup key

theorem zone_eq : a.zone = b.zone := by
  have h := rel_lookup same "zone"
  rw [lookup_zone, lookup_zone] at h
  change Option.Rel Same ((some a.zone).bind fun s => left? (encode s))
    ((some b.zone).bind fun s => left? (encode s)) at h
  rw [bind_left?_str, bind_left?_str] at h
  have hzone := eq_of_rel_map_str h
  by_cases ha : a.zone = "" <;> by_cases hb : b.zone = "" <;>
    simp_all [nonEmpty?, Option.filter]

theorem mem_network_criteria (ha : a.TagsFilled) (hb : b.TagsFilled) {c : Criteria}
    (hc : c ≠ .blank) (hmem : c ∈ a.networkTerms.map SelectorTerm.criteria) :
    c ∈ b.networkTerms.map SelectorTerm.criteria := by
  have h := rel_lookup same "networkSelectorTerms"
  rw [lookup_networkTerms, lookup_networkTerms] at h
  exact SelectorTerm.mem_criteria_of_rel_left? ha.network hb.network h hc hmem

theorem mem_offering_criteria (ha : a.TagsFilled) (hb : b.TagsFilled) {c : Criteria}
    (hc : c ≠ .blank) (hmem : c ∈ a.offeringTerms.map SelectorTerm.criteria) :
    c ∈ b.offeringTerms.map SelectorTerm.criteria := by
  have h := rel_lookup same "serviceOfferingSelectorTerms"
  rw [lookup_offeringTerms, lookup_offeringTerms] at h
  exact SelectorTerm.mem_criteria_of_rel_left? ha.offering hb.offering h hc hmem

theorem mem_template_criteria (ha : a.TagsFilled) (hb : b.TagsFilled) {c : Criteria}
    (hc : c ≠ .blank) (hmem : c ∈ a.templateTerms.map TemplateTerm.criteria) :
    c ∈ b.templateTerms.map TemplateTerm.criteria := by
  have h := rel_lookup same "templateSelectorTerms"
  rw [lookup_templateTerms, lookup_templateTerms] at h
  exact TemplateTerm.mem_criteria_of_rel_left? ha.template hb.template h hc hmem

end SameText

/-- Two specs with one canonical text resolve alike against every list of candidates with distinct
identifiers, unless a term asks for a tag with an empty value. -/
theorem resolves_alike_of_canonical_text {a b : NodeClassSpec}
    (same : (encode a).canonical? = (encode b).canonical?) (ha : a.TagsFilled)
    (hb : b.TagsFilled) {R : Type} [Selectable R] {candidates : List R}
    (unique : (candidates.map Selectable.id).Nodup) :
    ResolvedAlike (resolve candidates (a.networkTerms.map SelectorTerm.criteria) a.zone)
        (resolve candidates (b.networkTerms.map SelectorTerm.criteria) b.zone) ∧
      ResolvedAlike (resolve candidates (a.offeringTerms.map SelectorTerm.criteria) a.zone)
        (resolve candidates (b.offeringTerms.map SelectorTerm.criteria) b.zone) ∧
      ResolvedAlike (resolve candidates (a.templateTerms.map TemplateTerm.criteria) a.zone)
        (resolve candidates (b.templateTerms.map TemplateTerm.criteria) b.zone) := by
  rw [zone_eq same]
  refine ⟨resolve_alike unique ?_ _, resolve_alike unique ?_ _, resolve_alike unique ?_ _⟩
  · intro c hc
    exact ⟨mem_network_criteria same ha hb hc, mem_network_criteria same.symm hb ha hc⟩
  · intro c hc
    exact ⟨mem_offering_criteria same ha hb hc, mem_offering_criteria same.symm hb ha hc⟩
  · intro c hc
    exact ⟨mem_template_criteria same ha hb hc, mem_template_criteria same.symm hb ha hc⟩

/-- A spec whose templates are all Linux templates, then one by its identifier. -/
def linuxFirst : NodeClassSpec where
  zone := "z1"
  networkTerms := [.byId "n1", {}]
  templateTerms := [.byOsType "linux", .byId "t2"]

/-- The same spec with its template terms the other way round and some empty settings. -/
def linuxLast : NodeClassSpec where
  zone := "z1"
  networkTerms := [{ id := some "n1", name := some "" }]
  templateTerms := [{ id := some "t2" }, { id := some "", osType := some "linux" }]
  userData := some ""

/-- A usable template. -/
def readyTemplate (id osTypeName : String) : Template :=
  ⟨id, id, "", "z1", "", "", osTypeName, "Download Complete", true, true, false, .empty⟩

theorem linux_terms_resolve_alike :
    (encode linuxFirst).canonical? = (encode linuxLast).canonical? ∧
      linuxFirst.TagsFilled ∧ linuxLast.TagsFilled ∧
      ([readyTemplate "t1" "linux", readyTemplate "t2" "bsd"].map Selectable.id).Nodup ∧
      ResolvedAlike
        (resolve [readyTemplate "t1" "linux", readyTemplate "t2" "bsd"]
          (linuxFirst.templateTerms.map TemplateTerm.criteria) linuxFirst.zone)
        (resolve [readyTemplate "t1" "linux", readyTemplate "t2" "bsd"]
          (linuxLast.templateTerms.map TemplateTerm.criteria) linuxLast.zone) := by
  have same : (encode linuxFirst).canonical? = (encode linuxLast).canonical? := by decide
  have first : linuxFirst.TagsFilled := ⟨by decide, by decide, by decide⟩
  have last : linuxLast.TagsFilled := ⟨by decide, by decide, by decide⟩
  have unique :
      ([readyTemplate "t1" "linux", readyTemplate "t2" "bsd"].map Selectable.id).Nodup := by
    decide
  exact ⟨same, first, last, unique,
    (resolves_alike_of_canonical_text same first last unique).2.2⟩

end NodeClassSpec

end NodeFleet
