import NodeFleet.Proofs.NodeClass.Resolution

/-!
# Specs that differ in nothing but order and zero values

Two specs are alike when they have the same settings, an empty text, a disk size of zero and an
absent value being no different, the same tags but for empty ones, and lists of terms that agree up
to order once empty settings, empty tags and empty terms are dropped. The canonical text tells
exactly whether two specs are alike, and so does the configuration hash as far as it tells their
canonical texts apart.
-/

namespace NodeFleet

open Json (Same SameField left? prunedFields prunedItems)

namespace Json

theorem Same.refl (j : Json) : Same j j :=
  (sortedText_eq_iff j j).1 rfl

theorem Same.num_eq {m n : Number} (h : Same (.num m) (.num n)) : m = n := by
  cases h
  rfl

theorem rel_same_self (x : Option Json) : Option.Rel Same x x := by
  cases x with
  | none => exact .none
  | some j => exact .some (Same.refl j)

theorem canonical?_eq_map (j : Json) : j.canonical? = j.left?.map sortedText := by
  rw [canonical?_eq, left?]
  split <;> rfl

/-- The canonical text tells what is left of a value, up to order. -/
theorem canonical?_eq_iff (a b : Json) :
    a.canonical? = b.canonical? ↔ Option.Rel Same a.left? b.left? := by
  constructor
  · exact rel_left?_of_canonical?_eq
  · intro h
    rw [canonical?_eq_map, canonical?_eq_map]
    generalize a.left? = x at h ⊢
    generalize b.left? = y at h ⊢
    cases h with
    | none => rfl
    | some same => exact congrArg some same.sortedText_eq

theorem canonical?_ne_empty (j : Json) : j.canonical? ≠ some "" := by
  intro h
  rw [canonical?_eq_map] at h
  obtain ⟨kept, -, hempty⟩ := Option.map_eq_some_iff.1 h
  obtain ⟨c, rest, hc, -⟩ := sortedText_lead kept
  rw [hempty] at hc
  cases hc

/-- Values that are told apart by what they are written as are so under an option as well. -/
theorem rel_map_iff {α : Type} {f : α → Json} (inj : ∀ a b, Same (f a) (f b) → a = b)
    (x y : Option α) : Option.Rel Same (x.map f) (y.map f) ↔ x = y := by
  constructor
  · intro h
    cases x <;> cases y <;> cases h
    · rfl
    case some hsame => rw [inj _ _ hsame]
  · rintro rfl
    exact rel_same_self _

theorem rel_left?_of_same_pruned {a b : Json} (h : Same a.pruned b.pruned) :
    Option.Rel Same a.left? b.left? := by
  rw [left?, left?, h.isZero_eq]
  split
  · exact .none
  · exact .some h

theorem rel_left?_arr_iff (xs ys : List Json) :
    Option.Rel Same (Json.arr xs).left? (Json.arr ys).left? ↔
      Same (Json.arr xs).pruned (Json.arr ys).pruned := by
  refine ⟨fun h => ?_, rel_left?_of_same_pruned⟩
  rw [left?, left?] at h
  split at h <;> split at h <;> cases h
  case some hsame => exact hsame
  case none hx hy =>
    rw [pruned, isZero, List.isEmpty_iff] at hx hy
    rw [pruned, pruned, hx, hy]
    exact Same.refl _

/-- Objects of whose fields the same is left one by one are the same when pruned. -/
theorem same_pruned_obj {fs gs : List (String × Json)}
    (h : List.Forall₂ SameField (prunedFields fs) (prunedFields gs)) :
    Same (Json.obj fs).pruned (Json.obj gs).pruned :=
  Same.obj_of_sorted (.refl _) (.refl _) h

theorem forall₂_field (key : String) {x y : Option Json} (h : Option.Rel Same x y) :
    List.Forall₂ SameField (x.toList.map (Prod.mk key)) (y.toList.map (Prod.mk key)) := by
  cases h with
  | none => exact .nil
  | some same => exact .cons ⟨rfl, same⟩ .nil

section Written

variable {α : Type} [Encode α]

theorem prunedFields_field (key : String) (value : α) :
    prunedFields (field key value) = (left? (encode value)).toList.map (Prod.mk key) :=
  prunedFields_singleton key (encode value)

theorem prunedFields_fieldOf? (key : String) (value : Option α) :
    prunedFields (fieldOf? key value) =
      (value.bind fun v => left? (encode v)).toList.map (Prod.mk key) := by
  cases value with
  | none => rfl
  | some v => exact prunedFields_singleton key (encode v)

end Written

theorem exists_map_of_perm_map {α β : Type} {f : α → β} {zs : List β} {ys : List α}
    (h : zs.Perm (ys.map f)) : ∃ us : List α, us.Perm ys ∧ zs = us.map f := by
  have hys : List.Forall₂ (fun z y => z = f y) (ys.map f) ys :=
    List.forall₂_map_left_iff.2 (List.forall₂_same.2 fun y _ => rfl)
  obtain ⟨us, hus, horder⟩ := List.perm_comp_forall₂ h hys
  refine ⟨us, horder, ?_⟩
  rw [← List.forall₂_eq_eq_eq, List.forall₂_map_right_iff]
  exact hus

/-- Arrays whose elements are told apart as some value of theirs is are the same up to order
exactly if these values are. -/
theorem same_arr_map_iff {α β : Type} {f : α → Json} {g : α → β}
    (told : ∀ x y, Same (f x) (f y) ↔ g x = g y) (xs ys : List α) :
    Same (.arr (xs.map f)) (.arr (ys.map f)) ↔ (xs.map g).Perm (ys.map g) := by
  constructor
  · intro h
    cases h with
    | arr paired order =>
        obtain ⟨us, hus, rfl⟩ := exists_map_of_perm_map order
        rw [List.forall₂_map_left_iff, List.forall₂_map_right_iff] at paired
        rw [map_eq_of_forall₂ (fun x _ u => (told x u).1) paired]
        exact hus.map g
  · intro h
    obtain ⟨us, hus, hmap⟩ := exists_map_of_perm_map h
    refine .arr ?_ (hus.map f)
    rw [← List.forall₂_eq_eq_eq, List.forall₂_map_left_iff, List.forall₂_map_right_iff] at hmap
    rw [List.forall₂_map_left_iff, List.forall₂_map_right_iff]
    exact hmap.imp fun x u => (told x u).2

end Json

namespace Table

/-- The table without its empty values. -/
def filled (t : Table String) : Table String :=
  t.filter fun _ value => value ≠ ""

theorem filled_filled (t : Table String) : t.filled.Filled := fun _ hentry =>
  of_decide_eq_true (List.mem_filter.1 hentry).2

theorem prunedFields_filter_textField (entries : List (String × String)) :
    prunedFields (entries.map textField) =
      prunedFields ((entries.filter fun entry => entry.2 ≠ "").map textField) := by
  induction entries with
  | nil => rfl
  | cons entry rest ih =>
      obtain ⟨key, value⟩ := entry
      by_cases hvalue : value = ""
      · rw [List.filter_cons_of_neg (by simp [hvalue]), ← ih]
        simp [textField, prunedFields, Json.pruned, Json.isZero, hvalue]
      · rw [List.filter_cons_of_pos (by simp [hvalue]), List.map_cons, List.map_cons,
          textField, prunedFields, prunedFields, ih]

/-- Empty values are not left in the JSON form of a table. -/
theorem left?_encode_filled (t : Table String) : left? (encode t.filled) = left? (encode t) := by
  change left? (.obj (t.filled.entries.map textField)) = left? (.obj (t.entries.map textField))
  rw [left?, left?, Json.pruned, Json.pruned, prunedFields_filter_textField t.entries]
  rfl

theorem rel_left?_iff (t u : Table String) :
    Option.Rel Same (left? (encode t)) (left? (encode u)) ↔ t.filled = u.filled := by
  rw [← left?_encode_filled t, ← left?_encode_filled u]
  constructor
  · exact eq_of_rel_left? t.filled_filled u.filled_filled
  · intro h
    rw [h]
    exact Json.rel_same_self _

theorem prunedFields_fieldUnless (key : String) (t : Table String) :
    prunedFields (Json.fieldUnless t.isEmpty key t) =
      (left? (encode t)).toList.map (Prod.mk key) := by
  rw [Json.fieldUnless]
  split
  next hempty =>
    rw [left?_encode_of_isEmpty hempty]
    rfl
  next => exact Json.prunedFields_singleton key (encode t)

end Table

theorem rel_map_str_iff (x y : Option String) :
    Option.Rel Same (x.map Json.str) (y.map Json.str) ↔ x = y := by
  refine Json.rel_map_iff ?_ x y
  intro a b h
  cases h
  rfl

/-- A disk size is left unless it is zero. -/
theorem bind_left?_int64 (size : Option Int64) :
    (size.bind fun n => left? (encode n)) = (size.filter fun n => n ≠ 0).map encode := by
  cases size with
  | none => rfl
  | some n =>
      change left? (wholeNumber n.toInt) = _
      by_cases h : n = 0
      · subst h
        rfl
      · have hint : n.toInt ≠ 0 := fun h0 => h (Int64.toInt_inj.1 h0)
        have hzero : (wholeNumber n.toInt).pruned.isZero = false := beq_eq_false_iff_ne.2 hint
        rw [Json.left?_of_isZero_eq_false hzero, Option.filter_some, if_pos (by simpa using h)]
        rfl

theorem rel_map_int64_iff (x y : Option Int64) :
    Option.Rel Same (x.map encode) (y.map encode) ↔ x = y := by
  refine Json.rel_map_iff ?_ x y
  intro a b h
  have hwhole : Json.Number.whole a.toInt = .whole b.toInt := h.num_eq
  exact Int64.toInt_inj.1 (Json.Number.whole.inj hwhole)

namespace Criteria

/-- What is asked for, but for tags with an empty value. -/
def trimmed (c : Criteria) : Criteria :=
  { c with tags := c.tags.filled }

/-- What the terms of a list ask for, but for tags with an empty value and for terms that then ask
for nothing. -/
def kept (cs : List Criteria) : List Criteria :=
  (cs.map trimmed).filter fun c => c ≠ .blank

end Criteria

namespace TemplateTerm

theorem prunedFields_fields (t : TemplateTerm) :
    prunedFields t.fields =
      (left? (encode t.tags)).toList.map (Prod.mk "tags")
        ++ ((nonEmpty? t.id).map Json.str).toList.map (Prod.mk "id")
        ++ ((nonEmpty? t.name).map Json.str).toList.map (Prod.mk "name")
        ++ ((nonEmpty? t.osType).map Json.str).toList.map (Prod.mk "osType") := by
  simp only [fields, Json.prunedFields_append, Table.prunedFields_fieldUnless,
    Json.prunedFields_fieldOf?, bind_left?_str]

/-- The pruned forms of two terms tell exactly whether they ask for the same. -/
theorem same_pruned_iff (t u : TemplateTerm) :
    Same (encode t).pruned (encode u).pruned ↔ t.criteria.trimmed = u.criteria.trimmed := by
  constructor
  · intro h
    have hlookup (key : String) :
        Option.Rel Same ((prunedFields t.fields).lookup key)
          ((prunedFields u.fields).lookup key) :=
      Json.rel_lookup_of_rel_left? (Json.rel_left?_of_same_pruned h) t.keys_fields_nodup key
    have hid := hlookup "id"
    have hname := hlookup "name"
    have hos := hlookup "osType"
    have htags := hlookup "tags"
    rw [lookup_id, lookup_id, rel_map_str_iff] at hid
    rw [lookup_name, lookup_name, rel_map_str_iff] at hname
    rw [lookup_osType, lookup_osType, rel_map_str_iff] at hos
    rw [lookup_tags, lookup_tags, Table.rel_left?_iff] at htags
    rw [Criteria.trimmed, Criteria.trimmed, hid, hname, hos, htags]
  · intro h
    rw [Criteria.trimmed, Criteria.trimmed, Criteria.mk.injEq] at h
    obtain ⟨hid, hname, hos, htags⟩ := h
    apply Json.same_pruned_obj
    rw [← fields, ← fields, prunedFields_fields, prunedFields_fields]
    refine List.rel_append (List.rel_append (List.rel_append ?_ ?_) ?_) ?_
    · exact Json.forall₂_field "tags" ((Table.rel_left?_iff _ _).2 htags)
    · exact Json.forall₂_field "id" ((rel_map_str_iff _ _).2 hid)
    · exact Json.forall₂_field "name" ((rel_map_str_iff _ _).2 hname)
    · exact Json.forall₂_field "osType" ((rel_map_str_iff _ _).2 hos)

/-- A term of which nothing is left is one that asks for nothing. -/
theorem isZero_pruned_iff (t : TemplateTerm) :
    (encode t).pruned.isZero = true ↔ t.criteria.trimmed = .blank := by
  have hblank : ({} : TemplateTerm).criteria.trimmed = .blank := rfl
  rw [← hblank, ← same_pruned_iff]
  constructor
  · intro h
    have hnil : prunedFields t.fields = [] := List.isEmpty_iff.1 h
    change Same (.obj (prunedFields t.fields)) (.obj [])
    rw [hnil]
    exact Same.refl _
  · intro h
    rw [h.isZero_eq]
    rfl

theorem prunedItems_encode (ts : List TemplateTerm) :
    prunedItems (ts.map encode) =
      (ts.filter fun t => t.criteria.trimmed ≠ .blank).map fun t => (encode t).pruned := by
  induction ts with
  | nil => rfl
  | cons t ts ih =>
      rw [List.map_cons, prunedItems, ih]
      split
      next hzero =>
        have hblank := (isZero_pruned_iff t).1 hzero
        rw [List.filter_cons_of_neg (by simp [hblank])]
      next hzero =>
        have hblank : t.criteria.trimmed ≠ .blank := fun h => hzero ((isZero_pruned_iff t).2 h)
        rw [List.filter_cons_of_pos (by simp [hblank]), List.map_cons]

theorem kept_criteria (ts : List TemplateTerm) :
    Criteria.kept (ts.map criteria) =
      (ts.filter fun t => t.criteria.trimmed ≠ .blank).map fun t => t.criteria.trimmed := by
  rw [Criteria.kept, List.map_map, List.filter_map]
  rfl

/-- The pruned forms of two lists of terms tell exactly what the terms ask for. -/
theorem rel_left?_terms_iff (ts us : List TemplateTerm) :
    Option.Rel Same (left? (encode ts)) (left? (encode us)) ↔
      (Criteria.kept (ts.map criteria)).Perm (Criteria.kept (us.map criteria)) := by
  rw [kept_criteria, kept_criteria]
  change Option.Rel Same (left? (.arr (ts.map encode))) (left? (.arr (us.map encode))) ↔ _
  rw [Json.rel_left?_arr_iff, Json.pruned, Json.pruned, prunedItems_encode, prunedItems_encode]
  exact Json.same_arr_map_iff same_pruned_iff _ _

end TemplateTerm

theorem SelectorTerm.rel_left?_terms_iff (ts us : List SelectorTerm) :
    Option.Rel Same (left? (encode ts)) (left? (encode us)) ↔
      (Criteria.kept (ts.map criteria)).Perm (Criteria.kept (us.map criteria)) := by
  rw [← encode_map_widen ts, ← encode_map_widen us, ← map_criteria_widen, ← map_criteria_widen]
  exact TemplateTerm.rel_left?_terms_iff _ _

namespace NodeClassSpec

/-- Two specs differ in nothing but the order of terms and zero values. -/
structure Alike (a b : NodeClassSpec) : Prop where
  zone : a.zone = b.zone
  networkTerms : (Criteria.kept (a.networkTerms.map SelectorTerm.criteria)).Perm
    (Criteria.kept (b.networkTerms.map SelectorTerm.criteria))
  offeringTerms : (Criteria.kept (a.offeringTerms.map SelectorTerm.criteria)).Perm
    (Criteria.kept (b.offeringTerms.map SelectorTerm.criteria))
  templateTerms : (Criteria.kept (a.templateTerms.map TemplateTerm.criteria)).Perm
    (Criteria.kept (b.templateTerms.map TemplateTerm.criteria))
  userData : nonEmpty? a.userData = nonEmpty? b.userData
  tags : a.tags.filled = b.tags.filled
  rootDiskSize : (a.rootDiskSize.filter fun n => n ≠ 0) = b.rootDiskSize.filter fun n => n ≠ 0
  diskOffering : nonEmpty? a.diskOffering = nonEmpty? b.diskOffering
  sshKeyPair : nonEmpty? a.sshKeyPair = nonEmpty? b.sshKeyPair

section Lookup

variable (s : NodeClassSpec)

theorem lookup_userData :
    (prunedFields s.fields).lookup "userData" = (nonEmpty? s.userData).map Json.str := by
  simp [fields, Json.prunedFields_append, List.lookup_append, Json.lookup_field,
    Json.lookup_fieldUnless, Json.lookup_fieldOf?, bind_left?_str]

theorem lookup_tags : (prunedFields s.fields).lookup "tags" = left? (encode s.tags) := by
  have hempty : s.tags.isEmpty = true → left? (encode s.tags) = none :=
    Table.left?_encode_of_isEmpty
  cases he : s.tags.isEmpty <;>
    simp [fields, Json.prunedFields_append, List.lookup_append, Json.lookup_field,
      Json.lookup_fieldUnless, Json.lookup_fieldOf?, he, hempty]

theorem lookup_rootDiskSize :
    (prunedFields s.fields).lookup "rootDiskSize" =
      (s.rootDiskSize.filter fun n => n ≠ 0).map encode := by
  rw [← bind_left?_int64]
  simp [fields, Json.prunedFields_append, List.lookup_append, Json.lookup_field,
    Json.lookup_fieldUnless, Json.lookup_fieldOf?]

theorem lookup_diskOffering :
    (prunedFields s.fields).lookup "diskOffering" = (nonEmpty? s.diskOffering).map Json.str := by
  simp [fields, Json.prunedFields_append, List.lookup_append, Json.lookup_field,
    Json.lookup_fieldUnless, Json.lookup_fieldOf?, bind_left?_str]

theorem lookup_sshKeyPair :
    (prunedFields s.fields).lookup "sshKeyPair" = (nonEmpty? s.sshKeyPair).map Json.str := by
  simp [fields, Json.prunedFields_append, List.lookup_append, Json.lookup_field,
    Json.lookup_fieldUnless, Json.lookup_fieldOf?, bind_left?_str]

end Lookup

theorem prunedFields_fields (s : NodeClassSpec) :
    prunedFields s.fields =
      (left? (encode s.zone)).toList.map (Prod.mk "zone")
        ++ (left? (encode s.networkTerms)).toList.map (Prod.mk "networkSelectorTerms")
        ++ (left? (encode s.offeringTerms)).toList.map (Prod.mk "serviceOfferingSelectorTerms")
        ++ (left? (encode s.templateTerms)).toList.map (Prod.mk "templateSelectorTerms")
        ++ ((nonEmpty? s.userData).map Json.str).toList.map (Prod.mk "userData")
        ++ (left? (encode s.tags)).toList.map (Prod.mk "tags")
        ++ ((s.rootDiskSize.filter fun n => n ≠ 0).map encode).toList.map (Prod.mk "rootDiskSize")
        ++ ((nonEmpty? s.diskOffering).map Json.str).toList.map (Prod.mk "diskOffering")
        ++ ((nonEmpty? s.sshKeyPair).map Json.str).toList.map (Prod.mk "sshKeyPair") := by
  simp only [fields, Json.prunedFields_append, Json.prunedFields_field,
    Table.prunedFields_fieldUnless, Json.prunedFields_fieldOf?, bind_left?_str, bind_left?_int64]

theorem Alike.same_pruned {a b : NodeClassSpec} (h : a.Alike b) :
    Same (encode a).pruned (encode b).pruned := by
  apply Json.same_pruned_obj
  rw [← fields, ← fields, prunedFields_fields, prunedFields_fields, h.zone]
  refine List.rel_append (List.rel_append (List.rel_append (List.rel_append (List.rel_append
    (List.rel_append (List.rel_append (List.rel_append ?_ ?_) ?_) ?_) ?_) ?_) ?_) ?_) ?_
  · exact Json.forall₂_field _ (Json.rel_same_self _)
  · exact Json.forall₂_field _ ((SelectorTerm.rel_left?_terms_iff _ _).2 h.networkTerms)
  · exact Json.forall₂_field _ ((SelectorTerm.rel_left?_terms_iff _ _).2 h.offeringTerms)
  · exact Json.forall₂_field _ ((TemplateTerm.rel_left?_terms_iff _ _).2 h.templateTerms)
  · exact Json.forall₂_field _ ((rel_map_str_iff _ _).2 h.userData)
  · exact Json.forall₂_field _ ((Table.rel_left?_iff _ _).2 h.tags)
  · exact Json.forall₂_field _ ((rel_map_int64_iff _ _).2 h.rootDiskSize)
  · exact Json.forall₂_field _ ((rel_map_str_iff _ _).2 h.diskOffering)
  · exact Json.forall₂_field _ ((rel_map_str_iff _ _).2 h.sshKeyPair)

theorem alike_of_canonical?_eq {a b : NodeClassSpec}
    (same : (encode a).canonical? = (encode b).canonical?) : a.Alike b where
  zone := zone_eq same
  networkTerms := by
    have h := rel_lookup same "networkSelectorTerms"
    rwa [lookup_networkTerms, lookup_networkTerms, SelectorTerm.rel_left?_terms_iff] at h
  offeringTerms := by
    have h := rel_lookup same "serviceOfferingSelectorTerms"
    rwa [lookup_offeringTerms, lookup_offeringTerms, SelectorTerm.rel_left?_terms_iff] at h
  templateTerms := by
    have h := rel_lookup same "templateSelectorTerms"
    rwa [lookup_templateTerms, lookup_templateTerms, TemplateTerm.rel_left?_terms_iff] at h
  userData := by
    have h := rel_lookup same "userData"
    rwa [lookup_userData, lookup_userData, rel_map_str_iff] at h
  tags := by
    have h := rel_lookup same "tags"
    rwa [lookup_tags, lookup_tags, Table.rel_left?_iff] at h
  rootDiskSize := by
    have h := rel_lookup same "rootDiskSize"
    rwa [lookup_rootDiskSize, lookup_rootDiskSize, rel_map_int64_iff] at h
  diskOffering := by
    have h := rel_lookup same "diskOffering"
    rwa [lookup_diskOffering, lookup_diskOffering, rel_map_str_iff] at h
  sshKeyPair := by
    have h := rel_lookup same "sshKeyPair"
    rwa [lookup_sshKeyPair, lookup_sshKeyPair, rel_map_str_iff] at h

/-- The canonical text forgets order and zero values and nothing else of a spec. -/
theorem canonical?_eq_iff_alike (a b : NodeClassSpec) :
    (encode a).canonical? = (encode b).canonical? ↔ a.Alike b := by
  refine ⟨alike_of_canonical?_eq, fun h => ?_⟩
  rw [Json.canonical?_eq_iff]
  exact Json.rel_left?_of_same_pruned h.same_pruned

/-- The text the hash of a spec is taken over. -/
def hashedText (s : NodeClassSpec) : String :=
  (encode s).canonical?.getD ""

theorem hashedText_eq_iff_alike (a b : NodeClassSpec) :
    a.hashedText = b.hashedText ↔ a.Alike b := by
  rw [← canonical?_eq_iff_alike]
  refine ⟨fun h => ?_, fun h => by rw [hashedText, hashedText, h]⟩
  have ha := Json.canonical?_ne_empty (encode a)
  have hb := Json.canonical?_ne_empty (encode b)
  rw [hashedText, hashedText] at h
  cases hx : (encode a).canonical? <;> cases hy : (encode b).canonical? <;>
    simp_all

/-- Whether the hash tells the texts of two specs apart if they differ. -/
def HashSeparates (a b : NodeClassSpec) : Prop :=
  ConfigHash.ofText a.hashedText = ConfigHash.ofText b.hashedText → a.hashedText = b.hashedText

/-- As far as the hash tells texts apart, it sees every difference but order and zero values. -/
theorem hash_eq_iff_alike {a b : NodeClassSpec} (separates : HashSeparates a b) :
    a.hash = b.hash ↔ a.Alike b := by
  rw [← hashedText_eq_iff_alike]
  exact ⟨separates, congrArg ConfigHash.ofText⟩

end NodeClassSpec

end NodeFleet
