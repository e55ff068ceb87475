import Mathlib.Data.List.Nodup
import Mathlib.Data.List.Pairwise
import NodeFleet.Proofs.NodeClass.Resolution

/-!
# What is resolved, place by place

A pick has a place: the position of the term that makes it, then the position of the candidate.
Which picks there are is said here without any search: by the first candidate of an identifier, by
the first of a name when no candidate has the identifier, by operating system and tags when none
has the name either. The resources resolved are those of the earliest pick of every identifier, in
the order of the places, the usable ones. Identifiers and names of candidates may repeat.
-/

namespace NodeFleet

namespace Selectable

variable {R : Type} [Selectable R]

/-- A candidate that is picked, with the place of the pick. -/
structure Pick (R : Type) where
  term : Nat
  position : Nat
  resource : R

/-- Whether a setting asks for the text; an empty text is not asked for. -/
def Asks (setting : Option String) (wanted : String) : Prop :=
  setting = some wanted ∧ wanted ≠ ""

/-- Whether the candidate at the position is the first one with the property. -/
structure IsFirst (candidates : List R) (P : R → Prop) (position : Nat) (r : R) : Prop where
  here : candidates[position]? = some r
  holds : P r
  first : ∀ earlier < position, ∀ other, candidates[earlier]? = some other → ¬P other

/-- Whether the tags have every wanted key with the wanted value, or with some value that is not
empty where a star is wanted. -/
def Bears (tags wanted : Table String) : Prop :=
  ∀ want ∈ wanted.entries, ∃ value, tags.get? want.1 = some value ∧
    (value = want.2 ∨ want.2 = "*" ∧ value ≠ "")

/-- Whether no candidate has the text that a setting asks for. -/
def NoneWith (candidates : List R) (key : R → String) (setting : Option String) : Prop :=
  ∀ wanted, Asks setting wanted → ∀ r ∈ candidates, key r ≠ wanted

/-- Whether the term picks the candidate at the position. -/
inductive Picks (candidates : List R) (t : TemplateTerm) (position : Nat) (r : R) : Prop
  | byId {wanted : String} (asked : Asks t.id wanted)
      (found : IsFirst candidates (fun other => id other = wanted) position r)
  | byName {wanted : String} (unidentified : NoneWith candidates id t.id)
      (asked : Asks t.name wanted)
      (found : IsFirst candidates (fun other => name other = wanted) position r)
  | byTraits (unidentified : NoneWith candidates id t.id)
      (unnamed : NoneWith candidates name t.name)
      (asking : t.tags.entries ≠ [] ∨ ∃ os, Asks t.osType os)
      (here : candidates[position]? = some r)
      (system : ∀ os, Asks t.osType os → hasOsType r os)
      (tagged : Bears (tags r) t.tags)

theorem Picks.mem {candidates : List R} {t : TemplateTerm} {position : Nat} {r : R}
    (h : Picks candidates t position r) : r ∈ candidates := by
  cases h with
  | byId _ found => exact List.mem_of_getElem? found.here
  | byName _ _ found => exact List.mem_of_getElem? found.here
  | byTraits _ _ _ here => exact List.mem_of_getElem? here

namespace Pick

/-- Whether a pick is made at an earlier place: by an earlier term, or by the same term of an
earlier candidate. -/
def Before (p q : Pick R) : Prop :=
  p.term < q.term ∨ p.term = q.term ∧ p.position < q.position

omit [Selectable R] in
theorem Before.irrefl {p : Pick R} : ¬p.Before p := by
  rintro (h | ⟨_, h⟩) <;> exact Nat.lt_irrefl _ h

omit [Selectable R] in
theorem Before.asymm {p q : Pick R} (h : p.Before q) : ¬q.Before p := by
  rcases h with h | ⟨he, h⟩ <;> rintro (h' | ⟨he', h'⟩) <;> omega

/-- A pick stands for its resource. -/
instance : Selectable (Pick R) where
  kind := kind R
  id p := id p.resource
  name p := name p.resource
  tags p := tags p.resource
  hasOsType p := hasOsType p.resource
  isUsable p := isUsable p.resource

end Pick

/-- Whether one of the terms makes the pick. -/
def Made (candidates : List R) (terms : List TemplateTerm) (p : Pick R) : Prop :=
  ∃ t, terms[p.term]? = some t ∧ Picks candidates t p.position p.resource

/-- Whether the pick is the earliest one that the terms make of its identifier. -/
structure Earliest (candidates : List R) (terms : List TemplateTerm) (p : Pick R) : Prop where
  made : Made candidates terms p
  earliest : ∀ q, Made candidates terms q → id q.resource = id p.resource → ¬q.Before p

/-- Whether these are the usable ones among the earliest picks of every identifier, in the order of
their places. -/
structure Chosen (candidates : List R) (terms : List TemplateTerm) (picks : List (Pick R)) :
    Prop where
  ordered : picks.Pairwise Pick.Before
  mem_iff : ∀ p, p ∈ picks ↔ Earliest candidates terms p ∧ isUsable p.resource = true

/-- The outcome with these picks: their resources, or no match if there are none. -/
def outcomeOf (picks : List (Pick R)) (zone : String) : Except ResourceError (List R) :=
  if picks = [] then .error (.noMatch (kind R) zone) else .ok (picks.map Pick.resource)

section FirstPerKey

variable {α β : Type} {key : β → String}

theorem firstPerKey_sublist (items : List β) : (firstPerKey key items).Sublist items := by
  induction items with
  | nil => exact .slnil
  | cons a rest ih => exact (List.filter_sublist.trans ih).cons_cons a

theorem firstPerKey_map (f : α → β) (items : List α) :
    firstPerKey key (items.map f) = (firstPerKey (fun a => key (f a)) items).map f := by
  induction items with
  | nil => rfl
  | cons a rest ih =>
      rw [List.map_cons, firstPerKey, firstPerKey, ih, List.map_cons, List.filter_map]
      rfl

/-- Of a list in order, what is kept is what has nothing of its key before it. -/
theorem mem_firstPerKey_of_ordered {before : β → β → Prop} (irrefl : ∀ b, ¬before b b)
    (asymm : ∀ {a b}, before a b → ¬before b a) {items : List β} (ordered : items.Pairwise before)
    (x : β) :
    x ∈ firstPerKey key items ↔ x ∈ items ∧ ∀ y ∈ items, key y = key x → ¬before y x := by
  induction ordered with
  | nil => simp [firstPerKey]
  | @cons a rest hall _ ih =>
      rw [firstPerKey, List.mem_cons, List.mem_filter, ih, decide_eq_true_iff]
      constructor
      · rintro (rfl | ⟨⟨hx, hfirst⟩, hkey⟩)
        · refine ⟨List.mem_cons_self, fun y hy _ => ?_⟩
          rcases List.mem_cons.1 hy with rfl | hy
          · exact irrefl y
          · exact asymm (hall y hy)
        · refine ⟨List.mem_cons_of_mem a hx, fun y hy hyx => ?_⟩
          rcases List.mem_cons.1 hy with rfl | hy
          · exact absurd hyx.symm hkey
          · exact hfirst y hy hyx
      · rintro ⟨hx, hfirst⟩
        rcases List.mem_cons.1 hx with rfl | hx
        · exact .inl rfl
        · refine .inr ⟨⟨hx, fun y hy => hfirst y (List.mem_cons_of_mem a hy)⟩, fun hkey => ?_⟩
          exact hfirst a List.mem_cons_self hkey.symm (hall x hx)

end FirstPerKey

section Criteria

theorem nonEmpty?_eq_some {setting : Option String} {wanted : String} :
    nonEmpty? setting = some wanted ↔ Asks setting wanted := by
  simp [nonEmpty?, Asks, Option.filter_eq_some_iff]

theorem tagsSatisfy_iff {tags wanted : Table String} :
    tagsSatisfy tags wanted = true ↔ Bears tags wanted := by
  rw [tagsSatisfy, List.all_eq_true]
  refine forall₂_congr fun want _ => ?_
  cases tags.get? want.1 with
  | none => simp
  | some value => simp [or_comm]

end Criteria

section Numbered

/-- The candidates with their positions, as what one term may pick. -/
def numbered (term : Nat) (candidates : List R) : List (Pick R) :=
  candidates.mapIdx fun position r => ⟨term, position, r⟩

omit [Selectable R] in
theorem getElem?_numbered (term : Nat) (candidates : List R) (position : Nat) :
    (numbered term candidates)[position]? =
      (candidates[position]?).map fun r => ⟨term, position, r⟩ :=
  List.getElem?_mapIdx

omit [Selectable R] in
theorem map_resource_numbered (term : Nat) (candidates : List R) :
    (numbered term candidates).map Pick.resource = candidates := by
  apply List.ext_getElem?
  intro position
  rw [List.getElem?_map, getElem?_numbered, Option.map_map]
  exact Option.map_id'

omit [Selectable R] in
theorem mem_numbered {term : Nat} {candidates : List R} {p : Pick R} :
    p ∈ numbered term candidates ↔ p.term = term ∧ candidates[p.position]? = some p.resource := by
  rw [List.mem_iff_getElem?]
  constructor
  · rintro ⟨position, hp⟩
    rw [getElem?_numbered, Option.map_eq_some_iff] at hp
    obtain ⟨r, hr, rfl⟩ := hp
    exact ⟨rfl, hr⟩
  · rintro ⟨rfl, hr⟩
    exact ⟨p.position, by rw [getElem?_numbered, hr]; rfl⟩

omit [Selectable R] in
theorem pairwise_numbered (term : Nat) (candidates : List R) :
    (numbered term candidates).Pairwise Pick.Before := by
  rw [List.pairwise_iff_getElem]
  intro i j hi hj hij
  simp only [numbered, List.getElem_mapIdx]
  exact .inr ⟨rfl, hij⟩

omit [Selectable R] in
theorem find?_numbered {term : Nat} {candidates : List R} {P : R → Prop} [DecidablePred P]
    {p : Pick R} :
    ((numbered term candidates).find? fun q => P q.resource) = some p ↔
      p.term = term ∧ IsFirst candidates P p.position p.resource := by
  rw [List.find?_eq_some_iff_getElem]
  constructor
  · rintro ⟨hp, position, hposition, rfl, hfirst⟩
    simp only [numbered, List.length_mapIdx, List.getElem_mapIdx] at hp hposition hfirst ⊢
    refine ⟨trivial, List.getElem?_eq_getElem hposition, of_decide_eq_true hp, ?_⟩
    rintro earlier hearlier other hother hP
    obtain ⟨_, rfl⟩ := List.getElem?_eq_some_iff.1 hother
    simpa [hP] using hfirst earlier hearlier
  · rintro ⟨rfl, hhere, hr, hfirst⟩
    obtain ⟨hposition, hhere⟩ := List.getElem?_eq_some_iff.1 hhere
    refine ⟨decide_eq_true hr, p.position, by simpa [numbered] using hposition, ?_, ?_⟩
    · simp only [numbered, List.getElem_mapIdx, hhere]
    · intro earlier hearlier
      have := hfirst earlier hearlier _
        (List.getElem?_eq_getElem (Nat.lt_trans hearlier hposition))
      simpa [numbered] using this

theorem withId?_map (items : List (Pick R)) (c : Criteria) :
    withId? (items.map Pick.resource) c = (withId? items c).map Pick.resource := by
  cases h : c.id with
  | none => simp [withId?, h]
  | some wanted =>
      simp only [withId?, h, Option.bind_some, List.find?_map]
      rfl

theorem withName?_map (items : List (Pick R)) (c : Criteria) :
    withName? (items.map Pick.resource) c = (withName? items c).map Pick.resource := by
  cases h : c.name with
  | none => simp [withName?, h]
  | some wanted =>
      simp only [withName?, h, Option.bind_some, List.find?_map]
      rfl

theorem matching_map (items : List (Pick R)) (c : Criteria) :
    matching (items.map Pick.resource) c = (matching items c).map Pick.resource := by
  rw [matching, matching]
  split
  · rfl
  · rw [List.filter_map]
    rfl

/-- A pick among the numbered candidates is the same pick as among the candidates. -/
theorem pick_map (items : List (Pick R)) (c : Criteria) :
    pick (items.map Pick.resource) c = (pick items c).map Pick.resource := by
  rw [pick, pick, withId?_map, withName?_map, matching_map]
  cases withId? items c <;> cases withName? items c <;> rfl

theorem mem_pick {items : List R} {c : Criteria} {r : R} :
    r ∈ pick items c ↔ withId? items c = some r ∨ withId? items c = none ∧
      (withName? items c = some r ∨ withName? items c = none ∧ r ∈ matching items c) := by
  rw [pick]
  cases withId? items c <;> cases withName? items c <;> simp [eq_comm]

section Found

variable {term : Nat} {candidates : List R} {key : R → String} {setting : Option String}

omit [Selectable R] in
theorem found_numbered {p : Pick R} :
    ((nonEmpty? setting).bind fun wanted =>
        (numbered term candidates).find? fun q => key q.resource = wanted) = some p ↔
      p.term = term ∧ ∃ wanted, Asks setting wanted ∧
        IsFirst candidates (fun r => key r = wanted) p.position p.resource := by
  rw [Option.bind_eq_some_iff]
  constructor
  · rintro ⟨wanted, hasked, hfind⟩
    obtain ⟨hterm, hfirst⟩ := (find?_numbered (P := fun r => key r = wanted)).1 hfind
    exact ⟨hterm, wanted, nonEmpty?_eq_some.1 hasked, hfirst⟩
  · rintro ⟨hterm, wanted, hasked, hfirst⟩
    exact ⟨wanted, nonEmpty?_eq_some.2 hasked, find?_numbered.2 ⟨hterm, hfirst⟩⟩

omit [Selectable R] in
theorem found_numbered_eq_none :
    ((nonEmpty? setting).bind fun wanted =>
        (numbered term candidates).find? fun q => key q.resource = wanted) = none ↔
      NoneWith candidates key setting := by
  rw [Option.bind_eq_none_iff]
  refine forall_congr' fun wanted => ?_
  have hall : (∀ q ∈ numbered term candidates, key q.resource ≠ wanted) ↔
      ∀ r ∈ candidates, key r ≠ wanted := by
    rw [← List.forall_mem_map (f := Pick.resource) (P := fun r => key r ≠ wanted),
      map_resource_numbered]
  rw [nonEmpty?_eq_some, ← hall, List.find?_eq_none]
  simp

end Found

/-- A term without an operating system and tags matches nothing. -/
theorem asking_iff {t : TemplateTerm} :
    ¬(t.criteria.osType = none ∧ t.criteria.tags.isEmpty) ↔
      t.tags.entries ≠ [] ∨ ∃ os, Asks t.osType os := by
  rw [not_and_or, ← ne_eq, Option.ne_none_iff_exists', or_comm]
  simp only [TemplateTerm.criteria, nonEmpty?_eq_some, Table.isEmpty, List.isEmpty_iff, ne_eq]

theorem mem_matching {items : List R} {t : TemplateTerm} {r : R} :
    r ∈ matching items t.criteria ↔
      (t.tags.entries ≠ [] ∨ ∃ os, Asks t.osType os) ∧ r ∈ items ∧
        (∀ os, Asks t.osType os → hasOsType r os) ∧ Bears (tags r) t.tags := by
  rw [← asking_iff, matching]
  split
  next hnone => simp [hnone]
  next hsome =>
      have hasked (os : String) : Asks t.osType os ↔ t.criteria.osType = some os :=
        nonEmpty?_eq_some.symm
      have htags : t.criteria.tags = t.tags := rfl
      rw [and_iff_right hsome]
      simp only [List.mem_filter, Bool.and_eq_true, ← tagsSatisfy_iff, hasked, htags]
      cases t.criteria.osType <;> simp

/-- What a term picks among the numbered candidates. -/
theorem mem_pick_numbered {term : Nat} {candidates : List R} {t : TemplateTerm} {p : Pick R} :
    p ∈ pick (numbered term candidates) t.criteria ↔
      p.term = term ∧ Picks candidates t p.position p.resource := by
  have hid : withId? (numbered term candidates) t.criteria = some p ↔ _ := found_numbered
  have hname : withName? (numbered term candidates) t.criteria = some p ↔ _ := found_numbered
  have hnoId : withId? (numbered term candidates) t.criteria = none ↔ _ := found_numbered_eq_none
  have hnoName : withName? (numbered term candidates) t.criteria = none ↔ _ :=
    found_numbered_eq_none
  rw [mem_pick, hid, hname, hnoId, hnoName, mem_matching, mem_numbered]
  constructor
  · rintro (⟨hterm, wanted, hasked, hfirst⟩ | ⟨hid, ⟨hterm, wanted, hasked, hfirst⟩ |
      ⟨hname, hasking, ⟨hterm, hhere⟩, hsystem, htagged⟩⟩)
    · exact ⟨hterm, .byId hasked hfirst⟩
    · exact ⟨hterm, .byName hid hasked hfirst⟩
    · exact ⟨hterm, .byTraits hid hname hasking hhere hsystem htagged⟩
  · rintro ⟨hterm, hasked, hfirst⟩
    case byId => exact .inl ⟨hterm, _, hasked, hfirst⟩
    case byName hid hasked hfirst => exact .inr ⟨hid, .inl ⟨hterm, _, hasked, hfirst⟩⟩
    case byTraits hid hname hasking hhere hsystem htagged =>
      exact .inr ⟨hid, .inr ⟨hname, hasking, ⟨hterm, hhere⟩, hsystem, htagged⟩⟩

/-- The picks of all terms with their places. -/
def placedPicks (candidates : List R) (terms : List TemplateTerm) : List (Pick R) :=
  (terms.mapIdx fun term t => pick (numbered term candidates) t.criteria).flatten

theorem map_resource_placedPicks (candidates : List R) (terms : List TemplateTerm) :
    (placedPicks candidates terms).map Pick.resource =
      pickAll candidates (terms.map TemplateTerm.criteria) := by
  rw [placedPicks, List.map_flatten, pickAll, List.flatMap_def, List.map_map]
  congr 1
  apply List.ext_getElem?
  intro position
  rw [List.getElem?_map, List.getElem?_mapIdx, List.getElem?_map, Option.map_map]
  congr 1
  funext t
  rw [Function.comp_apply, ← pick_map, map_resource_numbered]
  rfl

theorem mem_placedPicks {candidates : List R} {terms : List TemplateTerm} {p : Pick R} :
    p ∈ placedPicks candidates terms ↔ Made candidates terms p := by
  rw [placedPicks, List.mem_flatten]
  constructor
  · rintro ⟨picks, hpicks, hp⟩
    obtain ⟨term, hterm, rfl⟩ := List.mem_mapIdx.1 hpicks
    obtain ⟨rfl, hp⟩ := mem_pick_numbered.1 hp
    exact ⟨_, List.getElem?_eq_getElem hterm, hp⟩
  · rintro ⟨t, ht, hp⟩
    obtain ⟨hterm, rfl⟩ := List.getElem?_eq_some_iff.1 ht
    exact ⟨_, List.mem_mapIdx.2 ⟨p.term, hterm, rfl⟩, mem_pick_numbered.2 ⟨rfl, hp⟩⟩

theorem pick_sublist (items : List R) (c : Criteria) : (pick items c).Sublist items := by
  have hone {r : R} (hr : r ∈ pick items c) (he : pick items c = [r]) :
      (pick items c).Sublist items :=
    he ▸ List.singleton_sublist.2 (mem_of_mem_pick hr)
  cases hid : withId? items c with
  | some r => exact hone (mem_pick.2 (.inl hid)) (by rw [pick, hid])
  | none =>
      cases hname : withName? items c with
      | some r => exact hone (mem_pick.2 (.inr ⟨hid, .inl hname⟩)) (by rw [pick, hid, hname])
      | none =>
          have he : pick items c = matching items c := by rw [pick, hid, hname]
          rw [he, matching]
          split
          · exact List.nil_sublist _
          · exact List.filter_sublist

theorem pairwise_placedPicks (candidates : List R) (terms : List TemplateTerm) :
    (placedPicks candidates terms).Pairwise Pick.Before := by
  rw [placedPicks, List.pairwise_flatten]
  constructor
  · intro picks hpicks
    obtain ⟨term, _, rfl⟩ := List.mem_mapIdx.1 hpicks
    exact (pairwise_numbered term candidates).sublist (pick_sublist _ _)
  · rw [List.pairwise_iff_getElem]
    intro i j hi hj hij p hp q hq
    rw [List.getElem_mapIdx] at hp hq
    obtain ⟨rfl, _⟩ := mem_pick_numbered.1 hp
    obtain ⟨rfl, _⟩ := mem_pick_numbered.1 hq
    exact .inl hij

end Numbered

/-- The usable earliest picks. -/
def chosenPicks (candidates : List R) (terms : List TemplateTerm) : List (Pick R) :=
  (distinct (placedPicks candidates terms)).filter fun p => isUsable p

theorem chosen_chosenPicks (candidates : List R) (terms : List TemplateTerm) :
    Chosen candidates terms (chosenPicks candidates terms) where
  ordered := (pairwise_placedPicks candidates terms).sublist
    (List.filter_sublist.trans (firstPerKey_sublist _))
  mem_iff p := by
    rw [chosenPicks, List.mem_filter, distinct, mem_firstPerKey_of_ordered
      (fun _ => Pick.Before.irrefl) Pick.Before.asymm (pairwise_placedPicks candidates terms)]
    simp only [mem_placedPicks]
    exact and_congr ⟨fun h => ⟨h.1, h.2⟩, fun h => ⟨h.made, h.earliest⟩⟩ Iff.rfl

/-- There is one list of the usable earliest picks in order. -/
theorem Chosen.unique {candidates : List R} {terms : List TemplateTerm}
    {picks others : List (Pick R)} (h : Chosen candidates terms picks)
    (h' : Chosen candidates terms others) : picks = others := by
  have hnodup {items : List (Pick R)} (hi : items.Pairwise Pick.Before) : items.Nodup := by
    apply hi.imp
    rintro p q hpq rfl
    exact hpq.irrefl
  apply List.Perm.eq_of_pairwise (fun p q _ _ hpq hqp => absurd hqp hpq.asymm) h.ordered h'.ordered
  rw [List.perm_ext_iff_of_nodup (hnodup h.ordered) (hnodup h'.ordered)]
  intro p
  rw [h.mem_iff, h'.mem_iff]

theorem resolve_eq_outcomeOf (candidates : List R) (terms : List TemplateTerm) (zone : String) :
    resolve candidates (terms.map TemplateTerm.criteria) zone =
      outcomeOf (chosenPicks candidates terms) zone := by
  have hpicks : (distinct (pickAll candidates (terms.map TemplateTerm.criteria))).filter
      (fun r => isUsable r) = (chosenPicks candidates terms).map Pick.resource := by
    rw [← map_resource_placedPicks, distinct, firstPerKey_map, List.filter_map]
    rfl
  rw [resolve, hpicks, outcomeOf]
  cases chosenPicks candidates terms <;> rfl

theorem Chosen.nodup {candidates : List R} {terms : List TemplateTerm} {picks : List (Pick R)}
    (h : Chosen candidates terms picks) : (picks.map fun p => id p.resource).Nodup := by
  rw [h.unique (chosen_chosenPicks candidates terms)]
  exact (nodup_map_firstPerKey _).sublist (List.filter_sublist.map _)

/-- The outcome of resolution is that of the usable earliest picks, and no other: their resources,
no two with one identifier, or no match if there is none. Terms without an operating system choose
alike. -/
theorem resolve_eq_iff_chosen (candidates : List R) (zone : String)
    (outcome : Except ResourceError (List R)) :
    (∀ terms : List TemplateTerm,
      resolve candidates (terms.map TemplateTerm.criteria) zone = outcome ↔
        ∃ picks, Chosen candidates terms picks ∧ (picks.map fun p => id p.resource).Nodup ∧
          outcome = outcomeOf picks zone) ∧
    ∀ terms : List SelectorTerm,
      resolve candidates (terms.map SelectorTerm.criteria) zone = outcome ↔
        ∃ picks, Chosen candidates (terms.map SelectorTerm.widen) picks ∧
          (picks.map fun p => id p.resource).Nodup ∧ outcome = outcomeOf picks zone := by
  have hwide (terms : List TemplateTerm) :
      resolve candidates (terms.map TemplateTerm.criteria) zone = outcome ↔
        ∃ picks, Chosen candidates terms picks ∧ (picks.map fun p => id p.resource).Nodup ∧
          outcome = outcomeOf picks zone := by
    rw [resolve_eq_outcomeOf]
    have hchosen := chosen_chosenPicks candidates terms
    constructor
    · rintro rfl
      exact ⟨_, hchosen, hchosen.nodup, rfl⟩
    · rintro ⟨picks, hpicks, -, rfl⟩
      rw [hpicks.unique hchosen]
  refine ⟨hwide, fun terms => ?_⟩
  rw [← SelectorTerm.map_criteria_widen]
  exact hwide _

/-- What is resolved can be used and is picked by a term. -/
theorem picked_of_resolve {candidates : List R} {terms : List TemplateTerm} {zone : String}
    {resolved : List R} (h : resolve candidates (terms.map TemplateTerm.criteria) zone = .ok resolved)
    {r : R} (hr : r ∈ resolved) :
    isUsable r = true ∧ ∃ t ∈ terms, ∃ position, Picks candidates t position r := by
  rw [resolve_eq_outcomeOf, outcomeOf] at h
  split at h
  · cases h
  · obtain rfl := Except.ok.inj h
    obtain ⟨p, hp, rfl⟩ := List.mem_map.1 hr
    obtain ⟨⟨⟨t, ht, hpicks⟩, -⟩, husable⟩ := ((chosen_chosenPicks candidates terms).mem_iff p).1 hp
    exact ⟨husable, t, List.mem_of_getElem? ht, p.position, hpicks⟩

/-- A name that repeats, an empty identifier asked for and a tag with an empty value: the first
term picks the first of the name, the star does not want the empty value, and the identifier that
comes again is dropped. -/
example :
    resolve
      [(⟨"n1", "lan", "", "z1", "", "Implemented", "", "", .ofList [("env", "")]⟩ : Network),
        ⟨"n2", "lan", "", "z1", "", "Setup", "", "", .ofList [("env", "dev")]⟩]
      ([{ id := some "", name := some "lan" }, { tags := .ofList [("env", "*")] }, .byId "n1"].map
        SelectorTerm.criteria) "z1" =
    .ok [⟨"n1", "lan", "", "z1", "", "Implemented", "", "", .ofList [("env", "")]⟩,
      ⟨"n2", "lan", "", "z1", "", "Setup", "", "", .ofList [("env", "dev")]⟩] := by
  decide

end Selectable

end NodeFleet
