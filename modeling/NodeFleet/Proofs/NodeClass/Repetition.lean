import NodeFleet.Proofs.Fleet.Drifting
import NodeFleet.Proofs.Json.Repetition

/-!
# Repeated terms of a node class

A second copy of a term, anywhere after the first, never changes what the terms of a list resolve to.
The canonical text of the spec keeps it nevertheless, as it keeps every repeated element of an array
that is no zero value; so a node that was launched before is reported as drifted.
-/

namespace NodeFleet

open Json (Repeats)
open NodeClassSpec (HashSeparates)
open Selectable (resolve resolve_insert)

theorem TemplateTerm.canonical?_eq_none_iff (t : TemplateTerm) :
    (encode t).canonical? = none ↔ t.criteria.trimmed = .blank :=
  (Json.canonical_text_decides (encode t) (encode t)).2.trans t.isZero_pruned_iff

theorem SelectorTerm.canonical?_eq_none_iff (t : SelectorTerm) :
    (encode t).canonical? = none ↔ t.criteria.trimmed = .blank := by
  rw [← encode_widen]
  exact t.widen.canonical?_eq_none_iff

namespace NodeClassSpec

/-- A spec becomes another by a further copy of a term, after the first one in its list. The term asks
for the criteria. -/
inductive RepeatsTerm (s : NodeClassSpec) (c : Criteria) : NodeClassSpec → Prop
  | network {before after : List SelectorTerm} {t : SelectorTerm}
      (list : s.networkTerms = before ++ after) (held : t ∈ before) (asks : t.criteria = c) :
      RepeatsTerm s c { s with networkTerms := before ++ t :: after }
  | offering {before after : List SelectorTerm} {t : SelectorTerm}
      (list : s.offeringTerms = before ++ after) (held : t ∈ before) (asks : t.criteria = c) :
      RepeatsTerm s c { s with offeringTerms := before ++ t :: after }
  | template {before after : List TemplateTerm} {t : TemplateTerm}
      (list : s.templateTerms = before ++ after) (held : t ∈ before) (asks : t.criteria = c) :
      RepeatsTerm s c { s with templateTerms := before ++ t :: after }

/-- The terms of two specs resolve alike, whatever the candidates are. -/
structure ResolvesAlike (a b : NodeClassSpec) : Prop where
  network (candidates : List Network) (zone : String) :
    resolve candidates (b.networkTerms.map SelectorTerm.criteria) zone =
      resolve candidates (a.networkTerms.map SelectorTerm.criteria) zone
  offering (candidates : List ServiceOffering) (zone : String) :
    resolve candidates (b.offeringTerms.map SelectorTerm.criteria) zone =
      resolve candidates (a.offeringTerms.map SelectorTerm.criteria) zone
  template (candidates : List Template) (zone : String) :
    resolve candidates (b.templateTerms.map TemplateTerm.criteria) zone =
      resolve candidates (a.templateTerms.map TemplateTerm.criteria) zone

namespace RepeatsTerm

variable {s s' : NodeClassSpec} {c : Criteria}

theorem resolvesAlike (h : RepeatsTerm s c s') : ResolvesAlike s s' := by
  have hinsert {T R : Type} [Selectable R] (criteria : T → Criteria) {terms before after : List T}
      {t : T} (list : terms = before ++ after) (held : t ∈ before) (candidates : List R)
      (zone : String) : resolve candidates ((before ++ t :: after).map criteria) zone =
        resolve candidates (terms.map criteria) zone := by
    rw [list, List.map_append, List.map_cons, List.map_append]
    exact resolve_insert (List.mem_map_of_mem held) zone
  cases h with
  | network list held asks =>
      exact ⟨fun candidates zone => hinsert _ list held candidates zone, fun _ _ => rfl,
        fun _ _ => rfl⟩
  | offering list held asks =>
      exact ⟨fun _ _ => rfl, fun candidates zone => hinsert _ list held candidates zone,
        fun _ _ => rfl⟩
  | template list held asks =>
      exact ⟨fun _ _ => rfl, fun _ _ => rfl,
        fun candidates zone => hinsert _ list held candidates zone⟩

/-- In the JSON form of the spec an element of an array is repeated. -/
theorem repeats (h : RepeatsTerm s c s') :
    ∃ x, Repeats x (encode s) (encode s') ∧ (x.canonical? = none ↔ c.trimmed = .blank) := by
  have harray {T : Type} [Encode T] {terms before after : List T} {t : T}
      (list : terms = before ++ after) (held : t ∈ before) :
      Repeats (encode t) (encode terms) (encode (before ++ t :: after)) := by
    change Repeats (encode t) (.arr (terms.map encode)) (.arr ((before ++ t :: after).map encode))
    rw [list, List.map_append, List.map_append, List.map_cons]
    have hmem : encode t ∈ before.map encode ++ after.map encode :=
      List.mem_append_left _ (List.mem_map_of_mem held)
    exact .here _ _ hmem rfl
  cases h with
  | @network before after t list held asks =>
      refine ⟨encode t, ?_, asks ▸ t.canonical?_eq_none_iff⟩
      exact .field (Json.field "zone" s.zone) _ (harray list held)
  | @offering before after t list held asks =>
      refine ⟨encode t, ?_, asks ▸ t.canonical?_eq_none_iff⟩
      exact .field (Json.field "zone" s.zone ++
        Json.field "networkSelectorTerms" s.networkTerms) _ (harray list held)
  | @template before after t list held asks =>
      refine ⟨encode t, ?_, asks ▸ t.canonical?_eq_none_iff⟩
      exact .field (Json.field "zone" s.zone ++
        Json.field "networkSelectorTerms" s.networkTerms ++
          Json.field "serviceOfferingSelectorTerms" s.offeringTerms) _ (harray list held)

end RepeatsTerm

end NodeClassSpec

/-- The canonical text keeps repetitions: one more copy of an element of an array, at any depth, changes
it unless the element is a zero value. So a further copy of a term leaves what the terms resolve to as
it is, and yet is reported as drift, as far as the hash tells the two texts apart, unless the term asks
for nothing. -/
theorem repetition_shows {x a b : Json} (repeated : Repeats x a b) :
    (b.canonical? = a.canonical? ↔ x.canonical? = none) ∧
    ∀ (s s' : NodeClassSpec) (c : Criteria), s.RepeatsTerm c s' →
      s.ResolvesAlike s' ∧
      ((encode s').canonical? = (encode s).canonical? ↔ c.trimmed = .blank) ∧
      ∀ (claim : NodeClaim) (old new : NodeClass), old.spec = s → new.spec = s' →
        HashSeparates s s' →
          ((claim.annotate old).driftReason? new = some drifted ↔ c.trimmed ≠ .blank) := by
  refine ⟨repeated.canonical?_eq_iff, fun s s' c h => ?_⟩
  obtain ⟨x, hrepeats, hblank⟩ := h.repeats
  have htext : (encode s').canonical? = (encode s).canonical? ↔ c.trimmed = .blank :=
    hrepeats.canonical?_eq_iff.trans hblank
  refine ⟨h.resolvesAlike, htext, ?_⟩
  rintro claim old new rfl rfl separates
  have hhash : old.spec.hash = new.spec.hash ↔ c.trimmed = .blank := by
    rw [NodeClassSpec.hash_eq_iff_alike separates, ← NodeClassSpec.canonical?_eq_iff_alike, eq_comm,
      htext]
  rw [NodeClaim.driftReason?_annotate, ne_eq, ← hhash]
  by_cases same : old.spec.hash = new.spec.hash
  · rw [if_pos same]
    exact iff_of_false (fun h => (nomatch h)) (not_not_intro same)
  · rw [if_neg same]
    exact iff_of_true rfl same

/-- The stocked node class with its network term twice. -/
def doubledClass : NodeClass :=
  { stockedClass with spec :=
    { stockedClass.spec with networkTerms := [.byName "net-1", .byName "net-1"] } }

theorem repeatsTerm_doubledClass :
    stockedClass.spec.RepeatsTerm (SelectorTerm.byName "net-1").criteria doubledClass.spec :=
  .network (List.append_nil _).symm List.mem_cons_self rfl

/-- The second copy of a text and that of a term show. -/
theorem repetition_shows_of_doubled :
    Repeats (.str "a") (.arr [.str "a"]) (.arr [.str "a", .str "a"]) ∧
    (Json.arr [.str "a", .str "a"]).canonical? ≠ (Json.arr [.str "a"]).canonical? ∧
    stockedClass.spec.ResolvesAlike doubledClass.spec ∧
      (encode doubledClass.spec).canonical? ≠ (encode stockedClass.spec).canonical? := by
  have repeated : Repeats (.str "a") (.arr [.str "a"]) (.arr [.str "a", .str "a"]) :=
    .here [] [.str "a"] List.mem_cons_self rfl
  obtain ⟨hshows, hterms⟩ := repetition_shows repeated
  obtain ⟨hresolves, htext, -⟩ := hterms _ _ _ repeatsTerm_doubledClass
  exact ⟨repeated, fun h => absurd (hshows.1 h) (by decide), hresolves,
    fun h => absurd (htext.1 h) (by decide)⟩

/-- A claim that was launched before a network term was written twice is reported as drifted. -/
theorem exists_repetition_reported_as_drift :
    Repeats (.str "a") (.arr [.str "a"]) (.arr [.str "a", .str "a"]) ∧
    (Json.arr [.str "a", .str "a"]).canonical? ≠ (Json.arr [.str "a"]).canonical? ∧
    stockedClass.spec.RepeatsTerm (SelectorTerm.byName "net-1").criteria doubledClass.spec ∧
    (stockedClaim.annotate stockedClass).driftReason? doubledClass = some drifted := by
  refine ⟨.here [] [.str "a"] List.mem_cons_self rfl, by decide, repeatsTerm_doubledClass, ?_⟩
  decide +kernel

end NodeFleet
