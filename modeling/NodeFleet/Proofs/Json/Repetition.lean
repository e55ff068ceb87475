import NodeFleet.Proofs.Json.Canonical

/-!
# Repeated elements in the canonical text

The canonical text of an array is made of the texts of all its elements that are no zero values, in
the order of these texts, repetitions included. So one more element with the text of another makes
the text of the array longer, and with it the text of everything around the array, unless the element
is a zero value. A sum of lengths tells this, since it does not depend on the order.
-/

namespace NodeFleet.Json

theorem canonicalItems_eq_filterMap (items : List Json) :
    canonicalItems items = items.filterMap canonical? := by
  induction items with
  | nil => rfl
  | cons item rest ih =>
      rw [canonicalItems, ih]
      cases h : item.canonical? with
      | none => rw [List.filterMap_cons_none h]
      | some t => rw [List.filterMap_cons_some h]

/-- The key and the canonical text of a field that holds no zero value. -/
def canonicalField? (field : String × Json) : Option (String × String) :=
  field.2.canonical?.map (Prod.mk field.1)

theorem canonicalFields_eq_filterMap (fields : List (String × Json)) :
    canonicalFields fields = fields.filterMap canonicalField? := by
  induction fields with
  | nil => rfl
  | cons field rest ih =>
      rw [canonicalFields, ih]
      cases h : field.2.canonical? with
      | none => rw [List.filterMap_cons_none (by rw [canonicalField?, h]; rfl)]
      | some t => rw [List.filterMap_cons_some (by rw [canonicalField?, h]; rfl)]

section Length

/-- How long texts are together, each with a comma. -/
def spread (texts : List String) : Nat :=
  (texts.map fun t => t.length + 1).sum

theorem spread_perm {xs ys : List String} (h : xs.Perm ys) : spread xs = spread ys :=
  (h.map _).sum_nat

theorem spread_append (xs ys : List String) : spread (xs ++ ys) = spread xs + spread ys := by
  rw [spread, List.map_append, List.sum_append]
  rfl

theorem spread_cons (t : String) (texts : List String) :
    spread (t :: texts) = t.length + 1 + spread texts := by
  rw [spread, List.map_cons, List.sum_cons]
  rfl

theorem spread_lt_insert (xs ys : List String) (t : String) :
    spread (xs ++ ys) < spread (xs ++ t :: ys) := by
  rw [spread_append, spread_append, spread_cons]
  omega

theorem spread_lt_replace (xs ys : List String) {s t : String} (h : s.length < t.length) :
    spread (xs ++ s :: ys) < spread (xs ++ t :: ys) := by
  rw [spread_append, spread_append, spread_cons, spread_cons]
  omega

theorem ne_nil_of_spread_lt {n : Nat} {texts : List String} (h : n < spread texts) :
    texts ≠ [] := by
  rintro rfl
  exact Nat.not_lt_zero n h

theorem length_commaSeparated {texts : List String} (h : texts ≠ []) :
    (commaSeparated texts).length + 1 = spread texts := by
  induction texts with
  | nil => exact absurd rfl h
  | cons first rest ih =>
      cases rest with
      | nil => rfl
      | cons second others =>
          have hrest := ih (List.cons_ne_nil _ _)
          have hcomma : ",".length = 1 := rfl
          rw [spread_cons, ← hrest, commaSeparated, String.length_append, String.length_append]
          · omega
          · exact List.cons_ne_nil _ _

/-- How long the text of an array or an object is, between its brackets. -/
theorem length_enclosed {first last : String} (hfirst : first.length = 1) (hlast : last.length = 1)
    {texts : List String} (h : texts ≠ []) :
    (first ++ commaSeparated texts ++ last).length = spread texts + 1 := by
  rw [String.length_append, String.length_append, hfirst, hlast, ← length_commaSeparated h]
  omega

/-- Both values have canonical texts, and that of the second is longer. -/
def Lengthens (a b : Json) : Prop :=
  ∃ s t, a.canonical? = some s ∧ b.canonical? = some t ∧ s.length < t.length

/-- The canonical text of an array, whose length does not depend on the order of the elements. -/
theorem exists_canonical?_arr {items : List Json} (h : items.filterMap canonical? ≠ []) :
    ∃ text, (Json.arr items).canonical? = some text ∧
      text.length = spread (items.filterMap canonical?) + 1 := by
  have hsorted := sortBy_perm textLe (items.filterMap canonical?)
  refine ⟨arrayText (sortBy textLe (items.filterMap canonical?)), ?_, ?_⟩
  · rw [canonical?, canonicalItems_eq_filterMap]
    split
    next hnil => exact absurd hnil h
    next => rfl
  · rw [← spread_perm hsorted]
    exact length_enclosed rfl rfl fun hnil => h (List.nil_perm.1 (hnil ▸ hsorted))

/-- The canonical text of an object, whose length does not depend on the order of the fields. -/
theorem exists_canonical?_obj {fields : List (String × Json)}
    (h : (fields.filterMap canonicalField?).map fieldText ≠ []) :
    ∃ text, (Json.obj fields).canonical? = some text ∧
      text.length = spread ((fields.filterMap canonicalField?).map fieldText) + 1 := by
  have hsorted := (sortBy_perm fieldLe (fields.filterMap canonicalField?)).map fieldText
  refine ⟨objectText (sortBy fieldLe (fields.filterMap canonicalField?)), ?_, ?_⟩
  · rw [canonical?, canonicalFields_eq_filterMap]
    split
    next hnil => exact absurd (congrArg (List.map fieldText) hnil) h
    next => rfl
  · rw [← spread_perm hsorted]
    exact length_enclosed rfl rfl fun hnil => h (List.nil_perm.1 (hnil ▸ hsorted))

theorem lengthens_arr {xs ys : List Json} (some : xs.filterMap canonical? ≠ [])
    (more : spread (xs.filterMap canonical?) < spread (ys.filterMap canonical?)) :
    Lengthens (.arr xs) (.arr ys) := by
  obtain ⟨s, hs, hlength⟩ := exists_canonical?_arr some
  obtain ⟨t, ht, hlonger⟩ := exists_canonical?_arr (ne_nil_of_spread_lt more)
  refine ⟨s, t, hs, ht, ?_⟩
  omega

theorem lengthens_obj {xs ys : List (String × Json)}
    (some : (xs.filterMap canonicalField?).map fieldText ≠ [])
    (more : spread ((xs.filterMap canonicalField?).map fieldText) <
      spread ((ys.filterMap canonicalField?).map fieldText)) :
    Lengthens (.obj xs) (.obj ys) := by
  obtain ⟨s, hs, hlength⟩ := exists_canonical?_obj some
  obtain ⟨t, ht, hlonger⟩ := exists_canonical?_obj (ne_nil_of_spread_lt more)
  refine ⟨s, t, hs, ht, ?_⟩
  omega

end Length

/-- A value becomes another by one more copy of an element in an array that has an element with the
same canonical text already, somewhere inside it. -/
inductive Repeats (x : Json) : Json → Json → Prop
  | here (before after : List Json) {held : Json} (mem : held ∈ before ++ after)
      (same : held.canonical? = x.canonical?) :
      Repeats x (.arr (before ++ after)) (.arr (before ++ x :: after))
  | item {a b : Json} (before after : List Json) (inner : Repeats x a b) :
      Repeats x (.arr (before ++ a :: after)) (.arr (before ++ b :: after))
  | field {key : String} {a b : Json} (before after : List (String × Json))
      (inner : Repeats x a b) :
      Repeats x (.obj (before ++ (key, a) :: after)) (.obj (before ++ (key, b) :: after))

namespace Repeats

variable {x a b : Json}

/-- One more zero value does not show. -/
theorem canonical?_eq (h : Repeats x a b) (zero : x.canonical? = none) :
    b.canonical? = a.canonical? := by
  induction h with
  | here =>
      rw [canonical?, canonical?, canonicalItems_eq_filterMap, canonicalItems_eq_filterMap,
        List.filterMap_append, List.filterMap_cons_none zero, ← List.filterMap_append]
  | item _ _ _ ih =>
      rw [canonical?, canonical?, canonicalItems_eq_filterMap, canonicalItems_eq_filterMap,
        List.filterMap_append, List.filterMap_append, List.filterMap_cons, List.filterMap_cons, ih]
  | field _ _ _ ih =>
      rw [canonical?, canonical?, canonicalFields_eq_filterMap, canonicalFields_eq_filterMap,
        List.filterMap_append, List.filterMap_append, List.filterMap_cons, List.filterMap_cons,
        canonicalField?, canonicalField?, ih]

/-- One more element that is no zero value makes the canonical text longer, however deep inside it
is. -/
theorem lengthens (h : Repeats x a b) (kept : x.canonical? ≠ none) : Lengthens a b := by
  induction h with
  | here before after mem same =>
      obtain ⟨text, htext⟩ := Option.ne_none_iff_exists'.1 kept
      apply lengthens_arr
      · exact List.ne_nil_of_mem (List.mem_filterMap.2 ⟨_, mem, same.trans htext⟩)
      · rw [List.filterMap_append, List.filterMap_append, List.filterMap_cons_some htext]
        exact spread_lt_insert _ _ text
  | item _ _ _ ih =>
      obtain ⟨s, t, hs, ht, hlt⟩ := ih
      apply lengthens_arr
      · rw [List.filterMap_append, List.filterMap_cons_some hs]
        exact List.append_ne_nil_of_right_ne_nil _ (List.cons_ne_nil _ _)
      · rw [List.filterMap_append, List.filterMap_append, List.filterMap_cons_some hs,
          List.filterMap_cons_some ht]
        exact spread_lt_replace _ _ hlt
  | @field key a b before after _ ih =>
      obtain ⟨s, t, hs, ht, hlt⟩ := ih
      have hfield {c : Json} {text : String} (hc : c.canonical? = some text) :
          canonicalField? (key, c) = some (key, text) := by
        rw [canonicalField?, hc]
        rfl
      have htexts {c : Json} {text : String} (hc : c.canonical? = some text) :
          ((before ++ (key, c) :: after).filterMap canonicalField?).map fieldText =
            (before.filterMap canonicalField?).map fieldText ++
              fieldText (key, text) :: (after.filterMap canonicalField?).map fieldText := by
        rw [List.filterMap_append, List.filterMap_cons_some (hfield hc), List.map_append,
          List.map_cons]
      apply lengthens_obj
      · rw [htexts hs]
        exact List.append_ne_nil_of_right_ne_nil _ (List.cons_ne_nil _ _)
      · rw [htexts hs, htexts ht]
        apply spread_lt_replace
        simp only [fieldText, String.length_append]
        omega

/-- One more copy of an element changes the canonical text unless the element is a zero value. -/
theorem canonical?_eq_iff (h : Repeats x a b) :
    b.canonical? = a.canonical? ↔ x.canonical? = none := by
  refine ⟨fun heq => ?_, h.canonical?_eq⟩
  by_contra kept
  obtain ⟨s, t, hs, ht, hlt⟩ := h.lengthens kept
  rw [hs, ht] at heq
  obtain rfl := Option.some.inj heq
  exact Nat.lt_irrefl _ hlt

end Repeats

end NodeFleet.Json
