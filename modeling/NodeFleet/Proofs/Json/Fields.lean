import NodeFleet.Json.Codec
import NodeFleet.Proofs.Json.Canonical

/-!
# What the canonical text says about fields and elements

Objects with one canonical text agree, key by key, on what is left of their fields, and every
element of an array of which something is left has its like in every array with the same text.
-/

namespace NodeFleet

/-- What is in the first of two lists that are related member by member has its like in the second. -/
theorem exists_mem_of_forall₂ {α β : Type} {R : α → β → Prop} {xs : List α} {ys : List β}
    (paired : List.Forall₂ R xs ys) {x : α} (hx : x ∈ xs) : ∃ y ∈ ys, R x y := by
  induction paired with
  | nil => cases hx
  | cons hrel _ ih =>
      rcases List.mem_cons.1 hx with rfl | hx
      · exact ⟨_, List.mem_cons_self, hrel⟩
      · obtain ⟨y, hy, hxy⟩ := ih hx
        exact ⟨y, List.mem_cons_of_mem _ hy, hxy⟩

namespace Json

/-- What is left of a value without its zero values, if anything is. -/
def left? (j : Json) : Option Json :=
  if j.pruned.isZero then none else some j.pruned

theorem left?_eq_none {j : Json} : j.left? = none ↔ j.pruned.isZero = true := by
  simp [left?]

theorem left?_of_isZero_eq_false {j : Json} (h : j.pruned.isZero = false) :
    j.left? = some j.pruned := by
  simp [left?, h]

/-- Values with one canonical text have left what is the same up to order. -/
theorem rel_left?_of_canonical?_eq {a b : Json} (h : a.canonical? = b.canonical?) :
    Option.Rel Same a.left? b.left? := by
  obtain ⟨hzero, hsame⟩ := same_of_canonical?_eq h
  cases ha : a.pruned.isZero
  · rw [left?_of_isZero_eq_false ha, left?_of_isZero_eq_false (hzero ▸ ha)]
    exact .some (hsame ha)
  · rw [left?_eq_none.2 ha, left?_eq_none.2 (hzero ▸ ha)]
    exact .none

theorem left?_str (s : String) : (Json.str s).left? = if s = "" then none else some (.str s) := by
  simp [left?, pruned, isZero]

section Elements

theorem Same.exists_mem {xs ys : List Json} (h : Same (.arr xs) (.arr ys)) {x : Json}
    (hx : x ∈ xs) : ∃ y ∈ ys, Same x y := by
  cases h with
  | arr paired order =>
      obtain ⟨y, hy, hxy⟩ := exists_mem_of_forall₂ paired hx
      exact ⟨y, order.mem_iff.1 hy, hxy⟩

/-- An element of which something is left has its like among the elements of the other array. -/
theorem exists_same_of_rel_left? {xs ys : List Json}
    (h : Option.Rel Same (Json.arr xs).left? (Json.arr ys).left?) {x : Json} (hx : x ∈ xs)
    (hleft : x.pruned.isZero = false) : ∃ y ∈ ys, Same x.pruned y.pruned := by
  have hmem : x.pruned ∈ prunedItems xs := mem_prunedItems.2 ⟨x, hx, hleft, rfl⟩
  have hkept : (Json.arr xs).pruned.isZero = false := by
    rw [pruned, isZero, List.isEmpty_eq_false_iff]
    exact List.ne_nil_of_mem hmem
  rw [left?_of_isZero_eq_false hkept] at h
  cases hy : (Json.arr ys).pruned.isZero with
  | true =>
      rw [left?_eq_none.2 hy] at h
      cases h
  | false =>
      rw [left?_of_isZero_eq_false hy] at h
      cases h with
      | some hsame =>
          obtain ⟨z, hz, hxz⟩ := Same.exists_mem hsame hmem
          obtain ⟨y, hy, _, rfl⟩ := mem_prunedItems.1 hz
          exact ⟨y, hy, hxz⟩

end Elements

section Lookup

theorem lookup_eq_of_perm {fs gs : List (String × Json)} (h : fs.Perm gs)
    (distinct : (fs.map Prod.fst).Nodup) (key : String) : fs.lookup key = gs.lookup key := by
  induction h with
  | nil => rfl
  | cons field _ ih =>
      rw [List.map_cons, List.nodup_cons] at distinct
      rw [Table.lookup_entry, Table.lookup_entry, ih distinct.2]
  | swap f g _ =>
      rw [List.map_cons, List.map_cons, List.nodup_cons, List.mem_cons, not_or] at distinct
      have hne : g.1 ≠ f.1 := distinct.1.1
      rw [Table.lookup_entry, Table.lookup_entry, Table.lookup_entry, Table.lookup_entry]
      by_cases hg : key = g.1
      · rw [if_pos hg, if_neg (hg ▸ hne), if_pos hg]
      · rw [if_neg hg, if_neg hg]
  | trans h _ ih₁ ih₂ =>
      rw [ih₁ distinct, ih₂ ((h.map Prod.fst).nodup_iff.1 distinct)]

theorem rel_lookup_of_paired {fs gs : List (String × Json)}
    (keys : fs.map Prod.fst = gs.map Prod.fst)
    (paired : List.Forall₂ Same (fs.map Prod.snd) (gs.map Prod.snd)) (key : String) :
    Option.Rel Same (fs.lookup key) (gs.lookup key) := by
  induction fs generalizing gs with
  | nil =>
      cases gs with
      | nil => exact .none
      | cons g gs => cases keys
  | cons f fs ih =>
      cases gs with
      | nil => cases keys
      | cons g gs =>
          obtain ⟨hkey, hkeys⟩ := List.cons.inj keys
          obtain ⟨hvalue, hvalues⟩ := List.forall₂_cons.1 paired
          rw [Table.lookup_entry, Table.lookup_entry, hkey]
          split
          · exact .some hvalue
          · exact ih hkeys hvalues

theorem Same.rel_lookup {fs gs : List (String × Json)} (h : Same (.obj fs) (.obj gs))
    (distinct : (fs.map Prod.fst).Nodup) (key : String) :
    Option.Rel Same (fs.lookup key) (gs.lookup key) := by
  cases h with
  | obj keys paired order =>
      rw [← lookup_eq_of_perm order (keys ▸ distinct)]
      exact rel_lookup_of_paired keys paired key

theorem keys_prunedFields_sublist (fields : List (String × Json)) :
    ((prunedFields fields).map Prod.fst).Sublist (fields.map Prod.fst) := by
  induction fields with
  | nil => exact List.Sublist.slnil
  | cons field rest ih =>
      rw [prunedFields, List.map_cons]
      split
      · exact ih.cons _
      · exact ih.cons_cons _

/-- Objects with one canonical text agree on what is left under every key. -/
theorem rel_lookup_of_rel_left? {fs gs : List (String × Json)}
    (h : Option.Rel Same (Json.obj fs).left? (Json.obj gs).left?)
    (distinct : (fs.map Prod.fst).Nodup) (key : String) :
    Option.Rel Same ((prunedFields fs).lookup key) ((prunedFields gs).lookup key) := by
  cases hf : (Json.obj fs).pruned.isZero <;> cases hg : (Json.obj gs).pruned.isZero
  · rw [left?_of_isZero_eq_false hf, left?_of_isZero_eq_false hg] at h
    cases h with
    | some hsame =>
        exact hsame.rel_lookup (distinct.sublist (keys_prunedFields_sublist fs)) key
  · rw [left?_of_isZero_eq_false hf, left?_eq_none.2 hg] at h
    cases h
  · rw [left?_of_isZero_eq_false hg, left?_eq_none.2 hf] at h
    cases h
  · rw [pruned, isZero, List.isEmpty_iff] at hf hg
    rw [hf, hg]
    exact .none

end Lookup

section Written

variable {α : Type} [Encode α]

theorem prunedFields_append (fs gs : List (String × Json)) :
    prunedFields (fs ++ gs) = prunedFields fs ++ prunedFields gs := by
  induction fs with
  | nil => rfl
  | cons f fs ih =>
      rw [List.cons_append, prunedFields, prunedFields, ih]
      split <;> rfl

theorem prunedFields_singleton (key : String) (j : Json) :
    prunedFields [(key, j)] = j.left?.toList.map (Prod.mk key) := by
  rw [prunedFields, left?]
  split <;> rfl

theorem lookup_prunedFields_singleton (key other : String) (j : Json) :
    (prunedFields [(key, j)]).lookup other = if other = key then j.left? else none := by
  rw [prunedFields_singleton]
  cases j.left? with
  | none => simp
  | some x => simp [Table.lookup_entry]

theorem lookup_field (key other : String) (value : α) :
    (prunedFields (field key value)).lookup other =
      if other = key then (encode value).left? else none :=
  lookup_prunedFields_singleton key other (encode value)

theorem lookup_fieldUnless (skip : Bool) (key other : String) (value : α) :
    (prunedFields (fieldUnless skip key value)).lookup other =
      if other = key ∧ skip = false then (encode value).left? else none := by
  cases skip with
  | true => simp [fieldUnless, prunedFields]
  | false => simp [fieldUnless, lookup_prunedFields_singleton]

theorem lookup_fieldOf? (key other : String) (value : Option α) :
    (prunedFields (fieldOf? key value)).lookup other =
      if other = key then value.bind fun v => (encode v).left? else none := by
  cases value with
  | none => simp [fieldOf?, prunedFields]
  | some v => simp [fieldOf?, lookup_prunedFields_singleton]

theorem keys_fieldUnless_sublist (skip : Bool) (key : String) (value : α) :
    ((fieldUnless skip key value).map Prod.fst).Sublist [key] := by
  cases skip with
  | true => exact List.nil_sublist _
  | false => exact List.Sublist.refl _

theorem keys_fieldOf?_sublist (key : String) (value : Option α) :
    ((fieldOf? key value).map Prod.fst).Sublist [key] := by
  cases value with
  | none => exact List.nil_sublist _
  | some v => exact List.Sublist.refl _

end Written

end Json

end NodeFleet
