import NodeFleet.Proofs.Json.Order

/-!
# What the canonical text keeps of a value

Dropping the zero values of a value from the inside out leaves a value that is zero itself or holds
no zero value at any depth. The canonical text is the sorted text of what is left, so it forgets
zero values and order and nothing else.
-/

namespace NodeFleet.Json

/-- Whether the value is `null`, `false`, zero or empty. -/
def isZero : Json → Bool
  | .null => true
  | .bool b => !b
  | .num n => n.isZero
  | .str s => s == ""
  | .arr items => items.isEmpty
  | .obj fields => fields.isEmpty

mutual

/-- The value with the zero values inside it dropped, at every depth. -/
def pruned : Json → Json
  | .null => .null
  | .bool b => .bool b
  | .num n => .num n
  | .str s => .str s
  | .arr items => .arr (prunedItems items)
  | .obj fields => .obj (prunedFields fields)

/-- The elements of which something is left. -/
def prunedItems : List Json → List Json
  | [] => []
  | item :: rest =>
      if (pruned item).isZero then prunedItems rest else pruned item :: prunedItems rest

/-- The fields in whose values something is left. -/
def prunedFields : List (String × Json) → List (String × Json)
  | [] => []
  | (key, value) :: rest =>
      if (pruned value).isZero then prunedFields rest else (key, pruned value) :: prunedFields rest

end

theorem mem_prunedItems {x : Json} {items : List Json} :
    x ∈ prunedItems items ↔ ∃ item ∈ items, item.pruned.isZero = false ∧ item.pruned = x := by
  induction items with
  | nil => simp [prunedItems]
  | cons item rest ih =>
      rw [prunedItems, List.exists_mem_cons_iff, ← ih]
      split
      next h => simp [h]
      next h => simp [h, eq_comm (a := x)]

theorem Same.isZero_eq {x y : Json} (h : Same x y) : x.isZero = y.isZero := by
  cases h with
  | arr paired order =>
      have hlength := paired.length_eq.trans order.length_eq
      rw [Bool.eq_iff_iff, isZero, isZero, List.isEmpty_iff_length_eq_zero,
        List.isEmpty_iff_length_eq_zero, hlength]
  | obj keys paired order =>
      have hlength := paired.length_eq
      rw [List.length_map, List.length_map, order.length_eq] at hlength
      rw [Bool.eq_iff_iff, isZero, isZero, List.isEmpty_iff_length_eq_zero,
        List.isEmpty_iff_length_eq_zero, hlength]
  | _ => rfl

/-- The canonical text is the sorted text of the pruned value, or none where that is zero. -/
def CanonicalOfPruned (j : Json) : Prop :=
  j.canonical? = if j.pruned.isZero then none else some j.pruned.sortedText

theorem canonicalItems_eq (items : List Json) (h : ∀ item ∈ items, CanonicalOfPruned item) :
    canonicalItems items = (prunedItems items).map sortedText := by
  induction items with
  | nil => rfl
  | cons item rest ih =>
      have hrest := ih fun x hx => h x (List.mem_cons_of_mem _ hx)
      have hitem : CanonicalOfPruned item := h item List.mem_cons_self
      rw [CanonicalOfPruned] at hitem
      rw [canonicalItems, prunedItems, hitem, hrest]
      cases item.pruned.isZero <;> rfl

theorem canonicalFields_eq (fields : List (String × Json))
    (h : ∀ field ∈ fields, CanonicalOfPruned field.2) :
    canonicalFields fields = (prunedFields fields).map fieldEntry := by
  induction fields with
  | nil => rfl
  | cons field rest ih =>
      have hrest := ih fun x hx => h x (List.mem_cons_of_mem _ hx)
      have hfield : CanonicalOfPruned field.2 := h field List.mem_cons_self
      rw [CanonicalOfPruned] at hfield
      rw [canonicalFields, prunedFields, hfield, hrest]
      cases field.2.pruned.isZero <;> rfl

theorem canonical?_eq (j : Json) :
    j.canonical? = if j.pruned.isZero then none else some j.pruned.sortedText := by
  change CanonicalOfPruned j
  induction j using induct with
  | null => rfl
  | bool b => cases b <;> rfl
  | num n => rfl
  | str s =>
      rw [CanonicalOfPruned, canonical?, pruned, isZero, sortedText]
      simp only [beq_iff_eq]
  | arr items ih =>
      rw [CanonicalOfPruned, canonical?, canonicalItems_eq items ih, pruned, isZero, sortedText_arr]
      cases prunedItems items with
      | nil => rfl
      | cons first rest => rfl
  | obj fields ih =>
      rw [CanonicalOfPruned, canonical?, canonicalFields_eq fields ih, pruned, isZero,
        sortedText_obj]
      cases prunedFields fields with
      | nil => rfl
      | cons first rest => rfl

/-- Two values with one canonical text, of which something is left, are the same up to order. -/
theorem same_of_canonical?_eq {a b : Json} (h : a.canonical? = b.canonical?) :
    a.pruned.isZero = b.pruned.isZero ∧
      (a.pruned.isZero = false → Same a.pruned b.pruned) := by
  rw [canonical?_eq, canonical?_eq] at h
  cases ha : a.pruned.isZero <;> cases hb : b.pruned.isZero
  · rw [ha, hb, if_neg Bool.false_ne_true, if_neg Bool.false_ne_true] at h
    exact ⟨rfl, fun _ => (sortedText_eq_iff _ _).1 (Option.some.inj h)⟩
  · simp [ha, hb] at h
  · simp [ha, hb] at h
  · exact ⟨rfl, fun hfalse => nomatch hfalse⟩

/-- The canonical text forgets zero values, the order of fields and the order of elements, and
nothing else; there is none exactly where nothing is left. -/
theorem canonical_text_decides (a b : Json) :
    (a.canonical? = b.canonical? ↔
      Same a.pruned b.pruned ∨ (a.pruned.isZero = true ∧ b.pruned.isZero = true)) ∧
    (a.canonical? = none ↔ a.pruned.isZero = true) := by
  constructor
  · constructor
    · intro h
      obtain ⟨hzero, hsame⟩ := same_of_canonical?_eq h
      cases ha : a.pruned.isZero
      · exact .inl (hsame ha)
      · exact .inr ⟨rfl, hzero ▸ ha⟩
    · rintro (hsame | ⟨ha, hb⟩)
      · rw [canonical?_eq, canonical?_eq, hsame.isZero_eq, hsame.sortedText_eq]
      · rw [canonical?_eq, canonical?_eq, if_pos ha, if_pos hb]
  · rw [canonical?_eq]
    cases a.pruned.isZero <;> simp

end NodeFleet.Json
