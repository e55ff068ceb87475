/-!
# Insertion into a sorted list

Sorting by repeated insertion, for lists of texts and of keyed texts. The result is a permutation
of the input, and it is sorted whenever the comparison is total and transitive.
-/

namespace NodeFleet

variable {α : Type}

/-- Inserts `a` in front of the first element that is not below it. -/
def insertBy (le : α → α → Bool) (a : α) : List α → List α
  | [] => [a]
  | b :: rest => if le a b then a :: b :: rest else b :: insertBy le a rest

/-- Sorts by inserting every element into the sorted rest. -/
def sortBy (le : α → α → Bool) : List α → List α
  | [] => []
  | a :: rest => insertBy le a (sortBy le rest)

theorem insertBy_perm (le : α → α → Bool) (a : α) (items : List α) :
    (insertBy le a items).Perm (a :: items) := by
  induction items with
  | nil => exact .refl _
  | cons b rest ih =>
      by_cases h : le a b
      · simp [insertBy, h]
      · simp only [insertBy, h, Bool.false_eq_true, if_false]
        exact (ih.cons b).trans (.swap a b rest)

theorem sortBy_perm (le : α → α → Bool) (items : List α) :
    (sortBy le items).Perm items := by
  induction items with
  | nil => exact .refl _
  | cons a rest ih => exact (insertBy_perm le a _).trans (ih.cons a)

theorem insertBy_pairwise {le : α → α → Bool} (total : ∀ a b, le a b ∨ le b a)
    (trans : ∀ a b c, le a b → le b c → le a c) (a : α) {items : List α}
    (sorted : items.Pairwise (le · ·)) : (insertBy le a items).Pairwise (le · ·) := by
  induction items with
  | nil => simp [insertBy]
  | cons b rest ih =>
      obtain ⟨below, tail⟩ := List.pairwise_cons.1 sorted
      by_cases h : le a b
      · simp only [insertBy, h, if_true]
        refine List.pairwise_cons.2 ⟨?_, sorted⟩
        intro c hc
        rcases List.mem_cons.1 hc with rfl | hc
        · exact h
        · exact trans a b c h (below c hc)
      · simp only [insertBy, h, Bool.false_eq_true, if_false]
        refine List.pairwise_cons.2 ⟨?_, ih tail⟩
        intro c hc
        rcases List.mem_cons.1 ((insertBy_perm le a rest).mem_iff.1 hc) with rfl | hc
        · exact (total c b).resolve_left h
        · exact below c hc

theorem sortBy_pairwise {le : α → α → Bool} (total : ∀ a b, le a b ∨ le b a)
    (trans : ∀ a b c, le a b → le b c → le a c) (items : List α) :
    (sortBy le items).Pairwise (le · ·) := by
  induction items with
  | nil => exact List.Pairwise.nil
  | cons a rest ih => exact insertBy_pairwise total trans a ih

/-- A list that is sorted by an order of its own has one sorted form. -/
theorem sortBy_eq_of_perm {le : α → α → Bool} (total : ∀ a b, le a b ∨ le b a)
    (trans : ∀ a b c, le a b → le b c → le a c) (antisymm : ∀ a b, le a b → le b a → a = b)
    {xs ys : List α} (h : xs.Perm ys) : sortBy le xs = sortBy le ys := by
  apply List.Perm.eq_of_pairwise (fun a b _ _ => antisymm a b)
    (sortBy_pairwise total trans xs) (sortBy_pairwise total trans ys)
  exact (sortBy_perm le xs).trans (h.trans (sortBy_perm le ys).symm)

theorem insertBy_map {β : Type} (le : β → β → Bool) (f : α → β) (a : α) (items : List α) :
    insertBy le (f a) (items.map f) = (insertBy (fun x y => le (f x) (f y)) a items).map f := by
  induction items with
  | nil => rfl
  | cons b rest ih =>
      simp only [List.map_cons, insertBy]
      split
      · rfl
      · rw [ih, List.map_cons]

theorem sortBy_map {β : Type} (le : β → β → Bool) (f : α → β) (items : List α) :
    sortBy le (items.map f) = (sortBy (fun x y => le (f x) (f y)) items).map f := by
  induction items with
  | nil => rfl
  | cons a rest ih => rw [List.map_cons, sortBy, ih, insertBy_map, sortBy]

end NodeFleet
