import Mathlib.Data.List.Perm.Basic
import NodeFleet.Json.Canonical
import NodeFleet.Proofs.Json.NumberText
import NodeFleet.Proofs.Json.Quoting

/-!
# Values up to order

Two JSON values are the same up to order when one becomes the other by reordering elements of
arrays and fields of objects, at any depth. The text of a value with its elements sorted by their
texts and its fields by their keys decides this: it is equal for two values exactly when they are
the same up to order.
-/

namespace NodeFleet.Json

/-- Equality of values up to the order of array elements and of object fields. -/
inductive Same : Json → Json → Prop
  | null : Same .null .null
  | bool (b : Bool) : Same (.bool b) (.bool b)
  | num (n : Number) : Same (.num n) (.num n)
  | str (s : String) : Same (.str s) (.str s)
  | arr {xs zs ys : List Json} (paired : List.Forall₂ Same xs zs) (order : zs.Perm ys) :
      Same (.arr xs) (.arr ys)
  | obj {fs hs gs : List (String × Json)} (keys : fs.map Prod.fst = hs.map Prod.fst)
      (paired : List.Forall₂ Same (fs.map Prod.snd) (hs.map Prod.snd)) (order : hs.Perm gs) :
      Same (.obj fs) (.obj gs)

/-- Induction over a value with its elements and its field values as the smaller ones. -/
theorem induct {P : Json → Prop} (null : P .null) (bool : ∀ b, P (.bool b))
    (num : ∀ n, P (.num n)) (str : ∀ s, P (.str s))
    (arr : ∀ items, (∀ item ∈ items, P item) → P (.arr items))
    (obj : ∀ fields, (∀ field ∈ fields, P field.2) → P (.obj fields)) (j : Json) : P j := by
  refine @Json.rec P (fun items => ∀ item ∈ items, P item)
    (fun fields => ∀ field ∈ fields, P field.2) (fun field => P field.2)
    null bool num str arr obj ?_ ?_ ?_ ?_ (fun _ _ hvalue => hvalue) j
  · intro item h
    cases h
  · intro first rest hfirst hrest item h
    rcases List.mem_cons.1 h with rfl | h
    · exact hfirst
    · exact hrest item h
  · intro field h
    cases h
  · intro first rest hfirst hrest field h
    rcases List.mem_cons.1 h with rfl | h
    · exact hfirst
    · exact hrest field h

mutual

/-- The text of a value with its elements and fields sorted. -/
def sortedText : Json → String
  | .null => "null"
  | .bool b => if b then "true" else "false"
  | .num n => n.text
  | .str s => quote s
  | .arr items => arrayText (sortBy textLe (sortedItems items))
  | .obj fields => objectText (sortBy fieldLe (sortedFields fields))

/-- The sorted texts of the elements. -/
def sortedItems : List Json → List String
  | [] => []
  | item :: rest => sortedText item :: sortedItems rest

/-- The keys and the sorted texts of the values. -/
def sortedFields : List (String × Json) → List (String × String)
  | [] => []
  | (key, value) :: rest => (key, sortedText value) :: sortedFields rest

end

/-- A field with the sorted text of its value. -/
def fieldEntry (field : String × Json) : String × String :=
  (field.1, field.2.sortedText)

theorem sortedItems_eq_map (items : List Json) : sortedItems items = items.map sortedText := by
  induction items with
  | nil => rfl
  | cons item rest ih => rw [sortedItems, ih, List.map_cons]

theorem sortedFields_eq_map (fields : List (String × Json)) :
    sortedFields fields = fields.map fieldEntry := by
  induction fields with
  | nil => rfl
  | cons field rest ih => rw [sortedFields, ih, List.map_cons, fieldEntry]

section Orders

theorem textLe_total (a b : String) : textLe a b ∨ textLe b a := by
  simpa [textLe] using String.le_total a b

theorem textLe_trans (a b c : String) (hab : textLe a b) (hbc : textLe b c) : textLe a c := by
  simp only [textLe, decide_eq_true_eq] at *
  exact String.le_trans hab hbc

theorem textLe_antisymm (a b : String) (hab : textLe a b) (hba : textLe b a) : a = b := by
  simp only [textLe, decide_eq_true_eq] at *
  exact String.le_antisymm hab hba

theorem fieldLe_iff (a b : String × String) :
    fieldLe a b = true ↔ a.1 < b.1 ∨ a.1 = b.1 ∧ a.2 ≤ b.2 := by
  simp [fieldLe]

theorem fieldLe_total (a b : String × String) : fieldLe a b ∨ fieldLe b a := by
  rw [fieldLe_iff, fieldLe_iff]
  by_cases hab : a.1 < b.1
  · exact .inl (.inl hab)
  · by_cases hba : b.1 < a.1
    · exact .inr (.inl hba)
    · have hkey := text_eq_of_not_lt hab hba
      exact (String.le_total a.2 b.2).imp (fun h => .inr ⟨hkey, h⟩) fun h => .inr ⟨hkey.symm, h⟩

theorem fieldLe_trans (a b c : String × String) (hab : fieldLe a b) (hbc : fieldLe b c) :
    fieldLe a c := by
  rw [fieldLe_iff] at *
  rcases hab with hab | ⟨kab, hab⟩ <;> rcases hbc with hbc | ⟨kbc, hbc⟩
  · exact .inl (String.lt_trans hab hbc)
  · exact .inl (kbc ▸ hab)
  · exact .inl (kab ▸ hbc)
  · exact .inr ⟨kab.trans kbc, String.le_trans hab hbc⟩

theorem fieldLe_antisymm (a b : String × String) (hab : fieldLe a b) (hba : fieldLe b a) :
    a = b := by
  rw [fieldLe_iff] at *
  rcases hab with hab | ⟨kab, hab⟩ <;> rcases hba with hba | ⟨kba, hba⟩
  · exact absurd (String.lt_trans hab hba) (String.lt_irrefl _)
  · exact absurd (kba ▸ hab) (String.lt_irrefl _)
  · exact absurd (kab ▸ hba) (String.lt_irrefl _)
  · exact Prod.ext kab (String.le_antisymm hab hba)

end Orders

section SameText

theorem map_eq_of_forall₂ {α β : Type} {R : α → α → Prop} {f : α → β} {xs ys : List α}
    (h : ∀ x ∈ xs, ∀ y, R x y → f x = f y) (paired : List.Forall₂ R xs ys) :
    xs.map f = ys.map f := by
  induction paired with
  | nil => rfl
  | cons hxy _ ih =>
      rw [List.map_cons, List.map_cons, h _ List.mem_cons_self _ hxy,
        ih fun x hx => h x (List.mem_cons_of_mem _ hx)]

theorem map_fieldEntry (fields : List (String × Json)) :
    fields.map fieldEntry =
      (fields.map Prod.fst).zip ((fields.map Prod.snd).map sortedText) := by
  induction fields with
  | nil => rfl
  | cons field rest ih =>
      rw [List.map_cons, ih]
      rfl

theorem sortedText_arr (items : List Json) :
    (Json.arr items).sortedText = arrayText (sortBy textLe (items.map sortedText)) := by
  rw [sortedText, sortedItems_eq_map]

theorem sortedText_obj (fields : List (String × Json)) :
    (Json.obj fields).sortedText = objectText (sortBy fieldLe (fields.map fieldEntry)) := by
  rw [sortedText, sortedFields_eq_map]

/-- Values that are the same up to order have one sorted text. -/
theorem Same.sortedText_eq {x y : Json} (h : Same x y) : x.sortedText = y.sortedText := by
  induction x using induct generalizing y with
  | null => cases h; rfl
  | bool b => cases h; rfl
  | num n => cases h; rfl
  | str s => cases h; rfl
  | arr items ih =>
      cases h with
      | arr paired order =>
          rw [sortedText_arr, sortedText_arr,
            map_eq_of_forall₂ (fun item hitem _ hsame => ih item hitem hsame) paired]
          congr 1
          exact sortBy_eq_of_perm textLe_total textLe_trans textLe_antisymm (order.map _)
  | obj fields ih =>
      cases h with
      | obj keys paired order =>
          have hvalues := map_eq_of_forall₂ (f := sortedText) (fun value hvalue _ hsame => by
            obtain ⟨field, hfield, rfl⟩ := List.mem_map.1 hvalue
            exact ih field hfield hsame) paired
          rw [sortedText_obj, sortedText_obj, map_fieldEntry, keys, hvalues, ← map_fieldEntry]
          congr 1
          exact sortBy_eq_of_perm fieldLe_total fieldLe_trans fieldLe_antisymm (order.map _)

end SameText

section Splitting

/-- What follows a value in a text: nothing, or a character that no number is written with. -/
def Bounded (rest : List Char) : Prop :=
  ∀ c ∈ rest.head?, isNumeral c = false

/-- Texts that tell their items, up to a relation, from whatever may follow them. -/
def Splits {α : Type} (t : α → String) (R : α → α → Prop) (a : α) : Prop :=
  ∀ b r s, Bounded r → Bounded s → (t a).toList ++ r = (t b).toList ++ s → R a b ∧ r = s

/-- The texts after the first one of a list, each behind a comma. -/
def afterCommas : List String → List Char
  | [] => []
  | text :: rest => ',' :: (commaSeparated (text :: rest)).toList

theorem commaSeparated_cons (text : String) (rest : List String) :
    (commaSeparated (text :: rest)).toList = text.toList ++ afterCommas rest := by
  cases rest with
  | nil => simp [commaSeparated, afterCommas]
  | cons other rest => simp [commaSeparated, afterCommas]

theorem bounded_afterCommas {close : Char} (hclose : isNumeral close = false)
    (texts : List String) (rest : List Char) : Bounded (afterCommas texts ++ close :: rest) := by
  intro c hc
  cases texts with
  | nil =>
      simp only [afterCommas, List.nil_append, List.head?_cons, Option.mem_some_iff] at hc
      exact hc ▸ hclose
  | cons text texts =>
      simp only [afterCommas, List.cons_append, List.head?_cons, Option.mem_some_iff] at hc
      exact hc ▸ rfl

/-- A bracketed list of texts is split in one way only. The closing character begins no text and
is no comma, so a list cannot end within another one. -/
theorem forall₂_of_commaSeparated {α : Type} {t : α → String} {R : α → α → Prop} {close : Char}
    (hclose : isNumeral close = false) (hcomma : close ≠ ',')
    (hlead : ∀ a, ∃ c rest, (t a).toList = c :: rest ∧ c ≠ close) {xs ys : List α}
    {r s : List Char} (hsplit : ∀ x ∈ xs, Splits t R x)
    (h : (commaSeparated (xs.map t)).toList ++ close :: r =
      (commaSeparated (ys.map t)).toList ++ close :: s) :
    List.Forall₂ R xs ys ∧ r = s := by
  induction xs generalizing ys with
  | nil =>
      cases ys with
      | nil =>
          exact ⟨.nil, (List.cons.inj h).2⟩
      | cons y ys =>
          obtain ⟨c, rest, hc, hne⟩ := hlead y
          rw [List.map_cons, commaSeparated_cons, hc] at h
          exact absurd (List.cons.inj h).1.symm hne
  | cons x xs ih =>
      cases ys with
      | nil =>
          obtain ⟨c, rest, hc, hne⟩ := hlead x
          rw [List.map_cons, commaSeparated_cons, hc] at h
          exact absurd (List.cons.inj h).1 hne
      | cons y ys =>
          rw [List.map_cons, List.map_cons, commaSeparated_cons, commaSeparated_cons,
            List.append_assoc, List.append_assoc] at h
          obtain ⟨hxy, hrest⟩ := hsplit x List.mem_cons_self y _ _
            (bounded_afterCommas hclose _ _) (bounded_afterCommas hclose _ _) h
          have htail : (commaSeparated (xs.map t)).toList ++ close :: r =
              (commaSeparated (ys.map t)).toList ++ close :: s := by
            cases xs with
            | nil =>
                cases ys with
                | nil => exact hrest
                | cons y' ys => exact absurd (List.cons.inj hrest).1 hcomma
            | cons x' xs =>
                cases ys with
                | nil => exact absurd (List.cons.inj hrest).1.symm hcomma
                | cons y' ys => exact (List.cons.inj hrest).2
          obtain ⟨hpaired, hr⟩ :=
            ih (fun x' hx' => hsplit x' (List.mem_cons_of_mem _ hx')) htail
          exact ⟨.cons hxy hpaired, hr⟩

/-- Which of the six forms a value has. -/
def form : Json → Nat
  | .null => 0
  | .bool _ => 1
  | .num _ => 2
  | .str _ => 3
  | .arr _ => 4
  | .obj _ => 5

/-- Which form of value a first character announces. -/
def announces (c : Char) : Nat :=
  if c = 'n' then 0
  else if c = 't' ∨ c = 'f' then 1
  else if c = '"' then 3
  else if c = '[' then 4
  else if c = '\x7b' then 5
  else 2

theorem announces_number {c : Char} (h : c.isDigit = true ∨ c = '-') :
    announces c = 2 ∧ c ≠ ']' ∧ c ≠ '\x7d' := by
  rcases h with h | rfl
  · have hne (d : Char) (hd : d.isDigit = false) : c ≠ d := by
      rintro rfl
      rw [h] at hd
      cases hd
    simp [announces, hne 'n' rfl, hne 't' rfl, hne 'f' rfl, hne '"' rfl, hne '[' rfl,
      hne '\x7b' rfl, hne ']' rfl, hne '\x7d' rfl]
  · decide

/-- The first character of a text announces the form of the value and closes nothing. -/
theorem sortedText_lead (x : Json) : ∃ c rest, x.sortedText.toList = c :: rest ∧
    announces c = x.form ∧ c ≠ ']' ∧ c ≠ '\x7d' := by
  cases x with
  | null => exact ⟨'n', _, rfl, by decide⟩
  | bool b =>
      cases b
      · exact ⟨'f', _, rfl, rfl, by decide⟩
      · exact ⟨'t', _, rfl, rfl, by decide⟩
  | num n =>
      obtain ⟨c, rest, hform, hc⟩ := n.exists_cons_chars
      exact ⟨c, rest, by simp [sortedText, Number.text, hform], announces_number hc⟩
  | str s => exact ⟨'"', _, by rw [sortedText, quote_toList], rfl, by decide⟩
  | arr items =>
      exact ⟨'[', _, by simp [sortedText, arrayText]; rfl, rfl, by decide⟩
  | obj fields =>
      exact ⟨'\x7b', _, by simp [sortedText, objectText]; rfl, rfl, by decide⟩

theorem form_eq_of_sortedText {x y : Json} {r s : List Char}
    (h : x.sortedText.toList ++ r = y.sortedText.toList ++ s) : x.form = y.form := by
  obtain ⟨c, rest, hc, hx, _⟩ := sortedText_lead x
  obtain ⟨d, others, hd, hy, _⟩ := sortedText_lead y
  rw [hc, hd] at h
  rw [← hx, ← hy, (List.cons.inj h).1]

/-- The text of a field. -/
def fieldText (entry : String × String) : String :=
  quote entry.1 ++ ":" ++ entry.2

theorem objectText_toList (entries : List (String × String)) (rest : List Char) :
    (objectText entries).toList ++ rest =
      '\x7b' :: ((commaSeparated (entries.map fieldText)).toList ++ '\x7d' :: rest) := by
  simp only [objectText, String.toList_append, List.append_assoc]
  rfl

theorem arrayText_toList (texts : List String) (rest : List Char) :
    (arrayText texts).toList ++ rest =
      '[' :: ((commaSeparated texts).toList ++ ']' :: rest) := by
  simp only [arrayText, String.toList_append, List.append_assoc]
  rfl

/-- Equality of fields up to the order within their values. -/
def SameField (f g : String × Json) : Prop :=
  f.1 = g.1 ∧ Same f.2 g.2

theorem splits_field {f : String × Json} (h : Splits sortedText Same f.2) :
    Splits (fun f => fieldText (fieldEntry f)) SameField f := by
  intro g r s hr hs he
  simp only [fieldText, fieldEntry, String.toList_append, List.append_assoc] at he
  obtain ⟨hkey, hrest⟩ := quote_append_inj he
  obtain ⟨hvalue, hrs⟩ := h g.2 r s hr hs (List.append_cancel_left hrest)
  exact ⟨⟨hkey, hvalue⟩, hrs⟩

theorem Same.arr_of_sorted {xs ys xs' ys' : List Json} (hx : xs'.Perm xs) (hy : ys'.Perm ys)
    (paired : List.Forall₂ Same xs' ys') : Same (.arr xs) (.arr ys) := by
  obtain ⟨zs, hzs, order⟩ := List.perm_comp_forall₂ hx.symm paired
  exact .arr hzs (order.trans hy)

theorem Same.obj_of_sorted {fs gs fs' gs' : List (String × Json)} (hf : fs'.Perm fs)
    (hg : gs'.Perm gs) (paired : List.Forall₂ SameField fs' gs') : Same (.obj fs) (.obj gs) := by
  obtain ⟨hs, hpaired, order⟩ := List.perm_comp_forall₂ hf.symm paired
  have keys : fs.map Prod.fst = hs.map Prod.fst :=
    map_eq_of_forall₂ (fun _ _ _ h => h.1) hpaired
  have values : List.Forall₂ Same (fs.map Prod.snd) (hs.map Prod.snd) := by
    rw [List.forall₂_map_left_iff, List.forall₂_map_right_iff]
    exact hpaired.imp fun _ _ h => h.2
  exact .obj keys values (order.trans hg)

/-- A value is told, up to order, by its sorted text from whatever follows it. -/
theorem splits_sortedText (x : Json) : Splits sortedText Same x := by
  induction x using induct with
  | null =>
      intro y r s hr hs h
      have hform := form_eq_of_sortedText h
      cases y with
      | null => exact ⟨.null, List.append_cancel_left h⟩
      | _ => exact absurd hform (by simp [form])
  | bool b =>
      intro y r s hr hs h
      have hform := form_eq_of_sortedText h
      cases y with
      | bool b' =>
          cases b <;> cases b' <;> simp [sortedText] at h
          · exact ⟨.bool false, h⟩
          · exact ⟨.bool true, h⟩
      | _ => exact absurd hform (by simp [form])
  | num n =>
      intro y r s hr hs h
      have hform := form_eq_of_sortedText h
      cases y with
      | num m =>
          simp only [sortedText, Number.text, String.toList_ofList] at h
          obtain ⟨rfl, hrs⟩ := Number.chars_append_inj hr hs h
          exact ⟨.num n, hrs⟩
      | _ => exact absurd hform (by simp [form])
  | str t =>
      intro y r s hr hs h
      have hform := form_eq_of_sortedText h
      cases y with
      | str u =>
          obtain ⟨rfl, hrs⟩ := quote_append_inj h
          exact ⟨.str t, hrs⟩
      | _ => exact absurd hform (by simp [form])
  | arr items ih =>
      intro y r s hr hs h
      have hform := form_eq_of_sortedText h
      cases y with
      | arr others =>
          rw [sortedText_arr, sortedText_arr, arrayText_toList, arrayText_toList, sortBy_map,
            sortBy_map] at h
          have hlead (x : Json) : ∃ c rest, x.sortedText.toList = c :: rest ∧ c ≠ ']' := by
            obtain ⟨c, rest, hc, _, hne, _⟩ := sortedText_lead x
            exact ⟨c, rest, hc, hne⟩
          have hx := sortBy_perm (fun a b : Json => textLe a.sortedText b.sortedText) items
          have hy := sortBy_perm (fun a b : Json => textLe a.sortedText b.sortedText) others
          obtain ⟨paired, hrs⟩ := forall₂_of_commaSeparated rfl (by decide) hlead
            (fun x hmem => ih x (hx.mem_iff.1 hmem)) (List.cons.inj h).2
          exact ⟨Same.arr_of_sorted hx hy paired, hrs⟩
      | _ => exact absurd hform (by simp [form])
  | obj fields ih =>
      intro y r s hr hs h
      have hform := form_eq_of_sortedText h
      cases y with
      | obj others =>
          rw [sortedText_obj, sortedText_obj, objectText_toList, objectText_toList, sortBy_map,
            sortBy_map, List.map_map, List.map_map] at h
          have hlead (f : String × Json) : ∃ c rest,
              (fieldText (fieldEntry f)).toList = c :: rest ∧ c ≠ '\x7d' := by
            exact ⟨'"', _, by
              rw [fieldText, String.toList_append, String.toList_append, quote_toList]; rfl,
              by decide⟩
          have hf := sortBy_perm (fun a b : String × Json => fieldLe (fieldEntry a) (fieldEntry b))
            fields
          have hg := sortBy_perm (fun a b : String × Json => fieldLe (fieldEntry a) (fieldEntry b))
            others
          obtain ⟨paired, hrs⟩ := forall₂_of_commaSeparated rfl (by decide) hlead
            (fun f hmem => splits_field (ih f (hf.mem_iff.1 hmem))) (List.cons.inj h).2
          exact ⟨Same.obj_of_sorted hf hg paired, hrs⟩
      | _ => exact absurd hform (by simp [form])

/-- The sorted text decides equality up to order. -/
theorem sortedText_eq_iff (x y : Json) : x.sortedText = y.sortedText ↔ Same x y := by
  constructor
  · intro h
    have hnil : Bounded [] := fun c hc => nomatch hc
    exact (splits_sortedText x y [] [] hnil hnil (by rw [h])).1
  · exact Same.sortedText_eq

end Splitting

end NodeFleet.Json
