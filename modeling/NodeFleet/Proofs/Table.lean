import Mathlib.Data.List.Induction
import NodeFleet.Table

/-!
# Tables of entries

Setting the entries of a table one after another gives the table back. Of entries that are set one
after another the last one of a key counts, and tables in which every key has the same value are equal.
-/

namespace NodeFleet

variable {V : Type}

theorem putEntry_of_above {key : String} {value : V} {entries : List (String × V)}
    (h : ∀ entry ∈ entries, entry.1 < key) :
    putEntry key value entries = entries ++ [(key, value)] := by
  induction entries with
  | nil => rfl
  | cons entry rest ih =>
      obtain ⟨k, v⟩ := entry
      obtain ⟨above, rest⟩ := List.forall_mem_cons.1 h
      have above : k < key := above
      rw [putEntry, if_neg fun lower => String.lt_irrefl k (String.lt_trans above lower),
        if_pos above, ih rest]
      rfl

namespace Table

variable {t : Table V} {key : String} {entries : List (String × V)}

theorem insertAll_append (t : Table V) (first second : List (String × V)) :
    t.insertAll (first ++ second) = (t.insertAll first).insertAll second :=
  List.foldl_append

/-- Entries whose keys ascend are those of their table. -/
theorem entries_ofList (h : Ascending entries) : (ofList entries).entries = entries := by
  induction entries using List.reverseRecOn with
  | nil => rfl
  | append_singleton rest entry ih =>
      obtain ⟨hrest, -, hlast⟩ := List.pairwise_append.1 h
      rw [ofList, insertAll_append]
      change putEntry entry.1 entry.2 (ofList rest).entries = _
      rw [ih hrest]
      exact putEntry_of_above fun e he => hlast e he entry (List.mem_singleton_self entry)

/-- The table of the entries of a table is the table. -/
theorem ofList_entries (t : Table V) : ofList t.entries = t := by
  obtain ⟨entries, ascending⟩ := t
  have h := entries_ofList ascending
  generalize ofList entries = u at h
  obtain ⟨other, _⟩ := u
  obtain rfl : other = entries := h
  rfl

theorem isEmpty_iff : t.isEmpty = true ↔ t = .empty := by
  rw [isEmpty, List.isEmpty_iff]
  constructor
  · intro h
    cases t
    cases h
    rfl
  · rintro rfl
    rfl

/-- Entries of other keys do not matter. -/
theorem get?_insertAll_of_ne (h : ∀ entry ∈ entries, entry.1 ≠ key) :
    (t.insertAll entries).get? key = t.get? key := by
  induction entries generalizing t with
  | nil => rfl
  | cons entry rest ih =>
      obtain ⟨hne, hrest⟩ := List.forall_mem_cons.1 h
      change ((t.insert entry.1 entry.2).insertAll rest).get? key = _
      rw [ih hrest, get?_insert, if_neg (Ne.symm hne)]

/-- Of entries that are inserted one after another, the last one of a key counts. -/
theorem get?_insertAll_of_last {before after : List (String × V)} {value : V}
    (last : ∀ entry ∈ after, entry.1 ≠ key) :
    (t.insertAll (before ++ (key, value) :: after)).get? key = some value := by
  rw [insertAll_append]
  change (((t.insertAll before).insert key value).insertAll after).get? key = some value
  rw [get?_insertAll_of_ne last, get?_insert, if_pos rfl]

theorem exists_last_of_key (h : ∃ entry ∈ entries, entry.1 = key) :
    ∃ before value after, entries = before ++ (key, value) :: after ∧
      ∀ entry ∈ after, entry.1 ≠ key := by
  induction entries with
  | nil =>
      obtain ⟨_, hmem, -⟩ := h
      cases hmem
  | cons entry rest ih =>
      by_cases later : ∃ entry ∈ rest, entry.1 = key
      · obtain ⟨before, value, after, rfl, last⟩ := ih later
        exact ⟨entry :: before, value, after, rfl, last⟩
      · obtain ⟨found, hmem, hkey⟩ := h
        obtain rfl : found = entry :=
          (List.mem_cons.1 hmem).resolve_right fun hrest => later ⟨found, hrest, hkey⟩
        obtain ⟨_, value⟩ := found
        obtain rfl := hkey
        exact ⟨[], value, rest, rfl, fun entry hentry hsame => later ⟨entry, hentry, hsame⟩⟩

/-- Inserting entries takes no key away and adds theirs. -/
theorem contains_insertAll :
    (t.insertAll entries).contains key = true ↔
      t.contains key = true ∨ ∃ entry ∈ entries, entry.1 = key := by
  induction entries generalizing t with
  | nil => exact (or_iff_left fun ⟨_, h, _⟩ => nomatch h).symm
  | cons entry rest ih =>
      have hinsert : (t.insert entry.1 entry.2).contains key = true ↔
          t.contains key = true ∨ entry.1 = key := by
        rw [contains, contains, get?_insert]
        by_cases h : key = entry.1
        · simp [h]
        · simp [h, Ne.symm h]
      change ((t.insert entry.1 entry.2).insertAll rest).contains key = true ↔ _
      simp only [ih, hinsert, List.mem_cons, or_and_right, exists_or, exists_eq_left, or_assoc]

theorem contains_ofList :
    (ofList entries).contains key = true ↔ ∃ entry ∈ entries, entry.1 = key :=
  contains_insertAll.trans (or_iff_right Bool.false_ne_true)

/-- The value of a key is that of its last entry. -/
theorem get?_ofList_eq_some_iff {value : V} : (ofList entries).get? key = some value ↔
    ∃ before after, entries = before ++ (key, value) :: after ∧ ∀ entry ∈ after, entry.1 ≠ key := by
  constructor
  · intro h
    have hcontains : (ofList entries).contains key = true := by rw [contains, h, Option.isSome_some]
    obtain ⟨before, other, after, rfl, last⟩ := exists_last_of_key (contains_ofList.1 hcontains)
    have hother : (ofList (before ++ (key, other) :: after)).get? key = some other :=
      get?_insertAll_of_last last
    obtain rfl := Option.some.inj (h.symm.trans hother)
    exact ⟨before, after, rfl, last⟩
  · rintro ⟨before, after, rfl, last⟩
    exact get?_insertAll_of_last last

theorem get?_eq_some_iff_mem {value : V} : t.get? key = some value ↔ (key, value) ∈ t.entries := by
  obtain ⟨entries, ascending⟩ := t
  change entries.lookup key = some value ↔ (key, value) ∈ entries
  induction entries with
  | nil => exact iff_of_false (fun h => nomatch h) List.not_mem_nil
  | cons entry rest ih =>
      obtain ⟨k, v⟩ := entry
      obtain ⟨above, tail⟩ := List.pairwise_cons.1 ascending
      rw [lookup_entry, List.mem_cons, Prod.mk.injEq]
      by_cases hkey : key = k
      · subst hkey
        have absent : (key, value) ∉ rest := fun h => String.lt_irrefl key (above _ h)
        simp [absent, eq_comm]
      · rw [if_neg hkey, ih tail]
        simp [hkey]

/-- Tables in which every key has the same value are equal. -/
theorem eq_of_get?_eq {u : Table V} (h : ∀ key, t.get? key = u.get? key) : t = u := by
  have hmem (entry : String × V) : entry ∈ t.entries ↔ entry ∈ u.entries := by
    rw [← get?_eq_some_iff_mem, h, get?_eq_some_iff_mem]
  have nodup (t : Table V) : t.entries.Nodup := by
    apply t.ascending.imp
    rintro a b hlt rfl
    exact String.lt_irrefl a.1 hlt
  have hentries : t.entries = u.entries :=
    List.Perm.eq_of_pairwise (fun a b _ _ hab hba => absurd hab (String.lt_asymm hba)) t.ascending
      u.ascending ((List.perm_ext_iff_of_nodup (nodup t) (nodup u)).2 hmem)
  rw [← ofList_entries t, hentries, ofList_entries]

theorem ne_of_get?_eq_none (h : t.get? key = none) : ∀ entry ∈ t.entries, entry.1 ≠ key := by
  rintro ⟨k, v⟩ hentry rfl
  rw [get?, List.lookup_eq_none_iff] at h
  simpa using h _ hentry

end Table

end NodeFleet
