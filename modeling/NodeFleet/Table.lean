/-!
# Tables with text keys

A table is a list of entries whose keys ascend strictly, so a key occurs once and two tables with
the same entries are equal. Keys are compared by code points.
-/

namespace NodeFleet

/-- Replaces the entry of a key, or puts it in front of the first greater key. -/
def putEntry {V : Type} (key : String) (value : V) : List (String × V) → List (String × V)
  | [] => [(key, value)]
  | (k, v) :: rest =>
      if key < k then (key, value) :: (k, v) :: rest
      else if k < key then (k, v) :: putEntry key value rest
      else (key, value) :: rest

theorem text_eq_of_not_lt {a b : String} (hab : ¬ a < b) (hba : ¬ b < a) : a = b :=
  String.le_antisymm (String.not_lt.1 hba) (String.not_lt.1 hab)

theorem mem_putEntry {V : Type} {key : String} {value : V} {entries : List (String × V)}
    {entry : String × V} (h : entry ∈ putEntry key value entries) :
    entry = (key, value) ∨ entry ∈ entries := by
  induction entries with
  | nil => simpa [putEntry] using h
  | cons e rest ih =>
      obtain ⟨k, v⟩ := e
      simp only [putEntry] at h
      split at h
      · simpa using h
      · split at h
        · rcases List.mem_cons.1 h with h | h
          · exact .inr (by simp [h])
          · exact (ih h).imp id (List.mem_cons_of_mem _)
        · rcases List.mem_cons.1 h with h | h
          · exact .inl h
          · exact .inr (List.mem_cons_of_mem _ h)

/-- Every key is below the keys after it. -/
def Ascending {V : Type} (entries : List (String × V)) : Prop :=
  entries.Pairwise fun a b => a.1 < b.1

theorem ascending_putEntry {V : Type} (key : String) (value : V) {entries : List (String × V)}
    (h : Ascending entries) : Ascending (putEntry key value entries) := by
  induction entries with
  | nil => exact List.pairwise_singleton _ _
  | cons e rest ih =>
      obtain ⟨k, v⟩ := e
      obtain ⟨above, tail⟩ := List.pairwise_cons.1 h
      simp only [putEntry]
      split
      · rename_i lower
        refine List.pairwise_cons.2 ⟨?_, h⟩
        intro entry mem
        rcases List.mem_cons.1 mem with rfl | mem
        · exact lower
        · exact String.lt_trans lower (above entry mem)
      · split
        · rename_i upper
          refine List.pairwise_cons.2 ⟨?_, ih tail⟩
          intro entry mem
          rcases mem_putEntry mem with rfl | mem
          · exact upper
          · exact above entry mem
        · rename_i lower upper
          obtain rfl := text_eq_of_not_lt lower upper
          exact List.pairwise_cons.2 ⟨above, tail⟩

/-- Entries with text keys, each key once, in ascending order. -/
structure Table (V : Type) where
  entries : List (String × V)
  ascending : Ascending entries

namespace Table

variable {V : Type}

instance [DecidableEq V] : DecidableEq (Table V) := fun a b =>
  match decEq a.entries b.entries with
  | .isTrue h => .isTrue (by cases a; cases b; simp_all)
  | .isFalse h => .isFalse (fun e => h (e ▸ rfl))

/-- The table without entries. -/
def empty : Table V :=
  ⟨[], List.Pairwise.nil⟩

instance : Inhabited (Table V) := ⟨empty⟩

/-- The value of a key. -/
def get? (t : Table V) (key : String) : Option V :=
  t.entries.lookup key

/-- Sets the value of a key. -/
def insert (t : Table V) (key : String) (value : V) : Table V :=
  ⟨putEntry key value t.entries, ascending_putEntry key value t.ascending⟩

/-- Removes a key. -/
def erase (t : Table V) (key : String) : Table V :=
  ⟨t.entries.filter fun e => e.1 != key, t.ascending.filter _⟩

/-- Keeps the entries that satisfy a test. -/
def filter (t : Table V) (keep : String → V → Bool) : Table V :=
  ⟨t.entries.filter fun e => keep e.1 e.2, t.ascending.filter _⟩

/-- Whether a key has a value. -/
def contains (t : Table V) (key : String) : Bool :=
  (t.get? key).isSome

/-- The number of entries. -/
def size (t : Table V) : Nat :=
  t.entries.length

/-- Whether there are no entries. -/
def isEmpty (t : Table V) : Bool :=
  t.entries.isEmpty

/-- The values in the order of their keys. -/
def values (t : Table V) : List V :=
  t.entries.map (·.2)

/-- Inserts the entries one after another, so the last one of a key stays. -/
def insertAll (t : Table V) (entries : List (String × V)) : Table V :=
  entries.foldl (fun t e => t.insert e.1 e.2) t

/-- The table of a list of entries; the last one of a key stays. -/
def ofList (entries : List (String × V)) : Table V :=
  empty.insertAll entries

theorem lookup_entry (key other : String) (value : V) (rest : List (String × V)) :
    ((key, value) :: rest).lookup other =
      if other = key then some value else rest.lookup other := by
  by_cases h : other = key
  · simp [h]
  · simp [List.lookup_cons, h, beq_eq_false_iff_ne.2 h]

theorem lookup_putEntry (key other : String) (value : V) (entries : List (String × V)) :
    (putEntry key value entries).lookup other =
      if other = key then some value else entries.lookup other := by
  induction entries with
  | nil => simp [putEntry, lookup_entry]
  | cons e rest ih =>
      obtain ⟨k, v⟩ := e
      simp only [putEntry]
      split
      · simp [lookup_entry]
      · split
        · rename_i upper
          have apart : k ≠ key := fun e => String.lt_irrefl _ (e ▸ upper)
          by_cases h : other = k
          · simp [h, apart]
          · simp [lookup_entry, h, ih]
        · rename_i lower upper
          obtain rfl := text_eq_of_not_lt lower upper
          by_cases h : other = key <;> simp [lookup_entry, h]

theorem get?_empty (key : String) : (empty : Table V).get? key = none := rfl

theorem get?_insert (t : Table V) (key other : String) (value : V) :
    (t.insert key value).get? other = if other = key then some value else t.get? other :=
  lookup_putEntry key other value t.entries

theorem get?_erase (t : Table V) (key other : String) :
    (t.erase key).get? other = if other = key then none else t.get? other := by
  simp only [get?, erase]
  generalize t.entries = entries
  induction entries with
  | nil => simp
  | cons e rest ih =>
      obtain ⟨k, v⟩ := e
      by_cases hk : k = key
      · subst hk
        by_cases h : other = k
        · simpa [List.filter_cons, h] using ih
        · simpa [List.filter_cons, lookup_entry, h] using ih
      · by_cases h : other = k
        · subst h
          simp [hk]
        · simpa [List.filter_cons, lookup_entry, hk, h] using ih

theorem lookup_eq_none_of_above {key : String} {entries : List (String × V)}
    (above : ∀ entry ∈ entries, key < entry.1) : entries.lookup key = none := by
  induction entries with
  | nil => rfl
  | cons e rest ih =>
      obtain ⟨k, v⟩ := e
      have apart : key ≠ k := fun h =>
        String.lt_irrefl k (h ▸ above (k, v) List.mem_cons_self)
      rw [lookup_entry, if_neg apart]
      exact ih fun entry hentry => above entry (List.mem_cons_of_mem _ hentry)

theorem get?_filter (t : Table V) (keep : String → V → Bool) (key : String) :
    (t.filter keep).get? key = (t.get? key).filter (keep key) := by
  obtain ⟨entries, ascending⟩ := t
  simp only [get?, filter]
  induction entries with
  | nil => rfl
  | cons e rest ih =>
      obtain ⟨k, v⟩ := e
      obtain ⟨above, tail⟩ := List.pairwise_cons.1 ascending
      rw [List.filter_cons, lookup_entry]
      by_cases h : key = k
      · subst h
        cases hkeep : keep key v
        · have hrest : (rest.filter fun e => keep e.1 e.2).lookup key = none :=
            lookup_eq_none_of_above fun entry hentry => above entry (List.mem_filter.1 hentry).1
          simp [hkeep, hrest, Option.filter]
        · simp [hkeep, Option.filter]
      · cases hkeep : keep k v
        · simpa [h] using ih tail
        · simpa [lookup_entry, h] using ih tail

end Table

end NodeFleet
