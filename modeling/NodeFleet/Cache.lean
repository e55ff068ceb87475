import NodeFleet.Table

/-!
# Caches with expiring entries

An entry is fresh until its expiry and as good as absent from then on. Expired entries stay stored
until they are replaced, removed or purged. Times are in milliseconds.
-/

namespace NodeFleet

/-- A stored value and the time at which it stops being fresh. -/
structure CacheEntry (V : Type) where
  value : V
  expires : Nat

/-- Values under text keys, each with an expiry. -/
structure Cache (V : Type) where
  entries : Table (CacheEntry V)

namespace Cache

variable {V : Type}

/-- The cache without entries. -/
def empty : Cache V :=
  ⟨.empty⟩

instance : Inhabited (Cache V) := ⟨empty⟩

/-- The fresh value under a key. -/
def get? (c : Cache V) (now : Nat) (key : String) : Option V :=
  match c.entries.get? key with
  | some entry => if now < entry.expires then some entry.value else none
  | none => none

/-- Stores a value for so long. -/
def set (c : Cache V) (now : Nat) (key : String) (value : V) (ttl : Nat) : Cache V :=
  ⟨c.entries.insert key ⟨value, now + ttl⟩⟩

/-- Removes the entry of a key. -/
def delete (c : Cache V) (key : String) : Cache V :=
  ⟨c.entries.erase key⟩

/-- Drops the expired entries. -/
def purge (c : Cache V) (now : Nat) : Cache V :=
  ⟨c.entries.filter fun _ entry => now < entry.expires⟩

/-- How many entries are stored, expired ones included. -/
def size (c : Cache V) : Nat :=
  c.entries.size

/-- How many entries `purge` drops. -/
def expiredCount (c : Cache V) (now : Nat) : Nat :=
  c.size - (c.purge now).size

theorem entry_set (c : Cache V) (now : Nat) (key other : String) (value : V) (ttl : Nat) :
    (c.set now key value ttl).entries.get? other =
      if other = key then some ⟨value, now + ttl⟩ else c.entries.get? other :=
  Table.get?_insert _ _ _ _

theorem entry_delete (c : Cache V) (key other : String) :
    (c.delete key).entries.get? other = if other = key then none else c.entries.get? other :=
  Table.get?_erase _ _ _

theorem entry_purge (c : Cache V) (now : Nat) (key : String) :
    (c.purge now).entries.get? key =
      (c.entries.get? key).filter fun entry => now < entry.expires :=
  Table.get?_filter _ _ _

theorem get?_eq_some_iff {c : Cache V} {now : Nat} {key : String} {value : V} :
    c.get? now key = some value ↔
      ∃ entry, c.entries.get? key = some entry ∧ now < entry.expires ∧ entry.value = value := by
  rw [get?]
  cases c.entries.get? key with
  | none => simp
  | some entry => simp

end Cache

end NodeFleet
