import Mathlib.Data.List.Perm.Basic
import NodeFleet.Cache

/-!
# Looking at a cache after each operation

What a look at a cache finds after an entry was set or removed, and after expired entries were
dropped. A purge changes no look from then on; it only takes entries out of store.
-/

namespace NodeFleet

namespace Cache

variable {V : Type}

theorem get?_empty (time : Nat) (key : String) : (empty : Cache V).get? time key = none := rfl

theorem get?_set (c : Cache V) (now : Nat) (key other : String) (value : V) (ttl time : Nat) :
    (c.set now key value ttl).get? time other =
      if other = key then (if time < now + ttl then some value else none)
      else c.get? time other := by
  rw [get?, entry_set]
  by_cases h : other = key
  · rw [if_pos h, if_pos h]
  · rw [if_neg h, if_neg h, get?]

theorem get?_delete (c : Cache V) (key other : String) (time : Nat) :
    (c.delete key).get? time other = if other = key then none else c.get? time other := by
  rw [get?, entry_delete]
  by_cases h : other = key
  · rw [if_pos h, if_pos h]
  · rw [if_neg h, if_neg h, get?]

/-- What has expired is never found again. -/
theorem get?_purge (c : Cache V) {now time : Nat} (h : now ≤ time) (key : String) :
    (c.purge now).get? time key = c.get? time key := by
  rw [get?, entry_purge, get?]
  cases c.entries.get? key with
  | none => rfl
  | some entry =>
      by_cases fresh : now < entry.expires
      · simp [Option.filter, fresh]
      · have expired : ¬ time < entry.expires := fun later =>
          fresh (Nat.lt_of_le_of_lt h later)
        simp [Option.filter, fresh, expired]

/-- A cache is what a purge drops and what it leaves, and it drops as many as it counts. -/
theorem exists_dropped (c : Cache V) (now : Nat) :
    ∃ dropped, dropped.length = c.expiredCount now ∧ (∀ e ∈ dropped, e.2.expires ≤ now) ∧
      (dropped ++ (c.purge now).entries.entries).Perm c.entries.entries := by
  let stays (e : String × CacheEntry V) : Bool := now < e.2.expires
  have hperm : (c.entries.entries.filter (fun e => !stays e) ++
      (c.purge now).entries.entries).Perm c.entries.entries :=
    List.perm_append_comm.trans (List.filter_append_perm stays c.entries.entries)
  refine ⟨_, ?_, fun e he => ?_, hperm⟩
  · have hlength := hperm.length_eq
    rw [List.length_append] at hlength
    rw [expiredCount, size, size, Table.size, Table.size]
    omega
  · simpa [stays] using (List.mem_filter.1 he).2

theorem fresh_of_mem_purge {c : Cache V} {now : Nat} {e : String × CacheEntry V}
    (h : e ∈ (c.purge now).entries.entries) : now < e.2.expires :=
  of_decide_eq_true (List.mem_filter.1 h).2

end Cache

end NodeFleet
