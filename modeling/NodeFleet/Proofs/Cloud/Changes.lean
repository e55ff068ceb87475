import Mathlib.Data.List.Nodup
import NodeFleet.Proofs.Cloud.Managed
import NodeFleet.Proofs.Cloud.Startup

/-!
# What a call changes

A call that is answered with an error changes nothing. One that succeeds may give out a machine and a
job, and these were not given out before; it may set tags and clear others; and the machines that were
there before it move on from starting over running to destroyed, if at all. A cloud in which machines
have distinct identifiers and tags have distinct keys is left so by every call.
-/

namespace NodeFleet.Cloud

/-- A call with the answer that it got. -/
structure Served where
  call : Call
  reply : Except CallError call.Reply

/-- Where a tag is stored: its resource and its key. -/
def ResourceTag.place (t : ResourceTag) : String × String :=
  (t.resourceId, t.key)

namespace Served

/-- The machine that a call deployed. -/
def machineId? : Served → Option String
  | ⟨.deployMachine _, .ok reply⟩ => some reply.id
  | _ => none

/-- The job that a call started. -/
def jobId? : Served → Option String
  | ⟨.deployMachine _, .ok reply⟩ => reply.jobId
  | ⟨.destroyMachine _, .ok ticket⟩ => ticket.jobId
  | _ => none

/-- A call set a tag. -/
def Sets (t : ResourceTag) : Served → Prop
  | ⟨.createTags w, .ok _⟩ => t.resourceId ∈ w.resourceIds ∧ t.resourceType = w.kind.name ∧
      w.tags.get? t.key = some t.value
  | _ => False

/-- A call replaced a tag or removed it, if it was there: it set the key of its resource, removed it by
resource, kind and key, or expunged its resource. -/
def Clears (t : ResourceTag) : Served → Prop
  | ⟨.createTags w, .ok _⟩ => t.resourceId ∈ w.resourceIds ∧ w.tags.contains t.key = true
  | ⟨.deleteTags r, .ok _⟩ => t.resourceId ∈ r.resourceIds ∧ t.resourceType = r.kind.name ∧
      (r.tags.isEmpty = true ∨ r.tags.contains t.key = true)
  | ⟨.destroyMachine r, .ok _⟩ => r.expunge = true ∧ r.id = t.resourceId
  | _ => False

end Served

/-- A machine stays as it is, goes from starting to running, or is destroyed. -/
def VirtualMachine.MovesOn (vm after : VirtualMachine) : Prop :=
  after.state = vm.state ∨ (vm.state = starting ∧ after.state = running) ∨ after.state = destroyed

namespace VirtualMachine.MovesOn

variable {vm after last : VirtualMachine}

theorem trans (h : vm.MovesOn after) (h' : after.MovesOn last) : vm.MovesOn last := by
  rcases h' with same | ⟨starts, runs⟩ | gone
  · rcases h with h | ⟨h, h'⟩ | h
    · exact .inl (same.trans h)
    · exact .inr (.inl ⟨h, same.trans h'⟩)
    · exact .inr (.inr (same.trans h))
  · rcases h with h | ⟨-, h⟩ | h
    · exact .inr (.inl ⟨h.symm.trans starts, runs⟩)
    · exact absurd (h.symm.trans starts) (by decide)
    · exact absurd (h.symm.trans starts) (by decide)
  · exact .inr (.inr gone)

theorem not_starting (h : vm.MovesOn after) (runs : vm.state = running) : after.state ≠ starting := by
  intro starts
  rcases h with h | ⟨h, -⟩ | h
  · exact absurd (runs.symm.trans (h.symm.trans starts)) (by decide)
  · exact absurd (runs.symm.trans h) (by decide)
  · exact absurd (h.symm.trans starts) (by decide)

theorem stays_destroyed (h : vm.MovesOn after) (gone : vm.state = destroyed) :
    after.state = destroyed := by
  rcases h with h | ⟨h, -⟩ | h
  · exact h.trans gone
  · exact absurd (gone.symm.trans h) (by decide)
  · exact h

theorem of_sighted (h : after = vm ∨ after = vm.comeUp) : vm.MovesOn after := by
  rcases h with rfl | rfl
  · exact .inl rfl
  · rw [comeUp]
    split
    next starts => exact .inr (.inl ⟨starts, rfl⟩)
    next => exact .inl rfl

end VirtualMachine.MovesOn

namespace Inventory

variable {inv other : Inventory} {today : Instant} {call : Call} {t : ResourceTag}

/-- A call is refused without an effect, or carried out. -/
theorem serve_cases (inv : Inventory) (today : Instant) (call : Call) :
    (∃ e, inv.serve today call = (.error e, inv)) ∨
      inv.serve today call = inv.carryOut today call := by
  rw [serve]
  split
  · exact .inl ⟨_, rfl⟩
  · exact .inr rfl

section Destroying

/-- The cloud once a destruction is carried out, before its job is started. -/
def strike (inv : Inventory) (r : DestroyRequest) : Inventory :=
  if r.expunge then
    { inv with
      machines := removeMachine r.id inv.machines
      tags := inv.tags.filter fun t => t.resourceId ≠ r.id }
  else { inv with machines := markDestroyed r.id inv.machines }

/-- A destruction is refused without an effect, or carried out on a machine that the cloud has. -/
theorem destroy_cases (inv : Inventory) (r : DestroyRequest) :
    (∃ e, inv.destroy r = (.error e, inv)) ∨
      (∃ vm ∈ inv.machines, vm.id = r.id) ∧
        inv.destroy r = (.ok ⟨(inv.strike r).startJob.1⟩, (inv.strike r).startJob.2) := by
  rw [destroy]
  split
  next => exact .inl ⟨_, rfl⟩
  next vm hvm =>
    rw [machine?] at hvm
    refine .inr ⟨⟨vm, List.mem_of_find?_eq_some hvm, ?_⟩, rfl⟩
    simpa using List.find?_some hvm

theorem lastNumber_strike (inv : Inventory) (r : DestroyRequest) :
    (inv.strike r).lastNumber = inv.lastNumber := by
  rw [strike]
  split <;> rfl

theorem map_id_markDestroyed (id : String) (machines : List VirtualMachine) :
    (markDestroyed id machines).map (·.id) = machines.map (·.id) := by
  induction machines with
  | nil => rfl
  | cons vm rest ih =>
      rw [markDestroyed]
      split
      · rfl
      · rw [List.map_cons, List.map_cons, ih]

theorem exists_of_mem_markDestroyed {id : String} {machines : List VirtualMachine}
    {after : VirtualMachine} (h : after ∈ markDestroyed id machines) :
    ∃ vm ∈ machines, vm.id = after.id ∧ vm.MovesOn after := by
  induction machines with
  | nil => cases h
  | cons vm rest ih =>
      rw [markDestroyed] at h
      split at h
      · rcases List.mem_cons.1 h with rfl | hrest
        · exact ⟨vm, List.mem_cons_self, rfl, .inr (.inr rfl)⟩
        · exact ⟨after, List.mem_cons_of_mem _ hrest, rfl, .inl rfl⟩
      · rcases List.mem_cons.1 h with rfl | hrest
        · exact ⟨after, List.mem_cons_self, rfl, .inl rfl⟩
        · obtain ⟨found, hfound, hsame⟩ := ih hrest
          exact ⟨found, List.mem_cons_of_mem _ hfound, hsame⟩

/-- Where identifiers are distinct, a machine is removed with its identifier. -/
theorem removeMachine_eq_filter (id : String) {machines : List VirtualMachine}
    (distinct : (machines.map (·.id)).Nodup) :
    removeMachine id machines = machines.filter fun vm => vm.id ≠ id := by
  induction machines with
  | nil => rfl
  | cons vm rest ih =>
      obtain ⟨new, hrest⟩ := List.nodup_cons.1 distinct
      rw [removeMachine, List.eraseP_cons]
      by_cases hvm : vm.id = id
      · rw [decide_eq_true hvm, cond_true, List.filter_cons_of_neg (by simpa using hvm)]
        refine (List.filter_eq_self.2 fun other hother => ?_).symm
        have hne : other.id ≠ id := fun same =>
          new (List.mem_map.2 ⟨other, hother, same.trans hvm.symm⟩)
        simpa using hne
      · rw [decide_eq_false hvm, cond_false, List.filter_cons_of_pos (by simpa using hvm)]
        exact congrArg (vm :: ·) (ih hrest)

end Destroying

section Numbers

theorem lastNumber_startJob (inv : Inventory) : inv.lastNumber ≤ inv.startJob.2.lastNumber := by
  rw [startJob]
  split
  · exact Nat.le_refl _
  · exact Nat.le_succ _

theorem lastNumber_deploy (inv : Inventory) (today : Instant) (r : DeployRequest) :
    inv.lastNumber + 1 ≤ (inv.deploy today r).2.lastNumber := by
  rw [deploy]
  refine Nat.le_trans ?_ (lastNumber_startJob _)
  exact Nat.le_refl _

theorem lastNumber_queryJob (inv : Inventory) (jobId : String) :
    (inv.queryJob jobId).2.lastNumber = inv.lastNumber := by
  rw [queryJob]
  split
  · rfl
  · rfl
  · split <;> rfl

theorem lastNumber_destroy (inv : Inventory) (r : DestroyRequest) :
    inv.lastNumber ≤ (inv.destroy r).2.lastNumber := by
  rcases inv.destroy_cases r with ⟨e, h⟩ | ⟨-, h⟩
  · rw [h]
  · rw [h]
    calc
      inv.lastNumber = (inv.strike r).lastNumber := (inv.lastNumber_strike r).symm
      _ ≤ (inv.strike r).startJob.2.lastNumber := lastNumber_startJob _

/-- No call takes a number back. -/
theorem lastNumber_serve (inv : Inventory) (today : Instant) (call : Call) :
    inv.lastNumber ≤ (inv.serve today call).2.lastNumber := by
  rcases inv.serve_cases today call with ⟨e, heq⟩ | heq
  · rw [heq]
  · rw [heq]
    cases call with
    | deployMachine r => exact Nat.le_of_succ_le (inv.lastNumber_deploy today r)
    | destroyMachine r => exact inv.lastNumber_destroy r
    | queryJob jobId => exact Nat.le_of_eq (inv.lastNumber_queryJob jobId).symm
    | _ => exact Nat.le_refl _

/-- A machine that is deployed was not given out before. -/
theorem new_deploy (inv : Inventory) (today : Instant) (r : DeployRequest) :
    ¬inv.IsMachineId (inv.deploy today r).1.id ∧
      (inv.deploy today r).2.IsMachineId (inv.deploy today r).1.id :=
  ⟨fun given => given.ne_next (Nat.lt_succ_self _) rfl, _, inv.lastNumber_deploy today r, rfl⟩

/-- A job that is started was not given out before. -/
theorem new_startJob {jobId : String} (h : inv.startJob.1 = some jobId) :
    ¬inv.IsJobId jobId ∧ inv.startJob.2.IsJobId jobId := by
  rw [startJob] at h ⊢
  cases hpolls : inv.jobPolls with
  | none =>
      rw [hpolls] at h
      cases h
  | some polls =>
      rw [hpolls] at h
      obtain rfl := Option.some.inj h
      exact ⟨fun given => given.ne_next (Nat.lt_succ_self _) rfl, _, Nat.le_refl _, rfl⟩

theorem new_machineId {id : String}
    (h : Served.machineId? ⟨call, (inv.serve today call).1⟩ = some id) :
    ¬inv.IsMachineId id ∧ (inv.serve today call).2.IsMachineId id := by
  rcases inv.serve_cases today call with ⟨e, heq⟩ | heq
  · rw [heq] at h
    cases call <;> cases h
  · rw [heq] at h ⊢
    cases call with
    | deployMachine r =>
        obtain rfl := Option.some.inj h
        exact inv.new_deploy today r
    | _ => cases h

theorem new_jobId {jobId : String}
    (h : Served.jobId? ⟨call, (inv.serve today call).1⟩ = some jobId) :
    ¬inv.IsJobId jobId ∧ (inv.serve today call).2.IsJobId jobId := by
  rcases inv.serve_cases today call with ⟨e, heq⟩ | heq
  · rw [heq] at h
    cases call <;> cases h
  · rw [heq] at h ⊢
    cases call with
    | deployMachine r =>
        obtain ⟨unused, used⟩ := new_startJob h
        exact ⟨fun given => unused (given.mono (Nat.le_succ _)), used⟩
    | destroyMachine r =>
        change Served.jobId? ⟨.destroyMachine r, (inv.destroy r).1⟩ = some jobId at h
        change ¬inv.IsJobId jobId ∧ (inv.destroy r).2.IsJobId jobId
        rcases inv.destroy_cases r with ⟨e, hdestroy⟩ | ⟨-, hdestroy⟩
        · rw [hdestroy] at h
          cases h
        · rw [hdestroy] at h ⊢
          obtain ⟨unused, used⟩ := new_startJob h
          exact ⟨fun given => unused (given.mono (Nat.le_of_eq (inv.lastNumber_strike r).symm)),
            used⟩
    | _ => cases h

end Numbers

section Tagging

theorem mem_putTag {kind : ResourceKind} {id : String} {tags : List ResourceTag}
    {entry : String × String} : t ∈ putTag kind id tags entry ↔
      t = tagOn kind id entry ∨ t ∈ tags ∧ ¬(t.resourceId = id ∧ t.key = entry.1) := by
  rw [putTag, List.mem_append, List.mem_filter, List.mem_singleton, or_comm]
  simp [tagOn, imp_iff_not_or]

/-- Tags that are set on a resource are its tags, and the others stay. -/
theorem mem_putTags {kind : ResourceKind} {id : String} {tags : List ResourceTag}
    {entries : List (String × String)} (ascending : Ascending entries) :
    t ∈ entries.foldl (putTag kind id) tags ↔
      (t.resourceId = id ∧ t.resourceType = kind.name ∧ entries.lookup t.key = some t.value) ∨
        t ∈ tags ∧ ¬(t.resourceId = id ∧ (entries.lookup t.key).isSome = true) := by
  induction entries generalizing tags with
  | nil => simp
  | cons entry rest ih =>
      obtain ⟨above, hrest⟩ := List.pairwise_cons.1 ascending
      obtain ⟨key, value⟩ := entry
      have hnone : rest.lookup key = none := Table.lookup_eq_none_of_above above
      have hset : t = tagOn kind id (key, value) ↔
          t.key = key ∧ t.value = value ∧ t.resourceId = id ∧ t.resourceType = kind.name := by
        obtain ⟨k, v, resource, type⟩ := t
        simp [tagOn]
      rw [List.foldl_cons, ih hrest, mem_putTag, hset, Table.lookup_entry]
      -- Keys ascend, so what is set under the first key is not replaced by the rest.
      by_cases hkey : t.key = key
      · rw [hkey, hnone, if_pos rfl]
        simp only [reduceCtorEq, Option.isSome_none, Option.isSome_some, Option.some.injEq]
        grind
      · rw [if_neg hkey]
        grind

/-- A tag is stored after tags were set if it was set or if it was stored and not replaced. -/
theorem mem_createTags {w : TagWrite} : t ∈ (inv.createTags w).tags ↔
    (t.resourceId ∈ w.resourceIds ∧ t.resourceType = w.kind.name ∧
        w.tags.get? t.key = some t.value) ∨
      t ∈ inv.tags ∧ ¬(t.resourceId ∈ w.resourceIds ∧ w.tags.contains t.key = true) := by
  obtain ⟨ids, kind, written⟩ := w
  change t ∈ ids.foldl (fun tags id => written.entries.foldl (putTag kind id) tags) inv.tags ↔ _
  generalize inv.tags = tags
  induction ids generalizing tags with
  | nil => simp
  | cons id rest ih =>
      rw [List.foldl_cons, ih, mem_putTags written.ascending]
      simp only [Table.contains, Table.get?, List.mem_cons]
      grind

theorem nodup_putTag (kind : ResourceKind) (id : String) {tags : List ResourceTag}
    (entry : String × String) (distinct : (tags.map ResourceTag.place).Nodup) :
    ((putTag kind id tags entry).map ResourceTag.place).Nodup := by
  rw [putTag, List.map_append, List.map_singleton]
  refine List.nodup_append.2 ⟨distinct.sublist (List.filter_sublist.map _),
    List.pairwise_singleton _ _, ?_⟩
  intro place hplace other hother
  obtain ⟨t, ht, rfl⟩ := List.mem_map.1 hplace
  obtain rfl := List.mem_singleton.1 hother
  intro same
  obtain ⟨hid, hkey⟩ := Prod.mk.inj same
  have kept := (List.mem_filter.1 ht).2
  simp [hid, hkey] at kept

/-- Setting tags stores one tag at most in a place. -/
theorem nodup_createTags (w : TagWrite) (distinct : (inv.tags.map ResourceTag.place).Nodup) :
    ((inv.createTags w).tags.map ResourceTag.place).Nodup := by
  have all (id : String) (tags : List ResourceTag) (h : (tags.map ResourceTag.place).Nodup) :
      ((w.tags.entries.foldl (putTag w.kind id) tags).map ResourceTag.place).Nodup := by
    induction w.tags.entries generalizing tags with
    | nil => exact h
    | cons entry rest ih => exact ih _ (nodup_putTag w.kind id entry h)
  change ((w.resourceIds.foldl _ inv.tags).map _).Nodup
  generalize inv.tags = tags at distinct
  induction w.resourceIds generalizing tags with
  | nil => exact distinct
  | cons id rest ih => exact ih _ (all id tags distinct)

theorem mem_deleteTags {r : TagRemoval} : t ∈ (inv.deleteTags r).tags ↔
    t ∈ inv.tags ∧ ¬(t.resourceId ∈ r.resourceIds ∧ t.resourceType = r.kind.name ∧
      (r.tags.isEmpty = true ∨ r.tags.contains t.key = true)) := by
  refine List.mem_filter.trans (and_congr_right fun _ => ?_)
  rw [Bool.not_eq_true', ← Bool.not_eq_true]
  refine not_congr ?_
  simp [and_assoc]

theorem mem_tags_destroy {r : DestroyRequest} {ticket : JobTicket}
    (h : (inv.destroy r).1 = .ok ticket) : t ∈ (inv.destroy r).2.tags ↔
      t ∈ inv.tags ∧ ¬(r.expunge = true ∧ r.id = t.resourceId) := by
  rcases inv.destroy_cases r with ⟨e, heq⟩ | ⟨-, heq⟩
  · rw [heq] at h
    cases h
  · rw [heq, tags_startJob, strike]
    cases hexpunge : r.expunge with
    | false => simp
    | true =>
        rw [if_pos rfl, List.mem_filter, decide_eq_true_iff, ne_comm]
        simp

/-- A tag is stored after a call if the call set it, or if it was stored and the call did not clear
it. -/
theorem mem_tags_serve : t ∈ (inv.serve today call).2.tags ↔
    Served.Sets t ⟨call, (inv.serve today call).1⟩ ∨
      t ∈ inv.tags ∧ ¬Served.Clears t ⟨call, (inv.serve today call).1⟩ := by
  rcases inv.serve_cases today call with ⟨e, heq⟩ | heq
  · rw [heq]
    cases call <;> simp [Served.Sets, Served.Clears]
  · rw [heq]
    cases call with
    | deployMachine r => simp [carryOut, Served.Sets, Served.Clears, tags_deploy]
    | destroyMachine r =>
        change t ∈ (inv.destroy r).2.tags ↔
          False ∨ t ∈ inv.tags ∧ ¬Served.Clears t ⟨.destroyMachine r, (inv.destroy r).1⟩
        cases hreply : (inv.destroy r).1 with
        | error e =>
            rw [destroy_of_error hreply]
            simp [Served.Clears]
        | ok ticket =>
            rw [mem_tags_destroy hreply, false_or]
            rfl
    | createTags w => exact mem_createTags
    | deleteTags r => exact mem_deleteTags.trans (iff_of_eq (false_or _)).symm
    | queryJob jobId => simp [carryOut, Served.Sets, Served.Clears, tags_queryJob]
    | listMachines q =>
        change t ∈ inv.tags ↔ False ∨ t ∈ inv.tags ∧ ¬False
        simp
    | _ => simp [carryOut, Served.Sets, Served.Clears]

end Tagging

section Machines

theorem map_id_of_forall₂ {machines afters : List VirtualMachine}
    (h : List.Forall₂ (fun vm after => after = vm ∨ after = vm.comeUp) machines afters) :
    afters.map (·.id) = machines.map (·.id) := by
  induction h with
  | nil => rfl
  | cons hvm _ ih => rw [List.map_cons, List.map_cons, id_of_eq_or hvm, ih]

theorem exists_of_mem_listMachines {q : MachineQuery} {after : VirtualMachine}
    (h : after ∈ (inv.listMachines q).2.machines) :
    ∃ vm ∈ inv.machines, vm.id = after.id ∧ vm.MovesOn after := by
  obtain ⟨n, hn, rfl⟩ := List.getElem_of_mem h
  have hafters := forall₂_sightAll inv.runningAfter q inv.sightings inv.machines
  have hn' : n < inv.machines.length := hafters.length_eq ▸ hn
  have hafter := hafters.get hn' hn
  rw [List.get_eq_getElem, List.get_eq_getElem] at hafter
  exact ⟨_, List.getElem_mem hn', (id_of_eq_or hafter).symm, .of_sighted hafter⟩

theorem exists_of_mem_strike {r : DestroyRequest} {after : VirtualMachine}
    (h : after ∈ (inv.strike r).machines) :
    ∃ vm ∈ inv.machines, vm.id = after.id ∧ vm.MovesOn after := by
  rw [strike] at h
  split at h
  · exact ⟨after, List.mem_of_mem_eraseP h, rfl, .inl rfl⟩
  · exact exists_of_mem_markDestroyed h

theorem map_id_strike (inv : Inventory) (r : DestroyRequest) :
    ((inv.strike r).machines.map (·.id)).Sublist (inv.machines.map (·.id)) := by
  rw [strike]
  split
  · exact List.eraseP_sublist.map _
  · rw [map_id_markDestroyed]

theorem nodup_keys_strike (r : DestroyRequest)
    (distinct : (inv.tags.map ResourceTag.place).Nodup) :
    ((inv.strike r).tags.map ResourceTag.place).Nodup := by
  rw [strike]
  split
  · exact distinct.sublist (List.filter_sublist.map _)
  · exact distinct

/-- A machine that was given out before a call is one that the cloud had, moved on at most. -/
theorem exists_of_mem_serve {after : VirtualMachine}
    (h : after ∈ (inv.serve today call).2.machines) (given : inv.IsMachineId after.id) :
    ∃ vm ∈ inv.machines, vm.id = after.id ∧ vm.MovesOn after := by
  have stays (h : after ∈ inv.machines) :
      ∃ vm ∈ inv.machines, vm.id = after.id ∧ vm.MovesOn after := ⟨after, h, rfl, .inl rfl⟩
  rcases inv.serve_cases today call with ⟨e, heq⟩ | heq
  · rw [heq] at h
    exact stays h
  · rw [heq] at h
    cases call with
    | deployMachine r =>
        change after ∈ (inv.deploy today r).2.machines at h
        rw [machines_deploy] at h
        rcases List.mem_append.1 h with h | h
        · exact stays h
        · obtain rfl := List.mem_singleton.1 h
          exact absurd given (inv.new_deploy today r).1
    | listMachines q => exact exists_of_mem_listMachines h
    | destroyMachine r =>
        change after ∈ (inv.destroy r).2.machines at h
        rcases inv.destroy_cases r with ⟨e, hdestroy⟩ | ⟨-, hdestroy⟩
        · rw [hdestroy] at h
          exact stays h
        · rw [hdestroy, machines_startJob] at h
          exact exists_of_mem_strike h
    | queryJob jobId =>
        change after ∈ (inv.queryJob jobId).2.machines at h
        rw [machines_queryJob] at h
        exact stays h
    | _ => exact stays h

/-- Machines have distinct identifiers that were given out, and under a key of a resource there is one
tag at most. -/
structure Tidy (inv : Inventory) : Prop where
  given : ∀ id ∈ inv.machines.map (·.id), inv.IsMachineId id
  distinct : (inv.machines.map (·.id)).Nodup
  keys : (inv.tags.map ResourceTag.place).Nodup

theorem tidy_of_empty (machines : inv.machines = []) (tags : inv.tags = []) : inv.Tidy := by
  refine ⟨?_, ?_, ?_⟩
  · rw [machines]
    exact fun _ h => (nomatch h)
  · rw [machines]
    exact .nil
  · rw [tags]
    exact .nil

namespace Tidy

theorem of_sublist (h : inv.Tidy) (numbers : inv.lastNumber ≤ other.lastNumber)
    (ids : (other.machines.map (·.id)).Sublist (inv.machines.map (·.id)))
    (keys : (other.tags.map ResourceTag.place).Nodup) : other.Tidy where
  given id hid := (h.given id (ids.subset hid)).mono numbers
  distinct := h.distinct.sublist ids
  keys := keys

theorem deploy (h : inv.Tidy) (today : Instant) (r : DeployRequest) :
    (inv.deploy today r).2.Tidy := by
  obtain ⟨unused, used⟩ := inv.new_deploy today r
  have hids : (inv.deploy today r).2.machines.map (·.id) =
      inv.machines.map (·.id) ++ [(inv.deploy today r).1.id] := by
    rw [machines_deploy, List.map_append]
    rfl
  refine ⟨?_, ?_, ?_⟩
  · rw [hids]
    refine List.forall_mem_append.2 ⟨fun id hid => ?_, List.forall_mem_singleton.2 used⟩
    exact (h.given id hid).mono (Nat.le_of_succ_le (inv.lastNumber_deploy today r))
  · rw [hids]
    refine List.nodup_append.2 ⟨h.distinct, List.pairwise_singleton _ _, fun id hid new hnew => ?_⟩
    rintro rfl
    exact unused (List.mem_singleton.1 hnew ▸ h.given id hid)
  · rw [tags_deploy]
    exact h.keys

theorem destroy (h : inv.Tidy) (r : DestroyRequest) : (inv.destroy r).2.Tidy := by
  have numbers := inv.lastNumber_destroy r
  rcases inv.destroy_cases r with ⟨e, heq⟩ | ⟨-, heq⟩
  · rw [heq]
    exact h
  · rw [heq] at numbers ⊢
    refine h.of_sublist numbers ?_ ?_
    · rw [machines_startJob]
      exact inv.map_id_strike r
    · rw [tags_startJob]
      exact nodup_keys_strike r h.keys

/-- A call leaves a tidy cloud tidy. -/
theorem serve (h : inv.Tidy) (today : Instant) (call : Call) : (inv.serve today call).2.Tidy := by
  rcases inv.serve_cases today call with ⟨e, heq⟩ | heq
  · rw [heq]
    exact h
  · rw [heq]
    cases call with
    | deployMachine r => exact h.deploy today r
    | destroyMachine r => exact h.destroy r
    | listMachines q =>
        have hids : (inv.listMachines q).2.machines.map (·.id) = inv.machines.map (·.id) :=
          map_id_of_forall₂ (forall₂_sightAll inv.runningAfter q inv.sightings inv.machines)
        exact h.of_sublist (Nat.le_refl _) (hids ▸ List.Sublist.refl _) h.keys
    | createTags w =>
        exact h.of_sublist (Nat.le_refl _) (List.Sublist.refl _) (nodup_createTags w h.keys)
    | deleteTags r =>
        exact h.of_sublist (Nat.le_refl _) (List.Sublist.refl _)
          (h.keys.sublist (List.filter_sublist.map _))
    | queryJob jobId =>
        refine h.of_sublist (Nat.le_of_eq (inv.lastNumber_queryJob jobId).symm) ?_ ?_
        · exact inv.machines_queryJob jobId ▸ List.Sublist.refl _
        · exact inv.tags_queryJob jobId ▸ h.keys
    | _ => exact h

/-- The expunction of a machine from a tidy cloud takes all that there is of it, and nothing else. -/
theorem expunged (h : inv.Tidy) {r : DestroyRequest} {ticket : JobTicket}
    (expunge : r.expunge = true) (done : (inv.destroy r).1 = .ok ticket) :
    inv.IsMachineId r.id ∧
      (inv.destroy r).2.machines = inv.machines.filter (fun vm => vm.id ≠ r.id) ∧
      (inv.destroy r).2.tags = inv.tags.filter fun t => t.resourceId ≠ r.id := by
  rcases inv.destroy_cases r with ⟨e, heq⟩ | ⟨⟨vm, hvm, hid⟩, heq⟩
  · rw [heq] at done
    cases done
  · refine ⟨hid ▸ h.given _ (List.mem_map_of_mem hvm), ?_, ?_⟩
    · rw [heq, machines_startJob, strike, if_pos expunge]
      exact removeMachine_eq_filter r.id h.distinct
    · rw [heq, tags_startJob, strike, if_pos expunge]

end Tidy

end Machines

section Answers

theorem queryJob_of_error {jobId : String} {e : CallError}
    (h : (inv.queryJob jobId).1 = .error e) : (inv.queryJob jobId).2 = inv := by
  rw [queryJob] at h ⊢
  cases hjob : inv.jobs.get? jobId with
  | none => rfl
  | some remaining =>
      rw [hjob] at h
      cases remaining with
      | zero => cases inv.jobFailure <;> rfl
      | succ remaining => cases h

/-- A call that is answered with an error changes nothing. -/
theorem serve_of_error {e : CallError} (h : (inv.serve today call).1 = .error e) :
    (inv.serve today call).2 = inv := by
  rcases inv.serve_cases today call with ⟨e, heq⟩ | heq
  · rw [heq]
  · rw [heq] at h ⊢
    cases call with
    | destroyMachine r => exact destroy_of_error h
    | queryJob jobId => exact queryJob_of_error h
    | deployMachine r => cases h
    | listMachines q => cases h
    | createTags w => cases h
    | deleteTags r => cases h
    | _ => rfl

theorem serve_destroy_of_ok {r : DestroyRequest} {ticket : JobTicket}
    (done : (inv.serve today (.destroyMachine r)).1 = .ok ticket) :
    inv.serve today (.destroyMachine r) = inv.destroy r := by
  rcases inv.serve_cases today (.destroyMachine r) with ⟨e, heq⟩ | heq
  · rw [heq] at done
    cases done
  · exact heq

end Answers

end Inventory

end NodeFleet.Cloud
