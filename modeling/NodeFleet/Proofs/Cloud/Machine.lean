import Mathlib.Data.List.Forall2
import NodeFleet.Instance
import NodeFleet.Cloud.Inventory
import NodeFleet.Proofs.Table

/-!
# One machine and its tags

What becomes of the one machine of an identifier and of its tags. A listing at most brings a starting
machine up, and lists it as it is afterwards; tags that are set on a machine without tags are read
back as they were given. Other machines do not matter.
-/

namespace NodeFleet.Cloud

namespace VirtualMachine

/-- The machine once it is no longer starting. -/
def comeUp (vm : VirtualMachine) : VirtualMachine :=
  if vm.state = starting then { vm with state := running } else vm

theorem comeUp_of_running {vm : VirtualMachine} (h : vm.state = running) : vm.comeUp = vm :=
  if_neg (by rw [h]; decide)

variable (vm : VirtualMachine)

@[simp] theorem comeUp_comeUp : vm.comeUp.comeUp = vm.comeUp := by
  by_cases h : vm.state = starting
  · exact comeUp_of_running (by rw [comeUp, if_pos h])
  · have hup : vm.comeUp = vm := if_neg h
    rw [hup, hup]

@[simp] theorem id_comeUp : vm.comeUp.id = vm.id := by
  rw [comeUp]
  split <;> rfl

theorem admits_comeUp (q : MachineQuery) : q.admits vm.comeUp = q.admits vm := by
  rw [comeUp]
  split <;> rfl

end VirtualMachine

namespace Inventory

/-- The machines of an identifier. -/
def machinesOf (inv : Inventory) (id : String) : List VirtualMachine :=
  inv.machines.filter fun vm => vm.id = id

/-- The one machine of an identifier is left alone or comes up, and its tags are left alone. -/
structure Spares (id : String) (inv other : Inventory) : Prop where
  machine {vm : VirtualMachine} (alone : inv.machinesOf id = [vm]) :
    other.machinesOf id = [vm] ∨ other.machinesOf id = [vm.comeUp]
  tags : other.tagsOf id = inv.tagsOf id

/-- A cloud has one machine of an identifier, perhaps come up by now, with certain tags. -/
structure Hosts (id : String) (vm : VirtualMachine) (tags : List ResourceTag) (inv : Inventory) :
    Prop where
  machine : inv.machinesOf id = [vm] ∨ inv.machinesOf id = [vm.comeUp]
  tags : inv.tagsOf id = tags

variable {id : String} {inv other : Inventory} {vm : VirtualMachine} {tags : List ResourceTag}

theorem spares_of_eq (hmachines : other.machines = inv.machines) (htags : other.tags = inv.tags) :
    Spares id inv other := by
  constructor
  case machine =>
    intro vm h
    rw [machinesOf, hmachines]
    exact .inl h
  case tags => rw [tagsOf, tagsOf, htags]

theorem Hosts.spares (h : Hosts id vm tags inv) (spares : Spares id inv other) :
    Hosts id vm tags other := by
  refine ⟨?_, spares.tags.trans h.tags⟩
  rcases h.machine with hvm | hup
  · exact spares.machine hvm
  · have hother := spares.machine hup
    rw [VirtualMachine.comeUp_comeUp, or_self] at hother
    exact .inr hother

theorem Hosts.machinesOf_eq (h : Hosts id vm tags inv)
    (running : vm.state = VirtualMachine.running) : inv.machinesOf id = [vm] := by
  have hvm := h.machine
  rwa [VirtualMachine.comeUp_of_running running, or_self] at hvm

theorem id_of_machinesOf_eq (h : inv.machinesOf id = [vm]) : vm.id = id := by
  have hvm : vm ∈ inv.machinesOf id := h ▸ List.mem_singleton_self vm
  exact of_decide_eq_true (List.mem_filter.1 hvm).2

theorem Hosts.id_eq (h : Hosts id vm tags inv) : vm.id = id := by
  rcases h.machine with h | h
  · exact id_of_machinesOf_eq h
  · exact vm.id_comeUp.symm.trans (id_of_machinesOf_eq h)

section Listing

variable (runningAfter : Option Nat) (q : MachineQuery)

theorem sight_eq (sightings : Table Nat) (vm : VirtualMachine) :
    (sight runningAfter sightings vm).1 = vm ∨ (sight runningAfter sightings vm).1 = vm.comeUp := by
  rw [sight]
  split
  next starting =>
    rw [VirtualMachine.comeUp, if_pos starting]
    exact (ite_eq_or_eq _ _ _).symm
  next => exact .inl rfl

/-- A machine that comes up, or does not, is found by the same queries. -/
theorem admits_of_eq_or {vm after : VirtualMachine} (h : after = vm ∨ after = vm.comeUp) :
    q.admits after = q.admits vm := by
  rcases h with rfl | rfl
  · rfl
  · exact vm.admits_comeUp q

theorem id_of_eq_or {vm after : VirtualMachine} (h : after = vm ∨ after = vm.comeUp) :
    after.id = vm.id := by
  rcases h with rfl | rfl
  · rfl
  · exact vm.id_comeUp

/-- Machines that a query does not ask for are not sighted. -/
theorem sightAll_of_admits_none {sightings : Table Nat} {machines : List VirtualMachine}
    (h : ∀ vm ∈ machines, q.admits vm = false) :
    sightAll runningAfter q sightings machines = (machines, [], sightings) := by
  induction machines with
  | nil => rfl
  | cons vm rest ih =>
      rw [sightAll, h vm List.mem_cons_self, ih fun vm hvm => h vm (List.mem_cons_of_mem _ hvm)]
      rfl

/-- Sighting machines at most brings them up, one by one. -/
theorem forall₂_sightAll (sightings : Table Nat) (machines : List VirtualMachine) :
    List.Forall₂ (fun vm after => after = vm ∨ after = vm.comeUp) machines
      (sightAll runningAfter q sightings machines).1 := by
  induction machines generalizing sightings with
  | nil => exact .nil
  | cons vm rest ih =>
      rw [sightAll]
      split
      · exact .cons (sight_eq _ _ _) (ih _)
      · exact .cons (.inl rfl) (ih _)

theorem filter_of_forall₂ (id : String) {machines afters : List VirtualMachine}
    (h : List.Forall₂ (fun vm after => after = vm ∨ after = vm.comeUp) machines afters) :
    List.Forall₂ (fun vm after : VirtualMachine => after = vm ∨ after = vm.comeUp)
      (machines.filter fun vm => vm.id = id) (afters.filter fun vm => vm.id = id) := by
  induction h with
  | nil => exact .nil
  | cons hvm _ ih =>
      rw [List.filter_cons, List.filter_cons, id_of_eq_or hvm]
      split
      · exact .cons hvm ih
      · exact ih

/-- The machines that a query asks for are listed as they are afterwards. -/
theorem listed_sightAll (sightings : Table Nat) (machines : List VirtualMachine) :
    (sightAll runningAfter q sightings machines).2.1 =
      (sightAll runningAfter q sightings machines).1.filter q.admits := by
  induction machines generalizing sightings with
  | nil => rfl
  | cons vm rest ih =>
      rw [sightAll]
      cases hvm : q.admits vm with
      | true =>
          rw [if_pos rfl]
          have hafter := admits_of_eq_or q (sight_eq runningAfter sightings vm)
          rw [List.filter_cons_of_pos (hafter.trans hvm), ← ih]
      | false =>
          rw [if_neg Bool.false_ne_true, List.filter_cons_of_neg (by simp [hvm])]
          exact ih _

/-- A listing lists the machines that its query asks for as it leaves them, with their tags. -/
theorem items_listMachines (inv : Inventory) :
    (inv.listMachines q).1.items = ((inv.listMachines q).2.machines.filter q.admits).map
      fun vm => { vm with tags := inv.tagsOf vm.id } := by
  change List.map _ (sightAll inv.runningAfter q inv.sightings inv.machines).2.1 = _
  rw [listed_sightAll]
  rfl

theorem spares_listMachines (inv : Inventory) : Spares id inv (inv.listMachines q).2 := by
  constructor
  case machine =>
    intro vm alone
    have hafters := filter_of_forall₂ id
      (forall₂_sightAll inv.runningAfter q inv.sightings inv.machines)
    rw [show inv.machines.filter _ = [vm] from alone] at hafters
    obtain ⟨after, rest, hafter, hrest, heq⟩ := List.forall₂_cons_left_iff.1 hafters
    obtain rfl := List.forall₂_nil_left_iff.1 hrest
    rcases hafter with rfl | rfl
    · exact .inl heq
    · exact .inr heq
  case tags => rfl

theorem admits_lookup (id : String) :
    MachineQuery.admits { id := some id } = fun vm => decide (vm.id = id) := by
  funext vm
  simp [MachineQuery.admits, Cloud.admits]

/-- A look for an identifier lists nothing else. -/
theorem id_of_mem_lookup {found : VirtualMachine}
    (h : found ∈ (inv.listMachines { id := some id }).1.items) : found.id = id := by
  rw [items_listMachines, admits_lookup] at h
  obtain ⟨vm, hvm, rfl⟩ := List.mem_map.1 h
  exact of_decide_eq_true (List.mem_filter.1 hvm).2

/-- A look for the one machine of an identifier lists it as it is afterwards. -/
theorem items_lookup {after : VirtualMachine}
    (alone : (inv.listMachines { id := some id }).2.machinesOf id = [after]) :
    (inv.listMachines { id := some id }).1.items = [{ after with tags := inv.tagsOf id }] := by
  rw [items_listMachines, admits_lookup]
  change ((inv.listMachines { id := some id }).2.machinesOf id).map _ = _
  rw [alone, List.map_singleton, id_of_machinesOf_eq alone]

/-- A look for a machine that a cloud has finds it, perhaps come up, and leaves it as it found it. -/
theorem Hosts.lookup (h : Hosts id vm tags inv) :
    ∃ after, (inv.listMachines { id := some id }).1.items = [{ after with tags }] ∧
      (inv.listMachines { id := some id }).2.machinesOf id = [after] ∧
      (after = vm ∨ after = vm.comeUp) := by
  obtain ⟨machine, htags⟩ := h.spares (spares_listMachines { id := some id } inv)
  subst htags
  rcases machine with alone | alone
  · exact ⟨vm, items_lookup alone, alone, .inl rfl⟩
  · exact ⟨vm.comeUp, items_lookup alone, alone, .inr rfl⟩

/-- A look for all machines lists every machine as it is afterwards. -/
theorem items_listMachines_all (inv : Inventory) :
    (inv.listMachines {}).1.items = (inv.listMachines {}).2.machines.map
      fun vm => { vm with tags := inv.tagsOf vm.id } := by
  have hadmits : MachineQuery.admits {} = fun _ => true := by
    funext vm
    rfl
  rw [items_listMachines, hadmits, List.filter_true]

/-- A look for all machines lists the one machine of an identifier once, as it is afterwards. -/
theorem filter_items_listMachines {after : VirtualMachine}
    (alone : (inv.listMachines {}).2.machinesOf id = [after]) :
    ((inv.listMachines {}).1.items.filter fun vm => vm.id = id) =
      [{ after with tags := inv.tagsOf id }] := by
  rw [items_listMachines_all, List.filter_map]
  change ((inv.listMachines {}).2.machinesOf id).map _ = _
  rw [alone, List.map_singleton, id_of_machinesOf_eq alone]

end Listing

section Deploying

theorem machines_startJob (inv : Inventory) : inv.startJob.2.machines = inv.machines := by
  rw [startJob]
  split <;> rfl

theorem tags_startJob (inv : Inventory) : inv.startJob.2.tags = inv.tags := by
  rw [startJob]
  split <;> rfl

variable (today : Instant) (r : DeployRequest)

theorem machines_deploy (inv : Inventory) : (inv.deploy today r).2.machines =
    inv.machines ++ [inv.newMachine today (inv.lastNumber + 1) r] :=
  machines_startJob _

theorem tags_deploy (inv : Inventory) : (inv.deploy today r).2.tags = inv.tags :=
  tags_startJob _

/-- The identifier of a deployed machine can be read from the end of a path. -/
theorem id_deploy (inv : Inventory) :
    (inv.deploy today r).1.id ≠ "" ∧ '/' ∉ (inv.deploy today r).1.id.toList := by
  have hid : (inv.deploy today r).1.id.toList =
      'v' :: 'm' :: '-' :: Nat.toDigits 10 (inv.lastNumber + 1) := by
    change (toString "vm-" ++ toString (inv.lastNumber + 1)).toList = _
    rw [String.toList_append, Nat.toString_eq_repr, Nat.toList_repr]
    rfl
  constructor
  · intro hempty
    rw [hempty] at hid
    cases hid
  · intro hslash
    rw [hid] at hslash
    simp only [List.mem_cons, Char.reduceEq, false_or] at hslash
    exact absurd (Nat.isDigit_of_mem_toDigits (by decide) (by decide) hslash) (by decide)

theorem machinesOf_deploy (inv : Inventory) (id : String) : (inv.deploy today r).2.machinesOf id =
    inv.machinesOf id ++ if (inv.deploy today r).1.id = id
      then [inv.newMachine today (inv.lastNumber + 1) r] else [] := by
  rw [machinesOf, machines_deploy, List.filter_append, List.filter_singleton, Bool.cond_decide]
  rfl

/-- A machine that is deployed under a fresh identifier is the only one, and it has no tags. -/
theorem hosts_deploy (machines : inv.machinesOf (inv.deploy today r).1.id = [])
    (tags : inv.tagsOf (inv.deploy today r).1.id = []) :
    Hosts (inv.deploy today r).1.id (inv.newMachine today (inv.lastNumber + 1) r) []
      (inv.deploy today r).2 := by
  constructor
  case machine =>
    left
    rw [machinesOf_deploy, machines, if_pos rfl, List.nil_append]
  case tags =>
    rw [tagsOf, tags_deploy]
    exact tags

/-- Where there is one machine of an identifier afterwards as before, another one was deployed. -/
theorem Hosts.id_deploy_ne (h : Hosts id vm tags inv)
    (after : Hosts id vm tags (inv.deploy today r).2) :
    (inv.deploy today r).1.id ≠ id := by
  intro hid
  have hone {other : Inventory} (hosts : Hosts id vm tags other) :
      (other.machinesOf id).length = 1 := by
    rcases hosts.machine with alone | alone <;> rw [alone] <;> rfl
  have htwo := hone after
  rw [machinesOf_deploy, if_pos hid, List.length_append, hone h] at htwo
  cases htwo

end Deploying

section Tagging

/-- A tag as it is set on a resource. -/
def tagOn (kind : ResourceKind) (resourceId : String) (entry : String × String) : ResourceTag :=
  ⟨entry.1, entry.2, resourceId, kind.name⟩

/-- Tags under new keys are added in their order. -/
theorem foldl_putTag (kind : ResourceKind) {tags : List ResourceTag}
    {entries : List (String × String)} (ascending : Ascending entries)
    (new : ∀ t ∈ tags, t.resourceId = id → ∀ entry ∈ entries, t.key ≠ entry.1) :
    entries.foldl (putTag kind id) tags = tags ++ entries.map (tagOn kind id) := by
  induction entries generalizing tags with
  | nil => exact (List.append_nil tags).symm
  | cons entry rest ih =>
      obtain ⟨above, ascending⟩ := List.pairwise_cons.1 ascending
      have hput : putTag kind id tags entry = tags ++ [tagOn kind id entry] := by
        rw [putTag, List.filter_eq_self.2 fun t ht => ?_]
        · rfl
        · by_cases hid : t.resourceId = id
          · simp [new t ht hid entry List.mem_cons_self]
          · simp [hid]
      rw [List.foldl_cons, hput, ih ascending, List.append_assoc]
      · rfl
      · intro t ht hid later hlater
        rcases List.mem_append.1 ht with ht | ht
        · exact new t ht hid later (List.mem_cons_of_mem _ hlater)
        · obtain rfl := List.mem_singleton.1 ht
          exact fun h => String.lt_irrefl _ (h ▸ above later hlater)

/-- Tags that are set on a resource without tags are its tags. -/
theorem tagsOf_createTags (kind : ResourceKind) (written : Table String)
    (untagged : inv.tagsOf id = []) :
    (inv.createTags ⟨[id], kind, written⟩).tagsOf id = written.entries.map (tagOn kind id) := by
  have hput : (inv.createTags ⟨[id], kind, written⟩).tags =
      inv.tags ++ written.entries.map (tagOn kind id) := by
    refine foldl_putTag kind written.ascending fun t ht hid => ?_
    exact absurd (decide_eq_true hid) (List.filter_eq_nil_iff.1 untagged t ht)
  rw [tagsOf, hput, List.filter_append]
  change inv.tagsOf id ++ _ = _
  rw [untagged, List.nil_append]
  refine List.filter_eq_self.2 fun t ht => ?_
  obtain ⟨entry, -, rfl⟩ := List.mem_map.1 ht
  exact decide_eq_true rfl

/-- The tags of a resource that has tags of one kind only are listed, if they can be. -/
theorem listTags_of_kind {kind : ResourceKind}
    (plain : ∀ t ∈ inv.tagsOf id, t.resourceType = kind.name) :
    (inv.listTags ⟨id, kind⟩ = .ok (inv.tagsOf id)) ∨
      id ∈ inv.failingTags ∧ ∃ e, inv.listTags ⟨id, kind⟩ = .error e := by
  rw [listTags]
  split
  next failing => exact .inr ⟨List.contains_iff_mem.1 failing, _, rfl⟩
  next =>
    left
    have hfilter : (inv.tags.filter fun t => t.resourceId = id && t.resourceType = kind.name) =
        (inv.tagsOf id).filter fun t => t.resourceType = kind.name := by
      rw [tagsOf, List.filter_filter]
      exact List.filter_congr fun t _ => Bool.and_comm _ _
    rw [hfilter, List.filter_eq_self.2 fun t ht => decide_eq_true (plain t ht)]

/-- Tags that were set on a resource are listed, if they can be. -/
theorem listTags_of_tagsOf {kind : ResourceKind} {written : Table String}
    (tagged : inv.tagsOf id = written.entries.map (tagOn kind id)) :
    (inv.listTags ⟨id, kind⟩ = .ok (written.entries.map (tagOn kind id))) ∨
      id ∈ inv.failingTags ∧ ∃ e, inv.listTags ⟨id, kind⟩ = .error e := by
  rw [← tagged]
  refine listTags_of_kind fun t ht => ?_
  rw [tagged] at ht
  obtain ⟨entry, -, rfl⟩ := List.mem_map.1 ht
  rfl

/-- The table of tags that were set is the table that was set. -/
theorem tagTable_tagOn (kind : ResourceKind) (id : String) (written : Table String) :
    tagTable (written.entries.map (tagOn kind id)) = written := by
  rw [tagTable, List.map_map]
  exact (congrArg Table.ofList (List.map_id _)).trans written.ofList_entries

end Tagging

end Inventory

end NodeFleet.Cloud
