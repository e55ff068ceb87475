import NodeFleet.Fleet.Provisioner
import NodeFleet.Proofs.Table

/-!
# What a machine tells about its claim

The tags of a launched machine name its claim, its node class and its node pool, unless the node
class sets these tags itself. The claim that is rebuilt from a running machine with these tags has
the same names, whenever it is rebuilt.
-/

namespace NodeFleet

namespace Tag

/-- The keys that a node class must not use for tags of its own. -/
def reserved : List String :=
  [managedBy, nodePool, nodeClaim, nodeClass]

/-- The key of the owning cluster begins unlike the others. -/
theorem ne_cluster {key : String} (h : key.toList.take 2 = ['k', 'a']) (name : String) :
    key ≠ cluster name := by
  intro hkey
  have hscheme : "kubernetes.io/cluster/".toList = 'k' :: 'u' :: "bernetes.io/cluster/".toList := by
    decide
  have hcluster : (cluster name).toList = "kubernetes.io/cluster/".toList ++ name.toList :=
    String.toList_append
  rw [hkey, hcluster, hscheme] at h
  exact absurd (List.cons.inj h).2 (by simp)

end Tag

namespace Fleet

variable (f : Fleet) {c : NodeClass} {claim : NodeClaim} {key : String}

/-- The tags that a launch sets on its own. -/
def ownTags (f : Fleet) (c : NodeClass) (claim : NodeClaim) : Table String :=
  .ofList [
    (Tag.managedBy, Tag.manager),
    (Tag.cluster f.settings.clusterName, Tag.owned),
    (Tag.nodeClass, c.name),
    (Tag.nodeClaim, claim.name)]

theorem get?_ownTags : (f.ownTags c claim).get? key =
    if key = Tag.nodeClaim then some claim.name
    else if key = Tag.nodeClass then some c.name
    else if key = Tag.cluster f.settings.clusterName then some Tag.owned
    else if key = Tag.managedBy then some Tag.manager
    else none := by
  change ((((Table.empty.insert _ _).insert _ _).insert _ _).insert _ _).get? key = _
  rw [Table.get?_insert, Table.get?_insert, Table.get?_insert, Table.get?_insert, Table.get?_empty]

/-- Under a key that the node class does not use, a machine has the tag that the launch sets. -/
theorem get?_machineTags (unused : c.spec.tags.get? key = none) :
    (f.machineTags c claim).get? key =
      if key = Tag.nodePool then claim.nodePool?.or ((f.ownTags c claim).get? key)
      else (f.ownTags c claim).get? key := by
  rw [machineTags]
  rw [Table.get?_insertAll_of_ne (Table.ne_of_get?_eq_none unused)]
  cases claim.nodePool? with
  | none =>
      rw [Option.none_or, ite_self]
      rfl
  | some pool =>
      rw [Option.some_or]
      exact Table.get?_insert _ _ _ _

/-- A launched machine is tagged as managed, whatever tags the node class sets. -/
theorem contains_machineTags (c : NodeClass) (claim : NodeClaim) :
    (f.machineTags c claim).contains Tag.managedBy = true := by
  have hown : (f.ownTags c claim).contains Tag.managedBy = true :=
    Table.contains_ofList.2 ⟨_, List.mem_cons_self, rfl⟩
  refine Table.contains_insertAll.2 (.inl ?_)
  cases claim.nodePool? with
  | none => exact hown
  | some pool =>
      change ((f.ownTags c claim).insertAll [(Tag.nodePool, pool)]).contains Tag.managedBy = true
      exact Table.contains_insertAll.2 (.inl hown)

variable (unreserved : ∀ key ∈ Tag.reserved, c.spec.tags.get? key = none)

include unreserved

theorem nodeClaim_machineTags : (f.machineTags c claim).get? Tag.nodeClaim = some claim.name := by
  rw [f.get?_machineTags (unreserved _ (by decide)), if_neg (by decide), f.get?_ownTags, if_pos rfl]

theorem nodeClass_machineTags : (f.machineTags c claim).get? Tag.nodeClass = some c.name := by
  rw [f.get?_machineTags (unreserved _ (by decide)), if_neg (by decide), f.get?_ownTags,
    if_neg (by decide), if_pos rfl]

theorem nodePool_machineTags : (f.machineTags c claim).get? Tag.nodePool = claim.nodePool? := by
  rw [f.get?_machineTags (unreserved _ (by decide)), if_pos rfl, f.get?_ownTags,
    if_neg (by decide), if_neg (by decide), if_neg (Tag.ne_cluster (by decide) _),
    if_neg (by decide), Option.or_none]

theorem managedBy_machineTags :
    (f.machineTags c claim).get? Tag.managedBy = some Tag.manager := by
  rw [f.get?_machineTags (unreserved _ (by decide)), if_neg (by decide), f.get?_ownTags,
    if_neg (by decide), if_neg (by decide), if_neg (Tag.ne_cluster (by decide) _), if_pos rfl]

end Fleet

namespace Instance

variable {i : Instance}

/-- The claim behind a running machine does not depend on when it is asked for. -/
theorem toClaim_of_isRunning (h : i.isRunning = true) (today other : Instant) :
    i.toClaim today = i.toClaim other := by
  have hstate : i.state = Cloud.VirtualMachine.running := of_decide_eq_true h
  have hstays : i.isTerminating = false := by
    rw [isTerminating, hstate]
    decide
  rw [toClaim, toClaim, hstays]
  rfl

theorem nodePool_notMem_labels (i : Instance) : Label.nodePool ∉ i.labels.map (·.1) := by
  change Label.nodePool ∉ [Label.topologyZone, Label.instanceType, Label.capacityType,
    Label.architecture, Label.operatingSystem, Label.zoneId, Label.zoneName, Label.networkId,
    Label.serviceOfferingId, Label.serviceOfferingName, Label.templateId, Label.templateName]
  decide

/-- Only the tag of a machine puts its node into a pool. -/
theorem nodePool_toClaim (today : Instant) :
    (i.toClaim today).labels.get? Label.nodePool = i.tag? Tag.nodePool := by
  have hwritten : (Table.ofList (i.labels.filter fun l => l.2 ≠ "")).get? Label.nodePool = none := by
    refine Table.get?_insertAll_of_ne fun entry hentry hkey => ?_
    exact i.nodePool_notMem_labels (hkey ▸ List.mem_map_of_mem (List.mem_filter.1 hentry).1)
  rw [toClaim]
  cases i.tag? Tag.nodePool with
  | none => exact hwritten
  | some pool => exact (Table.get?_insert _ _ _ _).trans (if_pos rfl)

end Instance

/-- A claim that is rebuilt from a machine names what the claim and the node class of its launch
name. -/
theorem Fleet.toClaim_ofMachine (f : Fleet) {c : NodeClass} {claim : NodeClaim}
    (unreserved : ∀ key ∈ Tag.reserved, c.spec.tags.get? key = none) (vm : Cloud.VirtualMachine)
    (today : Instant) :
    let rebuilt := (Instance.ofMachine vm (f.machineTags c claim)).toClaim today
    rebuilt.name = claim.name ∧ rebuilt.nodeClassRef = some c.name ∧
      rebuilt.labels.get? Label.nodePool = claim.nodePool? := by
  refine ⟨?_, ?_, ?_⟩
  · exact congrArg (fun name : Option String => name.getD vm.name)
      (f.nodeClaim_machineTags unreserved)
  · exact f.nodeClass_machineTags unreserved
  · exact (Instance.nodePool_toClaim today).trans (f.nodePool_machineTags unreserved)

end NodeFleet
