import NodeFleet.Proofs.Cloud.Machine

/-!
# The records of machines

Of the record of a machine only its state and its tags change while the cloud has it. No call but
its destruction takes it away.
-/

namespace NodeFleet

namespace Cloud

namespace VirtualMachine

/-- Records that differ in the state and the tags of their machine at most. -/
def SameRecord (vm other : VirtualMachine) : Prop :=
  other = { vm with state := other.state, tags := other.tags }

variable {vm other third : VirtualMachine}

theorem SameRecord.refl (vm : VirtualMachine) : vm.SameRecord vm :=
  rfl

theorem SameRecord.trans (h : vm.SameRecord other) (h' : other.SameRecord third) :
    vm.SameRecord third := by
  rw [SameRecord, h', h]

theorem SameRecord.id_eq (h : vm.SameRecord other) : other.id = vm.id := by
  rw [h]

theorem sameRecord_comeUp (vm : VirtualMachine) : vm.SameRecord vm.comeUp := by
  rw [comeUp]
  split <;> rfl

end VirtualMachine

namespace Inventory

/-- Whatever machines a cloud has of an identifier, another one has them with the same records. -/
def KeepsRecords (id : String) (inv other : Inventory) : Prop :=
  ∀ vm ∈ inv.machines, vm.id = id → ∃ after ∈ other.machines, vm.SameRecord after

variable {id : String} {inv other third : Inventory}

theorem keepsRecords_of_subset (h : ∀ vm ∈ inv.machines, vm.id = id → vm ∈ other.machines) :
    KeepsRecords id inv other :=
  fun vm hvm hid => ⟨vm, h vm hvm hid, .refl vm⟩

theorem keepsRecords_of_eq (h : other.machines = inv.machines) : KeepsRecords id inv other :=
  keepsRecords_of_subset fun _ hvm _ => h ▸ hvm

theorem KeepsRecords.trans (h : KeepsRecords id inv other) (h' : KeepsRecords id other third) :
    KeepsRecords id inv third := by
  intro vm hvm hid
  obtain ⟨middle, hmiddle, hsame⟩ := h vm hvm hid
  obtain ⟨last, hlast, hsame'⟩ := h' middle hmiddle (hsame.id_eq.trans hid)
  exact ⟨last, hlast, hsame.trans hsame'⟩

theorem keepsRecords_listMachines (q : MachineQuery) (inv : Inventory) :
    KeepsRecords id inv (inv.listMachines q).2 := by
  intro vm hvm _
  obtain ⟨n, hn, rfl⟩ := List.getElem_of_mem hvm
  have hafters := forall₂_sightAll inv.runningAfter q inv.sightings inv.machines
  have hn' := hafters.length_eq ▸ hn
  refine ⟨_, List.getElem_mem hn', ?_⟩
  have hafter := hafters.get hn hn'
  simp only [List.get_eq_getElem] at hafter
  rcases hafter with hsame | hup
  · rw [hsame]
    exact .refl _
  · rw [hup]
    exact VirtualMachine.sameRecord_comeUp _

/-- A look for all machines lists each of them with its record. -/
theorem forall₂_items_listMachines (inv : Inventory) :
    List.Forall₂ VirtualMachine.SameRecord inv.machines (inv.listMachines {}).1.items := by
  rw [items_listMachines_all, List.forall₂_map_right_iff]
  refine (forall₂_sightAll inv.runningAfter {} inv.sightings inv.machines).imp fun vm after h => ?_
  rcases h with rfl | rfl
  · rfl
  · exact vm.sameRecord_comeUp.trans rfl

/-- A machine that is marked as destroyed keeps its record. -/
theorem exists_sameRecord_markDestroyed (target : String) {vm : VirtualMachine}
    {machines : List VirtualMachine} (h : vm ∈ machines) :
    ∃ after ∈ markDestroyed target machines, vm.SameRecord after := by
  induction machines with
  | nil => cases h
  | cons first rest ih =>
      rw [markDestroyed]
      rcases List.mem_cons.1 h with rfl | hrest
      · split
        · exact ⟨_, List.mem_cons_self, rfl⟩
        · exact ⟨vm, List.mem_cons_self, .refl vm⟩
      · split
        · exact ⟨vm, List.mem_cons_of_mem _ hrest, .refl vm⟩
        · obtain ⟨after, hafter, hsame⟩ := ih hrest
          exact ⟨after, List.mem_cons_of_mem _ hafter, hsame⟩

/-- The destruction of a machine keeps the records of all others. -/
theorem keepsRecords_destroy {r : DestroyRequest} (h : r.id ≠ id) (inv : Inventory) :
    KeepsRecords id inv (inv.destroy r).2 := by
  rw [destroy]
  split
  next => exact keepsRecords_of_eq rfl
  next =>
    intro vm hvm hid
    rw [machines_startJob]
    split
    · refine ⟨vm, (List.mem_eraseP_of_neg ?_).2 hvm, .refl vm⟩
      simpa [hid] using h.symm
    · exact exists_sameRecord_markDestroyed r.id hvm

/-- A destruction that is refused changes nothing. -/
theorem destroy_of_error {r : DestroyRequest} {e : CallError} (h : (inv.destroy r).1 = .error e) :
    (inv.destroy r).2 = inv := by
  rw [destroy] at h ⊢
  cases hmachine : inv.machine? r.id with
  | none => rfl
  | some vm =>
      rw [hmachine] at h
      cases h

theorem machines_queryJob (inv : Inventory) (jobId : String) :
    (inv.queryJob jobId).2.machines = inv.machines := by
  rw [queryJob]
  split
  · rfl
  · rfl
  · split <;> rfl

/-- Serving a call keeps the records of an identifier, unless it destroys a machine of it. -/
theorem keepsRecords_serve (today : Instant) {call : Call}
    (h : ∀ r, call = .destroyMachine r → r.id = id → ∃ e, (inv.serve today call).1 = .error e) :
    KeepsRecords id inv (inv.serve today call).2 := by
  rw [serve] at h ⊢
  split
  next => exact keepsRecords_of_eq rfl
  next works =>
    rw [works] at h
    cases call with
    | deployMachine r =>
        refine keepsRecords_of_subset fun vm hvm _ => ?_
        exact machines_deploy today r inv ▸ List.mem_append_left _ hvm
    | listMachines q => exact keepsRecords_listMachines q inv
    | destroyMachine r =>
        by_cases hid : r.id = id
        · obtain ⟨e, he⟩ := h r rfl hid
          exact keepsRecords_of_eq (congrArg machines (destroy_of_error he))
        · exact keepsRecords_destroy hid inv
    | queryJob jobId => exact keepsRecords_of_eq (inv.machines_queryJob jobId)
    | _ => exact keepsRecords_of_eq rfl

end Inventory

end Cloud

end NodeFleet
