import NodeFleet.Proofs.Cloud.Machine
import NodeFleet.Proofs.Json.NumberText

/-!
# From a deployment to a running machine

A calm cloud fails nothing and answers at once. There a new job is pending for as many queries as is
set and has succeeded from then on, and a new machine is starting until it has been listed as often
as is set and runs from then on. How far either has come is told by how often it was asked about:
calls that do not ask about it leave it as it is, since identifiers are never given out twice.
-/

namespace NodeFleet.Cloud.Inventory

/-- No operation and no job fails, no job answer is scripted, and calls take no time. -/
structure Calm (inv : Inventory) : Prop where
  failures : inv.failures = []
  latency : inv.latency = 0
  jobFailure : inv.jobFailure = none
  scripted : inv.scripted = []

/-- A cloud has gone on: it is calm if it was, and takes no number back. -/
structure GoesOn (inv other : Inventory) : Prop where
  calm : inv.Calm → other.Calm
  numbers : inv.lastNumber ≤ other.lastNumber

/-- A cloud has gone on without a change to the machines of an identifier. -/
structure KeepsMachine (id : String) (inv other : Inventory) : Prop extends GoesOn inv other where
  runningAfter : other.runningAfter = inv.runningAfter
  machines : other.machinesOf id = inv.machinesOf id
  sightings : other.sightings.get? id = inv.sightings.get? id

/-- A cloud has gone on without a change to a job. -/
structure KeepsJob (jobId : String) (inv other : Inventory) : Prop extends GoesOn inv other where
  job : other.jobs.get? jobId = inv.jobs.get? jobId

/-- An identifier of a machine that was given out by now. -/
def IsMachineId (inv : Inventory) (id : String) : Prop :=
  ∃ number ≤ inv.lastNumber, id = s!"vm-{number}"

/-- An identifier of a job that was given out by now. -/
def IsJobId (inv : Inventory) (jobId : String) : Prop :=
  ∃ number ≤ inv.lastNumber, jobId = s!"job-{number}"

variable {inv other last : Inventory} {id jobId : String} {today : Instant} {q : MachineQuery}

theorem goesOn_of_eq (failures : other.failures = inv.failures)
    (latency : other.latency = inv.latency) (jobFailure : other.jobFailure = inv.jobFailure)
    (scripted : other.scripted = inv.scripted) (numbers : inv.lastNumber ≤ other.lastNumber) :
    GoesOn inv other where
  calm calm := ⟨failures.trans calm.failures, latency.trans calm.latency,
    jobFailure.trans calm.jobFailure, scripted.trans calm.scripted⟩
  numbers := numbers

theorem GoesOn.trans (h : GoesOn inv other) (h' : GoesOn other last) : GoesOn inv last :=
  ⟨fun calm => h'.calm (h.calm calm), Nat.le_trans h.numbers h'.numbers⟩

theorem IsMachineId.mono (given : inv.IsMachineId id) (h : inv.lastNumber ≤ other.lastNumber) :
    other.IsMachineId id :=
  given.imp fun _ ⟨hle, hid⟩ => ⟨Nat.le_trans hle h, hid⟩

theorem IsJobId.mono (given : inv.IsJobId jobId) (h : inv.lastNumber ≤ other.lastNumber) :
    other.IsJobId jobId :=
  given.imp fun _ ⟨hle, hid⟩ => ⟨Nat.le_trans hle h, hid⟩

theorem GoesOn.isMachineId (h : GoesOn inv other) (given : inv.IsMachineId id) :
    other.IsMachineId id :=
  given.mono h.numbers

theorem GoesOn.isJobId (h : GoesOn inv other) (given : inv.IsJobId jobId) : other.IsJobId jobId :=
  given.mono h.numbers

theorem KeepsMachine.refl (id : String) (inv : Inventory) : KeepsMachine id inv inv :=
  ⟨⟨fun calm => calm, Nat.le_refl _⟩, rfl, rfl, rfl⟩

theorem KeepsMachine.trans (h : KeepsMachine id inv other) (h' : KeepsMachine id other last) :
    KeepsMachine id inv last :=
  ⟨h.toGoesOn.trans h'.toGoesOn, h'.runningAfter.trans h.runningAfter,
    h'.machines.trans h.machines, h'.sightings.trans h.sightings⟩

theorem KeepsJob.refl (jobId : String) (inv : Inventory) : KeepsJob jobId inv inv :=
  ⟨⟨fun calm => calm, Nat.le_refl _⟩, rfl⟩

theorem KeepsJob.trans (h : KeepsJob jobId inv other) (h' : KeepsJob jobId other last) :
    KeepsJob jobId inv last :=
  ⟨h.toGoesOn.trans h'.toGoesOn, h'.job.trans h.job⟩

section Numbering

/-- Texts that end in different numbers are different. -/
theorem number_inj (lead : String) {m n : Nat} (h : lead ++ toString m = lead ++ toString n) :
    m = n := by
  have hlist := congrArg String.toList h
  rw [String.toList_append, String.toList_append] at hlist
  have hdigits := List.append_cancel_left hlist
  rw [Nat.toString_eq_repr, Nat.toString_eq_repr, Nat.toList_repr, Nat.toList_repr] at hdigits
  exact Json.Number.toDigits_injective hdigits

/-- The identifier of a new machine was not given out before. -/
theorem IsMachineId.ne_next (given : inv.IsMachineId id) {number : Nat}
    (new : inv.lastNumber < number) : s!"vm-{number}" ≠ id := by
  obtain ⟨earlier, hle, rfl⟩ := given
  intro h
  have := number_inj "vm-" h
  omega

/-- The identifier of a new job was not given out before. -/
theorem IsJobId.ne_next (given : inv.IsJobId jobId) {number : Nat}
    (new : inv.lastNumber < number) : jobId ≠ s!"job-{number}" := by
  obtain ⟨earlier, hle, rfl⟩ := given
  intro h
  have := number_inj "job-" h
  omega

end Numbering

section Jobs

theorem keepsMachine_startJob (id : String) (inv : Inventory) :
    KeepsMachine id inv inv.startJob.2 := by
  rw [startJob]
  split
  · exact .refl id inv
  · exact ⟨goesOn_of_eq rfl rfl rfl rfl (Nat.le_succ _), rfl, rfl, rfl⟩

theorem keepsJob_startJob (given : inv.IsJobId jobId) : KeepsJob jobId inv inv.startJob.2 := by
  rw [startJob]
  split
  · exact .refl jobId inv
  · refine ⟨goesOn_of_eq rfl rfl rfl rfl (Nat.le_succ _), ?_⟩
    rw [Table.get?_insert, if_neg (given.ne_next (Nat.lt_succ_self _))]

theorem keepsMachine_queryJob (id queried : String) (inv : Inventory) :
    KeepsMachine id inv (inv.queryJob queried).2 := by
  rw [queryJob]
  split
  · exact .refl id inv
  · exact ⟨goesOn_of_eq rfl rfl rfl rfl (Nat.le_refl _), rfl, rfl, rfl⟩
  · split <;> exact .refl id inv

theorem keepsJob_queryJob {queried : String} (h : queried ≠ jobId) :
    KeepsJob jobId inv (inv.queryJob queried).2 := by
  rw [queryJob]
  split
  · exact .refl jobId inv
  · refine ⟨goesOn_of_eq rfl rfl rfl rfl (Nat.le_refl _), ?_⟩
    rw [Table.get?_insert, if_neg (Ne.symm h)]
  · split <;> exact .refl jobId inv

end Jobs

section Machines

/-- A machine that is added under another identifier changes nothing about those of this one. -/
theorem keepsMachine_add {machine : VirtualMachine} {deployed : List DeployRequest}
    (h : machine.id ≠ id) : KeepsMachine id inv
      { inv with
        lastNumber := inv.lastNumber + 1
        machines := inv.machines ++ [machine]
        deployed } := by
  refine ⟨goesOn_of_eq rfl rfl rfl rfl (Nat.le_succ _), rfl, ?_, rfl⟩
  rw [machinesOf, List.filter_append, List.filter_singleton, decide_eq_false h, cond_false,
    List.append_nil]
  rfl

theorem keepsMachine_deploy (r : DeployRequest) (given : inv.IsMachineId id) :
    KeepsMachine id inv (inv.deploy today r).2 :=
  (keepsMachine_add (given.ne_next (Nat.lt_succ_self _))).trans (keepsMachine_startJob id _)

theorem keepsJob_deploy (r : DeployRequest) (given : inv.IsJobId jobId) :
    KeepsJob jobId inv (inv.deploy today r).2 := by
  have added : KeepsJob jobId inv
      { inv with
        lastNumber := inv.lastNumber + 1
        machines := inv.machines ++ [inv.newMachine today (inv.lastNumber + 1) r]
        deployed := inv.deployed ++ [r] } :=
    ⟨goesOn_of_eq rfl rfl rfl rfl (Nat.le_succ _),
      rfl⟩
  exact added.trans (keepsJob_startJob (added.isJobId given))

theorem filter_removeMachine {removed : String} (h : removed ≠ id)
    (machines : List VirtualMachine) :
    (removeMachine removed machines).filter (fun vm => vm.id = id) =
      machines.filter fun vm => vm.id = id := by
  induction machines with
  | nil => rfl
  | cons vm rest ih =>
      rw [removeMachine, List.eraseP_cons]
      by_cases hvm : vm.id = removed
      · rw [decide_eq_true hvm, cond_true, List.filter_cons_of_neg]
        simpa [hvm] using h
      · rw [decide_eq_false hvm, cond_false, List.filter_cons, List.filter_cons]
        rw [show List.filter _ (List.eraseP _ rest) = _ from ih]

theorem filter_markDestroyed {destroyed : String} (h : destroyed ≠ id)
    (machines : List VirtualMachine) :
    (markDestroyed destroyed machines).filter (fun vm => vm.id = id) =
      machines.filter fun vm => vm.id = id := by
  induction machines with
  | nil => rfl
  | cons vm rest ih =>
      rw [markDestroyed]
      split
      next hvm =>
        have hother : ¬vm.id = id := fun hid => h (hvm.symm.trans hid)
        rw [List.filter_cons_of_neg (by simpa using hother),
          List.filter_cons_of_neg (by simpa using hother)]
      next => rw [List.filter_cons, List.filter_cons, ih]

theorem keepsMachine_destroy {r : DestroyRequest} (h : r.id ≠ id) :
    KeepsMachine id inv (inv.destroy r).2 := by
  rw [destroy]
  split
  · exact .refl id inv
  · refine KeepsMachine.trans ?_ (keepsMachine_startJob id _)
    split
    · exact ⟨goesOn_of_eq rfl rfl rfl rfl (Nat.le_refl _), rfl, filter_removeMachine h _, rfl⟩
    · exact ⟨goesOn_of_eq rfl rfl rfl rfl (Nat.le_refl _), rfl, filter_markDestroyed h _, rfl⟩

theorem keepsJob_destroy (r : DestroyRequest) (given : inv.IsJobId jobId) :
    KeepsJob jobId inv (inv.destroy r).2 := by
  rw [destroy]
  split
  · exact .refl jobId inv
  · refine KeepsJob.trans ?_ (keepsJob_startJob ?_)
    · split <;> exact ⟨goesOn_of_eq rfl rfl rfl rfl (Nat.le_refl _), rfl⟩
    · split <;> exact given

end Machines

section Listing

variable (runningAfter : Option Nat) (sightings : Table Nat) {vm : VirtualMachine}
  {machines : List VirtualMachine}

theorem id_sight (vm : VirtualMachine) :
    (sight runningAfter sightings vm).1.id = vm.id :=
  id_of_eq_or (sight_eq runningAfter sightings vm)

/-- The sighting of a machine is not one of those of another identifier. -/
theorem get?_sight_of_ne (h : vm.id ≠ id) :
    (sight runningAfter sightings vm).2.get? id = sightings.get? id := by
  rw [sight]
  split
  · rw [Table.get?_insert, if_neg (Ne.symm h)]
  · rfl

/-- A query that asks for no machine of an identifier does not sight any. -/
theorem keepsMachine_sightAll (unasked : ∀ vm ∈ machines, vm.id = id → q.admits vm = false) :
    ((sightAll runningAfter q sightings machines).1.filter fun vm => vm.id = id) =
        (machines.filter fun vm => vm.id = id) ∧
      (sightAll runningAfter q sightings machines).2.2.get? id = sightings.get? id := by
  induction machines generalizing sightings with
  | nil => exact ⟨rfl, rfl⟩
  | cons vm rest ih =>
      obtain ⟨hvm, hrest⟩ := List.forall_mem_cons.1 unasked
      rw [sightAll]
      split
      next admitted =>
        have hother : ¬vm.id = id := fun hid => by
          rw [hvm hid] at admitted
          cases admitted
        have hsighted : ¬(sight runningAfter sightings vm).1.id = id := by
          rwa [id_sight]
        obtain ⟨hfilter, hget⟩ := ih (sight runningAfter sightings vm).2 hrest
        constructor
        · rw [List.filter_cons_of_neg (by simpa using hsighted),
            List.filter_cons_of_neg (by simpa using hother)]
          exact hfilter
        · exact hget.trans (get?_sight_of_ne _ _ hother)
      next =>
        obtain ⟨hfilter, hget⟩ := ih sightings hrest
        refine ⟨?_, hget⟩
        rw [List.filter_cons, List.filter_cons]
        split
        · exact congrArg (vm :: ·) hfilter
        · exact hfilter

/-- A look for an identifier with one machine sights this machine and no other. -/
theorem sightAll_lookup (alone : (machines.filter fun vm => vm.id = id) = [vm]) :
    ((sightAll runningAfter { id := some id } sightings machines).1.filter fun vm => vm.id = id) =
        [(sight runningAfter sightings vm).1] ∧
      (sightAll runningAfter { id := some id } sightings machines).2.2 =
        (sight runningAfter sightings vm).2 := by
  induction machines with
  | nil => cases alone
  | cons first rest ih =>
      rw [sightAll, admits_lookup]
      by_cases hfirst : first.id = id
      · rw [List.filter_cons_of_pos (by simpa using hfirst)] at alone
        obtain ⟨rfl, hrest⟩ := List.cons.inj alone
        have hnone : ∀ vm ∈ rest, MachineQuery.admits { id := some id } vm = false := by
          rw [admits_lookup]
          exact fun vm hvm => by simpa using List.filter_eq_nil_iff.1 hrest vm hvm
        have hothers (sightings : Table Nat) : sightAll runningAfter { id := some id } sightings rest =
            (rest, [], sightings) := sightAll_of_admits_none runningAfter _ hnone
        simp only [if_pos (decide_eq_true hfirst), hothers]
        refine ⟨?_, trivial⟩
        rw [List.filter_cons_of_pos (by simpa [id_sight] using hfirst), hrest]
      · rw [List.filter_cons_of_neg (by simpa using hfirst)] at alone
        rw [if_neg (by simpa using hfirst)]
        obtain ⟨hfilter, hsightings⟩ := ih alone
        refine ⟨?_, hsightings⟩
        rw [List.filter_cons_of_neg (by simpa using hfirst)]
        exact hfilter

theorem keepsMachine_listMachines (unasked : ∀ vm ∈ inv.machinesOf id, q.admits vm = false) :
    KeepsMachine id inv (inv.listMachines q).2 := by
  have hunasked : ∀ vm ∈ inv.machines, vm.id = id → q.admits vm = false :=
    fun vm hvm hid => unasked vm (List.mem_filter.2 ⟨hvm, decide_eq_true hid⟩)
  obtain ⟨hmachines, hsightings⟩ := keepsMachine_sightAll inv.runningAfter inv.sightings
    hunasked
  exact ⟨goesOn_of_eq rfl rfl rfl rfl (Nat.le_refl _), rfl, hmachines, hsightings⟩

theorem keepsJob_listMachines (jobId : String) (q : MachineQuery) (inv : Inventory) :
    KeepsJob jobId inv (inv.listMachines q).2 :=
  ⟨goesOn_of_eq rfl rfl rfl rfl (Nat.le_refl _), rfl⟩

end Listing

end NodeFleet.Cloud.Inventory

namespace NodeFleet.Cloud

open Inventory

/-- A call that neither lists nor destroys a machine of an identifier. -/
def Call.SparesMachine (id : String) (inv : Inventory) : Call → Prop
  | .listMachines q => ∀ vm ∈ inv.machinesOf id, q.admits vm = false
  | .destroyMachine r => r.id ≠ id
  | _ => True

namespace Inventory

variable {inv other : Inventory} {id jobId : String} {today : Instant} {call : Call}

/-- A calm cloud carries out what it is asked for. -/
theorem Calm.serve_eq (calm : inv.Calm) (today : Instant) (call : Call) :
    inv.serve today call = inv.carryOut today call := by
  have works : inv.failure? call.operation = none := by
    rw [failure?, calm.failures]
    rfl
  rw [serve, works]

theorem keepsMachine_serve (calm : inv.Calm) (given : inv.IsMachineId id)
    (spares : call.SparesMachine id inv) : KeepsMachine id inv (inv.serve today call).2 := by
  rw [calm.serve_eq]
  cases call with
  | deployMachine r => exact keepsMachine_deploy r given
  | listMachines q => exact keepsMachine_listMachines spares
  | destroyMachine r => exact keepsMachine_destroy spares
  | queryJob queried => exact keepsMachine_queryJob id queried inv
  | createTags w => exact ⟨goesOn_of_eq rfl rfl rfl rfl (Nat.le_refl _), rfl, rfl, rfl⟩
  | deleteTags r => exact ⟨goesOn_of_eq rfl rfl rfl rfl (Nat.le_refl _), rfl, rfl, rfl⟩
  | _ => exact .refl id inv

theorem keepsJob_serve (calm : inv.Calm) (given : inv.IsJobId jobId)
    (other : call ≠ .queryJob jobId) : KeepsJob jobId inv (inv.serve today call).2 := by
  rw [calm.serve_eq]
  cases call with
  | deployMachine r => exact keepsJob_deploy r given
  | listMachines q => exact keepsJob_listMachines jobId q inv
  | destroyMachine r => exact keepsJob_destroy r given
  | queryJob queried => exact keepsJob_queryJob fun h => other (congrArg Call.queryJob h)
  | createTags w => exact ⟨goesOn_of_eq rfl rfl rfl rfl (Nat.le_refl _), rfl⟩
  | deleteTags r => exact ⟨goesOn_of_eq rfl rfl rfl rfl (Nat.le_refl _), rfl⟩
  | _ => exact .refl jobId inv

section Courses

variable {after : Option Nat} {polls k : Nat}

/-- A machine that has been listed so often since it was deployed is starting if that is less than is
set, and running if not. -/
inductive Stands (after : Option Nat) (k : Nat) (vm : VirtualMachine) (seen : Option Nat) : Prop
  | starting (state : vm.state = VirtualMachine.starting) (listed : seen.getD 0 = k)
      (early : ∀ n, after = some n → k < n)
  | running {n : Nat} (state : vm.state = VirtualMachine.running) (due : after = some n)
      (past : n ≤ k)

/-- How far the one machine of an identifier has come by so many listings, in a calm cloud. -/
structure MachineCourse (id : String) (after : Option Nat) (k : Nat) (inv : Inventory) : Prop where
  calm : inv.Calm
  given : inv.IsMachineId id
  runningAfter : inv.runningAfter = after
  machine : ∃ vm, inv.machinesOf id = [vm] ∧ Stands after k vm (inv.sightings.get? id)

/-- How far a job has come by so many queries, in a calm cloud. -/
structure JobCourse (jobId : String) (polls k : Nat) (inv : Inventory) : Prop where
  calm : inv.Calm
  given : inv.IsJobId jobId
  remaining : inv.jobs.get? jobId = some (polls - k)

theorem MachineCourse.keeps (h : MachineCourse id after k inv) (keeps : KeepsMachine id inv other) :
    MachineCourse id after k other where
  calm := keeps.calm h.calm
  given := keeps.isMachineId h.given
  runningAfter := keeps.runningAfter.trans h.runningAfter
  machine := by
    rw [keeps.machines, keeps.sightings]
    exact h.machine

theorem JobCourse.keeps (h : JobCourse jobId polls k inv) (keeps : KeepsJob jobId inv other) :
    JobCourse jobId polls k other where
  calm := keeps.calm h.calm
  given := keeps.isJobId h.given
  remaining := keeps.job.trans h.remaining

/-- A machine that is listed once more stands as it should, and runs if it is due by then. -/
theorem Stands.sight {vm : VirtualMachine} {sightings : Table Nat}
    (h : Stands after k vm (sightings.get? vm.id)) :
    Stands after (k + 1) (sight after sightings vm).1 ((sight after sightings vm).2.get? vm.id) := by
  cases h with
  | starting state listed early =>
      rw [Inventory.sight, if_pos state, listed]
      dsimp only
      rw [Table.get?_insert, if_pos rfl]
      cases after with
      | none => exact .starting state rfl fun n hn => absurd hn.symm (Option.some_ne_none n)
      | some n =>
          dsimp only
          split
          next due => exact .running rfl rfl (of_decide_eq_true due)
          next early =>
            refine .starting state rfl fun m hm => ?_
            obtain rfl := Option.some.inj hm
            exact Nat.lt_of_not_le fun due => early (decide_eq_true due)
  | running state due past =>
      have hnot : ¬vm.state = VirtualMachine.starting := by
        rw [state]
        decide
      rw [Inventory.sight, if_neg hnot]
      exact .running state due (Nat.le_succ_of_le past)

theorem Stands.running_iff {vm : VirtualMachine} {seen : Option Nat} (h : Stands after k vm seen) :
    vm.state = VirtualMachine.running ↔ ∃ n, after = some n ∧ n ≤ k := by
  cases h with
  | starting state _ early =>
      constructor
      · intro running
        rw [state] at running
        exact absurd running (by decide)
      · rintro ⟨n, due, past⟩
        exact absurd past (Nat.not_le.2 (early n due))
  | running state due past => exact ⟨fun _ => ⟨_, due, past⟩, fun _ => state⟩

/-- A look for the machine finds it once, and running exactly if it has been listed often enough. -/
theorem MachineCourse.listed (h : MachineCourse id after k inv) :
    MachineCourse id after (k + 1) (inv.listMachines { id := some id }).2 ∧
      ∃ found, (inv.listMachines { id := some id }).1.items = [found] ∧
        (found.state = VirtualMachine.running ↔ ∃ n, after = some n ∧ n ≤ k + 1) := by
  obtain ⟨vm, alone, stands⟩ := h.machine
  have hid := id_of_machinesOf_eq alone
  have hafter := h.runningAfter
  subst hafter
  obtain ⟨hmachine, hsightings⟩ := sightAll_lookup inv.runningAfter inv.sightings alone
  rw [← hid] at stands
  have hstands := stands.sight
  constructor
  · refine ⟨⟨h.calm.failures, h.calm.latency, h.calm.jobFailure, h.calm.scripted⟩, h.given, rfl,
      _, hmachine, ?_⟩
    rw [hid] at hstands
    rwa [← hsightings] at hstands
  · exact ⟨_, items_lookup hmachine, hstands.running_iff⟩

/-- A query answers that the job is pending exactly if it was not queried often enough. -/
theorem JobCourse.queried (h : JobCourse jobId polls k inv) :
    JobCourse jobId polls (k + 1) (inv.queryJob jobId).2 ∧
      ∃ answer, (inv.queryJob jobId).1 = .ok answer ∧
        answer.status = if polls ≤ k then .succeeded else .pending := by
  rw [queryJob, h.remaining]
  cases hleft : polls - k with
  | zero =>
      have hpolls : polls ≤ k := by omega
      dsimp only
      rw [h.calm.jobFailure, if_pos hpolls]
      refine ⟨⟨h.calm, h.given, ?_⟩, _, rfl, rfl⟩
      rw [h.remaining, hleft, show polls - (k + 1) = 0 by omega]
  | succ remaining =>
      have hpolls : ¬polls ≤ k := by omega
      rw [if_neg hpolls]
      refine ⟨⟨⟨h.calm.failures, h.calm.latency, h.calm.jobFailure, h.calm.scripted⟩, h.given, ?_⟩,
        _, rfl, rfl⟩
      rw [Table.get?_insert, if_pos rfl, show polls - (k + 1) = remaining by omega]

variable (today) (r : DeployRequest)

/-- A new machine has not been listed yet. -/
theorem machineCourse_deploy (calm : inv.Calm) (fresh : inv.machinesOf (inv.deploy today r).1.id = [])
    (unseen : inv.sightings.get? (inv.deploy today r).1.id = none) :
    MachineCourse (inv.deploy today r).1.id inv.runningAfter 0 (inv.deploy today r).2 := by
  have added : MachineCourse (inv.deploy today r).1.id inv.runningAfter 0
      { inv with
        lastNumber := inv.lastNumber + 1
        machines := inv.machines ++ [inv.newMachine today (inv.lastNumber + 1) r]
        deployed := inv.deployed ++ [r] } := by
    refine ⟨⟨calm.failures, calm.latency, calm.jobFailure, calm.scripted⟩,
      ⟨_, Nat.le_refl _, rfl⟩, rfl, inv.newMachine today (inv.lastNumber + 1) r, ?_, ?_⟩
    · have hid : (inv.newMachine today (inv.lastNumber + 1) r).id = (inv.deploy today r).1.id := rfl
      rw [machinesOf, List.filter_append, List.filter_singleton, decide_eq_true hid, cond_true]
      change inv.machinesOf _ ++ _ = _
      rw [fresh, List.nil_append]
    · change Stands _ _ _ (inv.sightings.get? _)
      rw [unseen]
      by_cases hup : inv.runningAfter = some 0
      · exact .running (if_pos hup) hup (Nat.le_refl 0)
      · refine .starting (if_neg hup) rfl fun n hn => Nat.pos_of_ne_zero ?_
        rintro rfl
        exact hup hn
  exact added.keeps (keepsMachine_startJob _ _)

/-- A deployment without a job is one that takes no queries. -/
theorem jobPolls_of_deploy (synchronous : (inv.deploy today r).1.jobId = none) :
    inv.jobPolls = none := by
  cases hpolls : inv.jobPolls with
  | none => rfl
  | some polls =>
      rw [deploy, startJob] at synchronous
      simp [hpolls] at synchronous

/-- A new job has not been queried yet. -/
theorem jobCourse_deploy (calm : inv.Calm) {jobId : String}
    (started : (inv.deploy today r).1.jobId = some jobId) :
    ∃ polls, inv.jobPolls = some polls ∧ JobCourse jobId polls 0 (inv.deploy today r).2 := by
  rw [deploy, startJob] at started ⊢
  cases hpolls : inv.jobPolls with
  | none => simp [hpolls] at started
  | some polls =>
      simp only [hpolls, Option.some.injEq] at started ⊢
      refine ⟨polls, rfl, ⟨calm.failures, calm.latency, calm.jobFailure, calm.scripted⟩,
        ⟨_, Nat.le_refl _, started.symm⟩, ?_⟩
      rw [Table.get?_insert, if_pos started.symm]
      rfl

end Courses

end Inventory

end NodeFleet.Cloud
