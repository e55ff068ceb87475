import NodeFleet.Proofs.Cloud.Changes

/-!
# What a cloud keeps

A cloud goes through incidents: calls begin and end, in whatever order, and operations are made to
fail and to work again. Where it started without machines and tags, what it keeps is told by the log of
the calls that it answered: no identifier is given out twice, a tag is stored exactly if some call set
it and no later one replaced or removed it, machines only move on from starting over running to
destroyed, and one that is expunged is gone for good. A call that fails leaves no trace but its count.
-/

namespace NodeFleet.Cloud

/-- What happens to a cloud. -/
inductive Incident where
  | begins (call : Call)
  | ends (call : Call) (today : Instant)
  | fails (op : Operation) (message : String)
  | works (op : Operation)

/-- A log leaves a tag: one of its calls set the tag, and no later one cleared it. -/
def LeavesTag (log : List Served) (t : ResourceTag) : Prop :=
  ∃ earlier served later, log = earlier ++ served :: later ∧ served.Sets t ∧
    ∀ s ∈ later, ¬s.Clears t

theorem leavesTag_nil (t : ResourceTag) : ¬LeavesTag [] t := by
  rintro ⟨earlier, served, later, h, -⟩
  simp at h

/-- A log leaves what its first call set, unless a later one cleared it, and what the rest leaves. -/
theorem leavesTag_cons {served : Served} {log : List Served} {t : ResourceTag} :
    LeavesTag (served :: log) t ↔
      served.Sets t ∧ (∀ s ∈ log, ¬s.Clears t) ∨ LeavesTag log t := by
  constructor
  · rintro ⟨earlier, s, later, h, sets, kept⟩
    cases earlier with
    | nil =>
        obtain ⟨rfl, rfl⟩ := List.cons.inj h
        exact .inl ⟨sets, kept⟩
    | cons first earlier =>
        obtain ⟨rfl, rfl⟩ := List.cons.inj h
        exact .inr ⟨earlier, s, later, rfl, sets, kept⟩
  · rintro (⟨sets, kept⟩ | ⟨earlier, s, later, rfl, sets, kept⟩)
    · exact ⟨[], served, log, rfl, sets, kept⟩
    · exact ⟨served :: earlier, s, later, rfl, sets, kept⟩

namespace Inventory

/-- The cloud after an incident. -/
def undergo (inv : Inventory) : Incident → Inventory
  | .begins call => inv.record call
  | .ends call today => (inv.serve today call).2
  | .fails op message => inv.fail op message
  | .works op => inv.clearFailure op

/-- The cloud after one incident and another. -/
def undergoAll (inv : Inventory) (incidents : List Incident) : Inventory :=
  incidents.foldl undergo inv

/-- The calls that are answered during incidents. -/
def log (inv : Inventory) : List Incident → List Served
  | [] => []
  | .ends call today :: rest =>
      ⟨call, (inv.serve today call).1⟩ :: (inv.undergo (.ends call today)).log rest
  | incident :: rest => (inv.undergo incident).log rest

variable {inv other last : Inventory} {t : ResourceTag}

theorem lastNumber_undergo (inv : Inventory) (incident : Incident) :
    inv.lastNumber ≤ (inv.undergo incident).lastNumber := by
  cases incident with
  | ends call today => exact inv.lastNumber_serve today call
  | _ => exact Nat.le_refl _

/-- What calls give out is given out once, if no call gives out what was given out before. -/
theorem nodup_given (given? : Served → Option String) (IsGiven : Inventory → String → Prop)
    (fresh : ∀ {inv : Inventory} {today : Instant} {call : Call} {id : String},
      given? ⟨call, (inv.serve today call).1⟩ = some id →
        ¬IsGiven inv id ∧ IsGiven (inv.serve today call).2 id)
    (mono : ∀ {inv other : Inventory} {id : String}, IsGiven inv id →
      inv.lastNumber ≤ other.lastNumber → IsGiven other id)
    (inv : Inventory) (incidents : List Incident) :
    ((inv.log incidents).filterMap given?).Nodup ∧
      ∀ id ∈ (inv.log incidents).filterMap given?, ¬IsGiven inv id := by
  induction incidents generalizing inv with
  | nil => exact ⟨.nil, fun _ h => (nomatch h)⟩
  | cons incident rest ih =>
      obtain ⟨distinct, unused⟩ := ih (inv.undergo incident)
      -- What was given out before stays given out, so later calls do not give it out either.
      have later : ∀ id ∈ ((inv.undergo incident).log rest).filterMap given?, ¬IsGiven inv id :=
        fun id hid given => unused id hid (mono given (inv.lastNumber_undergo incident))
      cases incident with
      | ends call today =>
          rw [log, List.filterMap_cons]
          split
          next => exact ⟨distinct, later⟩
          next id hid =>
              obtain ⟨new, used⟩ := fresh hid
              exact ⟨List.nodup_cons.2 ⟨fun hrest => unused id hrest used, distinct⟩,
                List.forall_mem_cons.2 ⟨new, later⟩⟩
      | _ => exact ⟨distinct, later⟩

/-- The tags of a cloud after incidents are those that the log leaves, and those from before that no
call cleared. -/
theorem mem_tags_undergoAll (inv : Inventory) (incidents : List Incident) :
    t ∈ (inv.undergoAll incidents).tags ↔
      LeavesTag (inv.log incidents) t ∨ t ∈ inv.tags ∧ ∀ s ∈ inv.log incidents, ¬s.Clears t := by
  induction incidents generalizing inv with
  | nil => simp [undergoAll, log, leavesTag_nil]
  | cons incident rest ih =>
      -- The tags from before the rest are those that the first incident leaves.
      change t ∈ ((inv.undergo incident).undergoAll rest).tags ↔ _
      rw [ih]
      cases incident with
      | ends call today =>
          rw [log, leavesTag_cons, List.forall_mem_cons, undergo, mem_tags_serve]
          grind
      | _ => rfl

namespace Tidy

theorem undergo (h : inv.Tidy) (incident : Incident) : (inv.undergo incident).Tidy := by
  cases incident with
  | ends call today => exact h.serve today call
  | _ => exact ⟨h.given, h.distinct, h.keys⟩

theorem undergoAll (h : inv.Tidy) (incidents : List Incident) : (inv.undergoAll incidents).Tidy :=
  List.foldlRecOn (motive := Tidy) incidents Inventory.undergo h fun _ h incident _ =>
    h.undergo incident

end Tidy

/-- A cloud has gone through incidents: of the identifiers that had been given out, it has no machines
but those it had, moved on at most. -/
structure Follows (inv other : Inventory) : Prop where
  numbers : inv.lastNumber ≤ other.lastNumber
  machines : ∀ after ∈ other.machines, inv.IsMachineId after.id →
    ∃ vm ∈ inv.machines, vm.id = after.id ∧ vm.MovesOn after

namespace Follows

theorem trans (h : Follows inv other) (h' : Follows other last) : Follows inv last where
  numbers := Nat.le_trans h.numbers h'.numbers
  machines after hafter given := by
    obtain ⟨middle, hmiddle, hid, moves'⟩ := h'.machines after hafter (given.mono h.numbers)
    obtain ⟨vm, hvm, hid', moves⟩ := h.machines middle hmiddle (hid ▸ given)
    exact ⟨vm, hvm, hid'.trans hid, moves.trans moves'⟩

theorem of_undergo (inv : Inventory) (incident : Incident) : Follows inv (inv.undergo incident) where
  numbers := inv.lastNumber_undergo incident
  machines after hafter given := by
    cases incident with
    | ends call today => exact exists_of_mem_serve hafter given
    | _ => exact ⟨after, hafter, rfl, .inl rfl⟩

theorem of_undergoAll (inv : Inventory) (incidents : List Incident) :
    Follows inv (inv.undergoAll incidents) := by
  refine List.foldlRecOn (motive := Follows inv) incidents undergo ?_ fun other h incident _ => ?_
  · exact ⟨Nat.le_refl _, fun after hafter _ => ⟨after, hafter, rfl, .inl rfl⟩⟩
  · exact h.trans (of_undergo other incident)

/-- In a tidy cloud a machine has one identifier, so each machine follows the one of its identifier. -/
theorem movesOn (h : Follows inv other) (tidy : inv.Tidy) {vm after : VirtualMachine}
    (hvm : vm ∈ inv.machines) (hafter : after ∈ other.machines) (same : after.id = vm.id) :
    vm.MovesOn after := by
  have given : inv.IsMachineId after.id := same ▸ tidy.given _ (List.mem_map_of_mem hvm)
  obtain ⟨found, hfound, hid, moves⟩ := h.machines after hafter given
  obtain rfl := List.inj_on_of_nodup_map tidy.distinct hfound hvm (hid.trans same)
  exact moves

/-- A machine that a cloud does not have any more does not come back. -/
theorem machinesOf_eq_nil {id : String} (h : Follows inv other) (given : inv.IsMachineId id)
    (gone : ∀ vm ∈ inv.machines, vm.id ≠ id) : other.machinesOf id = [] := by
  refine List.filter_eq_nil_iff.2 fun after hafter hid => ?_
  obtain rfl := of_decide_eq_true hid
  obtain ⟨vm, hvm, same, -⟩ := h.machines after hafter given
  exact gone vm hvm same

end Follows

theorem callCount_record (inv : Inventory) (call : Call) (op : Operation) :
    (inv.record call).callCount op =
      inv.callCount op + if op = call.operation then 1 else 0 := by
  rw [callCount, record, List.filter_cons]
  by_cases hop : call.operation = op
  · rw [if_pos (decide_eq_true hop), if_pos hop.symm]
    rfl
  · rw [if_neg (by simpa using hop), if_neg (Ne.symm hop)]
    rfl

/-- What a cloud keeps is told by the calls that it has answered. -/
structure ToldBy (inv : Inventory) (log : List Served) : Prop where
  /-- No machine is given out twice. -/
  machineIds : (log.filterMap Served.machineId?).Nodup
  /-- No job is given out twice. -/
  jobIds : (log.filterMap Served.jobId?).Nodup
  /-- No two machines have one identifier. -/
  distinct : (inv.machines.map (·.id)).Nodup
  /-- Under a key of a resource one tag is stored at most. -/
  keys : (inv.tags.map ResourceTag.place).Nodup
  /-- Those tags are stored that the log leaves. -/
  tags (t : ResourceTag) : t ∈ inv.tags ↔ LeavesTag log t
  /-- A machine that is expunged goes with its tags, and all else stays. It does not come back. -/
  expunged {r : DestroyRequest} {today : Instant} {ticket : JobTicket} (expunge : r.expunge = true)
    (done : (inv.serve today (.destroyMachine r)).1 = .ok ticket) :
    let after := (inv.serve today (.destroyMachine r)).2
    after.machines = inv.machines.filter (fun vm => vm.id ≠ r.id) ∧
      after.tags = inv.tags.filter (fun t => t.resourceId ≠ r.id) ∧
      ∀ incidents, (after.undergoAll incidents).machinesOf r.id = []
  /-- No machine goes back from running to starting, or from destroyed to another state. -/
  states {incidents : List Incident} {vm after : VirtualMachine} (before : vm ∈ inv.machines)
    (later : after ∈ (inv.undergoAll incidents).machines) (same : after.id = vm.id) :
    (vm.state = VirtualMachine.running → after.state ≠ VirtualMachine.starting) ∧
      (vm.state = VirtualMachine.destroyed → after.state = VirtualMachine.destroyed)
  /-- A call that begins is counted, and that is all. -/
  counted (call : Call) : (∃ calls, inv.undergo (.begins call) = { inv with calls }) ∧
    ∀ op, (inv.undergo (.begins call)).callCount op =
      inv.callCount op + if op = call.operation then 1 else 0
  /-- While an operation is made to fail, its calls are answered with the failure. -/
  failing {call : Call} {message : String} (fails : inv.failure? call.operation = some message)
    (today : Instant) : (inv.serve today call).1 = .error (broken message)
  /-- A call that is answered with an error, for a failure or not, changes nothing. -/
  refused {call : Call} {today : Instant} {e : CallError}
    (error : (inv.serve today call).1 = .error e) : inv.undergo (.ends call today) = inv

/-- Where a cloud starts without machines and tags, what it keeps after whatever incidents is told by
the calls that it answered meanwhile. -/
theorem answers_tell_contents (machines : inv.machines = []) (tags : inv.tags = [])
    (incidents : List Incident) : (inv.undergoAll incidents).ToldBy (inv.log incidents) := by
  have tidy : (inv.undergoAll incidents).Tidy := (tidy_of_empty machines tags).undergoAll incidents
  constructor
  case machineIds =>
    exact (nodup_given Served.machineId? IsMachineId new_machineId .mono inv incidents).1
  case jobIds => exact (nodup_given Served.jobId? IsJobId new_jobId .mono inv incidents).1
  case distinct => exact tidy.distinct
  case keys => exact tidy.keys
  case tags =>
    intro t
    rw [mem_tags_undergoAll, tags]
    simp
  case expunged =>
    intro r today ticket expunge done
    have hserve := serve_destroy_of_ok done
    rw [hserve] at done ⊢
    obtain ⟨given, hmachines, htags⟩ := tidy.expunged expunge done
    refine ⟨hmachines, htags, fun later => ?_⟩
    refine (Follows.of_undergoAll _ later).machinesOf_eq_nil (given.mono (lastNumber_destroy _ r)) ?_
    intro vm hvm
    rw [hmachines] at hvm
    exact of_decide_eq_true (List.mem_filter.1 hvm).2
  case states =>
    intro later vm after before hafter same
    have moves := (Follows.of_undergoAll _ later).movesOn tidy before hafter same
    exact ⟨moves.not_starting, moves.stays_destroyed⟩
  case counted =>
    intro call
    exact ⟨⟨_, rfl⟩, callCount_record _ call⟩
  case failing =>
    intro call message fails today
    rw [serve, fails]
  case refused =>
    intro call today e error
    exact serve_of_error error

section BusyDay

/-- A cloud in which a machine runs when it is listed and a job is pending once. -/
def busyCloud : Inventory where
  runningAfter := some 1
  jobPolls := some 1

/-- Setting the role of a resource. -/
def assigning (id : String) (kind : ResourceKind) (role : String) : Call :=
  .createTags ⟨[id], kind, .ofList [("role", role)]⟩

/-- A call that begins and ends at once. -/
def promptly (call : Call) : List Incident :=
  [.begins call, .ends call (.ofSeconds 0)]

/-- Two machines are deployed and get roles. One is listed, fails to get another role, gets one as a
template, and keeps it when the tags of machines are removed; the other one is expunged. -/
def busyDay : List Incident :=
  let deployment : Call :=
    .deployMachine { offeringId := "small", templateId := "plain", zoneId := "z1" }
  promptly deployment ++ promptly deployment ++
    promptly (assigning "vm-1" .machine "web") ++ promptly (assigning "vm-3" .machine "mail") ++
    promptly (.listMachines { id := some "vm-1" }) ++
    [.begins (assigning "vm-1" .machine "proxy"), .fails .createTags "down",
      .ends (assigning "vm-1" .machine "proxy") (.ofSeconds 0), .works .createTags] ++
    promptly (assigning "vm-1" .template "base") ++
    promptly (.deleteTags ⟨["vm-1"], .machine, .empty⟩) ++
    promptly (.destroyMachine { id := "vm-3", expunge := true })

theorem answers_tell_contents_of_busy_day :
    busyCloud.machines = [] ∧ busyCloud.tags = [] ∧
    (busyCloud.log busyDay).filterMap Served.machineId? = ["vm-1", "vm-3"] ∧
    (busyCloud.log busyDay).filterMap Served.jobId? = ["job-2", "job-4", "job-5"] ∧
    LeavesTag (busyCloud.log busyDay) ⟨"role", "base", "vm-1", "Template"⟩ ∧
    ¬LeavesTag (busyCloud.log busyDay) ⟨"role", "mail", "vm-3", "UserVm"⟩ ∧
    ∀ later, ∀ vm ∈ ((busyCloud.undergoAll busyDay).undergoAll later).machines, vm.id = "vm-1" →
      vm.state ≠ VirtualMachine.starting := by
  have told : (busyCloud.undergoAll busyDay).ToldBy (busyCloud.log busyDay) :=
    answers_tell_contents rfl rfl busyDay
  have htags : (busyCloud.undergoAll busyDay).tags = [⟨"role", "base", "vm-1", "Template"⟩] := by
    decide +kernel
  refine ⟨rfl, rfl, by decide +kernel, by decide +kernel, ?_, ?_, fun later after hafter hid => ?_⟩
  · rw [← told.tags, htags]
    exact List.mem_singleton_self _
  · rw [← told.tags, htags]
    decide
  · obtain ⟨vm, hvm, hid', runs⟩ : ∃ vm ∈ (busyCloud.undergoAll busyDay).machines,
        vm.id = "vm-1" ∧ vm.state = VirtualMachine.running := by
      decide +kernel
    exact (told.states hvm hafter (hid.trans hid'.symm)).1 runs

end BusyDay

end Inventory

end NodeFleet.Cloud
