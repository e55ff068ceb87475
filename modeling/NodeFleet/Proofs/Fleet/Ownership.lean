import NodeFleet.Proofs.Cloud.Managed
import NodeFleet.Proofs.Fleet.Readback

/-!
# Whose machines are listed

Provisioners of several clusters may share a cloud. Each tags the machines that it launches as those
of its own cluster and as managed, and a listing goes by the second tag only: it yields every machine
that is seen to carry it, whoever launched it, and no other. As long as only provisioners act on the
cloud, a machine carries that tag from its launch until it is destroyed.
-/

namespace NodeFleet

open Routine (Ends Obeys ends_run_lift)
open Program (CallsOnly CallsPlainly MayCall obeys_call obeys_tryCall obeys_then)
open Cloud (VirtualMachine)
open Cloud.Inventory (Marks SparesTags)
open Cloud.Operation (tagging)

section Provisioning

theorem Cloud.Inventory.sparesTags_of_operation {call : Cloud.Call}
    (h : call.operation ∉ tagging) : SparesTags call := by
  cases call with
  | createTags w => exact absurd (by simp [Cloud.Call.operation, tagging]) h
  | deleteTags r => exact absurd (by simp [Cloud.Call.operation, tagging]) h
  | _ => trivial

namespace Request

/-- A question in which the world is changed by calls only, tags are set on machines only, and none
are removed. -/
def Provisions : Request fleetSignature → Prop
  | .act (.serveCall call) => SparesTags call
  | .act (.change _) => False
  | _ => True

theorem Plain.provisions {request : Request fleetSignature} (h : request.Plain) :
    request.Provisions := by
  cases request with
  | act action =>
      cases action with
      | serveCall call => exact Cloud.Inventory.sparesTags_of_operation h
      | change f => exact h.elim
      | _ => trivial
  | _ => trivial

theorem provisions_of_callsOnly {ops : List Cloud.Operation} (untagged : ∀ op ∈ ops, op ∉ tagging)
    {request : Request fleetSignature} (h : CallsOnly ops request) : request.Provisions := by
  cases request with
  | act action =>
      cases action with
      | serveCall call => exact Cloud.Inventory.sparesTags_of_operation (untagged _ h)
      | change f => exact h.elim
      | _ => trivial
  | _ => trivial

theorem provisions_of_not_act {request : Request fleetSignature}
    (h : ∀ action, request ≠ .act action) : request.Provisions := by
  cases request with
  | act action => exact absurd rfl (h action)
  | _ => trivial

end Request

namespace Program

variable {α : Type} {ops : List Cloud.Operation} {p : Program α} {yields : α → Prop}

/-- A program that changes tags as provisioners do. -/
abbrev Provisions (p : Program α) : Prop :=
  Obeys Request.Provisions (fun _ => True) p

theorem provisions_of_callsPlainly (untagged : ∀ op ∈ ops, op ∉ tagging)
    (h : Obeys (CallsPlainly ops) yields p) : p.Provisions :=
  h.mono (fun _ hplain => Request.provisions_of_callsOnly untagged hplain.callsOnly)
    fun _ _ => trivial

theorem provisions_log (subject : String) (state : LaunchState) :
    (liftM (log subject state) : Attempt ResourceError Unit).run.Provisions :=
  Routine.obeys_run_lift ⟨trivial, fun _ => trivial⟩

end Program

open Program (provisions_of_callsPlainly provisions_log)

/-- A launch that is planned sets the tags of its machine and changes no others. -/
theorem Fleet.provisions_deployment (f : Fleet) (c : NodeClass) (claim : NodeClaim) (token : Token)
    (request : Cloud.DeployRequest) : (f.deployment c claim token request).run.Provisions := by
  refine obeys_then (provisions_log _ _) fun _ => ?_
  refine obeys_then (provisions_of_callsPlainly (by simp [tagging, Cloud.Call.operation])
    (obeys_tryCall _ (List.mem_singleton_self _))) fun reply => ?_
  refine obeys_then (provisions_of_callsPlainly (by decide) (f.obeys_finishJob _ _ token))
    fun _ => ?_
  refine obeys_then (provisions_log _ _) fun _ => ?_
  refine obeys_then (provisions_of_callsPlainly (by decide) (f.obeys_awaitState _ _ token))
    fun vm => Routine.obeys_run_lift ?_
  have tags : MayCall Request.Provisions
      (.createTags ⟨[vm.id], .machine, f.machineTags c claim⟩) :=
    ⟨trivial, rfl, fun request h => by cases request <;> trivial⟩
  exact tags.obeys_call.bind fun _ _ => ⟨trivial, fun _ => trivial⟩

/-- Whatever a provisioner does, it sets no tags but those of machines, and removes none. -/
def provisioning : Discipline where
  Holds p := p.Provisions
  yield _ := trivial
  bind first rest := first.bind fun a _ => rest a
  ask _ plain := ⟨plain.provisions, fun _ => trivial⟩
  attempt f q :=
    (q.obeys_attempt f).mono (fun _ => Request.provisions_of_callsOnly (by decide)) fun _ h => h
  getInstance _ id := Routine.obeys_cached
    (provisions_of_callsPlainly (by decide) (Fleet.obeys_fetchInstance id))
    (fun _ => Request.provisions_of_not_act) fun _ => trivial
  deployment := Fleet.provisions_deployment

end Provisioning

/-- A party that is a provisioner. -/
def Party.Provisions : Party → Prop
  | .serves _ _ => True
  | .other _ => False

theorem Party.Provisions.program {party : Party} (h : party.Provisions) :
    party.program.Provisions := by
  cases party with
  | serves o demand => exact provisioning.map (provisioning.serve o demand) _
  | other p => exact h.elim

theorem Party.Provisions.fair {party : Party} (h : party.Provisions) : party.Fair := by
  cases party with
  | serves o demand => trivial
  | other p => exact h.elim

namespace Event

variable {e : Event fleetWorld} {id : String}

/-- A turn in which the cloud destroys a machine of an identifier. -/
def Destroys (id : String) (e : Event fleetWorld) : Prop :=
  ∃ expunge ticket, e.exchange = ⟨.act (.serveCall (.destroyMachine ⟨id, expunge⟩)), .ok ticket⟩

/-- A turn of a provisioner leaves a machine marked as managed, unless it destroys it. -/
theorem marks_after (h : Marks id e.before.world.cloud) (provisions : e.request.Provisions)
    (spared : ¬ e.Destroys id) : Marks id e.after.world.cloud := by
  obtain ⟨i, s, request⟩ := e
  cases request with
  | act action =>
      cases action with
      | beginCall call =>
          have htags : (s.world.beginCall call).2.cloud.tags = s.world.cloud.tags :=
            (s.world.beginCall_sameMachines call).2
          change Marks id (s.world.beginCall call).2.cloud
          rw [Marks, htags]
          exact h
      | serveCall call =>
          refine Marks.serve h s.world.today provisions ?_
          rintro r rfl rfl
          cases hserved : (s.world.cloud.serve s.world.today (.destroyMachine r)).1 with
          | error e => exact ⟨e, rfl⟩
          | ok ticket =>
              refine absurd ⟨r.expunge, ticket, ?_⟩ spared
              rw [← hserved]
              rfl
      | change f => exact provisions.elim
      | _ => exact h
  | _ => exact h

/-- A machine that a fleet has launched is marked once its tags are set. -/
theorem marks_of_tagged {f : Fleet} {c : NodeClass} {claim : NodeClaim} {reply : Unit}
    (h : e.exchange = ⟨.act (.serveCall (.createTags ⟨[id], .machine, f.machineTags c claim⟩)),
      .ok reply⟩) : Marks id e.after.world.cloud := by
  obtain ⟨-, hafter⟩ := Prod.mk.inj (carriedOut h)
  rw [← hafter]
  exact Cloud.Inventory.marks_createTags (f.contains_machineTags c claim)

/-- The tags of a machine as they are listed tell whether it is marked. -/
theorem contains_of_listed {tags : List Cloud.ResourceTag}
    (h : e.exchange = ⟨.act (.serveCall (.listTags ⟨id, .machine⟩)), .ok tags⟩) :
    (tagTable tags).contains Tag.managedBy = true ↔ Marks id e.before.world.cloud := by
  obtain ⟨hlisted, -⟩ := Prod.mk.inj (carriedOut h)
  exact Cloud.Inventory.contains_listTags hlisted

end Event

/-- What a listing makes of a machine when it lists its tags in one of its turns: it finds a machine
that is marked as managed by then, and passes over any other and over one whose tags cannot be
listed. -/
inductive Sifts (turns : List (Event fleetWorld)) (vm : VirtualMachine) : Option Instance → Prop
  | managed {e : Event fleetWorld} {tags : List Cloud.ResourceTag} (turn : e ∈ turns)
      (listed : e.exchange = ⟨.act (.serveCall (.listTags ⟨vm.id, .machine⟩)), .ok tags⟩)
      (marked : Marks vm.id e.before.world.cloud) :
      Sifts turns vm (some (.ofMachine vm (tagTable tags)))
  | unmanaged {e : Event fleetWorld} {tags : List Cloud.ResourceTag} (turn : e ∈ turns)
      (listed : e.exchange = ⟨.act (.serveCall (.listTags ⟨vm.id, .machine⟩)), .ok tags⟩)
      (unmarked : ¬ Marks vm.id e.before.world.cloud) : Sifts turns vm none
  | untold {e : Event fleetWorld} {error : Cloud.CallError} (turn : e ∈ turns)
      (failed : e.exchange = ⟨.act (.serveCall (.listTags ⟨vm.id, .machine⟩)), .error error⟩) :
      Sifts turns vm none

/-- How a listing of nodes went: the machines could not be listed, or all of them were, and the
listing has the claims of those that it found among them, in their order. -/
inductive ListingCourse (turns : List (Event fleetWorld)) :
    Except NodeError (List NodeClaim) → Prop
  | failed {e : Event fleetWorld} {error : Cloud.CallError} (turn : e ∈ turns)
      (refused : e.exchange = ⟨.act (.serveCall (.listMachines {})), .error error⟩) :
      ListingCourse turns (.error (.resource (.call "list VMs" error)))
  | listed {e : Event fleetWorld} {page : Cloud.Page VirtualMachine}
      {founds : List (Option Instance)} (today : Instant) (turn : e ∈ turns)
      (shown : e.exchange = ⟨.act (.serveCall (.listMachines {})), .ok page⟩)
      (complete : List.Forall₂ VirtualMachine.SameRecord e.before.world.cloud.machines page.items)
      (sifted : List.Forall₂ (Sifts turns) page.items founds) :
      ListingCourse turns (.ok (founds.reduceOption.map fun i => i.toClaim today))

section Listing

variable {turns : List (Event fleetWorld)} {trace : List (Exchange fleetSignature)}

/-- What is found of a machine by a call for its tags is sifted out. -/
theorem sifts_of_ends_call {vm : VirtualMachine}
    {reply : Except Cloud.CallError (List Cloud.ResourceTag)}
    (h : Ends (Program.call (.listTags ⟨vm.id, .machine⟩)) trace reply) (delayed : Delayed trace)
    (taken : ∀ x ∈ trace, ∃ e ∈ turns, e.exchange = x) :
    Sifts turns vm (Fleet.managed? vm reply) := by
  obtain ⟨before, rfl, -⟩ := served_of_ends_call h (by simp [Cloud.Call.operation]) delayed
  obtain ⟨e, turn, hexchange⟩ :=
    taken ⟨.act (.serveCall (.listTags ⟨vm.id, .machine⟩)), reply⟩ (by simp)
  cases reply with
  | error error => exact .untold turn hexchange
  | ok tags =>
      have hmarked := Event.contains_of_listed hexchange
      rw [Fleet.managed?]
      split
      next managed => exact .managed turn hexchange (hmarked.1 managed)
      next unmanaged => exact .unmanaged turn hexchange fun h => unmanaged (hmarked.2 h)

/-- What a turn shows of all machines are their records. -/
theorem Event.sameRecord_of_listed {e : Event fleetWorld} {page : Cloud.Page VirtualMachine}
    (h : e.exchange = ⟨.act (.serveCall (.listMachines {})), .ok page⟩) :
    List.Forall₂ VirtualMachine.SameRecord e.before.world.cloud.machines page.items := by
  obtain ⟨hpage, -⟩ := Prod.mk.inj (carriedOut h)
  obtain rfl := Except.ok.inj hpage
  exact Cloud.Inventory.forall₂_items_listMachines _

/-- A listing of nodes has the claims of the managed machines. -/
theorem Provisioner.course_of_list {r : Except NodeError (List NodeClaim)}
    (h : Ends list.run trace r) (delayed : Delayed trace)
    (taken : ∀ x ∈ trace, ∃ e ∈ turns, e.exchange = x) : ListingCourse turns r := by
  rcases ends_list h with ⟨e, rfl, hfailed⟩ | ⟨own, instances, today, rfl, hown, rfl⟩
  · rcases ends_tryCall_bind hfailed with ⟨error, he, hcall⟩ | ⟨_, _, _, _, _, hrest⟩
    · cases he
      obtain ⟨before, rfl, -⟩ := served_of_ends_call hcall (by simp [Cloud.Call.operation]) delayed
      obtain ⟨turn, hturn, hexchange⟩ :=
        taken ⟨.act (.serveCall (.listMachines {})), .error error⟩ (by simp)
      exact .failed hturn hexchange
    · obtain ⟨_, _, he⟩ := ends_run_lift.1 hrest
      cases he
  · rcases ends_tryCall_bind hown with ⟨_, he, _⟩ | ⟨page, look, rest, rfl, hcall, hrest⟩
    · cases he
    · obtain ⟨_, hinstances, heq⟩ := ends_run_lift.1 hrest
      obtain rfl := Except.ok.inj heq
      obtain ⟨before, rfl, -⟩ := served_of_ends_call hcall (by simp [Cloud.Call.operation])
        (delayed.sub fun x hx => by simp [hx])
      obtain ⟨turn, hturn, hexchange⟩ :=
        taken ⟨.act (.serveCall (.listMachines {})), .ok page⟩ (by simp)
      obtain ⟨founds, rfl, hfounds⟩ := exists_founds_of_managedInstances hinstances
      refine .listed today hturn hexchange (Event.sameRecord_of_listed hexchange)
        (hfounds.imp ?_)
      rintro vm found ⟨own, reply, sub, hown, rfl⟩
      exact sifts_of_ends_call hown (delayed.sub fun x hx => by simp [sub x hx])
        fun x hx => taken x (by simp [sub x hx])

end Listing

section Sharing

variable {parties : List Party} {s : FleetState} {events : List (Event fleetWorld)}
  {d : Config fleetWorld Outcome}

/-- Provisioners on a cloud, whatever is demanded of them. A listing has one claim for each machine
that was marked as managed when its tags were listed, in the order of the machines, and no other. A
machine is marked from the moment in which the tags of its launch are set, for whichever cluster,
until it is destroyed. From free locks all of them come to an end. -/
theorem list_goes_by_the_mark
    (steps : Steps (Config.start s (parties.map Party.program)) events d)
    (provision : ∀ party ∈ parties, party.Provisions) :
    (∀ k o r, parties[k]? = some (.serves o .list) →
      d.routines[k]? = some (.done (.served .list r)) → ListingCourse (turnsOf k events) r) ∧
    (∀ first e middle e' last (launcher : Provisioner) c claim id,
      events = first ++ e :: (middle ++ e' :: last) →
      e.exchange = ⟨.act (.serveCall
        (.createTags ⟨[id], .machine, launcher.fleet.machineTags c claim⟩)), .ok ()⟩ →
      (∀ between ∈ middle, ¬ between.Destroys id) → Marks id e'.before.world.cloud) ∧
    ((∀ cache, s.queues cache = []) → ∃ rest last, Steps d rest last ∧
      ∀ k < parties.length, ∃ outcome, last.routines[k]? = some (.done outcome)) := by
  refine ⟨fun k o r party done => ?_, ?_, fun free => ?_⟩
  · have hends := Party.ends_serves (steps.ends (routine_of_party party) done)
    exact Provisioner.course_of_list hends (delayed_traceOf k events) fun _ => exists_turn_of_mem
  · rintro first e middle e' last launcher c claim id rfl tagged spared
    have obeys : ∀ p ∈ parties.map Party.program, Program.Provisions p := by
      intro p hp
      obtain ⟨party, hparty, rfl⟩ := List.mem_map.1 hp
      exact (provision party hparty).program
    -- From the tagging on, the mark is the invariant that every turn of a provisioner keeps.
    have provisions := steps.asks obeys
    exact steps.holds_until (P := fun w : WorldState => Marks id w.cloud)
      (Event.marks_of_tagged tagged) fun between hbetween marked =>
        Event.marks_after marked (provisions between (by simp [hbetween])) (spared between hbetween)
  · exact steps.parties_complete free fun party hparty => (provision party hparty).fair

end Sharing

section Neighbours

/-- A provisioner of cluster `c2`, with caches of its own. -/
def neighbour : Provisioner :=
  .new { apiUrl := "", apiKey := "", secretKey := "", clusterName := "c2" } 1 1

/-- A launch for cluster `c2` and a listing for cluster `c1`. -/
def neighbourParties : List Party := [
  .serves neighbour (.create pooledClaim),
  .serves stockedProvisioner .list]

/-- The call that sets the tags of the machine launched for cluster `c2`. -/
def neighbourTagging : Cloud.Call :=
  .createTags ⟨["vm-1"], .machine, neighbour.fleet.machineTags reconciledClass pooledClaim⟩

/-- A call that is served without an error is carried out with a reply. -/
theorem Event.exists_reply {e : Event fleetWorld} {call : Cloud.Call}
    (h : e.request = .act (.serveCall call)) (served : e.exchange.fails = false) :
    ∃ reply, e.exchange = ⟨.act (.serveCall call), .ok reply⟩ := by
  obtain ⟨i, s, request⟩ := e
  obtain rfl : request = .act (.serveCall call) := h
  cases hreply : (s.world.cloud.serve s.world.today call).1 with
  | ok reply =>
      refine ⟨reply, ?_⟩
      rw [← hreply]
      rfl
  | error error =>
      change Exchange.fails ⟨.act (.serveCall call), (s.world.cloud.serve s.world.today call).1⟩ =
        false at served
      rw [hreply] at served
      cases served

/-- The launch, and the listing after it. -/
theorem exists_neighbour_history : ∃ first m second d node claims,
    Steps (Config.start (.initial stockedWorld : FleetState)
      (neighbourParties.map Party.program)) first m ∧ Steps m second d ∧
    d.routines[0]? = some (.done (.served (.create pooledClaim) (.ok node))) ∧
    d.routines[1]? = some (.done (.served .list (.ok claims))) ∧
    (∃ claim ∈ claims, claim.status.providerId = node.status.providerId) ∧
    (⟨Tag.cluster "c2", Tag.owned, "vm-1", "UserVm"⟩ : Cloud.ResourceTag) ∈
      d.shared.world.cloud.tags ∧
    (∀ t ∈ d.shared.world.cloud.tags, t.key ≠ Tag.cluster "c1") ∧
    (∃ e ∈ first, e.exchange = ⟨.act (.serveCall neighbourTagging), .ok ()⟩) ∧
    (∃ e ∈ second, e.routine = 1 ∧
      e.request = .act (.serveCall (.listTags ⟨"vm-1", .machine⟩))) ∧
    ∀ e ∈ first ++ second, ∀ id, ¬ e.Destroys id := by
  obtain ⟨first, m, steps, ⟨e, he, hserved, htags⟩, hfirst, ⟨second, d⟩, hlisting,
      ⟨created, hcreated, node, hnode, hid⟩, ⟨answer, hanswer, claims, hclaims, hshown⟩, howned,
      hforeign, ⟨e', he', hown, looking⟩, hsecond⟩ :
      ∃ first m, Steps (Config.start (.initial stockedWorld : FleetState)
          (neighbourParties.map Party.program)) first m ∧
        (∃ e ∈ first, e.exchange.fails = false ∧
          e.request = .act (.serveCall neighbourTagging)) ∧
        (∀ e ∈ first, e.request.serves (·.operation = .destroyMachine) = false) ∧
        ∃ path ∈ m.follow [.turns 1 9],
          (∃ r ∈ path.2.answer? 0 (.create pooledClaim), ∃ node ∈ r.toOption,
            node.status.providerId = pooledId) ∧
          (∃ r ∈ path.2.answer? 1 .list, ∃ claims ∈ r.toOption,
            ∃ claim ∈ claims, claim.status.providerId = pooledId) ∧
          (⟨Tag.cluster "c2", Tag.owned, "vm-1", "UserVm"⟩ : Cloud.ResourceTag) ∈
            path.2.shared.world.cloud.tags ∧
          (∀ t ∈ path.2.shared.world.cloud.tags, t.key ≠ Tag.cluster "c1") ∧
          (∃ e ∈ path.1, e.routine = 1 ∧
            e.request = .act (.serveCall (.listTags ⟨"vm-1", .machine⟩))) ∧
          ∀ e ∈ path.1, e.request.serves (·.operation = .destroyMachine) = false :=
    Config.exists_steps_of_follow [.turns 0 65, .wait 5000, .turns 0 14] (by decide +kernel)
  have later : Steps m second d := Config.steps_of_follow hlisting
  have tagging : e.exchange = ⟨.act (.serveCall neighbourTagging), .ok ()⟩ :=
    (Event.exists_reply htags hserved).choose_spec
  have spared : ∀ e ∈ first ++ second, ∀ id, ¬ e.Destroys id := by
    rintro e he id ⟨expunge, ticket, hexchange⟩
    have hrequest : e.request = .act (.serveCall (.destroyMachine ⟨id, expunge⟩)) :=
      congrArg Exchange.request hexchange
    have hnone := List.forall_mem_append.2 ⟨hfirst, hsecond⟩ e he
    rw [hrequest] at hnone
    cases hnone
  cases created with
  | error e => cases hnode
  | ok node =>
      cases answer with
      | error e => cases hclaims
      | ok claims =>
          obtain rfl := Option.some.inj hnode
          obtain rfl := Option.some.inj hclaims
          obtain ⟨claim, hclaim, hlisted⟩ := hshown
          exact ⟨first, m, second, d, node, claims, steps, later, Config.done_of_answer? hcreated,
            Config.done_of_answer? hanswer, ⟨claim, hclaim, hlisted.trans hid.symm⟩, howned,
            hforeign, ⟨e, he, tagging⟩, ⟨e', he', hown, looking⟩, spared⟩

/-- The node that is launched for one cluster is in the listing for another, although its machine is
tagged as owned by the first cluster and not by the second. -/
theorem list_shows_the_node_of_another_cluster : ∃ events d node claims,
    neighbour.fleet.settings.clusterName ≠ stockedProvisioner.fleet.settings.clusterName ∧
    Steps (Config.start (.initial stockedWorld : FleetState)
      (neighbourParties.map Party.program)) events d ∧
    d.routines[0]? = some (.done (.served (.create pooledClaim) (.ok node))) ∧
    (⟨Tag.cluster neighbour.fleet.settings.clusterName, Tag.owned, "vm-1", "UserVm"⟩ :
      Cloud.ResourceTag) ∈ d.shared.world.cloud.tags ∧
    (∀ t ∈ d.shared.world.cloud.tags,
      t.key ≠ Tag.cluster stockedProvisioner.fleet.settings.clusterName) ∧
    d.routines[1]? = some (.done (.served .list (.ok claims))) ∧
    ∃ claim ∈ claims, claim.status.providerId = node.status.providerId := by
  obtain ⟨first, m, second, d, node, claims, steps, later, created, listed, shown, owned, foreign,
    -⟩ := exists_neighbour_history
  exact ⟨first ++ second, d, node, claims, by decide, steps.trans later, created, owned, foreign,
    listed, shown⟩

/-- The listing next to the launch for another cluster goes by the mark, and the machine is marked
when the listing asks for its tags. -/
theorem list_goes_by_the_mark_next_to_a_neighbour : ∃ events d claims,
    Steps (Config.start (.initial stockedWorld : FleetState)
      (neighbourParties.map Party.program)) events d ∧
    (∀ party ∈ neighbourParties, party.Provisions) ∧
    d.routines[1]? = some (.done (.served .list (.ok claims))) ∧
    ListingCourse (turnsOf 1 events) (.ok claims) ∧
    (∃ e ∈ turnsOf 1 events, e.request = .act (.serveCall (.listTags ⟨"vm-1", .machine⟩)) ∧
      Marks "vm-1" e.before.world.cloud) ∧
    ∃ rest last, Steps d rest last ∧
      ∀ k < neighbourParties.length, ∃ outcome, last.routines[k]? = some (.done outcome) := by
  obtain ⟨first, m, second, d, node, claims, steps, later, -, listed, -, -, -,
    ⟨e, he, tagged⟩, ⟨e', he', own, looks⟩, spared⟩ := exists_neighbour_history
  have provision : ∀ party ∈ neighbourParties, party.Provisions := by
    simp only [neighbourParties, List.forall_mem_cons]
    exact ⟨trivial, trivial, List.forall_mem_nil _⟩
  obtain ⟨courses, marks, completes⟩ := list_goes_by_the_mark (steps.trans later) provision
  obtain ⟨early, middle, rfl⟩ := List.append_of_mem he
  obtain ⟨between, last, rfl⟩ := List.append_of_mem he'
  have marked := marks early e (middle ++ between) e' last neighbour reconciledClass pooledClaim
    "vm-1" (by simp) tagged fun e he => spared e (by
      rcases List.mem_append.1 he with he | he <;> simp [he]) "vm-1"
  exact ⟨_, d, claims, steps.trans later, provision, listed,
    courses 1 stockedProvisioner _ rfl listed, ⟨e', mem_turnsOf.2 ⟨by simp, own⟩, looks, marked⟩,
    completes fun _ => rfl⟩

end Neighbours

end NodeFleet
