import NodeFleet.Proofs.Cloud.Machine
import NodeFleet.Proofs.Fleet.Creation
import NodeFleet.Proofs.Fleet.Identity

/-!
# How a launched machine is registered

A launch that succeeds has deployed a machine, seen it running, set its tags and remembered it. If
nobody else touches the machine meanwhile, the cloud has it with the tags with which it is
remembered once the launch is done.
-/

namespace NodeFleet

open Routine (Ends ends_bind ends_run_bind_ok ends_run_lift ends_lift_request_bind
  ends_request_bind)
open Program (CallsOnly callsOnly)
open Cloud (Inventory VirtualMachine ResourceTag lookup)
open Cloud.Inventory (Hosts Spares tagOn)

/-- The operations that change machines or their tags. -/
def Cloud.Operation.changing : List Cloud.Operation :=
  [.deployMachine, .destroyMachine, .createTags, .deleteTags]

namespace Request

/-- A question in which no machine and no tag is changed, except that a machine comes up. -/
def Looks : Request fleetSignature → Prop
  | .act (.serveCall call) => call.operation ∉ Cloud.Operation.changing
  | .act (.change _) => False
  | _ => True

theorem looks_of_callsOnly {ops : List Cloud.Operation} {request : Request fleetSignature}
    (hops : ∀ op ∈ ops, op ∉ Cloud.Operation.changing) (h : CallsOnly ops request) :
    request.Looks := by
  cases request with
  | act action =>
      cases action with
      | serveCall call => exact hops _ h
      | change f => exact h.elim
      | _ => trivial
  | _ => trivial

/-- A question that stores no instance for a machine. -/
def StoresElsewhere (owner : Nat) (id : String) (request : Request fleetSignature) : Prop :=
  ∀ found ttl, request ≠ .write ⟨owner, .instances⟩ (Fleet.instanceKey id) found ttl

end Request

/-- A call in which nothing changes spares every machine. -/
theorem Cloud.Inventory.spares_serve {id : String} (inv : Inventory) (today : Instant)
    {call : Cloud.Call} (h : call.operation ∉ Cloud.Operation.changing) :
    Spares id inv (inv.serve today call).2 := by
  rw [serve]
  split
  next => exact spares_of_eq rfl rfl
  next =>
    cases call with
    | listMachines q => exact spares_listMachines q inv
    | queryJob jobId =>
        change Spares id inv (inv.queryJob jobId).2
        rw [queryJob]
        split
        · exact spares_of_eq rfl rfl
        · exact spares_of_eq rfl rfl
        · split <;> exact spares_of_eq rfl rfl
    | deployMachine r => exact absurd (by simp [Cloud.Call.operation, Cloud.Operation.changing]) h
    | destroyMachine r => exact absurd (by simp [Cloud.Call.operation, Cloud.Operation.changing]) h
    | createTags w => exact absurd (by simp [Cloud.Call.operation, Cloud.Operation.changing]) h
    | deleteTags r => exact absurd (by simp [Cloud.Call.operation, Cloud.Operation.changing]) h
    | _ => exact spares_of_eq rfl rfl

namespace Event

variable {e : Event fleetWorld} {id : String}

/-- A turn that leaves the one machine of an identifier and its tags alone; the machine may come
up. -/
def Spares (id : String) (e : Event fleetWorld) : Prop :=
  Inventory.Spares id e.before.world.cloud e.after.world.cloud

theorem spares_of_looks (h : e.request.Looks) : e.Spares id := by
  obtain ⟨i, s, request⟩ := e
  cases request with
  | act action =>
      cases action with
      | beginCall call =>
          obtain ⟨machines, tags⟩ := s.world.beginCall_sameMachines call
          exact Inventory.spares_of_eq machines tags
      | serveCall call => exact s.world.cloud.spares_serve s.world.today h
      | change f => exact h.elim
      | _ => exact Inventory.spares_of_eq rfl rfl
  | _ => exact Inventory.spares_of_eq rfl rfl

/-- What is served in a turn is carried out, unless it fails as a whole. -/
theorem carriedOut {call : Cloud.Call} {reply : call.Reply}
    (h : e.exchange = ⟨.act (.serveCall call), .ok reply⟩) :
    e.before.world.cloud.carryOut e.before.world.today call =
      (.ok reply, e.after.world.cloud) := by
  have hrequest : e.request = .act (.serveCall call) := congrArg Exchange.request h
  have hserved := served h
  rw [after_served hrequest]
  rw [Inventory.serve] at hserved ⊢
  split at hserved
  next => cases hserved
  next =>
    rw [← hserved]

end Event

namespace Event

variable {e : Event fleetWorld} {id : String} {vm : VirtualMachine} {tags : List ResourceTag}

/-- A machine that is deployed under a fresh identifier. -/
theorem hosts_of_deployed {request : Cloud.DeployRequest} {reply : Cloud.DeployReply}
    (h : e.exchange = ⟨.act (.serveCall (.deployMachine request)), .ok reply⟩)
    (fresh : e.before.world.cloud.machinesOf reply.id = [])
    (untagged : e.before.world.cloud.tagsOf reply.id = []) :
    (∃ vm, Hosts reply.id vm [] e.after.world.cloud) ∧ reply.id ≠ "" ∧ '/' ∉ reply.id.toList := by
  obtain ⟨hreply, hafter⟩ := Prod.mk.inj (carriedOut h)
  have hreply : (e.before.world.cloud.deploy e.before.world.today request).1 = reply :=
    Except.ok.inj hreply
  subst hreply
  rw [← hafter]
  exact ⟨⟨_, Cloud.Inventory.hosts_deploy _ request fresh untagged⟩,
    Cloud.Inventory.id_deploy _ request _⟩

/-- A machine that is found. -/
theorem hosts_of_found {page : Cloud.Page VirtualMachine}
    (h : e.exchange = ⟨.act (.serveCall (lookup id)), .ok page⟩)
    (hosts : Hosts id vm tags e.before.world.cloud) :
    ∃ after, page.items = [{ after with tags }] ∧ Hosts id after tags e.after.world.cloud := by
  obtain ⟨hpage, hafter⟩ := Prod.mk.inj (carriedOut h)
  obtain ⟨after, hitems, alone, -⟩ := hosts.lookup
  rw [Except.ok.inj hpage] at hitems
  refine ⟨after, hitems, ?_⟩
  rw [← hafter]
  exact ⟨.inl alone, hosts.tags⟩

/-- The tags of a machine that had none, once somebody has asked for others to be set on it. -/
def tagsSet (id : String) (written : Table String) : Except Cloud.CallError Unit → List ResourceTag
  | .ok _ => written.entries.map (tagOn .machine id)
  | .error _ => []

theorem resourceType_of_mem_tagsSet {written : Table String} {result : Except Cloud.CallError Unit}
    {t : ResourceTag} (h : t ∈ tagsSet id written result) :
    t.resourceType = Cloud.ResourceKind.machine.name := by
  cases result with
  | ok _ =>
      obtain ⟨entry, -, rfl⟩ := List.mem_map.1 h
      rfl
  | error _ => cases h

/-- A machine that is tagged, or is not since the call fails. -/
theorem hosts_of_tagged {written : Table String} {result : Except Cloud.CallError Unit}
    (h : e.exchange = ⟨.act (.serveCall (.createTags ⟨[id], .machine, written⟩)), result⟩)
    (hosts : Hosts id vm [] e.before.world.cloud) :
    Hosts id vm (tagsSet id written result) e.after.world.cloud := by
  have hrequest := congrArg Exchange.request h
  have hserved := served h
  rw [after_served hrequest]
  rw [Inventory.serve] at hserved ⊢
  split at hserved
  next message hfails =>
    subst hserved
    exact hosts
  next hworks =>
    have hdone : Except.ok () = result := hserved
    subst hdone
    exact ⟨hosts.machine, Cloud.Inventory.tagsOf_createTags .machine written hosts.tags⟩

end Event

section Traces

variable {trace first second : List (Exchange fleetSignature)}

/-- Only job queries are answered as they begin. -/
def Delayed (trace : List (Exchange fleetSignature)) : Prop :=
  ∀ (call : Cloud.Call) (reply : Except Cloud.CallError call.Reply),
    call.operation ≠ .queryJob → ⟨.act (.beginCall call), .answered reply⟩ ∉ trace

theorem delayed_traceOf (i : Nat) (events : List (Event fleetWorld)) :
    Delayed (traceOf i events) := by
  intro call reply hcall hx
  obtain ⟨e, -, he⟩ := exists_turn_of_mem hx
  exact Event.opening_ne_answered hcall he

theorem Delayed.sub (h : Delayed second) (hsub : ∀ x ∈ first, x ∈ second) : Delayed first :=
  fun call reply hcall hx => h call reply hcall (hsub _ hx)

/-- A call that is not answered as it begins ends by being served. -/
theorem served_of_ends_call {call : Cloud.Call} {reply : Except Cloud.CallError call.Reply}
    (h : Ends (Program.call call) trace reply) (hcall : call.operation ≠ .queryJob)
    (delayed : Delayed trace) :
    ∃ before, trace = before ++ [⟨.act (.serveCall call), reply⟩] ∧
      ∀ x ∈ before, x.request.Looks := by
  rcases course_of_call h with rfl | ⟨latency, start, wake, rfl⟩
  · exact absurd (List.mem_singleton_self _) (delayed call reply hcall)
  · refine ⟨[_, _, _], rfl, fun x hx => ?_⟩
    simp only [List.mem_cons, List.not_mem_nil, or_false] at hx
    rcases hx with rfl | rfl | rfl <;> trivial

theorem Answered.served {call : Cloud.Call} {reply : Except Cloud.CallError call.Reply}
    (h : Answered call reply trace) (hcall : call.operation ≠ .queryJob)
    (delayed : Delayed trace) : ⟨.act (.serveCall call), reply⟩ ∈ trace :=
  h.resolve_left (delayed call reply hcall)

/-- The steps by which a machine is registered: it is deployed, found running, tagged and
remembered. -/
inductive Registers (f : Fleet) (tags : Table String) (trace : List (Exchange fleetSignature))
    (launched : Instance) : Prop
  | intro (before rest : List (Exchange fleetSignature)) (request : Cloud.DeployRequest)
      (reply : Cloud.DeployReply) (tagged : Except Cloud.CallError Unit)
      {look mark : List (Exchange fleetSignature)} {page : Cloud.Page VirtualMachine}
      {vm : VirtualMachine} (looked : ∀ x ∈ look, x.request.Looks)
      (head : page.items.head? = some vm) (running : vm.state = VirtualMachine.running)
      (marked : ∀ x ∈ mark, x.request.Looks) (remembered : launched = .ofMachine vm tags)
      (rested : ∀ x ∈ rest, x.request.Looks ∧ x.request.edits? = none)
      (parts : trace = before ++ ⟨.act (.serveCall (.deployMachine request)), .ok reply⟩ ::
        (look ++ ⟨.act (.serveCall (lookup reply.id)), .ok page⟩ ::
          (mark ++ ⟨.act (.serveCall (.createTags ⟨[vm.id], .machine, tags⟩)), tagged⟩ ::
            ⟨.write ⟨f.owner, .instances⟩ (Fleet.instanceKey launched.id) launched f.cacheTtl, ()⟩ ::
              rest)))

theorem Registers.extend {f : Fleet} {tags : Table String} {launched : Instance}
    (h : Registers f tags trace launched) (first : List (Exchange fleetSignature))
    (rested : ∀ x ∈ second, x.request.Looks ∧ x.request.edits? = none) :
    Registers f tags (first ++ (trace ++ second)) launched := by
  cases h with
  | intro before rest request reply tagged looked head running marked remembered rested' parts =>
      refine .intro (first ++ before) (rest ++ second) request reply tagged looked head running
        marked remembered (List.forall_mem_append.2 ⟨rested', rested⟩) ?_
      rw [parts]
      simp

end Traces

section Launch

variable {f : Fleet} {c : NodeClass} {claim : NodeClaim} {token : Token} {launched : Instance}
  {trace : List (Exchange fleetSignature)}

theorem registers_of_deployment {request : Cloud.DeployRequest}
    (h : Ends (f.deployment c claim token request).run trace (.ok launched))
    (delayed : Delayed trace) : Registers f (f.machineTags c claim) trace launched := by
  obtain ⟨_, afterLog, rfl, hdeploying⟩ := ends_lift_request_bind.1 h
  rcases ends_tryCall_bind hdeploying with
    ⟨e, he, _⟩ | ⟨reply, deploy, afterDeploy, rfl, deployed, hfinishing⟩
  · cases he
  obtain ⟨_, job, afterJob, rfl, hjob, hpolling⟩ := ends_run_bind_ok hfinishing
  obtain ⟨_, afterPolling, rfl, hwaiting⟩ := ends_lift_request_bind.1 hpolling
  obtain ⟨vm, wait, afterWait, rfl, hwait, hregistering⟩ := ends_run_bind_ok hwaiting
  obtain ⟨_, hregister, hlaunched⟩ := ends_run_lift.1 hregistering
  obtain rfl := Except.ok.inj hlaunched
  obtain ⟨tagged, tag, afterTag, rfl, htag, hremember⟩ := ends_bind.1 hregister
  obtain ⟨_, rest, rfl, hdone⟩ := ends_request_bind.1 hremember
  obtain ⟨rfl, rfl⟩ := Routine.ends_pure.1 hdone
  obtain ⟨before, rfl, -⟩ := served_of_ends_call deployed (by simp [Cloud.Call.operation])
    (delayed.sub fun x hx => by simp [hx])
  obtain ⟨mark, rfl, marked⟩ := served_of_ends_call htag (by simp [Cloud.Call.operation])
    (delayed.sub fun x hx => by simp [hx])
  have jobLooks : ∀ x ∈ job, x.request.Looks := fun x hx => Request.looks_of_callsOnly (by decide)
    (((callsOnly (f.obeys_finishJob _ _ token)).ends hjob).1 x hx)
  have waitLooks : ∀ x ∈ wait, x.request.Looks := fun x hx => Request.looks_of_callsOnly (by decide)
    (((callsOnly (f.obeys_awaitState _ _ token)).ends hwait).1 x hx)
  obtain ⟨page, hanswered, head, running⟩ := f.ends_awaitState token hwait
  have hserved := hanswered.served (by simp [Cloud.Call.operation])
    (delayed.sub fun x hx => by simp [hx])
  obtain ⟨early, late, rfl⟩ := List.append_of_mem hserved
  obtain ⟨earlyLooks, lateLooks⟩ := List.forall_mem_append.1 waitLooks
  have looked : ∀ x ∈ job ++ (⟨.act (.log claim.name .polling), ()⟩ :: early), x.request.Looks :=
    List.forall_mem_append.2 ⟨jobLooks, List.forall_mem_cons.2 ⟨trivial, earlyLooks⟩⟩
  have tagLooks : ∀ x ∈ late ++ mark, x.request.Looks :=
    List.forall_mem_append.2 ⟨(List.forall_mem_cons.1 lateLooks).2, marked⟩
  exact .intro (⟨.act (.log claim.name .deploying), ()⟩ :: before) [] request reply tagged looked
    head running tagLooks rfl (List.forall_mem_nil _) (by simp)

/-- A launch that succeeds registers its machine with the tags of its claim. -/
theorem registers_of_createInstance {candidates : List InstanceType}
    (h : Ends (f.createInstance c claim candidates token).run trace (.ok launched))
    (delayed : Delayed trace) : Registers f (f.machineTags c claim) trace launched := by
  cases Fleet.planCourse_of_createInstance h with
  | @planned plan _ _ _ _ deployed parts =>
      subst parts
      have hregisters := registers_of_deployment deployed (delayed.sub fun x hx => by simp [hx])
      have rested : ∀ x ∈ [(⟨.act (.log claim.name (finalState (.ok launched))), ()⟩ :
          Exchange fleetSignature)], x.request.Looks ∧ x.request.edits? = none :=
        List.forall_mem_singleton.2 ⟨trivial, rfl⟩
      have hextended := hregisters.extend (⟨.act (.log claim.name .requested), ()⟩ ::
        ⟨.isCancelled token, false⟩ :: plan) rested
      simpa using hextended

end Launch

/-- What the cloud answers about a machine with certain tags, unless a call fails. Of other machines
only their identifiers matter: none is deployed under that of the machine, and a look finds none under
another one. -/
def findsMachine (vm : VirtualMachine) (tags : List ResourceTag) :
    (action : Action) → action.Result → Prop
  | .beginCall call, opening => call.operation ≠ .queryJob → ∃ latency, opening = .delayed latency
  | .serveCall (.deployMachine _), reply => ∀ deployed, reply = .ok deployed → deployed.id ≠ vm.id
  | .serveCall (.listMachines q), reply => ∀ page, reply = .ok page →
      (q = { id := some vm.id } → page.items = [{ vm with tags }]) ∧
      (q = {} → (page.items.filter fun other => other.id = vm.id) = [{ vm with tags }]) ∧
      ∀ id, q = { id := some id } → ∀ found ∈ page.items, found.id = id
  | .serveCall (.listTags q), reply =>
      q = ⟨vm.id, .machine⟩ → ∀ listed, reply = .ok listed → listed = tags
  | _, _ => True

/-- The tags of a table as they are set on a machine. -/
def tagsOn (vm : VirtualMachine) (tags : Table String) : List ResourceTag :=
  tags.entries.map (tagOn .machine vm.id)

section Guarding

/-- Anything may be stored, but of the instances that an owner remembers under an identifier only those
that are admitted. -/
def storesAdmitted (owner : Nat) (id : String) (admits : Instance → Prop) :
    (cache : CacheId) → String → cache.Value → Prop
  | ⟨other, .instances⟩, key, found => other = owner → key = Fleet.instanceKey id → admits found
  | _, _, _ => True

variable {owner : Nat} {id : String} {admits : Instance → Prop}

theorem storesAdmitted_of_other {cache : CacheId} {key : String} {value : cache.Value}
    (other : cache = ⟨owner, .instances⟩ → key ≠ Fleet.instanceKey id) :
    storesAdmitted owner id admits cache key value := by
  obtain ⟨_, kind⟩ := cache
  cases kind with
  | instances =>
      rintro rfl rfl
      exact absurd rfl (other rfl)
  | _ => trivial

namespace Reliance

/-- A reliance that guards what an owner remembers under an identifier. -/
def guarding (owner : Nat) (id : String) (admits : Instance → Prop)
    (results : (action : Action) → action.Result → Prop) : Reliance fleetSignature where
  stores := storesAdmitted owner id admits
  results := results

variable {results : (action : Action) → action.Result → Prop}

theorem permits_guarding {request : Request fleetSignature}
    (h : request.StoresElsewhere owner id) :
    (guarding owner id admits results).Permits request := by
  cases request with
  | write cache key value ttl =>
      refine storesAdmitted_of_other ?_
      rintro rfl rfl
      exact h value ttl rfl
  | _ => trivial

theorem holds_guarding_iff {s : FleetState} : (guarding owner id admits results).Holds s ↔
    ∀ entry, (s.caches ⟨owner, .instances⟩).entries.get? (Fleet.instanceKey id) = some entry →
      admits entry.value := by
  constructor
  · exact fun h entry hentry => h _ _ entry hentry rfl rfl
  · intro h cache key entry hentry
    by_cases hother : cache = ⟨owner, .instances⟩ → key ≠ Fleet.instanceKey id
    · exact storesAdmitted_of_other hother
    · obtain ⟨rfl, hkey⟩ := Classical.not_imp.1 hother
      obtain rfl := not_not.1 hkey
      exact fun _ _ => h entry hentry

end Reliance

end Guarding

/-- The reliance of those who find a machine in a cache or in the cloud, or launch another one. -/
def machineReliance (owner : Nat) (vm : VirtualMachine) (tags : Table String) :
    Reliance fleetSignature :=
  .guarding owner vm.id (· = .ofMachine vm tags) (findsMachine vm (tagsOn vm tags))

/-- The cloud has a running machine with certain tags, and what is stored for it is the machine with
these tags. -/
structure Registered (owner : Nat) (vm : VirtualMachine) (tags : Table String) (s : FleetState) :
    Prop where
  hosts : Hosts vm.id vm (tagsOn vm tags) s.world.cloud
  stored : (machineReliance owner vm tags).Holds s

/-- A turn that leaves a machine and its tags alone and stores no instance for it. -/
structure Event.LeavesAlone (owner : Nat) (id : String) (e : Event fleetWorld) : Prop where
  spares : e.Spares id
  elsewhere : e.request.StoresElsewhere owner id

/-- In a turn a machine is deployed under a fresh identifier, and in those that follow nobody else
touches it. -/
structure Undisputed (owner j : Nat) (id : String) (e : Event fleetWorld)
    (later : List (Event fleetWorld)) : Prop where
  fresh : e.before.world.cloud.machinesOf id = []
  untagged : e.before.world.cloud.tagsOf id = []
  alone : ∀ e' ∈ later, e'.routine ≠ j → e'.LeavesAlone owner id

section History

variable {f : Fleet} {tags : Table String} {launched : Instance} {j : Nat}
  {events : List (Event fleetWorld)}

/-- Turns of somebody who only looks, and of others who leave a machine alone, spare it. -/
theorem Undisputed.spares {owner : Nat} {id : String} {e : Event fleetWorld}
    {later part : List (Event fleetWorld)} (h : Undisputed owner j id e later)
    (sub : ∀ e' ∈ part, e' ∈ later) (looks : ∀ x ∈ traceOf j part, x.request.Looks) :
    ∀ e' ∈ part, e'.Spares id := by
  intro e' he'
  by_cases own : e'.routine = j
  · exact Event.spares_of_looks (looks e'.exchange (List.mem_map_of_mem (mem_turnsOf.2 ⟨he', own⟩)))
  · exact (h.alone e' (sub e' he') own).spares

/-- Whoever is the only one to take turns is undisputed on a cloud without machines and tags. -/
theorem undisputed_of_sole {owner : Nat} (sole : ∀ e ∈ events, e.routine = j)
    (bare : ∀ e ∈ events, ∀ request, e.request = .act (.serveCall (.deployMachine request)) →
      e.before.world.cloud.machines = [] ∧ e.before.world.cloud.tags = [])
    {first later : List (Event fleetWorld)} {e : Event fleetWorld} {request : Cloud.DeployRequest}
    {reply : Cloud.DeployReply} (cut : events = first ++ e :: later)
    (deploys : e.exchange = ⟨.act (.serveCall (.deployMachine request)), .ok reply⟩) :
    Undisputed owner j reply.id e later := by
  subst cut
  obtain ⟨machines, tags⟩ := bare e (by simp) request (congrArg Exchange.request deploys)
  refine ⟨?_, ?_, fun other hother hturn => absurd (sole other (by simp [hother])) hturn⟩
  · rw [Inventory.machinesOf, machines]
    rfl
  · rw [Inventory.tagsOf, tags]
    rfl

/-- Once a machine is remembered, nothing else is stored for it until somebody stores it. -/
theorem Steps.stored_after {α : Type} {owner ttl : Nat} {vm : VirtualMachine}
    {c d : Config fleetWorld α} {first second : List (Event fleetWorld)} {e : Event fleetWorld}
    (h : Steps c (first ++ e :: second) d)
    (remembered : e.exchange = ⟨.write ⟨owner, .instances⟩ (Fleet.instanceKey vm.id)
      (.ofMachine vm tags) ttl, ()⟩)
    (permits : ∀ e' ∈ second, (machineReliance owner vm tags).Permits e'.request) :
    (machineReliance owner vm tags).Holds d.shared := by
  obtain ⟨m, next, -, -, -, -, hrest⟩ := h.split rfl
  obtain ⟨i, s, request⟩ := e
  obtain ⟨rfl, -⟩ := Exchange.mk.inj remembered
  have hstored : (machineReliance owner vm tags).Holds
      (m.turn i (.write ⟨owner, .instances⟩ (Fleet.instanceKey vm.id) (.ofMachine vm tags) ttl)
        next).shared := by
    refine Reliance.holds_guarding_iff.2 fun entry hentry => ?_
    rw [Config.caches_turn m i _ next, m.shared.caches_answer_write i, Cache.entry_set, if_pos rfl]
      at hentry
    obtain rfl := Option.some.inj hentry
    rfl
  exact hrest.holds hstored permits

/-- A machine that was registered in a history, undisputed, is there in its last state. Its tags are
those that were to be set, or it has none if that has failed; it is remembered with them either way. -/
theorem Steps.registered_as {α : Type} {c d : Config fleetWorld α} (h : Steps c events d)
    (registers : Registers f tags (traceOf j events) launched)
    (undisputed : ∀ first e later request reply, events = first ++ e :: later → e.routine = j →
      e.exchange = ⟨.act (.serveCall (.deployMachine request)), .ok reply⟩ →
        Undisputed f.owner j reply.id e later) :
    ∃ (vm : VirtualMachine) (result : Except Cloud.CallError Unit), launched = .ofMachine vm tags ∧
      vm.state = VirtualMachine.running ∧ (vm.id ≠ "" ∧ '/' ∉ vm.id.toList) ∧
      (⟨.act (.serveCall (.createTags ⟨[vm.id], .machine, tags⟩)), result⟩ :
        Exchange fleetSignature) ∈ traceOf j events ∧
      Hosts vm.id vm (Event.tagsSet vm.id tags result) d.shared.world.cloud ∧
      (machineReliance f.owner vm tags).Holds d.shared := by
  obtain ⟨_, rest, request, reply, result, looked, head, running, marked, rfl, rested, parts⟩ :=
    registers
  rename_i look mark page vm
  -- The history is cut where the machine is deployed, found, tagged and remembered.
  obtain ⟨first, deploying, later, rfl, ownDeploy, deployed, -, hlater⟩ := exists_turn parts
  obtain ⟨waiting, looking, later, rfl, -, found, hwaiting, hlater⟩ := exists_turn hlater
  obtain ⟨marking, tagging, later, rfl, ownTag, setTags, hmarking, hlater⟩ := exists_turn hlater
  have hempty := hlater.trans (List.nil_append _).symm
  obtain ⟨between, remembering, last, rfl, -, remembered, -, hlast⟩ := exists_turn hempty
  have mine := undisputed first deploying _ request reply rfl ownDeploy deployed
  have lookedWaiting : ∀ e ∈ waiting, e.Spares reply.id :=
    mine.spares (fun e he => by simp [he]) (hwaiting ▸ looked)
  have lookedMarking : ∀ e ∈ marking, e.Spares reply.id :=
    mine.spares (fun e he => by simp [he]) (hmarking ▸ marked)
  have lookedLater : ∀ e ∈ between ++ remembering :: last, e.Spares reply.id := by
    refine mine.spares (fun e he => ?_) ?_
    · exact List.mem_append_right _ (List.mem_cons_of_mem _
        (List.mem_append_right _ (List.mem_cons_of_mem _ he)))
    · rw [hlater]
      exact List.forall_mem_cons.2 ⟨trivial, fun x hx => (rested x hx).1⟩
  -- Without tags until it is found running, then tagged, then only looked at.
  obtain ⟨⟨fresh, hostsFresh⟩, hid⟩ := Event.hosts_of_deployed deployed mine.fresh mine.untagged
  have hostsLooking := h.holds_until (P := fun w : WorldState => Hosts reply.id fresh [] w.cloud)
    hostsFresh fun e he hosts => hosts.spares (lookedWaiting e he)
  obtain ⟨after, hitems, hostsFound⟩ := Event.hosts_of_found found hostsLooking
  rw [hitems] at head
  obtain rfl := Option.some.inj head
  have hafter := hostsFound.id_eq
  rw [← hafter] at mine hid hostsFound lookedMarking lookedLater
  have h' : Steps c ((first ++ deploying :: waiting) ++ looking ::
      (marking ++ tagging :: (between ++ remembering :: last))) d := by simpa using h
  have hostsTagging := h'.holds_until (P := fun w : WorldState => Hosts after.id after [] w.cloud)
    hostsFound fun e he hosts => hosts.spares (lookedMarking e he)
  have hostsTagged := Event.hosts_of_tagged setTags hostsTagging
  have h'' : Steps c ((first ++ deploying :: (waiting ++ looking :: marking)) ++ tagging ::
      (between ++ remembering :: last)) d := by simpa using h
  obtain ⟨-, hostsLast⟩ := h''.invariant_after
    (P := fun w : WorldState => Hosts after.id after (Event.tagsSet after.id tags result) w.cloud)
    hostsTagged fun e he hosts => hosts.spares (lookedLater e he)
  have asked : (⟨.act (.serveCall (.createTags ⟨[after.id], .machine, tags⟩)), result⟩ :
      Exchange fleetSignature) ∈ traceOf j (first ++ deploying :: (waiting ++ looking ::
        (marking ++ tagging :: (between ++ remembering :: last)))) := by
    rw [← setTags]
    exact List.mem_map_of_mem (mem_turnsOf.2 ⟨by simp, ownTag⟩)
  refine ⟨after, result, rfl, running, hid, asked, hostsLast, ?_⟩
  have hcut : first ++ deploying :: (waiting ++ looking :: (marking ++ tagging ::
      (between ++ remembering :: last))) = (first ++ deploying :: (waiting ++ looking ::
        (marking ++ tagging :: between))) ++ remembering :: last := by simp
  refine (hcut ▸ h).stored_after remembered fun e he => ?_
  by_cases own : e.routine = j
  · have hx : e.exchange ∈ rest := hlast ▸ List.mem_map_of_mem (mem_turnsOf.2 ⟨he, own⟩)
    exact Reliance.permits_of_edits?_eq_none _ (rested _ hx).2
  · exact Reliance.permits_guarding (mine.alone e (by simp [he]) own).elsewhere

/-- A machine that was registered in a history, undisputed and with its tags set, is registered in
its last state. -/
theorem Steps.registered {α : Type} {c d : Config fleetWorld α} (h : Steps c events d)
    (registers : Registers f tags (traceOf j events) launched)
    (undisputed : ∀ first e later request reply, events = first ++ e :: later → e.routine = j →
      e.exchange = ⟨.act (.serveCall (.deployMachine request)), .ok reply⟩ →
        Undisputed f.owner j reply.id e later)
    (tagged : ∀ e ∈ events, ∀ w result, e.routine = j →
      e.exchange = ⟨.act (.serveCall (.createTags w)), result⟩ → result = .ok ()) :
    ∃ vm : VirtualMachine, launched = .ofMachine vm tags ∧ vm.state = VirtualMachine.running ∧
      (vm.id ≠ "" ∧ '/' ∉ vm.id.toList) ∧ Registered f.owner vm tags d.shared := by
  obtain ⟨vm, result, hlaunched, running, hid, asked, hosts, stored⟩ :=
    h.registered_as registers undisputed
  obtain ⟨e, he, hexchange⟩ := exists_turn_of_mem asked
  obtain rfl := tagged e (mem_turnsOf.1 he).1 _ result (mem_turnsOf.1 he).2 hexchange
  exact ⟨vm, hlaunched, running, hid, hosts, stored⟩

end History

end NodeFleet
