import NodeFleet.Proofs.Fleet.Agreement
import NodeFleet.Proofs.Fleet.Storing
import NodeFleet.Proofs.ProviderId

/-!
# A created node is read back

The claim of a created node is rebuilt from its machine in three ways: from the instance that the
launch remembers, from a look at the machine and its tags, and from a listing of all machines. As
long as nobody changes the machine or its tags, all three give the claim that was created, apart from
its annotations.
-/

namespace NodeFleet

open Routine (Ends)
open Cloud (Inventory VirtualMachine)
open Cloud.Inventory (Hosts)

namespace Event

variable {e : Event fleetWorld} {owner : Nat} {vm : VirtualMachine} {tags : Table String}

/-- In a turn that leaves a running machine alone, a cloud that has it answers accordingly. -/
theorem yields_of_hosts (hosts : Hosts vm.id vm (tagsOn vm tags) e.before.world.cloud)
    (running : vm.state = VirtualMachine.running) (spares : e.Spares vm.id) :
    e.Yields (machineReliance owner vm tags) := by
  intro action haction
  cases action with
  | beginCall call =>
      intro hcall
      exact ⟨_, congrArg Prod.fst (e.before.world.beginCall_of_ne hcall)⟩
  | serveCall call =>
      have hafter := hosts.spares spares
      rw [after_served haction] at hafter
      change findsMachine vm (tagsOn vm tags) (.serveCall call)
        (e.before.world.cloud.serve e.before.world.today call).1
      rw [Inventory.serve] at hafter ⊢
      cases call with
      | deployMachine request =>
          intro deployed hdeployed
          split at hdeployed
          next => cases hdeployed
          next served =>
            obtain rfl := Except.ok.inj hdeployed
            rw [served] at hafter
            exact hosts.id_deploy_ne _ _ hafter
      | listMachines q =>
          intro page hpage
          split at hpage
          next => cases hpage
          next =>
            obtain rfl := Except.ok.inj hpage
            have hlisted := hosts.spares (Inventory.spares_listMachines q _)
            have alone := hlisted.machinesOf_eq running
            refine ⟨?_, ?_, ?_⟩
            · rintro rfl
              rw [← hosts.tags]
              exact Inventory.items_lookup alone
            · rintro rfl
              rw [← hosts.tags]
              exact Inventory.filter_items_listMachines alone
            · rintro id rfl found hfound
              exact Inventory.id_of_mem_lookup hfound
      | listTags q =>
          rintro rfl listed hlisted
          split at hlisted
          next => cases hlisted
          next =>
            change e.before.world.cloud.listTags ⟨vm.id, .machine⟩ = .ok listed at hlisted
            rcases Inventory.listTags_of_tagsOf hosts.tags with hok | ⟨-, _, herror⟩
            · exact Except.ok.inj (hlisted.symm.trans hok)
            · rw [herror] at hlisted
              cases hlisted
      | _ => trivial
  | _ => trivial

end Event

/-- A party meets a demand of a kind and takes its first turn after a history. -/
def Begins (kind : Demand → Prop) (parties : List Party) (events : List (Event fleetWorld))
    (k : Nat) : Prop :=
  traceOf k events = [] ∧ ∃ o demand, parties[k]? = some (.serves o demand) ∧ kind demand

/-- In a history a provisioner creates a node for a claim of a stored node class, sets its tags, and
is the only one to touch its machine. -/
structure CreatedAlone (o : Provisioner) (parties : List Party) (events : List (Event fleetWorld))
    (d : Config fleetWorld Outcome) (j : Nat) (c : NodeClass) (claim node : NodeClaim) : Prop where
  launch : parties[j]? = some (.serves o (.create claim))
  created : d.routines[j]? = some (.done (.served (.create claim) (.ok node)))
  stored : ∃ name, claim.nodeClassRef = some name ∧ ∀ e ∈ turnsOf j events,
    e.request = .act (.nodeClass name) → e.before.world.nodeClasses.get? name = some c
  unreserved : ∀ key ∈ Tag.reserved, c.spec.tags.get? key = none
  tagged : ∀ e ∈ events, ∀ w result, e.routine = j →
    e.exchange = ⟨.act (.serveCall (.createTags w)), result⟩ → result = .ok ()
  undisputed : ∀ first e later request reply, events = first ++ e :: later → e.routine = j →
    e.exchange = ⟨.act (.serveCall (.deployMachine request)), .ok reply⟩ →
      Undisputed o.fleet.owner j reply.id e later

/-- In a later history nobody changes a machine or its tags, and an instance is stored for it only by
those who meet a demand from then on. -/
structure KeptAlone (owner : Nat) (id : String) (parties : List Party)
    (earlier later : List (Event fleetWorld)) : Prop where
  spares : ∀ e ∈ later, ¬ Begins Demand.Looks parties earlier e.routine → e.Spares id
  elsewhere : ∀ e ∈ later, ¬ Begins (fun _ => True) parties earlier e.routine →
    e.request.StoresElsewhere owner id

/-- The calls that look for machines and for the tags of one of them succeed. -/
structure ReadsSucceed (id : String) (trace : List (Exchange fleetSignature)) : Prop where
  looks : ∀ q e, ⟨.act (.serveCall (.listMachines q)), .error e⟩ ∉ trace
  tags : ∀ e, ⟨.act (.serveCall (.listTags ⟨id, .machine⟩)), .error e⟩ ∉ trace

/-- A party that begins after a history meets a demand in a later one with an answer. -/
structure MetAfter (o : Provisioner) (demand : Demand) (parties : List Party)
    (earlier : List (Event fleetWorld)) (d : Config fleetWorld Outcome) (k : Nat)
    (answer : demand.Answer) : Prop where
  party : parties[k]? = some (.serves o demand)
  idle : traceOf k earlier = []
  met : d.routines[k]? = some (.done (.served demand answer))

/-- A listing of nodes with one entry for a machine. -/
def ListsOnce (id : String) (node : NodeClaim) (trace : List (Exchange fleetSignature))
    (r : Except NodeError (List NodeClaim)) : Prop :=
  ∃ own instances today, trace = own ++ [⟨.act .today, today⟩] ∧
    Ends Fleet.listInstances.run own (.ok instances) ∧
    r = .ok (instances.map fun i => i.toClaim today) ∧
    ((instances.filter fun i => i.id = id).map fun i => i.toClaim today) = [node]

section Creation

variable {o : Provisioner} {c : NodeClass} {claim node : NodeClaim}

/-- A node that was created is registered for its claim with the tags of the claim and of the stored
node class. -/
theorem Provisioner.registers_of_create {name : String} {trace : List (Exchange fleetSignature)}
    (named : claim.nodeClassRef = some name) (h : Ends (o.create claim).run trace (.ok node))
    (delayed : Delayed trace) :
    ∃ c rest launched today, trace = ⟨.act (.nodeClass name), some c⟩ :: rest ∧
      node = ({ launched.toClaim today with nodeClassRef := some c.name }).annotate c ∧
      Registers o.fleet (o.fleet.machineTags c claim) trace launched := by
  obtain ⟨stored, rest, rfl, hrest⟩ := ends_create named h
  rcases hrest with ⟨c, rfl, hlaunch⟩ | ⟨e, he, _⟩
  swap
  · cases he
  rcases ends_launchFor hlaunch with ⟨e, he, _⟩ | ⟨types, listing, launch, -, hlaunched⟩
  · cases he
  rcases hlaunched with ⟨e, he, _⟩ | ⟨launched, today, hnode, rfl, hcreated⟩
  · cases he
  have hregisters := registers_of_createInstance hcreated (delayed.sub fun x hx => by simp [hx])
  have hextended := hregisters.extend (⟨.act (.nodeClass name), some c⟩ :: listing)
    (List.forall_mem_singleton.2 ⟨trivial, rfl⟩ :
      ∀ x ∈ [(⟨.act .today, today⟩ : Exchange fleetSignature)],
        x.request.Looks ∧ x.request.edits? = none)
  exact ⟨c, _, launched, today, rfl, Except.ok.inj hnode, by simpa using hextended⟩

variable {parties : List Party} {s : FleetState} {events : List (Event fleetWorld)}
  {d : Config fleetWorld Outcome} {j : Nat}

/-- The machine of a node that was created is registered, and the claim is rebuilt from it. -/
theorem CreatedAlone.registered (h : CreatedAlone o parties events d j c claim node)
    (steps : Steps (Config.start s (parties.map Party.program)) events d) :
    ∃ vm : VirtualMachine, vm.state = VirtualMachine.running ∧ (vm.id ≠ "" ∧ '/' ∉ vm.id.toList) ∧
      (∀ today, (Instance.ofMachine vm (o.fleet.machineTags c claim)).toClaim today =
        { node with annotations := .empty }) ∧
      Registered o.fleet.owner vm (o.fleet.machineTags c claim) d.shared := by
  obtain ⟨name, named, hstored⟩ := h.stored
  have hcreate := Party.ends_serves (steps.ends (routine_of_party h.launch) h.created)
  obtain ⟨c', rest, launched, today, htrace, rfl, hregisters⟩ :=
    Provisioner.registers_of_create named hcreate (delayed_traceOf j events)
  have hclass : c' = c := by
    obtain ⟨e, he, hexchange⟩ := exists_turn_of_mem (show _ ∈ traceOf j events from
      htrace ▸ List.mem_cons_self)
    obtain ⟨hrequest, hanswer⟩ := Event.stored_of_exchange hexchange
    exact Option.some.inj (hanswer.symm.trans (hstored e he hrequest))
  subst hclass
  obtain ⟨vm, rfl, running, hid, hregistered⟩ := steps.registered hregisters h.undisputed h.tagged
  refine ⟨vm, running, hid, fun other => ?_, hregistered⟩
  have hrunning : (Instance.ofMachine vm (o.fleet.machineTags c' claim)).isRunning = true :=
    decide_eq_true running
  obtain ⟨-, href, -⟩ := o.fleet.toClaim_ofMachine h.unreserved vm today
  rw [Instance.toClaim_of_isRunning hrunning other today]
  change _ = { (Instance.ofMachine vm (o.fleet.machineTags c' claim)).toClaim today with
    nodeClassRef := some c'.name }
  rw [← href]

end Creation

section Later

variable {parties : List Party} {s : FleetState} {first second : List (Event fleetWorld)}
  {m d : Config fleetWorld Outcome} {owner : Nat} {vm : VirtualMachine} {tags : Table String}

/-- A party that has not begun is what it was at the start. -/
theorem Begins.routine {kind : Demand → Prop} {k : Nat} (h : Begins kind parties first k)
    (steps : Steps (Config.start s (parties.map Party.program)) first m) :
    ∃ o demand, kind demand ∧ m.routines[k]? = some (Party.serves o demand).program := by
  obtain ⟨idle, o, demand, hk, hkind⟩ := h
  obtain ⟨q, hq, hpath⟩ := steps.path (routine_of_party hk)
  rw [idle] at hpath
  exact ⟨o, demand, hkind, hpath.eq_of_nil ▸ hq⟩

/-- As long as nobody changes a registered machine or its tags, it stays as it was registered, and
those who meet a demand from then on are answered accordingly. -/
theorem Registered.admits (registered : Registered owner vm tags m.shared)
    (running : vm.state = VirtualMachine.running)
    (steps : Steps (Config.start s (parties.map Party.program)) first m) (later : Steps m second d)
    (kept : KeptAlone owner vm.id parties first second) :
    ∀ e ∈ second, Begins (fun _ => True) parties first e.routine →
      (machineReliance owner vm tags).Admits e.exchange := by
  have spares : ∀ e ∈ second, e.Spares vm.id := by
    intro e he
    by_cases looking : Begins Demand.Looks parties first e.routine
    · obtain ⟨o, demand, hlooks, hroutine⟩ := looking.routine steps
      have hobeys : (Party.serves o demand).program.Obeys Request.Looks fun _ => True :=
        (hlooks.obeys o).map _
      exact Event.spares_of_looks (later.asks_of hroutine hobeys e he rfl)
    · exact kept.spares e he looking
  obtain ⟨hosts, -⟩ := later.invariant
    (P := fun w : WorldState => Hosts vm.id vm (tagsOn vm tags) w.cloud) registered.hosts
    fun e he hosts => hosts.spares (spares e he)
  have keeps (k : Nat) (p : Program Outcome) (begins : Begins (fun _ => True) parties first k)
      (hp : m.routines[k]? = some p) : p.Keeps (machineReliance owner vm tags) fun _ => True := by
    obtain ⟨o, demand, -, hroutine⟩ := begins.routine steps
    rw [hroutine] at hp
    cases hp
    exact (storingOnly owner vm tags).map ((storingOnly owner vm tags).serve o demand) _
  have permits : ∀ e ∈ second, ¬ Begins (fun _ => True) parties first e.routine →
      (machineReliance owner vm tags).Permits e.request :=
    fun e he hnot => Reliance.permits_guarding (kept.elsewhere e he hnot)
  obtain ⟨-, -, admits⟩ := later.keepsAmong registered.stored keeps permits
    fun e he _ => Event.yields_of_hosts (hosts e he) running (spares e he)
  exact admits

/-- What a party goes through that meets a demand after a history. -/
theorem MetAfter.ends {o : Provisioner} {demand : Demand} {k : Nat} {answer : demand.Answer}
    (h : MetAfter o demand parties first d k answer)
    (steps : Steps (Config.start s (parties.map Party.program)) first m)
    (later : Steps m second d) : Ends (o.serve demand) (traceOf k second) answer := by
  have hends := (steps.trans later).ends (routine_of_party h.party) h.met
  rw [traceOf_append k first second, h.idle, List.nil_append] at hends
  exact Party.ends_serves hends

/-- Who meets a demand after a history is answered as the registered machine is. -/
theorem MetAfter.admits {o : Provisioner} {demand : Demand} {k : Nat} {answer : demand.Answer}
    (h : MetAfter o demand parties first d k answer)
    (admits : ∀ e ∈ second, Begins (fun _ => True) parties first e.routine →
      (machineReliance owner vm tags).Admits e.exchange) :
    ∀ x ∈ traceOf k second, (machineReliance owner vm tags).Admits x := by
  intro x hx
  obtain ⟨e, he, rfl⟩ := exists_turn_of_mem hx
  obtain ⟨hsecond, rfl⟩ := mem_turnsOf.1 he
  exact admits e hsecond ⟨h.idle, o, demand, h.party, trivial⟩

end Later

section Answers

variable {o : Provisioner} {node : NodeClaim} {vm : VirtualMachine} {tags : Table String}
  {trace : List (Exchange fleetSignature)}

/-- Looking a machine up yields the claim behind it. -/
theorem Provisioner.get_of_admits {r : Except NodeError NodeClaim} {providerId : String}
    (h : Ends (o.get providerId).run trace r) (hparse : ProviderId.parse providerId = .ok vm.id)
    (hnode : ∀ today, (Instance.ofMachine vm tags).toClaim today = node)
    (admitted : ∀ x ∈ trace, (machineReliance o.fleet.owner vm tags).Admits x)
    (succeed : ReadsSucceed vm.id trace) : r = .ok node := by
  obtain ⟨own, result, rest, rfl, hown, hresult⟩ := Provisioner.ends_get hparse h
  have hfound := getInstance_of_admits hown rfl (List.forall_mem_append.1 admitted).1
    fun e he => succeed.looks _ e (List.mem_append_left _ he)
  obtain ⟨today, hr⟩ := hresult _ hfound
  rw [hr, hnode today]

/-- A listing has one entry for a managed machine, the claim behind it. -/
theorem Provisioner.list_of_admits {owner : Nat} {r : Except NodeError (List NodeClaim)}
    (h : Ends Provisioner.list.run trace r) (managed : tags.contains Tag.managedBy = true)
    (hnode : ∀ today, (Instance.ofMachine vm tags).toClaim today = node)
    (admitted : ∀ x ∈ trace, (machineReliance owner vm tags).Admits x)
    (succeed : ReadsSucceed vm.id trace) : ListsOnce vm.id node trace r := by
  rcases Provisioner.ends_list h with ⟨e, -, hfailed⟩ | ⟨own, instances, today, rfl, hown, hr⟩
  · obtain ⟨_, hok, -⟩ := filter_listInstances hfailed managed admitted (succeed.looks _)
      succeed.tags
    cases hok
  · obtain ⟨listed, hok, hone⟩ := filter_listInstances hown managed
      (List.forall_mem_append.1 admitted).1
      (fun e he => succeed.looks _ e (List.mem_append_left _ he))
      fun e he => succeed.tags e (List.mem_append_left _ he)
    obtain rfl := Except.ok.inj hok
    refine ⟨own, instances, today, rfl, hown, hr, ?_⟩
    rw [hone, List.map_singleton, hnode today]

end Answers

section Readback

variable {o : Provisioner} {c : NodeClass} {claim node : NodeClaim} {parties : List Party}
  {s : FleetState} {first : List (Event fleetWorld)} {m : Config fleetWorld Outcome} {j : Nat}

/-- A node that is created, while nobody else touches its machine, names its claim, its node class
and the node pool of its claim. As long as nobody changes the machine or its tags, whoever looks it
up by its provider identifier or lists all nodes gets the node as it was created, without the
annotations, no matter what has expired meanwhile. From free locks, the histories of fair parties go
on until all have their answers. -/
theorem created_node_is_read_back
    (steps : Steps (Config.start s (parties.map Party.program)) first m)
    (created : CreatedAlone o parties first m j c claim node) :
    (node.name = claim.name ∧ node.nodeClassRef = some c.name ∧
      node.labels.get? Label.nodePool = claim.nodePool?) ∧
    ∃ id, ProviderId.parse node.status.providerId = .ok id ∧
      ∀ (second : List (Event fleetWorld)) (d : Config fleetWorld Outcome), Steps m second d →
        (KeptAlone o.fleet.owner id parties first second →
          (∀ k r, MetAfter o (.get node.status.providerId) parties first d k r →
            ReadsSucceed id (traceOf k second) → r = .ok { node with annotations := .empty }) ∧
          ∀ other k r, MetAfter other .list parties first d k r →
            ReadsSucceed id (traceOf k second) →
            ListsOnce id { node with annotations := .empty } (traceOf k second) r) ∧
        ((∀ cache, s.queues cache = []) → (∀ party ∈ parties, party.Fair) →
          ∃ rest last, Steps d rest last ∧
            ∀ k < parties.length, ∃ outcome, last.routines[k]? = some (.done outcome)) := by
  obtain ⟨vm, running, ⟨hne, hslash⟩, hnode, registered⟩ := created.registered steps
  have hnames := @Fleet.toClaim_ofMachine o.fleet c claim created.unreserved vm (.ofSeconds 0)
  rw [hnode] at hnames
  have hparse : ProviderId.parse node.status.providerId = .ok vm.id := by
    have hprovider := congrArg (fun n => n.status.providerId) (hnode (.ofSeconds 0))
    change _ = node.status.providerId at hprovider
    rw [← hprovider]
    exact ProviderId.parse_format vm.zoneName hne hslash
  have managed : (o.fleet.machineTags c claim).contains Tag.managedBy = true := by
    rw [Table.contains, o.fleet.managedBy_machineTags created.unreserved]
    rfl
  refine ⟨hnames, vm.id, hparse, fun second d later => ⟨fun kept => ?_, fun free fair =>
    (steps.trans later).parties_complete free fair⟩⟩
  have admits := registered.admits running steps later kept
  constructor
  · intro k r met succeed
    exact Provisioner.get_of_admits (met.ends steps later) hparse hnode (met.admits admits)
      succeed
  · intro other k r met succeed
    exact Provisioner.list_of_admits (met.ends steps later) managed hnode
      (met.admits admits) succeed

end Readback

section Stocked

/-- Whether a call was answered with an error. -/
def Exchange.fails : Exchange fleetSignature → Bool
  | ⟨.act (.serveCall _), .error _⟩ => true
  | _ => false

/-- Whether a call deploys a machine. -/
def Cloud.Call.deploys (call : Cloud.Call) : Bool :=
  decide (call.operation = .deployMachine)

/-- Where no call fails, the reads succeed. -/
theorem readsSucceed_of_forall {events : List (Event fleetWorld)} (id : String) (k : Nat)
    (h : ∀ e ∈ events, e.exchange.fails = false) : ReadsSucceed id (traceOf k events) := by
  have hnot {call : Cloud.Call} {e : Cloud.CallError} :
      ⟨.act (.serveCall call), .error e⟩ ∉ traceOf k events := by
    intro hx
    obtain ⟨turn, hturn, hexchange⟩ := exists_turn_of_mem hx
    have hfails := h turn (mem_turnsOf.1 hturn).1
    rw [hexchange] at hfails
    cases hfails
  exact ⟨fun _ _ => hnot, fun _ => hnot⟩

/-- A launch that is the only one to take turns, and none of whose calls fails, creates its node
undisputed on a cloud without machines and tags. -/
theorem createdAlone_of_sole {o : Provisioner} {parties : List Party}
    {events : List (Event fleetWorld)} {d : Config fleetWorld Outcome} {j : Nat} {c : NodeClass}
    {claim node : NodeClaim} {name : String} (launch : parties[j]? = some (.serves o (.create claim)))
    (created : d.routines[j]? = some (.done (.served (.create claim) (.ok node))))
    (named : claim.nodeClassRef = some name)
    (unreserved : ∀ key ∈ Tag.reserved, c.spec.tags.get? key = none)
    (stored : ∀ e ∈ events, e.before.world.nodeClasses.get? name = some c)
    (sole : ∀ e ∈ events, e.routine = j) (served : ∀ e ∈ events, e.exchange.fails = false)
    (bare : ∀ e ∈ events, e.request.serves Cloud.Call.deploys = true →
      e.before.world.cloud.machines = [] ∧ e.before.world.cloud.tags = []) :
    CreatedAlone o parties events d j c claim node where
  launch := launch
  created := created
  stored := ⟨name, named, fun e he _ => stored e (mem_turnsOf.1 he).1⟩
  unreserved := unreserved
  tagged e he w result _ hexchange := by
    cases result with
    | ok _ => rfl
    | error _ =>
        have hfails := served e he
        rw [hexchange] at hfails
        cases hfails
  undisputed _ _ _ _ _ cut _ deploys := by
    refine undisputed_of_sole sole (fun e he request hrequest => ?_) cut deploys
    exact bare e he (by rw [hrequest]; rfl)

/-- Those who only look change nothing. -/
theorem keptAlone_of_looks {owner : Nat} {id : String} {parties : List Party}
    {earlier later : List (Event fleetWorld)}
    (h : ∀ e ∈ later, Begins Demand.Looks parties earlier e.routine) :
    KeptAlone owner id parties earlier later where
  spares e he hnot := absurd (h e he) hnot
  elsewhere e he hnot := by
    obtain ⟨idle, o, demand, party, -⟩ := h e he
    exact absurd ⟨idle, o, demand, party, trivial⟩ hnot

/-- A claim of the stocked node class for a node of a pool. -/
def pooledClaim : NodeClaim :=
  stockedClaim.withLabel Label.nodePool "pool"

/-- The provider identifier of the first machine of the stocked cloud. -/
def pooledId : String := "cloudstack://zone-1/vm-1"

/-- The stocked cloud, with the node class stored as a pass leaves it. -/
def stockedWorld : WorldState :=
  { worldOf stockedCloud with nodeClasses := Table.empty.insert "class" reconciledClass }

/-- A launch for the claim, two who look the node up and one who lists all nodes. -/
def pooledParties : List Party := [
  .serves stockedProvisioner (.create pooledClaim),
  .serves stockedProvisioner (.get pooledId),
  .serves stockedProvisioner (.get pooledId),
  .serves stockedProvisioner .list]

theorem looks_of_pooledParties : ∀ k ∈ [1, 2, 3], ∃ o demand,
    pooledParties[k]? = some (.serves o demand) ∧ demand.Looks := by
  simp only [List.forall_mem_cons]
  exact ⟨⟨_, _, rfl, trivial⟩, ⟨_, _, rfl, trivial⟩, ⟨_, _, rfl, trivial⟩, fun _ h => (nomatch h)⟩

/-- The launch, a look-up out of the cache, one after everything has expired, and a listing. -/
theorem exists_pooled_history : ∃ first m second d node cached fetched listed,
    Steps (Config.start (.initial stockedWorld) (pooledParties.map Party.program)) first m ∧
    CreatedAlone stockedProvisioner pooledParties first m 0 reconciledClass pooledClaim node ∧
    node.status.providerId = pooledId ∧ Steps m second d ∧
    (∀ owner id, KeptAlone owner id pooledParties first second) ∧
    (∀ id k, ReadsSucceed id (traceOf k second)) ∧
    MetAfter stockedProvisioner (.get pooledId) pooledParties first d 1 cached ∧
    MetAfter stockedProvisioner (.get pooledId) pooledParties first d 2 fetched ∧
    MetAfter stockedProvisioner .list pooledParties first d 3 listed := by
  obtain ⟨first, m, steps, ⟨r, hcreated, node, hnode, hid⟩, hfirst, ⟨second, d⟩, hreading, hcached,
      hfetched, hlisted, hsecond⟩ :
      ∃ first m, Steps (Config.start (.initial stockedWorld : FleetState)
          (pooledParties.map Party.program)) first m ∧
        (∃ r ∈ m.answer? 0 (.create pooledClaim), ∃ node ∈ r.toOption,
          node.status.providerId = pooledId) ∧
        (∀ e ∈ first, e.routine = 0 ∧ e.exchange.fails = false ∧
          e.before.world.nodeClasses.get? "class" = some reconciledClass ∧
          (e.request.serves Cloud.Call.deploys = true →
            e.before.world.cloud.machines = [] ∧ e.before.world.cloud.tags = [])) ∧
        ∃ path ∈ m.follow [.turns 1 2, .wait 1000000, .turns 2 14, .turns 3 9],
          (path.2.answer? 1 (.get pooledId)).isSome = true ∧
          (path.2.answer? 2 (.get pooledId)).isSome = true ∧
          (path.2.answer? 3 .list).isSome = true ∧
          ∀ e ∈ path.1, e.routine ∈ [1, 2, 3] ∧ e.exchange.fails = false :=
    Config.exists_steps_of_follow [.turns 0 65, .wait 5000, .turns 0 14] (by decide +kernel)
  have later : Steps m second d := Config.steps_of_follow hreading
  obtain ⟨cached, hcached⟩ := Option.isSome_iff_exists.1 hcached
  obtain ⟨fetched, hfetched⟩ := Option.isSome_iff_exists.1 hfetched
  obtain ⟨listed, hlisted⟩ := Option.isSome_iff_exists.1 hlisted
  have idle {k : Nat} (hk : 0 ≠ k) : traceOf k first = [] :=
    traceOf_eq_nil fun e he hturn => hk ((hfirst e he).1.symm.trans hturn)
  cases r with
  | error e => cases hnode
  | ok node =>
      obtain rfl := Option.some.inj hnode
      have created : CreatedAlone stockedProvisioner pooledParties first m 0 reconciledClass
          pooledClaim node :=
        createdAlone_of_sole rfl (Config.done_of_answer? hcreated) rfl (fun _ _ => rfl)
          (fun e he => (hfirst e he).2.2.1) (fun e he => (hfirst e he).1)
          (fun e he => (hfirst e he).2.1) fun e he => (hfirst e he).2.2.2
      have looks : ∀ e ∈ second, Begins Demand.Looks pooledParties first e.routine := by
        intro e he
        have hreader := (hsecond e he).1
        exact ⟨idle fun hturn => absurd (hturn ▸ hreader) (by decide),
          looks_of_pooledParties _ hreader⟩
      exact ⟨first, m, second, d, node, cached, fetched, listed, steps, created, hid, later,
        fun _ _ => keptAlone_of_looks looks,
        fun id k => readsSucceed_of_forall id k fun e he => (hsecond e he).2,
        ⟨rfl, idle (by decide), Config.done_of_answer? hcached⟩,
        ⟨rfl, idle (by decide), Config.done_of_answer? hfetched⟩,
        ⟨rfl, idle (by decide), Config.done_of_answer? hlisted⟩⟩

/-- The node of the pool is read back by both look-ups and in the listing. -/
theorem created_node_is_read_back_when_pooled : ∃ first m second d node id listed,
    CreatedAlone stockedProvisioner pooledParties first m 0 reconciledClass pooledClaim node ∧
    (node.name = "n1" ∧ node.nodeClassRef = some "class" ∧
      node.labels.get? Label.nodePool = some "pool") ∧
    Steps m second d ∧
    MetAfter stockedProvisioner (.get node.status.providerId) pooledParties first d 1
      (.ok { node with annotations := .empty }) ∧
    MetAfter stockedProvisioner (.get node.status.providerId) pooledParties first d 2
      (.ok { node with annotations := .empty }) ∧
    MetAfter stockedProvisioner .list pooledParties first d 3 listed ∧
    ListsOnce id { node with annotations := .empty } (traceOf 3 second) listed ∧
    ∃ rest last, Steps d rest last ∧
      ∀ k < pooledParties.length, ∃ outcome, last.routines[k]? = some (.done outcome) := by
  obtain ⟨first, m, second, d, node, cached, fetched, listed, steps, created, hid, later, kept,
    succeed, hcached, hfetched, hlisted⟩ := exists_pooled_history
  rw [← hid] at hcached hfetched
  obtain ⟨hnames, id, -, hreads⟩ := created_node_is_read_back steps created
  obtain ⟨hread, completes⟩ := hreads second d later
  obtain ⟨hgets, hlists⟩ := hread (kept _ id)
  have fair : ∀ party ∈ pooledParties, party.Fair := by
    simp only [pooledParties, List.forall_mem_cons]
    exact ⟨trivial, trivial, trivial, trivial, fun _ h => (nomatch h)⟩
  obtain rfl := hgets 1 cached hcached (succeed id 1)
  obtain rfl := hgets 2 fetched hfetched (succeed id 2)
  exact ⟨first, m, second, d, node, id, listed, created, hnames, later, hcached, hfetched, hlisted,
    hlists _ 3 listed hlisted (succeed id 3), completes (fun _ => rfl) fair⟩

end Stocked

end NodeFleet
