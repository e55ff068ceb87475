import NodeFleet.Proofs.Fleet.Describing
import NodeFleet.Proofs.Fleet.Service

/-!
# Remembered instances

A provider creates, gets, lists and deletes instances, one operation after another. Others may do
meanwhile whatever they want, except that they take no machine away, change nothing of its record but
its state and its tags, and remember no instance. Then every instance that the provider remembers,
fresh or not, describes a machine that the cloud has. For an instance is remembered only when its
machine is found, and it is forgotten as soon as its machine is destroyed, before anything else can
fail.
-/

namespace NodeFleet

open Routine (Ends Obeys ends_bind ends_lift_request_bind)
open Program (CallsOnly CallsPlainly callsOnly obeys_call obeys_tryCall obeys_then)
open Cloud (Inventory lookup destruction)
open Cloud.Inventory (KeepsRecords)
open Fleet (instanceKey)

/-- The operations of a provider. -/
inductive InstanceOperation where
  | create (c : NodeClass) (claim : NodeClaim) (candidates : List InstanceType) (token : Token)
  | get (id : String)
  | list
  | delete (id : String) (token : Token)

namespace InstanceOperation

/-- What an operation yields. -/
abbrev Answer : InstanceOperation → Type
  | .create _ _ _ _ => Except ResourceError Instance
  | .get _ => Except ResourceError Instance
  | .list => Except ResourceError (List Instance)
  | .delete _ _ => Except ResourceError Unit

/-- The identifier whose machine an operation destroys. -/
def target? : InstanceOperation → Option String
  | .delete id _ => some id
  | _ => none

end InstanceOperation

/-- How a provider carries out an operation. -/
def Fleet.operate (f : Fleet) : (op : InstanceOperation) → Program op.Answer
  | .create c claim candidates token => (f.createInstance c claim candidates token).run
  | .get id => (f.getInstance id).run
  | .list => listInstances.run
  | .delete id token => (f.deleteInstance id token).run

/-- Every operation is carried out with discipline. -/
theorem Discipline.operate (D : Discipline) (f : Fleet) (op : InstanceOperation) :
    D.Holds (f.operate op) := by
  cases op with
  | create c claim candidates token => exact D.createInstance f c claim token candidates
  | get id => exact D.getInstance f id
  | list => exact D.of_callsPlainly (by decide) Fleet.obeys_listInstances
  | delete id token => exact D.deleteInstance f token id

section Destroying

variable {target : Option String}

/-- A question in which no machine is destroyed but that of a target. -/
def Request.DestroysOnly (target : Option String) : Request fleetSignature → Prop
  | .act (.serveCall (.destroyMachine r)) => ∃ id, target = some id ∧ r = ⟨id, true⟩
  | .act (.change _) => False
  | _ => True

theorem Request.destroysOnly_of_callsOnly {ops : List Cloud.Operation}
    (hops : .destroyMachine ∉ ops) {request : Request fleetSignature} (h : CallsOnly ops request) :
    request.DestroysOnly target := by
  cases request with
  | act action =>
      cases action with
      | serveCall call =>
          cases call with
          | destroyMachine r => exact absurd h hops
          | _ => trivial
      | change f => exact h.elim
      | _ => trivial
  | _ => trivial

theorem Request.destroysOnly_of_not_act {request : Request fleetSignature}
    (h : ∀ action, request ≠ .act action) : request.DestroysOnly target := by
  cases request with
  | act action => exact absurd rfl (h action)
  | _ => trivial

/-- A program that destroys no machine but that of a target. -/
abbrev Program.DestroysOnly {α : Type} (target : Option String) (p : Program α) : Prop :=
  Obeys (Request.DestroysOnly target) (fun _ => True) p

theorem Program.destroysOnly_of_callsOnly {α : Type} {ops : List Cloud.Operation} {p : Program α}
    {yields : α → Prop} (hops : .destroyMachine ∉ ops) (h : Obeys (CallsOnly ops) yields p) :
    p.DestroysOnly target :=
  h.mono (fun _ => Request.destroysOnly_of_callsOnly hops) fun _ _ => trivial

theorem Program.destroysOnly_of_callsPlainly {α : Type} {ops : List Cloud.Operation}
    {p : Program α} {yields : α → Prop} (hops : .destroyMachine ∉ ops)
    (h : Obeys (CallsPlainly ops) yields p) : p.DestroysOnly target :=
  destroysOnly_of_callsOnly hops (callsOnly h)

namespace Fleet

open Program (destroysOnly_of_callsOnly destroysOnly_of_callsPlainly)

variable (f : Fleet)

theorem destroysOnly_log {subject : String} {state : LaunchState} :
    (liftM (Program.log subject state) : Attempt ResourceError Unit).run.DestroysOnly target :=
  Routine.obeys_run_lift ⟨trivial, fun _ => trivial⟩

theorem destroysOnly_launch (c : NodeClass) (claim : NodeClaim) (candidates : List InstanceType)
    (token : Token) : (f.launch c claim candidates token).run.DestroysOnly target := by
  rw [launch_run]
  refine ⟨trivial, fun cancelled => ?_⟩
  cases cancelled with
  | true => trivial
  | false =>
      refine obeys_then (destroysOnly_of_callsOnly (by decide) (f.obeys_plan c claim candidates))
        fun request => ?_
      refine obeys_then destroysOnly_log fun _ => ?_
      refine obeys_then (destroysOnly_of_callsPlainly (by simp [Cloud.Call.operation])
        (obeys_tryCall _ (List.mem_singleton_self _))) fun reply => ?_
      refine obeys_then (destroysOnly_of_callsPlainly (by decide)
        (f.obeys_finishJob _ _ token)) fun _ => ?_
      refine obeys_then destroysOnly_log fun _ => ?_
      refine obeys_then (destroysOnly_of_callsPlainly (by decide)
        (f.obeys_awaitState _ _ token)) fun vm => Routine.obeys_run_lift ?_
      refine Obeys.bind (destroysOnly_of_callsPlainly (by simp [Cloud.Call.operation])
        (obeys_call (List.mem_singleton_self _))) fun _ _ => ?_
      exact ⟨trivial, fun _ => trivial⟩

theorem destroysOnly_createInstance (c : NodeClass) (claim : NodeClaim)
    (candidates : List InstanceType) (token : Token) :
    (f.createInstance c claim candidates token).run.DestroysOnly target := by
  refine ⟨trivial, fun _ => (f.destroysOnly_launch c claim candidates token).bind fun r _ => ?_⟩
  cases r <;> exact ⟨trivial, fun _ => trivial⟩

theorem destroysOnly_getInstance (id : String) : (f.getInstance id).run.DestroysOnly target := by
  refine Routine.obeys_cached ?_ (fun _ => Request.destroysOnly_of_not_act) fun _ => trivial
  exact destroysOnly_of_callsPlainly (by decide) (obeys_fetchInstance id)

theorem destroysOnly_destroyInstance (id : String) (token : Token) :
    (f.destroyInstance id token).run.DestroysOnly (some id) := by
  refine obeys_then destroysOnly_log fun _ => ?_
  have hcall : (Program.call (destruction id)).DestroysOnly (some id) := by
    refine ⟨trivial, fun opening => ?_⟩
    cases opening with
    | answered reply => trivial
    | delayed latency =>
        exact ⟨trivial, fun _ => ⟨trivial, fun _ => ⟨⟨id, rfl, rfl⟩, fun _ => trivial⟩⟩⟩
  refine obeys_then (hcall.bind fun reply _ => ?_) fun ticket => ?_
  · cases reply <;> trivial
  refine obeys_then (Routine.obeys_run_lift ⟨trivial, fun _ => trivial⟩) fun _ => ?_
  refine obeys_then (destroysOnly_of_callsPlainly (by decide) (f.obeys_finishJob _ _ token))
    fun _ => ?_
  exact destroysOnly_log

/-- An operation destroys no machine but that of its target. -/
theorem destroysOnly_operate (op : InstanceOperation) :
    (f.operate op).DestroysOnly op.target? := by
  cases op with
  | create c claim candidates token => exact f.destroysOnly_createInstance c claim candidates token
  | get id => exact f.destroysOnly_getInstance id
  | list => exact destroysOnly_of_callsPlainly (by decide) obeys_listInstances
  | delete id token =>
      refine (f.destroysOnly_getInstance id).bind fun looked _ => ?_
      cases looked with
      | ok found => exact f.destroysOnly_destroyInstance id token
      | error e => trivial

end Fleet

end Destroying

namespace Event

variable {e : Event fleetWorld} {id : String}

/-- A turn after which the cloud has the machines of an identifier with the same records as before. -/
def KeepsRecords (id : String) (e : Event fleetWorld) : Prop :=
  Inventory.KeepsRecords id e.before.world.cloud e.after.world.cloud

/-- A turn in which no machine of an identifier is destroyed keeps the records of the identifier. -/
theorem keepsRecords_of_destroysOnly {target : Option String}
    (h : e.request.DestroysOnly target)
    (spared : target = some id →
      ∀ ticket, e.exchange ≠ ⟨.act (.serveCall (destruction id)), .ok ticket⟩) :
    e.KeepsRecords id := by
  obtain ⟨i, s, request⟩ := e
  cases request with
  | act action =>
      cases action with
      | beginCall call =>
          exact Cloud.Inventory.keepsRecords_of_eq (s.world.beginCall_sameMachines call).1
      | serveCall call =>
          refine Cloud.Inventory.keepsRecords_serve s.world.today ?_
          rintro r rfl rfl
          obtain ⟨id, htarget, rfl⟩ := h
          cases hserved : (s.world.cloud.serve s.world.today (destruction id)).1 with
          | error e => exact ⟨e, rfl⟩
          | ok ticket =>
              refine absurd ?_ (spared htarget ticket)
              rw [← hserved]
              rfl
      | change f => exact h.elim
      | _ => exact Cloud.Inventory.keepsRecords_of_eq rfl
  | _ => exact Cloud.Inventory.keepsRecords_of_eq rfl

/-- A turn of somebody who takes no machine away, changes no more of its record than its state and
its tags, and remembers no instance for an owner. -/
structure LeavesRecords (owner : Nat) (e : Event fleetWorld) : Prop where
  records : ∀ id, e.KeepsRecords id
  elsewhere : ∀ id, e.request.StoresElsewhere owner id

end Event

/-- An operation that is carried out from a state on, next to others who leave the records of machines
alone. -/
structure CarriedOut (f : Fleet) (op : InstanceOperation) (s : FleetState) (i : Nat)
    (events : List (Event fleetWorld)) (d : Config fleetWorld op.Answer) (r : op.Answer) :
    Prop where
  steps : ∃ ps : List (Program op.Answer), ps[i]? = some (f.operate op) ∧
    Steps (Config.start s ps) events d
  done : d.routines[i]? = some (.done r)
  others : ∀ e ∈ events, e.routine ≠ i → e.LeavesRecords f.owner

/-- In a history a routine asked the cloud to destroy the machine of an identifier, and the cloud
accepted. -/
def Destroys (id : String) (i : Nat) (events : List (Event fleetWorld)) : Prop :=
  ∃ ticket, ⟨.act (.serveCall (destruction id)), .ok ticket⟩ ∈ traceOf i events

section History

variable {f : Fleet} {op : InstanceOperation} {s : FleetState} {i : Nat} {id : String}
  {events : List (Event fleetWorld)} {d : Config fleetWorld op.Answer} {r : op.Answer}

/-- The records of machines are kept from a turn on, if every turn keeps them. -/
theorem Steps.keepsRecords {α : Type} {c d : Config fleetWorld α} (h : Steps c events d)
    (keeps : ∀ e ∈ events, e.KeepsRecords id) :
    KeepsRecords id c.shared.world.cloud d.shared.world.cloud ∧
      ∀ e ∈ events, KeepsRecords id e.after.world.cloud d.shared.world.cloud := by
  constructor
  · exact (h.invariant (P := fun w : WorldState => KeepsRecords id c.shared.world.cloud w.cloud)
      (Cloud.Inventory.keepsRecords_of_eq rfl) fun e he hbefore => hbefore.trans (keeps e he)).2
  · intro e he
    obtain ⟨first, second, rfl⟩ := List.append_of_mem he
    exact (h.invariant_after
      (P := fun w : WorldState => KeepsRecords id e.after.world.cloud w.cloud)
      (Cloud.Inventory.keepsRecords_of_eq rfl)
      fun e' he' hbefore => hbefore.trans (keeps e' (by simp [he']))).2

/-- What is listed in a turn after which all records are kept has the records of the machines in the
end. -/
theorem Event.yields_of_keepsRecords {e : Event fleetWorld} {owner : Nat} {inv : Inventory}
    (keeps : Inventory.KeepsRecords id e.after.world.cloud inv) :
    e.Yields (recordReliance owner id inv) := by
  intro action haction
  cases action with
  | beginCall call =>
      intro hcall
      exact ⟨_, congrArg Prod.fst (e.before.world.beginCall_of_ne hcall)⟩
  | serveCall call =>
      cases call with
      | listMachines q =>
          intro page hpage vm hvm
          rw [after_served haction] at keeps
          change (e.before.world.cloud.serve e.before.world.today (.listMachines q)).1 = .ok page
            at hpage
          rw [Inventory.serve] at hpage keeps
          split at hpage
          next => cases hpage
          next works =>
            rw [works] at keeps
            obtain rfl := Except.ok.inj hpage
            constructor
            · intro hid
              rw [Inventory.items_listMachines] at hvm
              obtain ⟨listed, hlisted, rfl⟩ := List.mem_map.1 hvm
              obtain ⟨after, hafter, same⟩ := keeps listed (List.mem_filter.1 hlisted).1 hid
              exact ⟨after, hafter, same⟩
            · rintro other rfl
              exact Inventory.id_of_mem_lookup hvm
      | _ => trivial
  | _ => trivial

namespace CarriedOut

/-- An operation keeps the records of an identifier, unless it destroys a machine of it. -/
theorem keepsRecords (h : CarriedOut f op s i events d r)
    (spared : op.target? = some id → ¬ Destroys id i events) :
    ∀ e ∈ events, e.KeepsRecords id := by
  obtain ⟨⟨ps, own, steps⟩, -, others⟩ := h
  intro e he
  by_cases hown : e.routine = i
  · refine Event.keepsRecords_of_destroysOnly
      (steps.asks_of own (f.destroysOnly_operate op) e he hown) fun htarget ticket hexchange => ?_
    refine spared htarget ⟨ticket, hexchange ▸ ?_⟩
    exact List.mem_map_of_mem (mem_turnsOf.2 ⟨he, hown⟩)
  · exact (others e he hown).records id

/-- Where an operation and the others keep the records of an identifier, what was remembered under it
and what the operation stores and finds describes machines that the cloud has in the end. -/
theorem relies (h : CarriedOut f op s i events d r) (recalls : Recalls f.owner id s)
    (keeps : ∀ e ∈ events, e.KeepsRecords id) :
    (recordReliance f.owner id d.shared.world.cloud).Holds d.shared ∧
      ∀ x ∈ traceOf i events, (recordReliance f.owner id d.shared.world.cloud).Admits x := by
  obtain ⟨⟨ps, own, steps⟩, -, others⟩ := h
  obtain ⟨fromStart, fromTurns⟩ := steps.keepsRecords keeps
  rw [Config.world_start s] at fromStart
  have holds : (recordReliance f.owner id d.shared.world.cloud).Holds (Config.start s ps).shared :=
    Reliance.Holds.congr (Reliance.holds_guarding_iff.2 fun entry hentry =>
      (recalls entry hentry).keep fromStart) (Config.caches_start s ps)
  have minds (j : Nat) (p : Program op.Answer) (hj : j = i)
      (hp : (Config.start s ps).routines[j]? = some p) :
      p.Keeps (recordReliance f.owner id d.shared.world.cloud) fun _ => True := by
    subst hj
    obtain rfl := Option.some.inj (own.symm.trans hp)
    exact (describing f.owner id d.shared.world.cloud).operate f op
  obtain ⟨holds, -, admits⟩ := steps.keepsAmong holds minds
    (fun e he hne => Reliance.permits_guarding ((others e he hne).elsewhere id))
    fun e he _ => Event.yields_of_keepsRecords (fromTurns e he)
  refine ⟨holds, fun x hx => ?_⟩
  obtain ⟨e, he, rfl⟩ := exists_turn_of_mem hx
  exact admits e (mem_turnsOf.1 he).1 (mem_turnsOf.1 he).2

end CarriedOut

/-- A removal whose machine was destroyed forgets the instance of the machine, and stores nothing
after that, whether or not the job of the destruction succeeds. -/
theorem Fleet.forgets_of_deleteInstance {token : Token} {trace : List (Exchange fleetSignature)}
    {r : Except ResourceError Unit} {ticket : Cloud.JobTicket}
    (h : Ends (f.deleteInstance id token).run trace r)
    (accepted : ⟨.act (.serveCall (destruction id)), .ok ticket⟩ ∈ trace) :
    ∃ before rest, trace = before ++ ⟨.evict ⟨f.owner, .instances⟩ (instanceKey id), ()⟩ :: rest ∧
      ∀ x ∈ rest, x.request.edits? = none := by
  obtain ⟨looked, look, rest, rfl, hlook, hrest⟩ := ends_bind.1 h
  have unasked : ⟨.act (.serveCall (destruction id)), .ok ticket⟩ ∉ look := by
    intro hx
    have hnone : (f.getInstance id).run.DestroysOnly none := f.destroysOnly_getInstance id
    obtain ⟨_, hid, -⟩ := (hnone.ends hlook).1 _ hx
    cases hid
  have hmem := (List.mem_append.1 accepted).resolve_left unasked
  cases looked with
  | error e =>
      obtain ⟨rfl, -⟩ := Routine.ends_pure.1 hrest
      cases hmem
  | ok found =>
      obtain ⟨_, asking, rfl, hask⟩ := ends_lift_request_bind.1 hrest
      rcases ends_tryCall_bind hask with
        ⟨e, -, hcall⟩ | ⟨ticket, ask, after, rfl, hcall, hafter⟩
      · rcases List.mem_cons.1 hmem with hx | hx
        · cases hx
        · cases (served_in_call hcall hx).1
      · obtain ⟨_, last, rfl, hlast⟩ := ends_lift_request_bind.1 hafter
        refine ⟨look ++ ⟨.act (.log id .destroying), ()⟩ :: ask, last, by simp, ?_⟩
        have hedits : Obeys (fun request : Request fleetSignature => request.edits? = none)
            (fun _ => True) (f.finishJob s!"destroy VM {id}" ticket.jobId token).run :=
          (f.obeys_finishJob _ _ token).mono (fun _ h => h.edits?_eq_none) fun _ _ => trivial
        have hlog {u : Unit} : Obeys (fun request : Request fleetSignature => request.edits? = none)
            (fun _ => True) (liftM (Program.log id .destroyed) : Attempt ResourceError Unit).run :=
          Routine.obeys_run_lift ⟨rfl, fun _ => trivial⟩
        exact ((obeys_then hedits fun u => hlog (u := u)).ends hlast).1

/-- Once the machine of an identifier is destroyed, nothing is remembered under it. -/
theorem CarriedOut.forgets {token : Token} {d : Config fleetWorld (Except ResourceError Unit)}
    {r : Except ResourceError Unit} (h : CarriedOut f (.delete id token) s i events d r)
    (destroys : Destroys id i events) :
    (d.shared.caches ⟨f.owner, .instances⟩).entries.get? (instanceKey id) = none := by
  obtain ⟨⟨ps, own, steps⟩, done, others⟩ := h
  obtain ⟨ticket, accepted⟩ := destroys
  obtain ⟨before, rest, htrace, hrest⟩ :=
    Fleet.forgets_of_deleteInstance (steps.ends own done) accepted
  obtain ⟨first, e, second, rfl, hown, hevict, -, hsecond⟩ := exists_turn htrace
  obtain ⟨m, next, -, -, -, -, later⟩ := steps.split rfl
  obtain ⟨j, before, request⟩ := e
  obtain ⟨rfl, -⟩ := Exchange.mk.inj hevict
  -- Nothing may be stored under the identifier next to a cloud without machines.
  have holds : (recordReliance f.owner id {}).Holds (m.turn j
      (.evict ⟨f.owner, .instances⟩ (instanceKey id)) next).shared := by
    refine Reliance.holds_guarding_iff.2 fun entry hentry => ?_
    rw [Config.caches_turn m j _ next, m.shared.caches_answer_evict j, Cache.entry_delete,
      if_pos rfl] at hentry
    cases hentry
  have permits : ∀ e ∈ second, (recordReliance f.owner id {}).Permits e.request := by
    intro e he
    by_cases hmine : e.routine = i
    · refine Reliance.permits_of_edits?_eq_none _ (hrest e.exchange ?_)
      rw [← hsecond]
      exact List.mem_map_of_mem (mem_turnsOf.2 ⟨he, hmine⟩)
    · exact Reliance.permits_guarding ((others e (by simp [he]) hmine).elsewhere id)
  rw [Option.eq_none_iff_forall_ne_some]
  intro entry hentry
  obtain ⟨vm, hvm, -⟩ := Reliance.holds_guarding_iff.1 (later.holds holds permits) entry hentry
  cases hvm

/-- After an operation whatever is remembered under an identifier describes a machine that the cloud
has, if it did before. -/
theorem CarriedOut.recalls (h : CarriedOut f op s i events d r) (recalls : Recalls f.owner id s) :
    Recalls f.owner id d.shared := by
  by_cases spared : op.target? = some id → ¬ Destroys id i events
  · exact Reliance.holds_guarding_iff.1 (h.relies recalls (h.keepsRecords spared)).1
  · obtain ⟨target, destroys⟩ := Classical.not_imp.1 spared
    cases op with
    | delete other token =>
        obtain rfl := Option.some.inj target
        intro entry hentry
        rw [h.forgets (not_not.1 destroys)] at hentry
        cases hentry
    | _ => cases target

/-- Who gets an instance gets one that describes a machine that the cloud has in the end. -/
theorem CarriedOut.found {d : Config fleetWorld (Except ResourceError Instance)} {found : Instance}
    (h : CarriedOut f (.get id) s i events d (.ok found)) (recalls : Recalls f.owner id s) :
    d.shared.world.cloud.Contains id found := by
  have keeps : ∀ e ∈ events, e.KeepsRecords id := h.keepsRecords fun htarget => by cases htarget
  obtain ⟨-, admits⟩ := h.relies recalls keeps
  obtain ⟨⟨ps, own, steps⟩, done, -⟩ := h
  exact (keeps_getInstance_recorded f id).ends (steps.ends own done) admits found rfl rfl rfl

end History

/-- The states between the operations of a provider, which are carried out one after another, from a
state on in which it remembers nothing. Between two operations others may do whatever leaves the
records of machines alone, and entries may go. -/
inductive Operated (f : Fleet) : FleetState → Prop
  | fresh {s : FleetState} (empty : s.caches ⟨f.owner, .instances⟩ = .empty) : Operated f s
  | meanwhile {s t : FleetState} (operated : Operated f s)
      (records : ∀ id, KeepsRecords id s.world.cloud t.world.cloud)
      (entries : ∀ key entry, (t.caches ⟨f.owner, .instances⟩).entries.get? key = some entry →
        (s.caches ⟨f.owner, .instances⟩).entries.get? key = some entry) : Operated f t
  | operation {s : FleetState} {op : InstanceOperation} {i : Nat} {events : List (Event fleetWorld)}
      {d : Config fleetWorld op.Answer} {r : op.Answer} (operated : Operated f s)
      (carried : CarriedOut f op s i events d r) : Operated f d.shared

theorem Operated.recalls {f : Fleet} {s : FleetState} (h : Operated f s) (id : String) :
    Recalls f.owner id s := by
  induction h with
  | fresh empty =>
      intro entry hentry
      rw [empty] at hentry
      cases hentry
  | meanwhile _ records entries ih =>
      exact fun entry hentry => (ih entry (entries _ entry hentry)).keep (records id)
  | operation _ carried ih => exact carried.recalls ih

/-- Between the operations of a provider, every instance that it remembers under an identifier, fresh
or not, describes a machine of the identifier that the cloud has. So nobody gets an instance under an
identifier of which the cloud has no machine; and when the destruction of a machine was accepted,
nothing is remembered under its identifier, whatever came of the removal. From free locks every
operation ends. -/
theorem remembered_instances_describe_machines {f : Fleet} {s : FleetState}
    (operated : Operated f s) :
    (∀ id entry,
      (s.caches ⟨f.owner, .instances⟩).entries.get? (instanceKey id) = some entry →
        ∃ vm ∈ s.world.cloud.machines, vm.id = id ∧ Instance.Describes entry.value vm) ∧
    (∀ id i events d r, CarriedOut f (.get id) s i events d r →
      d.shared.world.cloud.machine? id = none → ∃ e, r = .error e) ∧
    (∀ id token i events d r, CarriedOut f (.delete id token) s i events d r →
      Destroys id i events →
        (d.shared.caches ⟨f.owner, .instances⟩).entries.get? (instanceKey id) = none) ∧
    ∀ (op : InstanceOperation) (others : List (Program op.Answer)),
      (∀ cache, s.queues cache = []) → (∀ p ∈ others, p.IsOrderly) →
        ∃ events d r, Steps (Config.start s (f.operate op :: others)) events d ∧
          s.run (f.operate op :: others) = (d.shared, d.routines.map Shared.result?) ∧
          d.routines[0]? = some (.done r) := by
  refine ⟨fun id => operated.recalls id, ?_, ?_, ?_⟩
  · intro id i events d r get missing
    cases r with
    | error e => exact ⟨e, rfl⟩
    | ok found =>
        obtain ⟨vm, hvm, hid, -⟩ := get.found (operated.recalls id)
        exact absurd hid (Cloud.Inventory.machine?_eq_none_iff.1 missing vm hvm)
  · intro id token i events d r delete destroys
    exact delete.forgets destroys
  · intro op others free orderly
    have fair : Program.Fair {} (f.operate op) := (Program.fairness {}).operate f op
    exact run_ends_first s free fair.orderly orderly

/-- A machine whose record tells something of everything. -/
def recordedMachine : Cloud.VirtualMachine where
  id := "vm-1"
  name := "n1"
  state := "Running"
  zoneId := "z1"
  zoneName := "zone-1"
  offeringId := "s1"
  offeringName := "small"
  templateId := "t1"
  templateName := "linux"
  created := "2026-03-04T05:06:07+0100"
  nics := [{ id := "nic-1", networkId := "net-1", ipAddress := "10.1.1.7" },
    { id := "nic-2", networkId := "net-2" }]

/-- What is remembered of it: nothing is said of its second interface. -/
def rememberedInstance : Instance where
  id := "vm-1"
  name := "n1"
  state := "Running"
  zone := "zone-1"
  zoneId := "z1"
  serviceOffering := "small"
  serviceOfferingId := "s1"
  template := "linux"
  templateId := "t1"
  networkId := "net-1"
  ipAddress := some "10.1.1.7"
  created := some (.ofSeconds 1772597167)
  tags := .empty

/-- Empty caches next to a cloud with this machine, in which every job fails. -/
def failingJobs : FleetState :=
  .initial
    { cloud := { machines := [recordedMachine], jobPolls := some 0, jobFailure := some "unreachable" }
      nodeClasses := .empty
      today := .ofSeconds 0
      launches := [] }

/-- An operation that is carried out while nobody else is there. -/
theorem carriedOut_of_alone {f : Fleet} {op : InstanceOperation} {s : FleetState}
    {events : List (Event fleetWorld)} {d : Config fleetWorld op.Answer} {r : op.Answer}
    (steps : Steps (Config.start s [f.operate op]) events d) (done : d.result? 0 = some r)
    (alone : ∀ e ∈ events, e.routine = 0) : CarriedOut f op s 0 events d r where
  steps := ⟨_, rfl, steps⟩
  done := Config.result?_eq_some_iff.1 done
  others e he other := absurd (alone e he) other

/-- A look remembers the machine as its record tells it. A removal follows whose destruction is
accepted and whose job fails, and then another look. Nothing is remembered between the two, and the
second look finds nothing. -/
theorem remembered_instances_describe_machines_after_failed_job :
    ∃ looking m entry removing d e,
      CarriedOut removingFleet (.get "vm-1") failingJobs 0 looking m (.ok rememberedInstance) ∧
      (m.shared.caches ⟨removingFleet.owner, .instances⟩).entries.get? (instanceKey "vm-1") =
        some entry ∧ entry.value = rememberedInstance ∧
      (∃ vm ∈ m.shared.world.cloud.machines, vm.id = "vm-1" ∧ rememberedInstance.Describes vm) ∧
      CarriedOut removingFleet (.delete "vm-1" 0) m.shared 0 removing d (.error e) ∧
      Destroys "vm-1" 0 removing ∧
      (d.shared.caches ⟨removingFleet.owner, .instances⟩).entries.get? (instanceKey "vm-1") = none ∧
      ∃ events' d' e', CarriedOut removingFleet (.get "vm-1") d.shared 0 events' d' (.error e') := by
  obtain ⟨looking, m, looked, hfound, alone, ⟨entry, hentry, hvalue⟩, ⟨removing, d⟩, hremoving,
      hfailed, alone', ⟨x, hx, request, accepted⟩, ⟨last, d'⟩, hlast, hended, alone'', missing⟩ :
      ∃ looking m, Steps (Config.start failingJobs [removingFleet.operate (.get "vm-1")]) looking m ∧
        m.result? 0 = some (.ok rememberedInstance) ∧ (∀ e ∈ looking, e.routine = 0) ∧
        (∃ entry ∈ (m.shared.caches ⟨removingFleet.owner, .instances⟩).entries.get?
          (instanceKey "vm-1"), (entry.value : Instance) = rememberedInstance) ∧
        ∃ path ∈ (Config.start m.shared [removingFleet.operate (.delete "vm-1" 0)]).follow
            [.turns 0 9, .wait 5000, .turns 0 7],
          (path.2.error? 0).isSome = true ∧ (∀ e ∈ path.1, e.routine = 0) ∧
          (∃ e ∈ path.1, e.request = .act (.serveCall (destruction "vm-1")) ∧
            (e.before.world.cloud.serve e.before.world.today (destruction "vm-1")).1.isOk = true) ∧
          ∃ path' ∈ (Config.start path.2.shared [removingFleet.operate (.get "vm-1")]).follow
              [.turns 0 8],
            (path'.2.result? 0).isSome = true ∧ (∀ e ∈ path'.1, e.routine = 0) ∧
            path'.2.shared.world.cloud.machine? "vm-1" = none :=
    Config.exists_steps_of_follow [.turns 0 13] (by decide +kernel)
  obtain ⟨e, hfailed⟩ := Option.isSome_iff_exists.1 hfailed
  obtain ⟨r, hended⟩ := Option.isSome_iff_exists.1 hended
  have look := carriedOut_of_alone looked hfound alone
  have remove : CarriedOut removingFleet (.delete "vm-1" 0) m.shared 0 removing d (.error e) :=
    carriedOut_of_alone (Config.steps_of_follow hremoving)
      (Config.result?_eq_some_iff.2 (Config.error?_eq_some_iff.1 hfailed)) alone'
  have lookAgain := carriedOut_of_alone (Config.steps_of_follow hlast) hended alone''
  have destroys : Destroys "vm-1" 0 removing := by
    cases hreply : (x.before.world.cloud.serve x.before.world.today (destruction "vm-1")).1 with
    | error e =>
        rw [hreply] at accepted
        cases accepted
    | ok ticket =>
        refine ⟨ticket, List.mem_map.2 ⟨x, mem_turnsOf.2 ⟨hx, alone' x hx⟩, ?_⟩⟩
        obtain ⟨j, s, _⟩ := x
        subst request
        rw [← hreply]
        rfl
  have fresh : Operated removingFleet failingJobs := .fresh rfl
  have afterLook := fresh.operation look
  have afterRemoval := afterLook.operation remove
  obtain ⟨describes, -, forgets, -⟩ := remembered_instances_describe_machines afterLook
  obtain ⟨e', rfl⟩ := (remembered_instances_describe_machines afterRemoval).2.1
    _ _ _ _ _ lookAgain missing
  exact ⟨looking, m, entry, removing, d, e, look, hentry, hvalue, hvalue ▸ describes _ entry hentry,
    remove, destroys, forgets _ _ _ _ _ _ remove destroys, last, d', e', lookAgain⟩

end NodeFleet
