import Mathlib.Data.List.ReduceOption
import NodeFleet.Proofs.Fleet.Registration
import NodeFleet.Proofs.Fleet.Removal

/-!
# Finding a machine

A machine is found in a cache, by a look at it and its tags, or in a listing of all machines. Where a
cache holds it as it is and the cloud answers accordingly, every way yields the same instance, and
nobody who finds it stores another one. A failed look yields an error and stores nothing.
-/

namespace NodeFleet

open Routine (Ends Obeys Keeps ends_bind ends_run_bind ends_run_lift ends_lift_request_bind)
open Program (CallsPlainly obeys_then)
open Cloud (VirtualMachine lookup)
open Fleet (FetchCourse foundTags course_of_fetchInstance instanceKey)

theorem Program.CallsPlainly.edits?_eq_none {ops : List Cloud.Operation}
    {request : Request fleetSignature} (h : CallsPlainly ops request) : request.edits? = none := by
  cases request with
  | write cache key value ttl => exact h.elim
  | evict cache key => exact h.elim
  | purge cache => exact h.elim
  | _ => rfl

theorem Request.looks_of_not_act (request : Request fleetSignature)
    (h : ∀ action, request ≠ .act action) : request.Looks := by
  cases request with
  | act action => exact absurd rfl (h action)
  | _ => trivial

/-- A reliance on what is found of machines: listings of the stock may be stored whatever they list,
and only job queries are answered as they begin. -/
structure Reliance.OnMachines (R : Reliance fleetSignature) : Prop where
  listings (cache : CacheId) (key : String) (value : cache.Value) (other : cache.kind ≠ .instances) :
    R.stores cache key value
  delayed {call : Cloud.Call} {opening : Opening call.Reply}
    (begun : R.results (.beginCall call) opening) (notQuery : call.operation ≠ .queryJob) :
    ∃ latency, opening = .delayed latency

namespace Reliance.OnMachines

variable {R : Reliance fleetSignature} {trace : List (Exchange fleetSignature)}

theorem delayed_trace (on : R.OnMachines) (admitted : ∀ x ∈ trace, R.Admits x) : Delayed trace := by
  intro call reply hcall hx
  obtain ⟨latency, hdelayed⟩ := on.delayed (admitted _ hx) hcall
  cases hdelayed

/-- What a call that is relied on was served with. -/
theorem served (on : R.OnMachines) {call : Cloud.Call} {reply : Except Cloud.CallError call.Reply}
    (h : Ends (Program.call call) trace reply) (hcall : call.operation ≠ .queryJob)
    (admitted : ∀ x ∈ trace, R.Admits x) :
    ⟨.act (.serveCall call), reply⟩ ∈ trace ∧ R.results (.serveCall call) reply := by
  obtain ⟨before, rfl, -⟩ := served_of_ends_call h hcall (on.delayed_trace admitted)
  have hx : (⟨.act (.serveCall call), reply⟩ : Exchange fleetSignature) ∈
      before ++ [⟨.act (.serveCall call), reply⟩] := by simp
  exact ⟨hx, admitted _ hx⟩

end Reliance.OnMachines

/-- Listings of the stock are no instances, so a guard does not stand in their way. -/
theorem Reliance.onMachines_guarding {owner : Nat} {id : String} {admits : Instance → Prop}
    {results : (action : Action) → action.Result → Prop}
    (delayed : ∀ {call : Cloud.Call} {opening : Opening call.Reply},
      results (.beginCall call) opening → call.operation ≠ .queryJob →
        ∃ latency, opening = .delayed latency) :
    (guarding owner id admits results).OnMachines where
  listings _ _ _ other := storesAdmitted_of_other fun h => absurd (h ▸ rfl) other
  delayed := delayed

theorem machineReliance_onMachines (owner : Nat) (vm : VirtualMachine) (tags : Table String) :
    (machineReliance owner vm tags).OnMachines :=
  Reliance.onMachines_guarding fun begun => begun

section Reading

variable {owner : Nat} {vm : VirtualMachine} {tags : Table String}
  {trace : List (Exchange fleetSignature)}

/-- What a call about the machine was served with. -/
theorem admits_of_ends_call {call : Cloud.Call} {reply : Except Cloud.CallError call.Reply}
    (h : Ends (Program.call call) trace reply) (hcall : call.operation ≠ .queryJob)
    (admitted : ∀ x ∈ trace, (machineReliance owner vm tags).Admits x) :
    ⟨.act (.serveCall call), reply⟩ ∈ trace ∧
      findsMachine vm (tagsOn vm tags) (.serveCall call) reply :=
  (machineReliance_onMachines owner vm tags).served h hcall admitted

theorem tagTable_tagsOn (vm : VirtualMachine) (tags : Table String) :
    tagTable (tagsOn vm tags) = tags :=
  Cloud.Inventory.tagTable_tagOn .machine vm.id tags

/-- A fetch yields the machine with its tags, or its look-up has failed. -/
theorem Fleet.FetchCourse.eq_or_failed {r : Except ResourceError Instance}
    (h : FetchCourse vm.id trace r)
    (admitted : ∀ x ∈ trace, (machineReliance owner vm tags).Admits x) :
    r = .ok (.ofMachine vm tags) ∨
      ∃ e, ⟨.act (.serveCall (lookup vm.id)), .error e⟩ ∈ trace ∧
        r = .error (.call s!"get VM {vm.id}" e) := by
  cases h with
  | @failed e looked =>
      exact .inr ⟨e, (admits_of_ends_call looked (by simp [Cloud.Call.operation]) admitted).1, rfl⟩
  | missing looked none =>
      obtain ⟨-, hpage⟩ := admits_of_ends_call looked (by simp [Cloud.Call.operation]) admitted
      rw [(hpage _ rfl).1 rfl] at none
      cases none
  | @found look mark page found reply looked head tagged parts =>
      left
      subst parts
      obtain ⟨hlook, hmark⟩ := List.forall_mem_append.1 admitted
      obtain ⟨-, hpage⟩ := admits_of_ends_call looked (by simp [Cloud.Call.operation]) hlook
      rw [(hpage _ rfl).1 rfl] at head
      obtain rfl := Option.some.inj head
      obtain ⟨-, hreply⟩ := admits_of_ends_call tagged (by simp [Cloud.Call.operation]) hmark
      have htags : foundTags { vm with tags := tagsOn vm tags } reply = tags := by
        cases reply with
        | error e => exact tagTable_tagsOn vm tags
        | ok listed =>
            rw [hreply rfl listed rfl]
            exact tagTable_tagsOn vm tags
      rw [htags]
      rfl

/-- Instances of different machines are stored under different keys. -/
theorem instanceKey_inj {id other : String} : instanceKey id = instanceKey other ↔ id = other :=
  String.append_right_inj _

/-- Calls that are made without a cache store nothing. -/
theorem keeps_of_callsPlainly {R : Reliance fleetSignature} {α : Type} {ops : List Cloud.Operation}
    {yields : α → Prop} {p : Program α} (h : Obeys (CallsPlainly ops) yields p) :
    Keeps R yields p :=
  Routine.keeps_of_obeys h fun _ h => Reliance.permits_of_edits?_eq_none _ h.edits?_eq_none

/-- Whoever reads an instance through its cache gets one that may be stored, if every instance that is
fetched under the guarded identifier is admitted. -/
theorem keeps_getInstance_guarding {owner : Nat} {id : String} {admits : Instance → Prop}
    {results : (action : Action) → action.Result → Prop} (f : Fleet) (looked : String)
    (fetched : ∀ trace found, FetchCourse looked trace (.ok found) →
      (∀ x ∈ trace, (Reliance.guarding owner id admits results).Admits x) → looked = id →
        admits found) :
    Keeps (Reliance.guarding owner id admits results)
      (fun r => ∀ found, r = .ok found →
        storesAdmitted owner id admits ⟨f.owner, .instances⟩ (instanceKey looked) found)
      (f.getInstance looked).run := by
  have hplain : Keeps (Reliance.guarding owner id admits results) (fun _ => True)
      (Fleet.fetchInstance looked).run :=
    keeps_of_callsPlainly (Fleet.obeys_fetchInstance looked)
  refine Routine.keeps_cached (Routine.keeps_of_ends hplain ?_) fun value => ?_
  · rintro trace r hends admitted found rfl - hkey
    exact fetched _ _ (course_of_fetchInstance hends) admitted (instanceKey_inj.1 hkey)
  · exact ⟨fun h => h value rfl, fun h found hfound => Except.ok.inj hfound ▸ h⟩

/-- Whoever reads an instance through its cache stores the machine with its tags, if it is that of
the machine. -/
theorem keeps_getInstance (f : Fleet) (id : String) :
    Keeps (machineReliance owner vm tags)
      (fun r => ∀ found, r = .ok found →
        storesAdmitted owner vm.id (· = .ofMachine vm tags) ⟨f.owner, .instances⟩ (instanceKey id)
          found)
      (f.getInstance id).run := by
  refine keeps_getInstance_guarding f id fun trace found course admitted hid => ?_
  subst hid
  rcases course.eq_or_failed admitted with hfound | ⟨e, -, he⟩
  · exact Except.ok.inj hfound
  · cases he

/-- The instance of a machine is found, unless the look-up of the machine fails. -/
theorem getInstance_of_admits {f : Fleet} {r : Except ResourceError Instance}
    (h : Ends (f.getInstance vm.id).run trace r) (howner : f.owner = owner)
    (admitted : ∀ x ∈ trace, (machineReliance owner vm tags).Admits x)
    (served : ∀ e, ⟨.act (.serveCall (lookup vm.id)), .error e⟩ ∉ trace) :
    r = .ok (.ofMachine vm tags) := by
  cases r with
  | ok found =>
      exact congrArg Except.ok
        (((keeps_getInstance f vm.id).ends h admitted) found rfl howner rfl)
  | error e =>
      obtain ⟨own, hown, rfl⟩ := Routine.ends_cached_error h
      obtain ⟨hfetch, -⟩ := List.forall_mem_append.1 admitted
      rcases (course_of_fetchInstance hown).eq_or_failed
        (fun x hx => hfetch x (List.mem_append_right _ hx)) with hfound | ⟨e, he, -⟩
      · cases hfound
      · exact absurd (by simp [he]) (served e)

/-- What is found of a machine once its tags were asked for. -/
def Fleet.managed? (vm : VirtualMachine) :
    Except Cloud.CallError (List Cloud.ResourceTag) → Option Instance
  | .ok tags =>
      let found := Instance.ofMachine vm (tagTable tags)
      if found.isManaged then some found else none
  | .error _ => none

theorem Fleet.id_of_managed? {reply : Except Cloud.CallError (List Cloud.ResourceTag)}
    {found : Instance} (h : managed? vm reply = some found) : found.id = vm.id := by
  cases reply with
  | error e => cases h
  | ok tags =>
      rw [managed?] at h
      split at h
      · obtain rfl := Option.some.inj h
        rfl
      · cases h

/-- The managed instances among machines are what is found of one after another, each by a call for
its tags. -/
theorem exists_founds_of_managedInstances {machines : List VirtualMachine}
    {instances : List Instance} (h : Ends (Fleet.managedInstances machines) trace instances) :
    ∃ founds, instances = founds.reduceOption ∧ List.Forall₂ (fun other found => ∃ own reply,
      (∀ x ∈ own, x ∈ trace) ∧ Ends (Program.call (.listTags ⟨other.id, .machine⟩)) own reply ∧
        found = Fleet.managed? other reply) machines founds := by
  induction machines generalizing trace instances with
  | nil =>
      obtain ⟨-, rfl⟩ := Routine.ends_pure.1 h
      exact ⟨[], rfl, .nil⟩
  | cons other rest ih =>
      obtain ⟨reply, own, later, rfl, hown, hlater⟩ := ends_bind.1 h
      obtain ⟨others, hidden, last, rfl, hothers, hlast⟩ := ends_bind.1 hlater
      obtain ⟨founds, rfl, hfounds⟩ := ih hothers
      refine ⟨Fleet.managed? other reply :: founds, ?_,
        .cons ⟨own, reply, fun x hx => by simp [hx], hown, rfl⟩ (hfounds.imp ?_)⟩
      · cases reply with
        | error e => exact (Routine.ends_pure.1 hlast).2
        | ok tags =>
            obtain ⟨-, rfl⟩ := Routine.ends_pure.1 hlast
            rw [Fleet.managed?]
            split
            · exact (List.reduceOption_cons_of_some _ _).symm
            · exact (List.reduceOption_cons_of_none _).symm
      · rintro vm found ⟨part, answer, sub, hcall, hfound⟩
        exact ⟨part, answer, fun x hx => by simp [sub x hx], hcall, hfound⟩

/-- Among managed instances the machine is found once for every time that it was listed, if its tags
can be listed. -/
theorem filter_managedInstances {machines : List VirtualMachine} {instances : List Instance}
    (h : Ends (Fleet.managedInstances machines) trace instances)
    (managed : tags.contains Tag.managedBy = true)
    (admitted : ∀ x ∈ trace, (machineReliance owner vm tags).Admits x)
    (served : ∀ e, ⟨.act (.serveCall (.listTags ⟨vm.id, .machine⟩)), .error e⟩ ∉ trace) :
    (instances.filter fun i => i.id = vm.id) =
      (machines.filter fun other => other.id = vm.id).map fun other => .ofMachine other tags := by
  obtain ⟨founds, rfl, hfounds⟩ := exists_founds_of_managedInstances h
  clear h
  induction hfounds with
  | nil => rfl
  | @cons other found rest founds hfound _ ih =>
      obtain ⟨own, reply, sub, hcall, rfl⟩ := hfound
      obtain ⟨hserved, hreply⟩ := admits_of_ends_call hcall (by simp [Cloud.Call.operation])
        fun x hx => admitted x (sub x hx)
      by_cases hid : other.id = vm.id
      · rw [hid] at hserved hreply
        have hfound : Fleet.managed? other reply = some (.ofMachine other tags) := by
          cases reply with
          | error e => exact absurd (sub _ hserved) (served e)
          | ok listed =>
              have htags : tagTable listed = tags := by
                rw [hreply rfl listed rfl]
                exact tagTable_tagsOn vm tags
              rw [Fleet.managed?, htags]
              exact if_pos managed
        rw [hfound, List.reduceOption_cons_of_some,
          List.filter_cons_of_pos (by exact decide_eq_true hid),
          List.filter_cons_of_pos (by exact decide_eq_true hid), ih]
        rfl
      · rw [List.filter_cons_of_neg (by simpa using hid), ← ih]
        cases hfound : Fleet.managed? other reply with
        | none => rw [List.reduceOption_cons_of_none]
        | some found =>
            rw [List.reduceOption_cons_of_some,
              List.filter_cons_of_neg (by simpa [Fleet.id_of_managed? hfound] using hid)]

/-- A listing finds the machine once, unless it fails or the tags of the machine cannot be listed. -/
theorem filter_listInstances {r : Except ResourceError (List Instance)}
    (h : Ends Fleet.listInstances.run trace r) (managed : tags.contains Tag.managedBy = true)
    (admitted : ∀ x ∈ trace, (machineReliance owner vm tags).Admits x)
    (listed : ∀ e, ⟨.act (.serveCall (.listMachines {})), .error e⟩ ∉ trace)
    (served : ∀ e, ⟨.act (.serveCall (.listTags ⟨vm.id, .machine⟩)), .error e⟩ ∉ trace) :
    ∃ instances, r = .ok instances ∧
      (instances.filter fun i => i.id = vm.id) = [.ofMachine vm tags] := by
  rcases ends_tryCall_bind h with ⟨e, rfl, hcall⟩ | ⟨page, look, rest, rfl, hcall, hrest⟩
  · obtain ⟨hserved, -⟩ := admits_of_ends_call hcall (by simp [Cloud.Call.operation]) admitted
    exact absurd hserved (listed e)
  · obtain ⟨admittedLook, admittedRest⟩ := List.forall_mem_append.1 admitted
    obtain ⟨instances, hinstances, rfl⟩ := ends_run_lift.1 hrest
    refine ⟨instances, rfl, ?_⟩
    rw [filter_managedInstances hinstances managed admittedRest fun e he => served e (by simp [he])]
    obtain ⟨-, hpage⟩ := admits_of_ends_call hcall (by simp [Cloud.Call.operation]) admittedLook
    rw [(hpage _ rfl).2.1 rfl]
    rfl

end Reading

namespace Provisioner

variable {o : Provisioner} {providerId id : String} {trace : List (Exchange fleetSignature)}

/-- What a provisioner gives for the provider identifier of a machine is the claim behind its
instance. -/
theorem ends_get {r : Except NodeError NodeClaim} (hparse : ProviderId.parse providerId = .ok id)
    (h : Ends (o.get providerId).run trace r) :
    ∃ own result rest, trace = own ++ rest ∧ Ends (o.fleet.getInstance id).run own result ∧
      ∀ found, result = .ok found → ∃ today, r = .ok (found.toClaim today) := by
  rw [get, hparse] at h
  obtain ⟨parsed, none, asking, rfl, hparsed, hasking⟩ := (ends_run_bind.1 h).resolve_left (by
    rintro ⟨e, -, hfailed⟩
    cases (Routine.ends_pure.1 hfailed).2)
  obtain ⟨rfl, hid⟩ := Routine.ends_pure.1 hparsed
  obtain rfl := Except.ok.inj hid
  rcases ends_surface_bind hasking with ⟨e, rfl, hends⟩ | ⟨found, own, rest, rfl, hends, hrest⟩
  · exact ⟨asking, _, [], (List.append_nil _).symm, hends, fun found hfound => (nomatch hfound)⟩
  · obtain ⟨today, rest, rfl, hdone⟩ := ends_lift_request_bind.1 hrest
    refine ⟨own, _, _, rfl, hends, fun found hfound => ⟨today, ?_⟩⟩
    rw [← Except.ok.inj hfound]
    exact (Routine.ends_run_pure.1 hdone).2

/-- What a provisioner lists are the claims behind the managed instances. -/
theorem ends_list {r : Except NodeError (List NodeClaim)} (h : Ends list.run trace r) :
    (∃ e, r = .error (.resource e) ∧ Ends Fleet.listInstances.run trace (.error e)) ∨
      ∃ own instances today, trace = own ++ [⟨.act .today, today⟩] ∧
        Ends Fleet.listInstances.run own (.ok instances) ∧
        r = .ok (instances.map fun i => i.toClaim today) := by
  rcases ends_surface_bind h with ⟨e, he, hends⟩ | ⟨instances, own, rest, rfl, hends, hrest⟩
  · exact .inl ⟨e, he, hends⟩
  · obtain ⟨today, last, rfl, hdone⟩ := ends_lift_request_bind.1 hrest
    obtain ⟨rfl, rfl⟩ := Routine.ends_run_pure.1 hdone
    exact .inr ⟨own, instances, today, rfl, hends, rfl⟩

variable {asks : Request fleetSignature → Prop}

theorem obeys_surface {α : Type} (wrap : ResourceError → NodeError) {x : Attempt ResourceError α}
    (hx : Obeys asks (fun _ => True) x.run) : Obeys asks (fun _ => True) (surface wrap x).run := by
  refine hx.bind fun r _ => ?_
  cases r <;> trivial

end Provisioner

theorem Request.looks_of_callsPlainly {ops : List Cloud.Operation}
    (hops : ∀ op ∈ ops, op ∉ Cloud.Operation.changing) {request : Request fleetSignature}
    (h : CallsPlainly ops request) : request.Looks :=
  looks_of_callsOnly hops h.callsOnly

/-- Getting an instance changes no machine and no tag. -/
theorem Fleet.looks_getInstance (f : Fleet) (id : String) :
    Obeys Request.Looks (fun _ => True) (f.getInstance id).run := by
  refine Routine.obeys_cached ?_ Request.looks_of_not_act fun _ => trivial
  exact (obeys_fetchInstance id).mono (fun _ => Request.looks_of_callsPlainly (by decide))
    fun _ h => h

namespace Demand

/-- A demand that is met by looking. -/
def Looks : Demand → Prop
  | .get _ => True
  | .list => True
  | _ => False

variable {demand : Demand}

/-- Meeting a demand to look changes no machine and no tag. -/
theorem Looks.obeys (h : demand.Looks) (o : Provisioner) :
    Obeys Request.Looks (fun _ => True) (o.serve demand) := by
  cases demand with
  | get providerId =>
      refine obeys_then trivial fun id => ?_
      refine obeys_then (Provisioner.obeys_surface _ (o.fleet.looks_getInstance id)) fun found => ?_
      exact obeys_then (Routine.obeys_run_lift ⟨trivial, fun _ => trivial⟩) fun _ => trivial
  | list =>
      refine obeys_then (Provisioner.obeys_surface _ ?_) fun instances => ?_
      · exact Fleet.obeys_listInstances.mono (fun _ => Request.looks_of_callsPlainly (by decide))
          fun _ h => h
      · exact obeys_then (Routine.obeys_run_lift ⟨trivial, fun _ => trivial⟩) fun _ => trivial
  | _ => exact h.elim

end Demand

end NodeFleet
