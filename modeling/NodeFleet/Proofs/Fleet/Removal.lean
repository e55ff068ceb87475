import NodeFleet.Proofs.Cloud.Machine
import NodeFleet.Proofs.Fleet.Order
import NodeFleet.Proofs.Fleet.Serving
import NodeFleet.Proofs.Routine.Script

/-!
# Removing a machine that is missing

A removal looks its machine up, in its cache or in the cloud, and then asks the cloud to destroy
it. A machine that the cloud no longer has when it is looked up counts as removed. One that was
found, in the cache or shortly before, and is gone when the cloud is asked to destroy it does not:
the removal fails with the error of the cloud. In both cases the inventory stays as it is.
-/

namespace NodeFleet

open Routine (Ends Obeys ends_bind ends_lift_bind ends_lift_request_bind)
open Program (CallsOnly callsOnly obeys_call)

namespace Cloud

namespace Inventory

variable {inv : Inventory} {id : String}

theorem machine?_eq_none_iff : inv.machine? id = none ↔ ∀ vm ∈ inv.machines, vm.id ≠ id := by
  simp [machine?]

/-- Where nothing is listed no machine was asked for. -/
theorem admits_of_listed_nil {runningAfter : Option Nat} {q : MachineQuery}
    {sightings : Table Nat} {machines : List VirtualMachine}
    (h : (sightAll runningAfter q sightings machines).2.1 = []) :
    ∀ vm ∈ machines, q.admits vm = false := by
  induction machines generalizing sightings with
  | nil => exact fun vm hvm => (nomatch hvm)
  | cons vm rest ih =>
      rw [sightAll] at h
      cases hvm : q.admits vm with
      | true =>
          rw [if_pos hvm] at h
          cases h
      | false =>
          rw [if_neg (by simp [hvm])] at h
          exact List.forall_mem_cons.2 ⟨hvm, ih h⟩

/-- A listing that lists nothing changes nothing. -/
theorem listMachines_of_listed_nil {q : MachineQuery}
    (h : (inv.listMachines q).1.items.head? = none) : (inv.listMachines q).2 = inv := by
  have hlisted : (sightAll inv.runningAfter q inv.sightings inv.machines).2.1 = [] :=
    List.map_eq_nil_iff.1 (List.head?_eq_none_iff.1 h)
  rw [listMachines, sightAll_of_admits_none _ _ (admits_of_listed_nil hlisted)]

/-- Looking a missing machine up lists nothing and changes nothing. -/
theorem listMachines_of_missing (h : inv.machine? id = none) :
    inv.listMachines { id := some id } = (.ofList [], inv) := by
  have hnone : ∀ vm ∈ inv.machines, MachineQuery.admits { id := some id } vm = false := by
    intro vm hvm
    have hid := machine?_eq_none_iff.1 h vm hvm
    simp [MachineQuery.admits, Cloud.admits, hid]
  rw [listMachines, sightAll_of_admits_none _ _ hnone]
  rfl

/-- Destroying a missing machine fails and changes nothing. -/
theorem destroy_of_missing (h : inv.machine? id = none) (expunge : Bool) :
    inv.destroy ⟨id, expunge⟩ = (.error (absent s!"Unable to find VM by id {id}"), inv) := by
  rw [destroy, h]

end Inventory

end Cloud

open Cloud (lookup destruction)

namespace Program

variable {α β : Type} {ops : List Cloud.Operation}

/-- A question in which nothing is served but some operations. -/
def ServesOnly (ops : List Cloud.Operation) (request : Request fleetSignature) : Prop :=
  ∀ call, request = .act (.serveCall call) → call.operation ∈ ops

theorem servesOnly {p : Program α} {yields : α → Prop} (h : Obeys (CallsOnly ops) yields p) :
    Obeys (ServesOnly ops) yields p := by
  refine h.mono ?_ fun _ h => h
  rintro request hcalls call rfl
  exact hcalls

end Program

open Program (ServesOnly servesOnly obeys_then)

namespace Fleet

variable {f : Fleet} {id : String} {token : Token} {trace : List (Exchange fleetSignature)}

/-- The tags of a machine that was found: those listed, or those of its record. -/
def foundTags (vm : Cloud.VirtualMachine) :
    Except Cloud.CallError (List Cloud.ResourceTag) → Table String
  | .ok tags => tagTable tags
  | .error _ => tagTable vm.tags

/-- How the fetch of an instance went, with the parts of its trace. -/
inductive FetchCourse (id : String) (trace : List (Exchange fleetSignature)) :
    Except ResourceError Instance → Prop
  | failed {e : Cloud.CallError} (looked : Ends (Program.call (lookup id)) trace (.error e)) :
      FetchCourse id trace (.error (.call s!"get VM {id}" e))
  | missing {page : Cloud.Page Cloud.VirtualMachine}
      (looked : Ends (Program.call (lookup id)) trace (.ok page))
      (none : page.items.head? = none) : FetchCourse id trace (.error (.notFound "instance" id))
  | found {look mark : List (Exchange fleetSignature)} {page : Cloud.Page Cloud.VirtualMachine}
      {vm : Cloud.VirtualMachine} {reply : Except Cloud.CallError (List Cloud.ResourceTag)}
      (looked : Ends (Program.call (lookup id)) look (.ok page))
      (head : page.items.head? = some vm)
      (tagged : Ends (Program.call (.listTags ⟨vm.id, .machine⟩)) mark reply)
      (parts : trace = look ++ mark) :
      FetchCourse id trace (.ok (.ofMachine vm (foundTags vm reply)))

theorem course_of_fetchInstance {r : Except ResourceError Instance}
    (h : Ends (fetchInstance id).run trace r) : FetchCourse id trace r := by
  rcases ends_tryCall_bind h with ⟨e, rfl, hcall⟩ | ⟨page, look, rest, rfl, hcall, hrest⟩
  · exact .failed hcall
  cases hhead : page.items.head? with
  | none =>
      simp only [hhead] at hrest
      obtain ⟨rfl, rfl⟩ := Routine.ends_run_throw.1 hrest
      rw [List.append_nil]
      exact .missing hcall hhead
  | some vm =>
      simp only [hhead] at hrest
      obtain ⟨reply, mark, tail, rfl, hmark, htail⟩ := ends_lift_bind.1 hrest
      cases reply with
      | ok tags =>
          obtain ⟨rfl, rfl⟩ := Routine.ends_run_pure.1 htail
          exact .found hcall hhead hmark (by rw [List.append_nil])
      | error e =>
          obtain ⟨rfl, rfl⟩ := Routine.ends_run_pure.1 htail
          exact .found hcall hhead hmark (by rw [List.append_nil])

/-- How the second half of a removal went: what came of asking the cloud to destroy the machine, and
what the removal does with it. -/
inductive DestroyCourse (id : String) (trace : List (Exchange fleetSignature)) :
    Except ResourceError Unit → Prop
  | refused {ask : List (Exchange fleetSignature)} {e : Cloud.CallError}
      (asked : Ends (Program.call (destruction id)) ask (.error e))
      (parts : trace = ⟨.act (.log id .destroying), ()⟩ :: ask) :
      DestroyCourse id trace (.error (.call s!"destroy VM {id}" e))
  | accepted {ask rest : List (Exchange fleetSignature)} {ticket : Cloud.JobTicket}
      {r : Except ResourceError Unit}
      (asked : Ends (Program.call (destruction id)) ask (.ok ticket))
      (finished : ∀ x ∈ rest, ServesOnly [.queryJob] x.request)
      (parts : trace = ⟨.act (.log id .destroying), ()⟩ :: (ask ++ rest)) :
      DestroyCourse id trace r

theorem obeys_afterDestroy (ticket : Cloud.JobTicket) :
    Obeys (ServesOnly [.queryJob]) (fun _ => True)
      (do
        Program.forget f.owner (instanceKey id)
        f.finishJob s!"destroy VM {id}" ticket.jobId token
        Program.log id .destroyed : Attempt ResourceError Unit).run := by
  refine obeys_then ?_ fun _ => obeys_then ?_ fun _ => ?_
  · exact Routine.obeys_run_lift ⟨fun call h => (nomatch h), fun _ => trivial⟩
  · exact (servesOnly (callsOnly (f.obeys_finishJob _ _ token))).mono (fun _ h => h)
      fun _ _ => trivial
  · exact Routine.obeys_run_lift ⟨fun call h => (nomatch h), fun _ => trivial⟩

theorem course_of_destroyInstance {r : Except ResourceError Unit}
    (h : Ends (f.destroyInstance id token).run trace r) : DestroyCourse id trace r := by
  obtain ⟨_, rest, rfl, hrest⟩ := ends_lift_request_bind.1 h
  rcases ends_tryCall_bind hrest with ⟨e, rfl, hcall⟩ | ⟨ticket, ask, rest, rfl, hcall, hafter⟩
  · exact .refused hcall rfl
  · exact .accepted hcall ((f.obeys_afterDestroy ticket).ends hafter).1 rfl

/-- How a removal went: it did not find the machine, or it found it without or with the cloud and
asked the cloud to destroy it. -/
inductive RemovalCourse (f : Fleet) (id : String) (trace : List (Exchange fleetSignature)) :
    Except ResourceError Unit → Prop
  | unfound {look : List (Exchange fleetSignature)} {e : ResourceError}
      (fetched : FetchCourse id look (.error e))
      (parts : trace = Routine.misses (σ := fleetSignature) ⟨f.owner, .instances⟩ (instanceKey id)
        ++ look ++ [⟨.release ⟨f.owner, .instances⟩, ()⟩]) :
      RemovalCourse f id trace (if e.isNotFound then .ok () else .error e)
  | remembered {look rest : List (Exchange fleetSignature)} {r : Except ResourceError Unit}
      (unserved : ∀ x ∈ look, ∀ action, x.request ≠ .act action)
      (destroyed : DestroyCourse id rest r) (parts : trace = look ++ rest) :
      RemovalCourse f id trace r
  | found {before look after rest : List (Exchange fleetSignature)} {found : Instance}
      {r : Except ResourceError Unit} (opened : ∀ x ∈ before, ∀ action, x.request ≠ .act action)
      (fetched : FetchCourse id look (.ok found))
      (closed : ∀ x ∈ after, ∀ action, x.request ≠ .act action)
      (destroyed : DestroyCourse id rest r) (parts : trace = before ++ look ++ after ++ rest) :
      RemovalCourse f id trace r

theorem course_of_deleteInstance {r : Except ResourceError Unit}
    (h : Ends (f.deleteInstance id token).run trace r) : RemovalCourse f id trace r := by
  obtain ⟨looked, look, rest, rfl, hlook, hrest⟩ := ends_bind.1 h
  cases looked with
  | error e =>
      obtain ⟨rfl, rfl⟩ := Routine.ends_pure.1 hrest
      obtain ⟨own, hown, rfl⟩ := Routine.ends_cached_error hlook
      exact .unfound (course_of_fetchInstance hown) (List.append_nil _)
  | ok found =>
      have hdestroyed := course_of_destroyInstance hrest
      rcases Routine.ends_cached_ok_acting hlook with hunserved | ⟨own, hown, rfl⟩
      · exact .remembered hunserved hdestroyed rfl
      · exact .found (fun x => Routine.not_act_of_mem_misses) (course_of_fetchInstance hown)
          (fun x => Routine.not_act_of_mem_closing) hdestroyed rfl

section Served

theorem FetchCourse.servesOnly {r : Except ResourceError Instance} (h : FetchCourse id trace r) :
    ∀ x ∈ trace, ServesOnly [.listMachines, .listTags] x.request := by
  have hcall {c : Cloud.Call} {own : List (Exchange fleetSignature)}
      {reply : Except Cloud.CallError c.Reply} (hown : Ends (Program.call c) own reply)
      (hops : c.operation ∈ [Cloud.Operation.listMachines, .listTags]) :
      ∀ x ∈ own, ServesOnly [.listMachines, .listTags] x.request :=
    ((Program.servesOnly (callsOnly (obeys_call hops))).ends hown).1
  cases h with
  | failed looked => exact hcall looked (by simp [Cloud.Call.operation])
  | missing looked => exact hcall looked (by simp [Cloud.Call.operation])
  | found looked _ tagged parts =>
      intro x hx
      rw [parts] at hx
      rcases List.mem_append.1 hx with hx | hx
      · exact hcall looked (by simp [Cloud.Call.operation]) x hx
      · exact hcall tagged (by simp [Cloud.Call.operation]) x hx

theorem DestroyCourse.servesOnly {r : Except ResourceError Unit} (h : DestroyCourse id trace r) :
    ∀ x ∈ trace, ServesOnly [.destroyMachine, .queryJob] x.request := by
  have hask {own : List (Exchange fleetSignature)}
      {reply : Except Cloud.CallError Cloud.JobTicket}
      (hown : Ends (Program.call (destruction id)) own reply) :
      ∀ x ∈ own, ServesOnly [.destroyMachine, .queryJob] x.request :=
    ((Program.servesOnly (callsOnly (obeys_call (by simp [Cloud.Call.operation])))).ends hown).1
  have hlog : ServesOnly [.destroyMachine, .queryJob] (.act (.log id .destroying)) := by
    intro call h
    cases h
  cases h with
  | refused asked parts =>
      rw [parts]
      exact List.forall_mem_cons.2 ⟨hlog, hask asked⟩
  | accepted asked finished parts =>
      rw [parts]
      refine List.forall_mem_cons.2 ⟨hlog, List.forall_mem_append.2 ⟨hask asked, ?_⟩⟩
      exact fun x hx call h => List.mem_cons_of_mem _ (finished x hx call h)

/-- A fetch whose look-up lists no machine ends there, without having found it. -/
theorem FetchCourse.of_none {r : Except ResourceError Instance} (h : FetchCourse id trace r)
    {page : Cloud.Page Cloud.VirtualMachine} (hnone : page.items.head? = none)
    (hx : (⟨.act (.serveCall (lookup id)), .ok page⟩ : Exchange fleetSignature) ∈ trace) :
    r = .error (.notFound "instance" id) ∧
      ∃ latency start wake, trace = callExchanges (lookup id) latency start wake (.ok page) := by
  cases h with
  | failed looked => cases (served_in_call looked hx).1
  | missing looked _ =>
      obtain ⟨hpage, hcourse⟩ := served_in_call looked hx
      cases hpage
      exact ⟨rfl, hcourse⟩
  | found looked head tagged parts =>
      rw [parts] at hx
      rcases List.mem_append.1 hx with hx | hx
      · cases (served_in_call looked hx).1
        rw [head] at hnone
        cases hnone
      · cases (served_in_call tagged hx).1

/-- Where the cloud does not destroy the machine, its error is the result. -/
theorem DestroyCourse.of_error {r : Except ResourceError Unit} (h : DestroyCourse id trace r)
    {e : Cloud.CallError}
    (hx : (⟨.act (.serveCall (destruction id)), .error e⟩ : Exchange fleetSignature) ∈ trace) :
    r = .error (.call s!"destroy VM {id}" e) := by
  cases h with
  | refused asked parts =>
      rw [parts] at hx
      rcases List.mem_cons.1 hx with hx | hx
      · cases hx
      · cases (served_in_call asked hx).1
        rfl
  | accepted asked finished parts =>
      rw [parts] at hx
      rcases List.mem_cons.1 hx with hx | hx
      · cases hx
      · rcases List.mem_append.1 hx with hx | hx
        · cases (served_in_call asked hx).1
        · exact absurd (finished _ hx _ rfl) (by simp [Cloud.Call.operation])

namespace RemovalCourse

variable {r : Except ResourceError Unit}

/-- A removal whose look-up lists no machine succeeds and does nothing else. -/
theorem of_none (h : RemovalCourse f id trace r) {page : Cloud.Page Cloud.VirtualMachine}
    (hnone : page.items.head? = none)
    (hx : (⟨.act (.serveCall (lookup id)), .ok page⟩ : Exchange fleetSignature) ∈ trace) :
    r = .ok () ∧ ∃ latency start wake, trace =
      Routine.misses (σ := fleetSignature) ⟨f.owner, .instances⟩ (instanceKey id) ++
        callExchanges (lookup id) latency start wake (.ok page) ++
          [⟨.release ⟨f.owner, .instances⟩, ()⟩] := by
  have hdestroy {rest : List (Exchange fleetSignature)} {r : Except ResourceError Unit}
      (h : DestroyCourse id rest r)
      (hx : (⟨.act (.serveCall (lookup id)), .ok page⟩ : Exchange fleetSignature) ∈ rest) :
      False := absurd (h.servesOnly _ hx _ rfl) (by simp [Cloud.Call.operation])
  cases h with
  | unfound fetched parts =>
      rw [parts] at hx
      rcases List.mem_append.1 hx with hx | hx
      · rcases List.mem_append.1 hx with hx | hx
        · exact absurd rfl (Routine.not_act_of_mem_misses hx _)
        · obtain ⟨he, latency, start, wake, hlook⟩ := fetched.of_none hnone hx
          cases he
          exact ⟨rfl, latency, start, wake, hlook ▸ parts⟩
      · cases List.mem_singleton.1 hx
  | remembered unserved destroyed parts =>
      rw [parts] at hx
      rcases List.mem_append.1 hx with hx | hx
      · exact absurd rfl (unserved _ hx _)
      · exact (hdestroy destroyed hx).elim
  | found opened fetched closed destroyed parts =>
      rw [parts] at hx
      simp only [List.mem_append] at hx
      rcases hx with ((hx | hx) | hx) | hx
      · exact absurd rfl (opened _ hx _)
      · cases (fetched.of_none hnone hx).1
      · exact absurd rfl (closed _ hx _)
      · exact (hdestroy destroyed hx).elim

/-- A removal that the cloud refuses fails with the error of the cloud. -/
theorem of_error (h : RemovalCourse f id trace r) {e : Cloud.CallError}
    (hx : (⟨.act (.serveCall (destruction id)), .error e⟩ : Exchange fleetSignature) ∈ trace) :
    r = .error (.call s!"destroy VM {id}" e) := by
  have hfetch {look : List (Exchange fleetSignature)} {r : Except ResourceError Instance}
      (h : FetchCourse id look r)
      (hx : (⟨.act (.serveCall (destruction id)), .error e⟩ : Exchange fleetSignature) ∈ look) :
      False := absurd (h.servesOnly _ hx _ rfl) (by simp [Cloud.Call.operation])
  cases h with
  | unfound fetched parts =>
      rw [parts] at hx
      simp only [List.mem_append] at hx
      rcases hx with (hx | hx) | hx
      · exact absurd rfl (Routine.not_act_of_mem_misses hx _)
      · exact (hfetch fetched hx).elim
      · cases List.mem_singleton.1 hx
  | remembered unserved destroyed parts =>
      rw [parts] at hx
      rcases List.mem_append.1 hx with hx | hx
      · exact absurd rfl (unserved _ hx _)
      · exact destroyed.of_error hx
  | found opened fetched closed destroyed parts =>
      rw [parts] at hx
      simp only [List.mem_append] at hx
      rcases hx with ((hx | hx) | hx) | hx
      · exact absurd rfl (opened _ hx _)
      · exact (hfetch fetched hx).elim
      · exact absurd rfl (closed _ hx _)
      · exact destroyed.of_error hx

end RemovalCourse

end Served

end Fleet

namespace Event

variable {e : Event fleetWorld} {id : String}

/-- A turn in which a call is served that does not fail as a whole, while a machine is missing. -/
structure Misses (id : String) (call : Cloud.Call) (e : Event fleetWorld) : Prop where
  request : e.request = .act (.serveCall call)
  works : e.before.world.cloud.failure? call.operation = none
  missing : e.before.world.cloud.machine? id = none

theorem Misses.exchange {call : Cloud.Call} (h : e.Misses id call) :
    e.exchange = ⟨.act (.serveCall call),
      (e.before.world.cloud.carryOut e.before.world.today call).1⟩ := by
  obtain ⟨i, s, request⟩ := e
  obtain ⟨rfl, works, _⟩ := h
  have hserve := Cloud.Inventory.serve_of_failure?_eq_none s.world.today works
  exact congrArg (fun served : Except Cloud.CallError call.Reply × Cloud.Inventory =>
    (⟨.act (.serveCall call), served.1⟩ : Exchange fleetSignature)) hserve

theorem Misses.lookup_exchange (h : e.Misses id (lookup id)) :
    e.exchange = ⟨.act (.serveCall (lookup id)), .ok (.ofList [])⟩ := by
  rw [h.exchange, Cloud.Inventory.carryOut, Cloud.Inventory.listMachines_of_missing h.missing]

theorem Misses.destruction_exchange (h : e.Misses id (destruction id)) :
    e.exchange = ⟨.act (.serveCall (destruction id)),
      .error (Cloud.Inventory.absent s!"Unable to find VM by id {id}")⟩ := by
  rw [h.exchange, Cloud.Inventory.carryOut, Cloud.Inventory.destroy_of_missing h.missing]

theorem Misses.keepsStores (h : e.Misses id (destruction id)) : e.KeepsStores := by
  rw [KeepsStores, after_served h.request,
    Cloud.Inventory.serve_of_failure?_eq_none _ h.works, Cloud.Inventory.carryOut,
    Cloud.Inventory.destroy_of_missing h.missing]
  exact Cloud.Inventory.sameStores_refl _

/-- A turn that lists no machine keeps the inventory. -/
theorem keepsStores_of_none {q : Cloud.MachineQuery} {page : Cloud.Page Cloud.VirtualMachine}
    (h : e.exchange = ⟨.act (.serveCall (.listMachines q)), .ok page⟩)
    (hnone : page.items.head? = none) : e.KeepsStores := by
  have hrequest : e.request = .act (.serveCall (.listMachines q)) := congrArg Exchange.request h
  have hserved := served h
  rw [KeepsStores, after_served hrequest]
  cases hfailure : e.before.world.cloud.failure? .listMachines with
  | some message =>
      rw [Cloud.Inventory.serve, Cloud.Call.operation, hfailure] at hserved
      cases hserved
  | none =>
      rw [Cloud.Inventory.serve_of_failure?_eq_none _ hfailure, Cloud.Inventory.carryOut] at hserved ⊢
      have hpage := Except.ok.inj hserved
      rw [Cloud.Inventory.listMachines_of_listed_nil (by rw [hpage, hnone])]
      exact Cloud.Inventory.sameStores_refl _

end Event

/-- What a removal that found its machine missing leaves behind, from the shared state in which it
started to its result. -/
structure RemovalRecord (id : String) (i : Nat) (events : List (Event fleetWorld))
    (r : Except ResourceError Unit) : Prop where
  /-- If the machine was missing when it was looked up or when it was to be destroyed, the removal
  succeeds and leaves the inventory alone exactly if it was when it was looked up. -/
  succeeds_iff (missing : ∃ e ∈ turnsOf i events,
      e.Misses id (lookup id) ∨ e.Misses id (destruction id)) :
    (r = .ok () ∧ ∀ e ∈ turnsOf i events, e.KeepsStores) ↔
      ∃ e ∈ turnsOf i events, e.Misses id (lookup id)
  /-- If it was missing when it was to be destroyed, the inventory stays as it is, and the removal
  fails with the error of the cloud. -/
  refused {e : Event fleetWorld} (own : e ∈ turnsOf i events)
    (missed : e.Misses id (destruction id)) :
    e.KeepsStores ∧ r = .error (.call s!"destroy VM {id}"
      (Cloud.Inventory.absent s!"Unable to find VM by id {id}"))

theorem Fleet.RemovalCourse.record {f : Fleet} {id : String} {i : Nat}
    {events : List (Event fleetWorld)} {r : Except ResourceError Unit}
    (h : Fleet.RemovalCourse f id (traceOf i events) r) : RemovalRecord id i events r := by
  have hmem {e : Event fleetWorld} (own : e ∈ turnsOf i events) : e.exchange ∈ traceOf i events :=
    List.mem_map_of_mem own
  have hrefused {e : Event fleetWorld} (own : e ∈ turnsOf i events)
      (missed : e.Misses id (destruction id)) :
      r = .error (.call s!"destroy VM {id}"
        (Cloud.Inventory.absent s!"Unable to find VM by id {id}")) :=
    h.of_error (missed.destruction_exchange ▸ hmem own)
  constructor
  case refused => exact fun own missed => ⟨missed.keepsStores, hrefused own missed⟩
  case succeeds_iff =>
    intro missing
    constructor
    · rintro ⟨hok, -⟩
      obtain ⟨e, own, missed | missed⟩ := missing
      · exact ⟨e, own, missed⟩
      · rw [hrefused own missed] at hok
        cases hok
    · rintro ⟨e, own, missed⟩
      obtain ⟨hok, latency, start, wake, htrace⟩ :=
        h.of_none rfl (missed.lookup_exchange ▸ hmem own)
      refine ⟨hok, fun e own => ?_⟩
      have hexchange := hmem own
      rw [htrace] at hexchange
      simp only [List.mem_append] at hexchange
      rcases hexchange with (hx | hx) | hx
      · exact Event.keepsStores_of_not_act (Routine.not_act_of_mem_misses hx)
      · simp only [callExchanges, List.mem_cons, List.not_mem_nil, or_false] at hx
        rcases hx with hx | hx | hx | hx
        · exact Event.keepsStores_of_beginCall (congrArg Exchange.request hx)
            (by simp [Cloud.Call.operation])
        · exact Event.keepsStores_of_not_act fun action h => by
            rw [show e.request = _ from congrArg Exchange.request hx] at h
            cases h
        · exact Event.keepsStores_of_not_act fun action h => by
            rw [show e.request = _ from congrArg Exchange.request hx] at h
            cases h
        · exact Event.keepsStores_of_none hx rfl
      · exact Event.keepsStores_of_not_act fun action h => by
          rw [show e.request = _ from congrArg Exchange.request (List.mem_singleton.1 hx)] at h
          cases h

/-- A removal that has ended has its record, in every interleaving with other programs. From free
locks every run with programs that take locks in order does end it. -/
theorem removal_leaves_record (f : Fleet) (id : String) (token : Token) :
    (∀ (s : FleetState) (ps : List (Program (Except ResourceError Unit))) (i : Nat)
        (events : List (Event fleetWorld)) (d : Config fleetWorld (Except ResourceError Unit))
        (r : Except ResourceError Unit),
      ps[i]? = some (f.deleteInstance id token).run → Steps (Config.start s ps) events d →
        d.routines[i]? = some (.done r) → RemovalRecord id i events r) ∧
      ∀ (s : FleetState) (others : List (Program (Except ResourceError Unit))),
        (∀ cache, s.queues cache = []) → (∀ p ∈ others, p.IsOrderly) →
          let ps := (f.deleteInstance id token).run :: others
          ∃ events d r, Steps (Config.start s ps) events d ∧
            s.run ps = (d.shared, d.routines.map Shared.result?) ∧
            d.routines[0]? = some (.done r) ∧ RemovalRecord id 0 events r := by
  constructor
  · intro s ps i events d r removal h result
    exact (Fleet.course_of_deleteInstance (h.ends removal result)).record
  · intro s others free orderly ps
    have hall : ∀ p ∈ ps, p.IsOrderly :=
      List.forall_mem_cons.2 ⟨f.orderly_deleteInstance token id, orderly⟩
    obtain ⟨events, d, h, hrun, hdone⟩ := run_completes s ps free hall
    obtain ⟨r, hr⟩ := hdone 0 (Nat.succ_pos _)
    exact ⟨events, d, r, h, hrun, hr, (Fleet.course_of_deleteInstance (h.ends rfl hr)).record⟩

section Stale

/-- A fleet that removes a machine. -/
def removingFleet : Fleet where
  owner := 0
  cacheTtl := 1000
  settings := { clusterName := "c1" }

/-- Empty caches next to a cloud with one machine. -/
def oneMachine : FleetState :=
  .initial
    { cloud := { machines := [{ id := "vm-1", name := "n1", state := "Running", zoneId := "z1" }] }
      nodeClasses := .empty
      today := .ofSeconds 0
      launches := [] }

/-- A look at the machine, its destruction by another client, and its removal. -/
def staleRemoval : List (Program (Except ResourceError Unit)) := [
  (removingFleet.getInstance "vm-1" >>= fun _ => pure ()).run,
  (Program.tryCall "destroy" (destruction "vm-1") >>= fun _ => pure ()).run,
  (removingFleet.deleteInstance "vm-1" 0).run]

/-- The removal finds the machine in its cache, and the cloud does not have it any more. -/
theorem staleRemoval_steps : ∃ events d,
    Steps (Config.start oneMachine staleRemoval) events d ∧
      (∀ e ∈ events, e.before.world.cloud.failures = []) ∧
      (∃ e ∈ turnsOf 2 events, e.Misses "vm-1" (destruction "vm-1")) ∧
      d.routines[2]? = some (.done (.error (.call "destroy VM vm-1"
        (Cloud.Inventory.absent "Unable to find VM by id vm-1")))) := by
  -- The look remembers the machine, another client destroys it, and the removal comes too late.
  obtain ⟨events, d, steps, hresult, failures, e, he, own, request, missing⟩ :
      ∃ events d, Steps (Config.start oneMachine staleRemoval) events d ∧
        d.error? 2 = some (.call "destroy VM vm-1"
          (Cloud.Inventory.absent "Unable to find VM by id vm-1")) ∧
        (∀ e ∈ events, e.before.world.cloud.failures = []) ∧
        ∃ e ∈ events, e.routine = 2 ∧ e.request = .act (.serveCall (destruction "vm-1")) ∧
          e.before.world.cloud.machine? "vm-1" = none :=
    Config.exists_steps_of_follow [.turns 0 13, .turns 1 4, .turns 2 6] (by decide +kernel)
  have works : e.before.world.cloud.failure? (destruction "vm-1").operation = none := by
    rw [Cloud.Inventory.failure?, failures e he]
    rfl
  exact ⟨events, d, steps, failures, ⟨e, mem_turnsOf.2 ⟨he, own⟩, request, works, missing⟩,
    Config.error?_eq_some_iff.1 hresult⟩

/-- The record of a removal that comes too late, and the run of a removal next to a look. -/
theorem removal_leaves_record_of_stale_removal :
    (∃ events d e, Steps (Config.start oneMachine staleRemoval) events d ∧
      d.routines[2]? = some (.done (.error e)) ∧ RemovalRecord "vm-1" 2 events (.error e)) ∧
    ∃ events d r, Steps (Config.start oneMachine
        [(removingFleet.deleteInstance "vm-1" 0).run]) events d ∧
      d.routines[0]? = some (.done r) ∧ RemovalRecord "vm-1" 0 events r := by
  have record := removal_leaves_record removingFleet "vm-1" 0
  constructor
  · obtain ⟨events, d, h, -, -, result⟩ := staleRemoval_steps
    exact ⟨events, d, _, h, result, record.1 _ _ 2 events d _ rfl h result⟩
  · obtain ⟨events, d, r, h, -, result, hrecord⟩ :=
      record.2 oneMachine [] (fun _ => rfl) fun _ hp => (nomatch hp)
    exact ⟨events, d, r, h, result, hrecord⟩

/-- From empty caches, without a failure, a removal may fail because its machine is missing when it
is to be destroyed. -/
theorem exists_removal_of_missing_fails : ∃ events d e,
    Steps (Config.start oneMachine staleRemoval) events d ∧
      (∀ e ∈ events, e.before.world.cloud.failures = []) ∧
      (∃ e ∈ turnsOf 2 events, e.request = .act (.serveCall (destruction "vm-1")) ∧
        e.before.world.cloud.machine? "vm-1" = none) ∧
      d.routines[2]? = some (.done (.error e)) := by
  obtain ⟨events, d, h, failures, ⟨e, own, missed⟩, result⟩ := staleRemoval_steps
  exact ⟨events, d, _, h, failures, ⟨e, own, missed.request, missed.missing⟩, result⟩

end Stale

end NodeFleet
