import NodeFleet.Fleet.Launch
import NodeFleet.Proofs.Routine.Cached
import NodeFleet.Proofs.Routine.Orderly
import NodeFleet.Proofs.Routine.Poll

/-!
# What the programs of a fleet call

Every part of a launch calls a few operations of the cloud only, whatever it is answered. The parts
that resolve what a launch needs call operations that list something, and they never run out of
time.
-/

namespace NodeFleet

open Routine (Obeys)

/-- An error with which a wait may end: the machine is not there, a call has failed, or the time is
up or cut short. -/
def ResourceError.OfWaiting : ResourceError → Prop
  | .notFound kind _ => kind = "instance"
  | .timeout _ => True
  | .cancelled => True
  | .call _ _ => True
  | _ => False

/-- An error with which asking for something may end: not one of a wait that took too long or was cut
short. -/
def ResourceError.OfAsking : ResourceError → Prop
  | .timeout _ => False
  | .cancelled => False
  | _ => True

theorem ofWaiting_ofJobError (context : String) (e : Cloud.CallError) :
    (ResourceError.ofJobError context e).OfWaiting := by
  cases e <;> trivial

namespace Program

/-- A question that calls only some operations of the cloud and acts on nothing else of the
world. -/
def CallsOnly (ops : List Cloud.Operation) : Request fleetSignature → Prop
  | .act (.beginCall c) => c.operation ∈ ops
  | .act (.serveCall c) => c.operation ∈ ops
  | .act (.log _ _) => False
  | .act (.change _) => False
  | _ => True

theorem callsOnly_of_not_act {ops : List Cloud.Operation} (request : Request fleetSignature)
    (h : ∀ action, request ≠ .act action) : CallsOnly ops request := by
  cases request with
  | act action => exact absurd rfl (h action)
  | _ => trivial

theorem CallsOnly.mono {ops more : List Cloud.Operation} (hsub : ops ⊆ more)
    {request : Request fleetSignature} (h : CallsOnly ops request) : CallsOnly more request := by
  cases request with
  | act action =>
      cases action with
      | beginCall c => exact hsub h
      | serveCall c => exact hsub h
      | log subject state => exact h.elim
      | change f => exact h.elim
      | _ => trivial
  | _ => trivial

/-- A question that calls only some operations of the cloud and is otherwise about time. -/
def CallsPlainly (ops : List Cloud.Operation) : Request fleetSignature → Prop
  | .act (.beginCall c) => c.operation ∈ ops
  | .act (.serveCall c) => c.operation ∈ ops
  | request => request.AboutTime

theorem CallsPlainly.callsOnly {ops : List Cloud.Operation} {request : Request fleetSignature}
    (h : CallsPlainly ops request) : CallsOnly ops request := by
  cases request with
  | act action => cases action <;> first | exact h | trivial
  | _ => trivial

theorem CallsPlainly.lockFree {ops : List Cloud.Operation} {request : Request fleetSignature}
    (h : CallsPlainly ops request) : request.LockFree := by
  cases request with
  | acquire cache => exact h.elim
  | release cache => exact h.elim
  | _ => exact ⟨rfl, rfl⟩

theorem callsPlainly_of_aboutTime {ops : List Cloud.Operation} (request : Request fleetSignature)
    (h : request.AboutTime) : CallsPlainly ops request := by
  cases request with
  | act action => exact h.elim
  | _ => exact h

/-- A result that is no timeout. -/
def InTime {α : Type} (r : Except ResourceError α) : Prop :=
  ∀ what, r ≠ .error (.timeout what)

/-- A result whose error, if it is one, is that of asking for something. -/
def Asked {α : Type} (r : Except ResourceError α) : Prop :=
  ∀ e, r = .error e → e.OfAsking

theorem asked_ok {α : Type} (a : α) : Asked (.ok a) :=
  fun _ h => (nomatch h)

theorem asked_error {α : Type} {e : ResourceError} (h : e.OfAsking) :
    Asked (.error e : Except ResourceError α) := by
  intro e' he
  cases he
  exact h

theorem Asked.inTime {α : Type} {r : Except ResourceError α} (h : Asked r) : InTime r :=
  fun what hr => h (.timeout what) hr

/-- A result whose error, if it is one, is that of a wait. -/
def Waited {α : Type} (r : Except ResourceError α) : Prop :=
  ∀ e, r = .error e → e.OfWaiting

theorem waited_ok {α : Type} (a : α) : Waited (.ok a) :=
  fun _ h => (nomatch h)

theorem waited_error {α : Type} {e : ResourceError} (h : e.OfWaiting) :
    Waited (.error e : Except ResourceError α) := by
  intro e' he
  cases he
  exact h

section Obeys

variable {α β : Type} {ops : List Cloud.Operation} {asks : Request fleetSignature → Prop}

theorem callsOnly {p : Program α} {yields : α → Prop} (h : Obeys (CallsPlainly ops) yields p) :
    Obeys (CallsOnly ops) yields p :=
  h.mono (fun _ => CallsPlainly.callsOnly) fun _ => id

theorem orderly {p : Program α} {yields : α → Prop} {rank : CacheId → Nat} {bound : Nat}
    (h : Obeys (CallsPlainly ops) yields p) : p.Orderly rank bound [] :=
  Routine.orderly_of_lockFree (h.mono (fun _ => CallsPlainly.lockFree) fun _ => id)

/-- The questions of a call are among those that may be asked. -/
structure MayCall (asks : Request fleetSignature → Prop) (c : Cloud.Call) : Prop where
  begins : asks (.act (.beginCall c))
  serves : asks (.act (.serveCall c))
  time (request : Request fleetSignature) (h : request.AboutTime) : asks request

theorem mayCall_plainly {c : Cloud.Call} (h : c.operation ∈ ops) : MayCall (CallsPlainly ops) c :=
  ⟨h, h, callsPlainly_of_aboutTime⟩

theorem mayCall_only {c : Cloud.Call} (h : c.operation ∈ ops) : MayCall (CallsOnly ops) c :=
  ⟨h, h, fun request hr => (callsPlainly_of_aboutTime request hr).callsOnly⟩

theorem MayCall.obeys_call {c : Cloud.Call} (may : MayCall asks c) :
    Obeys asks (fun _ => True) (call c) := by
  refine ⟨may.begins, fun opening => ?_⟩
  cases opening with
  | answered reply => trivial
  | delayed latency =>
      refine ⟨may.time .now trivial, fun start => ⟨may.time _ trivial, fun wake => ?_⟩⟩
      exact ⟨may.serves, fun reply => trivial⟩

theorem MayCall.obeys_tryCall {c : Cloud.Call} (may : MayCall asks c) (context : String) :
    Obeys asks Asked (tryCall context c).run := by
  refine Obeys.bind may.obeys_call fun reply _ => ?_
  cases reply with
  | ok reply => exact asked_ok reply
  | error e => exact asked_error trivial

theorem obeys_call {c : Cloud.Call} (h : c.operation ∈ ops) :
    Obeys (CallsPlainly ops) (fun _ => True) (call c) :=
  (mayCall_plainly h).obeys_call

theorem obeys_tryCall {c : Cloud.Call} (context : String) (h : c.operation ∈ ops) :
    Obeys (CallsPlainly ops) Asked (tryCall context c).run :=
  (mayCall_plainly h).obeys_tryCall context

theorem obeys_tryCall_waited {c : Cloud.Call} (context : String) (h : c.operation ∈ ops) :
    Obeys (CallsPlainly ops) Waited (tryCall context c).run := by
  refine Obeys.bind (obeys_call h) fun reply _ => ?_
  cases reply with
  | ok reply => exact waited_ok reply
  | error e => exact waited_error trivial

/-- Attempts whose results do not matter may follow one another. -/
theorem obeys_then {ε : Type} {asks : Request fleetSignature → Prop} {x : Attempt ε α}
    {f : α → Attempt ε β} (hx : Obeys asks (fun _ => True) x.run)
    (hf : ∀ a, Obeys asks (fun _ => True) (f a).run) :
    Obeys asks (fun _ => True) (x >>= f).run :=
  Obeys.run_bind hx (fun _ _ => trivial) fun a _ => hf a

/-- Attempts that ask may follow one another. -/
theorem obeys_bind {x : Attempt ResourceError α} {f : α → Attempt ResourceError β}
    (hx : Obeys asks Asked x.run) (hf : ∀ a, Obeys asks Asked (f a).run) :
    Obeys asks Asked (x >>= f).run := by
  apply Obeys.run_bind hx
  · intro e he
    exact asked_error (he e rfl)
  · intro a _
    exact hf a

theorem obeys_lift {p : Program α} (h : Obeys asks (fun _ => True) p) :
    Obeys asks Asked (liftM p : Attempt ResourceError α).run :=
  Routine.obeys_run_lift (h.mono (fun _ => id) fun a _ => asked_ok a)

theorem obeys_findOrThrow (items : List α) (test : α → Bool) (kind name : String) :
    Obeys asks Asked (findOrThrow items test kind name).run := by
  rw [findOrThrow]
  cases items.find? test with
  | some item => exact asked_ok item
  | none => exact asked_error trivial

theorem obeys_resolve {R : Type} [Selectable R] (candidates : List R) (terms : List Criteria)
    (zone : String) :
    Obeys asks Asked
      (ExceptT.mk (pure (Selectable.resolve candidates terms zone)) :
        Attempt ResourceError (List R)).run := by
  intro e h
  rw [Selectable.resolve] at h
  split at h <;> cases h
  trivial

theorem obeys_tagsOf_of (id : String) (kind : Cloud.ResourceKind)
    (may : MayCall asks (.listTags ⟨id, kind⟩)) :
    Obeys asks (fun _ => True) (tagsOf id kind) := by
  refine may.obeys_call.bind fun reply _ => ?_
  cases reply <;> trivial

theorem obeys_withTags_of {R T : Type} {kind : Cloud.ResourceKind} {id : R → String}
    {make : R → Table String → T} (may : ∀ id, MayCall asks (.listTags ⟨id, kind⟩))
    (records : List R) : Obeys asks (fun _ => True) (withTags kind id make records) := by
  induction records with
  | nil => trivial
  | cons r rest ih =>
      exact (obeys_tagsOf_of (id r) kind (may (id r))).bind fun tags _ =>
        ih.bind fun others _ => trivial

theorem obeys_templateBatches_of (may : ∀ query, MayCall asks (.listTemplates query))
    (zoneId : String) (filters : List Cloud.TemplateFilter) :
    Obeys asks (fun _ => True) (templateBatches zoneId filters) := by
  induction filters with
  | nil => trivial
  | cons filter rest ih =>
      exact (may { filter, zoneId := some zoneId }).obeys_call.bind
        fun batch _ => ih.bind fun others _ => trivial

theorem obeys_withTags {R T : Type} {kind : Cloud.ResourceKind} {id : R → String}
    {make : R → Table String → T} (records : List R) (h : .listTags ∈ ops) :
    Obeys (CallsPlainly ops) (fun _ => True) (withTags kind id make records) :=
  obeys_withTags_of (fun _ => mayCall_plainly h) records

theorem obeys_templateBatches (zoneId : String) (filters : List Cloud.TemplateFilter)
    (h : .listTemplates ∈ ops) :
    Obeys (CallsPlainly ops) (fun _ => True) (templateBatches zoneId filters) :=
  obeys_templateBatches_of (fun _ => mayCall_plainly h) zoneId filters

end Obeys

end Program

namespace Fleet

open Program

/-- The operations by which a launch resolves what it needs. -/
def resolving : List Cloud.Operation :=
  [.listZones, .listNetworks, .listTemplates, .listTags]

variable (f : Fleet)

section Listings

variable {asks : Request fleetSignature → Prop}
  (free : ∀ request, (∀ action, request ≠ .act action) → asks request)

include free

theorem obeys_zones_of (zones : ∀ query, MayCall asks (.listZones query)) :
    Obeys asks Asked f.zones.run := by
  refine Routine.obeys_cached ?_ free asked_ok
  exact obeys_bind ((zones _).obeys_tryCall _) fun records => asked_ok _

theorem obeys_lookupZone_of (zones : ∀ query, MayCall asks (.listZones query))
    (idOrName : String) : Obeys asks Asked (f.lookupZone idOrName).run :=
  obeys_bind (f.obeys_zones_of free zones) fun zones => obeys_findOrThrow zones _ _ _

theorem obeys_networks_of (zones : ∀ query, MayCall asks (.listZones query))
    (networks : ∀ query, MayCall asks (.listNetworks query))
    (tags : ∀ id, MayCall asks (.listTags ⟨id, .network⟩)) (zone : String) :
    Obeys asks Asked (f.networks zone).run := by
  refine Routine.obeys_cached ?_ free asked_ok
  refine obeys_bind (f.obeys_lookupZone_of free zones zone) fun found => ?_
  refine obeys_bind ((networks _).obeys_tryCall _) fun records => ?_
  exact obeys_lift (obeys_withTags_of tags records)

theorem obeys_templates_of (zones : ∀ query, MayCall asks (.listZones query))
    (templates : ∀ query, MayCall asks (.listTemplates query))
    (tags : ∀ id, MayCall asks (.listTags ⟨id, .template⟩)) (zone : String) :
    Obeys asks Asked (f.templates zone).run := by
  refine Routine.obeys_cached ?_ free asked_ok
  refine obeys_bind (f.obeys_lookupZone_of free zones zone) fun found => ?_
  refine obeys_bind (obeys_lift (obeys_templateBatches_of templates _ _)) fun batches => ?_
  cases joinBatches batches with
  | ok records => exact obeys_lift (obeys_withTags_of tags _)
  | error e => exact asked_error trivial

theorem obeys_offerings_of (offerings : ∀ query, MayCall asks (.listOfferings query))
    (zone : String) : Obeys asks Asked (f.offerings zone).run := by
  refine Routine.obeys_cached ?_ free asked_ok
  exact obeys_bind ((offerings _).obeys_tryCall _) fun records => asked_ok _

end Listings

theorem mayCall_listZones (query : Cloud.ZoneQuery) :
    MayCall (CallsOnly resolving) (.listZones query) :=
  mayCall_only (show .listZones ∈ resolving by decide)

theorem mayCall_listNetworks (query : Cloud.NetworkQuery) :
    MayCall (CallsOnly resolving) (.listNetworks query) :=
  mayCall_only (show .listNetworks ∈ resolving by decide)

theorem mayCall_listTemplates (query : Cloud.TemplateQuery) :
    MayCall (CallsOnly resolving) (.listTemplates query) :=
  mayCall_only (show .listTemplates ∈ resolving by decide)

theorem mayCall_listTags (query : Cloud.TagQuery) :
    MayCall (CallsOnly resolving) (.listTags query) :=
  mayCall_only (show .listTags ∈ resolving by decide)

theorem obeys_zones : Obeys (CallsOnly resolving) Asked f.zones.run :=
  f.obeys_zones_of callsOnly_of_not_act mayCall_listZones

theorem obeys_lookupZone (idOrName : String) :
    Obeys (CallsOnly resolving) Asked (f.lookupZone idOrName).run :=
  f.obeys_lookupZone_of callsOnly_of_not_act mayCall_listZones idOrName

theorem obeys_networks (zone : String) :
    Obeys (CallsOnly resolving) Asked (f.networks zone).run :=
  f.obeys_networks_of callsOnly_of_not_act mayCall_listZones mayCall_listNetworks
    (fun _ => mayCall_listTags _) zone

theorem obeys_templates (zone : String) :
    Obeys (CallsOnly resolving) Asked (f.templates zone).run :=
  f.obeys_templates_of callsOnly_of_not_act mayCall_listZones mayCall_listTemplates
    (fun _ => mayCall_listTags _) zone

theorem obeys_offerings (zone : String) {ops : List Cloud.Operation} (h : .listOfferings ∈ ops) :
    Obeys (CallsOnly ops) Asked (f.offerings zone).run :=
  f.obeys_offerings_of callsOnly_of_not_act (fun _ => mayCall_only h) zone

theorem obeys_chooseOffering (candidates : List InstanceType) :
    Obeys (CallsOnly resolving) Asked
      (ExceptT.mk (pure (f.chooseOffering candidates)) : Attempt ResourceError String).run := by
  intro e h
  rw [chooseOffering] at h
  cases hchosen : f.chooseType candidates with
  | none =>
      rw [hchosen] at h
      cases h
      trivial
  | some chosen =>
      rw [hchosen] at h
      dsimp only at h
      cases hid : chosen.requirement? Label.serviceOfferingId with
      | none =>
          rw [hid] at h
          cases h
          trivial
      | some id =>
          rw [hid] at h
          cases h

/-- Planning a launch lists zones, networks, templates and tags, and neither runs out of time nor is
cancelled. -/
theorem obeys_plan (c : NodeClass) (claim : NodeClaim) (candidates : List InstanceType) :
    Obeys (CallsOnly resolving) Asked (f.plan c claim candidates).run := by
  refine obeys_bind (f.obeys_chooseOffering candidates) fun offeringId => ?_
  refine obeys_bind (f.obeys_lookupZone _) fun zone => ?_
  refine obeys_bind (obeys_bind (f.obeys_networks _) fun _ => obeys_resolve _ _ _)
    fun networks => ?_
  refine obeys_bind (obeys_bind (f.obeys_templates _) fun _ => obeys_resolve _ _ _)
    fun templates => ?_
  cases networks.head? with
  | none => exact asked_error trivial
  | some network =>
      cases templates.head? with
      | none => exact asked_error trivial
      | some template => exact asked_ok _

/-- Waiting for a job queries jobs only. -/
theorem obeys_finishJob (context : String) (jobId : Option String) (token : Token) :
    Obeys (CallsPlainly [.queryJob]) Waited (f.finishJob context jobId token).run := by
  cases jobId with
  | none => exact waited_ok _
  | some id =>
      have hpoll : Obeys (CallsPlainly [.queryJob]) (fun _ => True)
          (Program.awaitJob id f.settings.jobTimeout token) := by
        refine Routine.obeys_poll (fun _ => True) ?_ callsPlainly_of_aboutTime
          (fun _ _ => trivial) trivial trivial
        refine (obeys_call (by simp [Cloud.Call.operation])).bind fun reply _ => ?_
        cases reply <;> trivial
      have hlift : Obeys (CallsPlainly [.queryJob])
          (fun r => ∀ e : ResourceError, r ≠ .error e)
          (liftM (Program.awaitJob id f.settings.jobTimeout token) :
            Attempt ResourceError _).run :=
        Routine.obeys_run_lift (hpoll.mono (fun _ h => h) fun _ _ _ h => (nomatch h))
      refine Obeys.run_bind hlift (fun e h => absurd rfl (h e)) fun r _ => ?_
      cases r with
      | ok payload => exact waited_ok _
      | error e => exact waited_error (ofWaiting_ofJobError context e)

/-- Waiting for a machine lists machines only. -/
theorem obeys_awaitState (id target : String) (token : Token) :
    Obeys (CallsPlainly [.listMachines]) Waited (f.awaitState id target token).run := by
  have hcheck : Obeys (CallsPlainly [.listMachines]) Waited (checkState id target) := by
    refine Obeys.run_bind (obeys_tryCall_waited _ (by simp [Cloud.Call.operation]))
      (fun e he => waited_error (he e rfl)) fun page _ => ?_
    cases page.items.head? with
    | none => exact waited_error rfl
    | some vm => exact waited_ok _
  refine Routine.obeys_poll Waited hcheck callsPlainly_of_aboutTime (fun result h => ?_)
    (waited_error trivial) (waited_error trivial)
  cases result with
  | ok vm => exact waited_ok _
  | error e => exact waited_error (h e rfl)

/-- Looking for machines lists machines and tags only. -/
theorem obeys_fetchInstance (id : String) :
    Obeys (CallsPlainly [.listMachines, .listTags]) (fun _ => True) (fetchInstance id).run := by
  refine obeys_then ((obeys_tryCall _ (by simp [Cloud.Call.operation])).mono (fun _ h => h)
    fun _ _ => trivial) fun page => ?_
  cases page.items.head? with
  | none => trivial
  | some vm =>
      refine obeys_then (Routine.obeys_run_lift (obeys_call (by simp [Cloud.Call.operation])))
        fun reply => ?_
      cases reply <;> trivial

theorem obeys_managedInstances (machines : List Cloud.VirtualMachine) :
    Obeys (CallsPlainly [.listMachines, .listTags]) (fun _ => True)
      (managedInstances machines) := by
  induction machines with
  | nil => trivial
  | cons vm rest ih =>
      refine (obeys_call (by simp [Cloud.Call.operation])).bind fun reply _ => ?_
      refine ih.bind fun others _ => ?_
      cases reply <;> trivial

theorem obeys_listInstances :
    Obeys (CallsPlainly [.listMachines, .listTags]) (fun _ => True) listInstances.run :=
  obeys_then ((obeys_tryCall _ (by simp [Cloud.Call.operation])).mono (fun _ h => h)
    fun _ _ => trivial) fun page => Routine.obeys_run_lift (obeys_managedInstances page.items)

end Fleet

end NodeFleet
