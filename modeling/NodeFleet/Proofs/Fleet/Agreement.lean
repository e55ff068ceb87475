import NodeFleet.Proofs.Fleet.Creation

/-!
# A launch follows the reconciled node class

Reconciling a node class and launching for it resolve the same terms by different ways: the one
writes what they resolve to into a status, the other goes through instance types, their requirements
and the first of each list. On a fixed stock both ways lead to the same resources, whenever their
caches expire. So a launch for a node class that was left ready deploys once, with the first entries
of its status and the zone that was validated, and can only fail after that.
-/

namespace NodeFleet

open Routine (Ends Obeys Keeps ends_run_bind ends_run_bind_ok ends_bind ends_lift_request_bind
  ends_request_bind)
open Program (CallsOnly Waited waited_ok waited_error)
open Cloud (Inventory DeployRequest)

section Deploys

/-- The machine that a question requests. -/
def Request.deploys? : Request fleetSignature → Option DeployRequest
  | .act (.beginCall (.deployMachine request)) => some request
  | _ => none

/-- The machines that a trace requests, in order. -/
def deploysIn (trace : List (Exchange fleetSignature)) : List DeployRequest :=
  trace.filterMap fun x => x.request.deploys?

variable {first second trace : List (Exchange fleetSignature)}

@[simp] theorem deploysIn_append :
    deploysIn (first ++ second) = deploysIn first ++ deploysIn second :=
  List.filterMap_append

@[simp] theorem deploysIn_nil : deploysIn [] = [] := rfl

theorem deploysIn_cons (x : Exchange fleetSignature) :
    deploysIn (x :: trace) = x.request.deploys?.toList ++ deploysIn trace := by
  rw [deploysIn, List.filterMap_cons]
  cases x.request.deploys? <;> rfl

theorem deploysIn_eq_nil (h : ∀ x ∈ trace, x.request.deploys? = none) : deploysIn trace = [] :=
  List.filterMap_eq_nil_iff.2 h

theorem deploys?_of_callsOnly {ops : List Cloud.Operation} (hops : .deployMachine ∉ ops)
    {request : Request fleetSignature} (h : CallsOnly ops request) : request.deploys? = none := by
  cases request with
  | act action =>
      cases action with
      | beginCall c =>
          cases c with
          | deployMachine r => exact absurd h hops
          | _ => rfl
      | _ => rfl
  | _ => rfl

theorem deploysIn_of_callsOnly {ops : List Cloud.Operation} (hops : .deployMachine ∉ ops)
    (h : ∀ x ∈ trace, CallsOnly ops x.request) : deploysIn trace = [] :=
  deploysIn_eq_nil fun x hx => deploys?_of_callsOnly hops (h x hx)

theorem deploysIn_of_ends_call {request : DeployRequest} {reply : Except Cloud.CallError _}
    (h : Ends (Program.call (.deployMachine request)) trace reply) :
    deploysIn trace = [request] := by
  obtain ⟨-, -, -, opening, rest, rfl, hrest⟩ := ends_call h
  rw [deploysIn_cons, deploysIn_eq_nil fun x hx => ?_]
  · rfl
  · have hcalled := hrest x hx
    obtain ⟨question, answer⟩ := x
    cases question with
    | act action =>
        cases action with
        | beginCall c => cases hcalled
        | _ => rfl
    | _ => rfl

end Deploys

/-- What terms resolve to in a listing is not empty. -/
theorem Selectable.exists_cons_of_resolve {R : Type} [Selectable R]
    {listed : Except ResourceError (List R)} {resolved : List R} {terms : List Criteria}
    {zone : String} (h : (listed >>= fun items => resolve items terms zone) = .ok resolved) :
    ∃ item rest, resolved = item :: rest := by
  cases listed with
  | error e => cases h
  | ok items =>
      change resolve items terms zone = .ok resolved at h
      rw [resolve] at h
      split at h
      next => cases h
      next hne =>
        obtain rfl := Except.ok.inj h
        exact List.exists_cons_of_ne_nil hne

/-- What goes on from a value that is sure to come. -/
theorem Program.keeps_then {α β ε : Type} {R : Reliance fleetSignature} {x : Attempt ε α}
    {f : α → Attempt ε β} {a : α} {results : Except ε β → Prop}
    (hx : Keeps R (fun r => r = .ok a) x.run) (hf : Keeps R results (f a).run) :
    Keeps R results (x >>= f).run := by
  refine hx.run_bind (fun e h => (nomatch h)) fun b h => ?_
  obtain rfl := Except.ok.inj h
  exact hf

/-- Where nothing fails, a question is answered by what the stock makes. -/
theorem Query.keeps_expected (f : Fleet) (q : Query) (inv : Inventory) :
    Keeps (listingReliance (fun _ => none) inv) (fun r => r = q.expected inv) (q.attempt f).run :=
  (q.keeps_attempt f rfl).mono fun _ h => h.eq

/-- What a stock makes of the terms of a node class, next to the zone that it names. -/
structure Resolves (inv : Inventory) (spec : NodeClassSpec) (zone : Zone) (r : Resolution) :
    Prop where
  zone : (Query.enabledZone spec.zone).expected inv = .ok zone
  networks : (Query.resolveNetworks spec.networkTerms spec.zone).expected inv = .ok r.networks
  templates : (Query.resolveTemplates spec.templateTerms spec.zone).expected inv = .ok r.templates
  offerings : (Query.resolveOfferings spec.offeringTerms spec.zone).expected inv = .ok r.offerings

namespace Resolves

variable {inv : Inventory} {spec : NodeClassSpec} {zone : Zone} {r : Resolution}
  (h : Resolves inv spec zone r)

include h

theorem exists_network : ∃ network rest, r.networks = network :: rest :=
  Selectable.exists_cons_of_resolve h.networks

theorem exists_template : ∃ template rest, r.templates = template :: rest :=
  Selectable.exists_cons_of_resolve h.templates

theorem exists_offering : ∃ offering rest, r.offerings = offering :: rest :=
  Selectable.exists_cons_of_resolve h.offerings

theorem lookupZone : (Query.lookupZone spec.zone).expected inv = .ok zone := by
  have hzone := h.zone
  change (Cloud.Inventory.found inv.zoneList _ _ _ >>= _) = _ at hzone
  cases hfound : Cloud.Inventory.found inv.zoneList
      (fun z => z.name = spec.zone || z.id = spec.zone) "zone" spec.zone with
  | error e =>
      rw [hfound] at hzone
      cases hzone
  | ok found =>
      rw [hfound] at hzone
      change (if found.isEnabled then _ else _) = _ at hzone
      split at hzone
      · exact hfound.trans hzone
      · cases hzone

theorem instanceTypes {c : NodeClass} (hspec : c.spec = spec) :
    (Query.instanceTypes c).expected inv = .ok (r.offerings.map (·.offeredIn spec.zone)) := by
  subst hspec
  have hofferings := h.offerings
  change Selectable.resolve inv.offeringList _ _ = _ at hofferings
  change (Selectable.resolve inv.offeringList _ _ >>= _) = _
  rw [hofferings]
  rfl

end Resolves

/-- The service offering that is chosen among offered instance types is the first one. -/
theorem Fleet.chooseOffering_offered {f : Fleet} (choose : f.chooseType = firstAvailable?)
    (offering : ServiceOffering) (rest : List ServiceOffering) (zone : String) :
    f.chooseOffering ((offering :: rest).map (·.offeredIn zone)) = .ok offering.id := by
  have hchosen : f.chooseType ((offering :: rest).map (·.offeredIn zone)) =
      some (offering.offeredIn zone) := by
    rw [choose]
    rfl
  have hid : (offering.offeredIn zone).requirement? Label.serviceOfferingId = some offering.id := by
    rw [InstanceType.requirement?]
    exact congrArg (fun values => Option.bind values List.head?)
      ((Table.get?_insert _ _ _ _).trans (if_pos rfl))
  rw [chooseOffering, hchosen]
  dsimp only
  rw [hid]

section Launch

variable {f : Fleet} {c : NodeClass} {claim : NodeClaim} {token : Token} {inv : Inventory}
  {zone : Zone} {resolution : Resolution} {trace : List (Exchange fleetSignature)}

/-- The request that a resolution makes, from the first entry of each of its lists. -/
def Resolution.Requests (resolution : Resolution) (f : Fleet) (c : NodeClass) (claim : NodeClaim)
    (zone : Zone) (request : DeployRequest) : Prop :=
  ∃ network networks template templates offering offerings,
    resolution = ⟨network :: networks, template :: templates, offering :: offerings⟩ ∧
      request = f.deployRequest c.spec claim offering.id zone network template

/-- A plan for what a stock resolves makes the request of the resolution. -/
theorem Resolves.keeps_plan (h : Resolves inv c.spec zone resolution)
    (choose : f.chooseType = firstAvailable?) :
    Keeps (listingReliance (fun _ => none) inv)
      (fun r => ∃ request, r = .ok request ∧ resolution.Requests f c claim zone request)
      (f.plan c claim (resolution.offerings.map (·.offeredIn c.spec.zone))).run := by
  obtain ⟨network, networks, hnetworks⟩ := h.exists_network
  obtain ⟨template, templates, htemplates⟩ := h.exists_template
  obtain ⟨offering, offerings, hofferings⟩ := h.exists_offering
  have hzone := (Query.lookupZone c.spec.zone).keeps_expected f inv
  have hnets := (Query.resolveNetworks c.spec.networkTerms c.spec.zone).keeps_expected f inv
  have htemps := (Query.resolveTemplates c.spec.templateTerms c.spec.zone).keeps_expected f inv
  rw [h.lookupZone] at hzone
  rw [h.networks, hnetworks] at hnets
  rw [h.templates, htemplates] at htemps
  rw [hofferings]
  refine Program.keeps_then (Fleet.chooseOffering_offered choose offering offerings _) ?_
  refine Program.keeps_then hzone (Program.keeps_then hnets (Program.keeps_then htemps ?_))
  exact ⟨_, rfl, network, networks, template, templates, offering, offerings,
    by rw [← hnetworks, ← htemplates, ← hofferings], rfl⟩

theorem obeys_undeploying {α : Type} {ops : List Cloud.Operation} {p : Program α}
    {yields : α → Prop} (hops : .deployMachine ∉ ops)
    (h : Obeys (Program.CallsPlainly ops) yields p) :
    Obeys (fun request => request.deploys? = none) yields p :=
  h.mono (fun _ h => deploys?_of_callsOnly hops h.callsOnly) fun _ h => h

/-- Once it deployed, a launch requests no other machine, and nothing but its waits fails. -/
theorem obeys_afterDeploy (f : Fleet) (c : NodeClass) (claim : NodeClaim) (token : Token)
    (reply : Cloud.DeployReply) :
    Obeys (fun request => request.deploys? = none) Waited
      (do
        f.finishJob "deploy virtual machine" reply.jobId token
        Program.log claim.name .polling
        let vm ← f.awaitState reply.id Cloud.VirtualMachine.running token
        f.register c claim vm : Attempt ResourceError Instance).run := by
  have herror {α β : Type} (e : ResourceError) (h : Waited (.error e : Except ResourceError α)) :
      Waited (.error e : Except ResourceError β) := waited_error (h e rfl)
  refine Obeys.run_bind (obeys_undeploying (by decide) (f.obeys_finishJob _ _ token)) herror
    fun _ _ => ?_
  have hlog : Obeys (fun request : Request fleetSignature => request.deploys? = none) Waited
      (liftM (Program.log claim.name .polling) : Attempt ResourceError Unit).run :=
    Routine.obeys_run_lift ⟨rfl, fun _ => waited_ok _⟩
  refine hlog.run_bind herror fun _ _ => ?_
  refine Obeys.run_bind (obeys_undeploying (by decide) (f.obeys_awaitState _ _ token)) herror
    fun vm _ => ?_
  have hmark : Obeys (fun request : Request fleetSignature => request.deploys? = none)
      (fun _ => True) (Program.call (.createTags ⟨[vm.id], .machine, f.machineTags c claim⟩)) :=
    obeys_undeploying (by decide)
      (Program.obeys_call (List.mem_singleton_self Cloud.Operation.createTags))
  exact Routine.obeys_run_lift (hmark.bind fun _ _ => ⟨rfl, fun _ => waited_ok _⟩)

theorem deploysIn_deployment {request : DeployRequest} {r : Except ResourceError Instance}
    (h : Ends (f.deployment c claim token request).run trace r) :
    deploysIn trace = [request] ∧ Waited r := by
  obtain ⟨_, rest, rfl, hdeploy⟩ := ends_lift_request_bind.1 h
  rw [deploysIn_cons, show Request.deploys? _ = none from rfl, Option.toList_none, List.nil_append]
  rcases ends_tryCall_bind hdeploy with ⟨e, rfl, hcall⟩ | ⟨reply, deploy, rest, rfl, hcall, hafter⟩
  · exact ⟨deploysIn_of_ends_call hcall, waited_error trivial⟩
  · obtain ⟨hnone, hwaited⟩ := (obeys_afterDeploy f c claim token reply).ends hafter
    rw [deploysIn_append, deploysIn_of_ends_call hcall, deploysIn_eq_nil hnone]
    exact ⟨rfl, hwaited⟩

/-- A launch from the instance types of a resolution requests what the resolution does. -/
theorem Resolves.launch (h : Resolves inv c.spec zone resolution)
    (choose : f.chooseType = firstAvailable?) {r : Except ResourceError Instance}
    (launched : Ends (f.createInstance c claim
      (resolution.offerings.map (·.offeredIn c.spec.zone)) token).run trace r)
    (admitted : ∀ x ∈ trace, (listingReliance (fun _ => none) inv).Admits x)
    (uncancelled : ∀ answer, ⟨.isCancelled token, answer⟩ ∈ trace → answer = false) :
    ∃ request, deploysIn trace = [request] ∧ resolution.Requests f c claim zone request ∧
      Waited r := by
  cases Fleet.planCourse_of_createInstance launched with
  | refused parts => cases uncancelled true (by simp [parts])
  | unplanned hplan parts =>
      obtain ⟨_, he, _⟩ :=
        (h.keeps_plan choose).ends hplan fun x hx => admitted x (by simp [parts, hx])
      cases he
  | @planned plan _ request _ hplan hdeploy parts =>
      subst parts
      obtain ⟨_, hrequest, hrequests⟩ :=
        (h.keeps_plan choose).ends hplan fun x hx => admitted x (by simp [hx])
      cases hrequest
      have hplanned : deploysIn plan = [] :=
        deploysIn_of_callsOnly (by decide) ((f.obeys_plan c claim _).ends hplan).1
      obtain ⟨hdeploys, hwaited⟩ := deploysIn_deployment hdeploy
      refine ⟨request, ?_, hrequests, hwaited⟩
      simp [deploysIn_cons, Request.deploys?, hplanned, hdeploys]

end Launch

section Creation

variable {o : Provisioner} {claim : NodeClaim} {c : NodeClass} {name : String} {inv : Inventory}
  {zone : Zone} {resolution : Resolution} {trace : List (Exchange fleetSignature)}

/-- Launching for a node class whose terms resolve deploys once, as they resolve, and fails only
after that. -/
theorem Resolves.create (h : Resolves inv c.spec zone resolution)
    (choose : o.fleet.chooseType = firstAvailable?) {r : Except NodeError NodeClaim}
    (launched : Ends (o.launchFor claim c).run trace r)
    (admitted : ∀ x ∈ trace, (listingReliance (fun _ => none) inv).Admits x)
    (uncancelled : ∀ answer, ⟨.isCancelled o.shutdown, answer⟩ ∈ trace → answer = false) :
    ∃ request, deploysIn trace = [request] ∧
      resolution.Requests o.fleet c claim zone request ∧
      ∀ e, r = .error e → ∃ source, e = .resource source ∧ source.OfWaiting := by
  have htypes := (Query.instanceTypes c).keeps_expected o.fleet inv
  rw [h.instanceTypes rfl] at htypes
  rcases Provisioner.ends_launchFor launched with
    ⟨e, rfl, hfailed⟩ | ⟨types, listing, launch, hlisted, hlaunched⟩
  · cases htypes.ends hfailed admitted
  have hlisting : deploysIn listing = [] := deploysIn_of_callsOnly (by decide)
    (((Query.instanceTypes c).obeys_attempt o.fleet).ends hlisted).1
  rcases hlaunched with ⟨e, rfl, rfl, hlaunch⟩ | ⟨instance', today, rfl, rfl, hlaunch⟩
  · cases htypes.ends hlisted fun x hx => admitted x (by simp [hx])
    obtain ⟨request, hdeploys, hrequests, hwaited⟩ := h.launch choose hlaunch
      (fun x hx => admitted x (by simp [hx])) fun answer hx => uncancelled answer (by simp [hx])
    refine ⟨request, by rw [deploysIn_append, hlisting, hdeploys]; rfl, hrequests, fun e' he => ?_⟩
    cases he
    exact ⟨e, rfl, hwaited e rfl⟩
  · cases htypes.ends hlisted fun x hx => admitted x (by simp [hx])
    obtain ⟨request, hdeploys, hrequests, -⟩ := h.launch choose hlaunch
      (fun x hx => admitted x (by simp [hx])) fun answer hx => uncancelled answer (by simp [hx])
    refine ⟨request, ?_, hrequests, fun e he => (nomatch he)⟩
    rw [deploysIn_append, deploysIn_append, hlisting, hdeploys]
    rfl

end Creation

section Reconciliation

variable {f : Fleet} {c after : NodeClass} {retryAfter : Option Nat} {inv : Inventory}
  {trace : List (Exchange fleetSignature)}

/-- The zone of a node class is looked up at the start of a trace, and found to be enabled. -/
def Validated (f : Fleet) (spec : NodeClassSpec) (zone : Zone)
    (trace : List (Exchange fleetSignature)) : Prop :=
  ∃ own rest, trace = own ++ rest ∧ Ends (f.enabledZone spec.zone).run own (.ok zone)

theorem ends_inStage {α : Type} {stage : Stage} {x : Attempt ResourceError α} {a : α}
    (h : Ends (Fleet.inStage stage x).run trace (.ok a)) : Ends x.run trace (.ok a) := by
  obtain ⟨result, own, rest, rfl, hown, hrest⟩ := ends_bind.1 h
  cases result with
  | ok b =>
      obtain ⟨rfl, hb⟩ := Routine.ends_pure.1 hrest
      cases hb
      exact (List.append_nil own).symm ▸ hown
  | error e => cases (Routine.ends_pure.1 hrest).2

/-- The stages of a pass that came to its end resolve the terms on the stock. -/
theorem resolves_of_resolveAll {spec : NodeClassSpec} {resolution : Resolution}
    (h : Ends (f.resolveAll spec).run trace (.ok resolution))
    (admitted : ∀ x ∈ trace, (listingReliance (fun _ => none) inv).Admits x) :
    ∃ zone, Resolves inv spec zone resolution ∧ Validated f spec zone trace := by
  obtain ⟨zone, first, rest, rfl, hzone, hrest⟩ := ends_run_bind_ok h
  obtain ⟨networks, second, rest, rfl, hnetworks, hrest⟩ := ends_run_bind_ok hrest
  obtain ⟨templates, third, rest, rfl, htemplates, hrest⟩ := ends_run_bind_ok hrest
  obtain ⟨offerings, fourth, rest, rfl, hofferings, hrest⟩ := ends_run_bind_ok hrest
  obtain ⟨rfl, hresolution⟩ := Routine.ends_run_pure.1 hrest
  cases hresolution
  have hzone := ends_inStage hzone
  have hexpected (q : Query) {own : List (Exchange fleetSignature)} {a : q.Answer}
      (hown : Ends (q.attempt f).run own (.ok a)) (hsub : ∀ x ∈ own,
        x ∈ first ++ (second ++ (third ++ (fourth ++ [])))) : q.expected inv = .ok a :=
    ((q.keeps_expected f inv).ends hown fun x hx => admitted x (hsub x hx)).symm
  refine ⟨zone, ⟨?_, ?_, ?_, ?_⟩, first, _, rfl, hzone⟩
  · exact hexpected (.enabledZone spec.zone) hzone fun x hx => by simp [hx]
  · exact hexpected (.resolveNetworks _ _) (ends_inStage hnetworks) fun x hx => by simp [hx]
  · exact hexpected (.resolveTemplates _ _) (ends_inStage htemplates) fun x hx => by simp [hx]
  · exact hexpected (.resolveOfferings _ _) (ends_inStage hofferings) fun x hx => by simp [hx]

theorem find?_putCondition {condition : Condition} {type : String}
    (htype : condition.type = type) (conditions : List Condition) :
    ∃ found, (putCondition condition conditions).find? (fun c => c.type = type) = some found ∧
      found.status = condition.status := by
  subst htype
  induction conditions with
  | nil => exact ⟨condition, by simp [putCondition], rfl⟩
  | cons old rest ih =>
      obtain ⟨found, hfound, hstatus⟩ := ih
      rw [putCondition]
      by_cases htype : old.type = condition.type
      · rw [if_pos htype]
        refine ⟨_, List.find?_cons_of_pos ?_, ?_⟩
        · split <;> simp
        · split <;> rfl
      · rw [if_neg htype]
        exact ⟨found, by rw [List.find?_cons_of_neg (by simp [htype]), hfound], hstatus⟩

/-- A node class is ready when its ready condition was set last as one that is met. -/
theorem isReady_setCondition (c : NodeClass) {condition : Condition}
    (htype : condition.type = Condition.ready) :
    (c.setCondition condition).isReady = decide (condition.status = .met) := by
  have hobserved : ({ condition with observedGeneration := c.generation } : Condition).type =
      Condition.ready := htype
  obtain ⟨found, hfound, hstatus⟩ := find?_putCondition hobserved c.status.conditions
  rw [NodeClass.isReady, NodeClass.condition?, NodeClass.setCondition, hfound]
  exact congrArg (fun status => decide (status = ConditionStatus.met)) hstatus

/-- A pass that leaves a node class ready has come to the end of its stages. -/
theorem stages_of_reconcile (h : Ends (f.reconcile c) trace (after, retryAfter))
    (kept : c.isDeleting = false) (ready : after.isReady = true) :
    ∃ resolution stages time, trace = stages ++ [⟨.act .today, time⟩] ∧
      Ends (f.resolveAll c.spec).run stages (.ok resolution) ∧
      after = (resolution.record c).setCondition (readyCondition time (.ok ())) := by
  rw [Fleet.reconcile, if_neg (by rw [kept]; decide)] at h
  obtain ⟨result, stages, rest, rfl, hstages, hrest⟩ := ends_bind.1 h
  cases result with
  | error failed =>
      obtain ⟨time, tail, rfl, hdone⟩ := ends_request_bind.1 hrest
      obtain ⟨rfl, hafter⟩ := Routine.ends_pure.1 hdone
      obtain ⟨rfl, -⟩ := Prod.mk.inj hafter
      rw [isReady_setCondition c rfl] at ready
      cases ready
  | ok resolution =>
      obtain ⟨time, tail, rfl, hdone⟩ := ends_request_bind.1 hrest
      obtain ⟨rfl, hafter⟩ := Routine.ends_pure.1 hdone
      obtain ⟨rfl, -⟩ := Prod.mk.inj hafter
      exact ⟨resolution, stages, time, rfl, hstages, rfl⟩

/-- A pass that leaves a node class ready has resolved its terms, and the status lists what they
resolve to. -/
theorem resolves_of_reconcile (h : Ends (f.reconcile c) trace (after, retryAfter))
    (admitted : ∀ x ∈ trace, (listingReliance (fun _ => none) inv).Admits x)
    (kept : c.isDeleting = false) (ready : after.isReady = true) :
    ∃ zone resolution time, Resolves inv c.spec zone resolution ∧ Validated f c.spec zone trace ∧
      after = (resolution.record c).setCondition (readyCondition time (.ok ())) := by
  obtain ⟨resolution, stages, time, rfl, hstages, hafter⟩ := stages_of_reconcile h kept ready
  obtain ⟨zone, hresolves, own, rest, rfl, hzone⟩ :=
    resolves_of_resolveAll hstages fun x hx => admitted x (by simp [hx])
  exact ⟨zone, resolution, time, hresolves, ⟨own, _, List.append_assoc _ _ _, hzone⟩, hafter⟩

end Reconciliation

/-- A request takes the first entries of a status, and a zone. -/
structure Agrees (request : DeployRequest) (status : NodeClassStatus) (zone : Zone) : Prop where
  network : ∃ network, status.networks.head? = some network ∧ request.networkIds = [network.id]
  template : ∃ template, status.templates.head? = some template ∧
    request.templateId = template.id
  offering : ∃ offering, status.offerings.head? = some offering ∧ request.offeringId = offering.id
  zone : request.zoneId = zone.id

theorem Resolution.Requests.agrees {resolution : Resolution} {f : Fleet} {c after : NodeClass}
    {claim : NodeClaim} {zone : Zone} {request : DeployRequest} {condition : Condition}
    (h : resolution.Requests f after claim zone request)
    (hafter : after = (resolution.record c).setCondition condition) :
    Agrees request after.status zone := by
  obtain ⟨network, networks, template, templates, offering, offerings, rfl, rfl⟩ := h
  subst hafter
  exact ⟨⟨_, rfl, rfl⟩, ⟨_, rfl, rfl⟩, ⟨_, rfl, rfl⟩, rfl⟩

section History

variable {inv : Inventory} {w : WorldState} {parties : List Party}
  {events : List (Event fleetWorld)} {d : Config fleetWorld Outcome}

/-- A history next to a cloud of a fixed stock in which nothing fails as a whole. -/
def Undisturbed (inv : Inventory) (events : List (Event fleetWorld)) : Prop :=
  ∀ e ∈ events, inv.SameStock e.before.world.cloud ∧ e.before.world.cloud.failures = []

/-- Along an undisturbed history of fair parties from empty caches, every answer is such as the stock
makes. -/
theorem Steps.admits (h : Steps (Config.start (.initial w) (parties.map Party.program)) events d)
    (fair : ∀ party ∈ parties, party.Fair) (undisturbed : Undisturbed inv events) (i : Nat) :
    ∀ x ∈ traceOf i events, (listingReliance (fun _ => none) inv).Admits x := by
  have hholds : (listingReliance (fun _ => none) inv).Holds
      (Config.start (.initial w : FleetState) (parties.map Party.program)).shared :=
    Reliance.Holds.congr (Reliance.holds_of_empty fun _ => rfl) (Config.caches_start _ _)
  have hkeeps (k : Nat) (p : Program Outcome)
      (hp : (Config.start (.initial w : FleetState) (parties.map Party.program)).routines[k]? =
        some p) : p.Keeps (listingReliance (fun _ => none) inv) fun _ => True := by
    obtain ⟨party, hparty, rfl⟩ := List.mem_map.1 (List.mem_of_getElem? hp)
    exact (fair party hparty).program.keeps
  have hacts : ∀ e ∈ events, e.Yields (listingReliance (fun _ => none) inv) := by
    intro e he
    obtain ⟨stock, failures⟩ := undisturbed e he
    have hnone : e.before.world.cloud.failure? = fun _ => none := by
      funext op
      rw [Inventory.failure?, failures]
      rfl
    rw [← hnone]
    exact Event.yields_of_sameStock stock
  obtain ⟨-, -, hadmits⟩ := h.keeps hholds hkeeps hacts
  intro x hx
  obtain ⟨e, he, rfl⟩ := exists_turn_of_mem hx
  exact hadmits e (mem_turnsOf.1 he).1

/-- In a history a provisioner passes over a node class and leaves it ready, and a launch for a claim
finds it stored like that, is not cancelled before it deploys, and ends. -/
structure ReadyLaunch (o : Provisioner) (parties : List Party) (events : List (Event fleetWorld))
    (d : Config fleetWorld Outcome) (i j : Nat) (c after : NodeClass) (claim : NodeClaim)
    (r : Except NodeError NodeClaim) : Prop where
  pass : parties[i]? = some (.serves o (.reconcile c))
  passed : ∃ retryAfter, d.routines[i]? =
    some (.done (.served (.reconcile c) (after, retryAfter)))
  kept : c.isDeleting = false
  ready : after.isReady = true
  launch : parties[j]? = some (.serves o (.create claim))
  launched : d.routines[j]? = some (.done (.served (.create claim) r))
  stored : ∃ name, claim.nodeClassRef = some name ∧ ∀ e ∈ turnsOf j events,
    e.request = .act (.nodeClass name) → e.before.world.nodeClasses.get? name = some after
  uncancelled : ∀ e ∈ turnsOf j events, e.request = .isCancelled o.shutdown →
    o.shutdown ∉ e.before.cancelled

variable (inv w) in
/-- Next to fair parties, from empty caches and on a fixed stock in which nothing fails, a launch for
a node class that a pass has left ready deploys once, with the first network, template and service
offering of its status and the zone that the pass has validated, and it fails at most while it
waits. Every history of fair parties goes on until all are done. -/
theorem launch_agrees_with_reconciliation (fair : ∀ party ∈ parties, party.Fair) :
    (∀ (events : List (Event fleetWorld)) (d : Config fleetWorld Outcome),
      Steps (Config.start (.initial w) (parties.map Party.program)) events d →
      Undisturbed inv events →
      ∀ (settings : Settings) (owner : Nat) (shutdown : Token) (i j : Nat) (c after : NodeClass)
        (claim : NodeClaim) (r : Except NodeError NodeClaim),
        let o := Provisioner.new settings owner shutdown
        ReadyLaunch o parties events d i j c after claim r →
        ∃ zone request, Validated o.fleet c.spec zone (traceOf i events) ∧
          deploysIn (traceOf j events) = [request] ∧ Agrees request after.status zone ∧
          ∀ e, r = .error e → ∃ source, e = .resource source ∧ source.OfWaiting) ∧
    ∀ (events : List (Event fleetWorld)) (d : Config fleetWorld Outcome),
      Steps (Config.start (.initial w) (parties.map Party.program)) events d →
      ∃ later last, Steps d later last ∧
        ∀ k < parties.length, ∃ outcome, last.routines[k]? = some (.done outcome) := by
  constructor
  · intro events d steps undisturbed settings owner shutdown i j c after claim r o h
    have admits := steps.admits fair undisturbed
    have hprogram {k : Nat} {party : Party} (hk : parties[k]? = some party) :
        (parties.map Party.program)[k]? = some party.program := by
      rw [List.getElem?_map, hk]
      rfl
    obtain ⟨retryAfter, hpassed⟩ := h.passed
    have hpass := Party.ends_serves (steps.ends (hprogram h.pass) hpassed)
    obtain ⟨zone, resolution, time, hresolves, hvalidated, hafter⟩ :=
      resolves_of_reconcile hpass (admits i) h.kept h.ready
    have hspec : after.spec = c.spec := by rw [hafter]; rfl
    have hkept : after.isDeleting = false := by rw [hafter]; exact h.kept
    rw [← hspec] at hresolves
    obtain ⟨name, hnamed, hstored⟩ := h.stored
    have hcreate := Party.ends_serves (steps.ends (hprogram h.launch) h.launched)
    obtain ⟨stored, rest, htrace, hrest⟩ := Provisioner.ends_create hnamed hcreate
    have hturn {x : Exchange fleetSignature} (hx : x ∈ rest) : x ∈ traceOf j events := by
      rw [htrace]
      exact List.mem_cons_of_mem _ hx
    obtain ⟨e, he, hexchange⟩ := exists_turn_of_mem (show _ ∈ traceOf j events from
      htrace ▸ List.mem_cons_self)
    obtain ⟨hrequest, hanswer⟩ := Event.stored_of_exchange hexchange
    rw [hstored e he hrequest] at hanswer
    rcases hrest with ⟨c', hc', hlaunched⟩ | ⟨_, _, hunready⟩
    · obtain rfl := Option.some.inj (hanswer.trans hc')
      obtain ⟨request, hdeploys, hrequests, herrors⟩ := hresolves.create rfl hlaunched
        (fun x hx => admits j x (hturn hx)) fun answer hx => by
          obtain ⟨e, he, hexchange⟩ := exists_turn_of_mem (hturn hx)
          obtain ⟨hrequest, hanswer⟩ := Event.cancelled_of_exchange hexchange
          have hnot := h.uncancelled e he hrequest
          rw [← hanswer, List.contains_eq_mem]
          exact decide_eq_false hnot
      refine ⟨zone, request, hvalidated, ?_, hrequests.agrees hafter, herrors⟩
      rw [htrace, deploysIn_cons, hdeploys]
      rfl
    · rcases hunready after hanswer.symm with hdeleting | hready
      · rw [hkept] at hdeleting
        cases hdeleting
      · rw [h.ready] at hready
        cases hready
  · intro events d steps
    exact steps.parties_complete (fun _ => rfl) fair

end History

section Stocked

/-- A cloud with one resource of each kind. -/
def stockedCloud : Inventory where
  zones := [{ id := "z1", name := "zone-1", allocationState := "Enabled" }]
  networks := [{ id := "net1", name := "net-1", zoneId := "z1", state := "Implemented" }]
  templates := [{ id := "t1", name := "template-1", zoneId := "z1", status := "Download Complete",
                  isReady := true, isFeatured := true }]
  offerings := [{ id := "o1", name := "small" }]

/-- A node class that asks for them by name. -/
def stockedClass : NodeClass :=
  .new "class"
    { zone := "zone-1", networkTerms := [.byName "net-1"],
      templateTerms := [.byName "template-1"], offeringTerms := [.byName "small"] }

/-- The node class as a pass leaves it. -/
def reconciledClass : NodeClass :=
  { stockedClass with status :=
    { networks := [⟨"net1", "net-1", "zone-1", ""⟩]
      templates := [⟨"t1", "template-1", "", "zone-1"⟩]
      offerings := [⟨"o1", "small", 0, 0, 0, 0⟩]
      conditions := [{ readyCondition (.ofSeconds 0) (.ok ()) with observedGeneration := 1 }] } }

/-- A claim of the node class. -/
def stockedClaim : NodeClaim :=
  { name := "n1", nodeClassRef := some "class" }

/-- A provisioner of cluster `c1`. -/
def stockedProvisioner : Provisioner :=
  .new { apiUrl := "", apiKey := "", secretKey := "", clusterName := "c1" } 0 0

/-- A pass over the node class, somebody who stores what it comes to, and a launch for the claim. -/
def stockedParties : List Party := [
  .serves stockedProvisioner (.reconcile stockedClass),
  .other (Program.act (.change fun w =>
    { w with nodeClasses := w.nodeClasses.insert "class" reconciledClass })),
  .serves stockedProvisioner (.create stockedClaim)]

/-- The three one after another, with a pause until the machine is looked at. -/
def stockedScript : List Move :=
  [.turns 0 55, .turns 1 1, .turns 2 15, .wait 5000, .turns 2 14]

theorem exists_stocked_history : ∃ events d created,
    Steps (Config.start (.initial (worldOf stockedCloud)) (stockedParties.map Party.program))
      events d ∧ Undisturbed stockedCloud events ∧
    ReadyLaunch stockedProvisioner stockedParties events d 0 2 stockedClass reconciledClass
      stockedClaim (.ok created) := by
  obtain ⟨events, d, steps, ⟨⟨after, retryAfter⟩, hpassed, hafter⟩, ⟨answer, hlaunched, hcreated⟩,
      hevents⟩ :
      ∃ events d, Steps (Config.start (.initial (worldOf stockedCloud) : FleetState)
          (stockedParties.map Party.program)) events d ∧
        (∃ answer ∈ d.answer? 0 (.reconcile stockedClass), answer.1 = reconciledClass) ∧
        (∃ answer ∈ d.answer? 2 (.create stockedClaim), answer.isOk = true) ∧
        ∀ e ∈ events, stockedCloud.SameStock e.before.world.cloud ∧
          e.before.world.cloud.failures = [] ∧ e.before.cancelled = [] ∧
          (e.routine = 2 → e.before.world.nodeClasses.get? "class" = some reconciledClass) :=
    Config.exists_steps_of_follow stockedScript (by decide +kernel)
  obtain rfl : after = reconciledClass := hafter
  obtain ⟨created, rfl⟩ : ∃ created, answer = .ok created := by
    cases answer with
    | ok created => exact ⟨created, rfl⟩
    | error e => cases hcreated
  refine ⟨events, d, created, steps, fun e he => ?_, ?_⟩
  · obtain ⟨stock, failures, -, -⟩ := hevents e he
    exact ⟨stock, failures⟩
  · refine ⟨rfl, ⟨retryAfter, Config.done_of_answer? hpassed⟩, rfl, rfl, rfl,
      Config.done_of_answer? hlaunched, ⟨"class", rfl, fun e he _ => ?_⟩, fun e he _ => ?_⟩
    · obtain ⟨he, hturn⟩ := mem_turnsOf.1 he
      exact (hevents e he).2.2.2 hturn
    · rw [(hevents e (mem_turnsOf.1 he).1).2.2.1]
      exact List.not_mem_nil

/-- The launch deploys one machine as the pass has resolved, and every history of the three goes on to
its end. -/
theorem launch_agrees_with_reconciliation_when_stocked :
    (∃ events d r zone request,
      ReadyLaunch stockedProvisioner stockedParties events d 0 2 stockedClass reconciledClass
        stockedClaim r ∧
      Validated stockedProvisioner.fleet stockedClass.spec zone (traceOf 0 events) ∧
      deploysIn (traceOf 2 events) = [request] ∧ Agrees request reconciledClass.status zone) ∧
    ∃ last : Config fleetWorld Outcome,
      ∀ k < stockedParties.length, ∃ outcome, last.routines[k]? = some (.done outcome) := by
  have fair : ∀ party ∈ stockedParties, party.Fair := by
    simp only [stockedParties, List.forall_mem_cons]
    exact ⟨trivial, ⟨trivial, fun _ => trivial⟩, trivial, fun _ h => (nomatch h)⟩
  have agrees := launch_agrees_with_reconciliation stockedCloud (worldOf stockedCloud) fair
  obtain ⟨events, d, created, steps, undisturbed, hlaunch⟩ := exists_stocked_history
  obtain ⟨zone, request, hvalidated, hdeploys, hagrees, -⟩ :=
    agrees.1 events d steps undisturbed _ _ _ 0 2 _ _ _ (.ok created) hlaunch
  obtain ⟨later, last, -, hdone⟩ := agrees.2 events d steps
  exact ⟨⟨events, d, .ok created, zone, request, hlaunch, hvalidated, hdeploys, hagrees⟩, last, hdone⟩

end Stocked

end NodeFleet
