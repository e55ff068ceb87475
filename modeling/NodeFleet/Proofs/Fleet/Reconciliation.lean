import NodeFleet.Proofs.Fleet.Agreement
import NodeFleet.Proofs.Selection

/-!
# What a pass over a node class does

A pass puts one question about the stock per stage. It leaves a class alone that is being deleted; or
it gets as far as the first stage whose question fails, and sets nothing but the ready condition; or
every question is answered, and the status lists the answers as they stand. Which of the three it is
can be told from the class that the pass leaves, and up to the stage that fails nothing is listed
that belongs to a later one. All this holds whatever the caches hold and whatever the cloud answers.
-/

namespace NodeFleet

open Routine (Ends Obeys ends_run_bind ends_run_bind_ok ends_bind ends_request_bind)
open Program (Asked MayCall)

/-- The stage to which the listing of a call belongs. -/
def Cloud.Call.stage? : Cloud.Call → Option Stage
  | .listZones _ => some .zone
  | .listNetworks _ => some .networks
  | .listTemplates _ => some .templates
  | .listOfferings _ => some .offerings
  | .listTags query =>
      match query.kind with
      | .network => some .networks
      | .template => some .templates
      | .machine => none
  | _ => none

namespace Stage

/-- The stages before a stage. -/
def earlier : Stage → List Stage
  | .zone => []
  | .networks => [.zone]
  | .templates => [.zone, .networks]
  | .offerings => [.zone, .networks, .templates]

/-- A stage is another or comes before it. -/
def UpTo (stage other : Stage) : Prop :=
  stage ∈ other.earlier ∨ stage = other

instance (stage other : Stage) : Decidable (stage.UpTo other) :=
  inferInstanceAs (Decidable (_ ∨ _))

theorem UpTo.trans {first second third : Stage} (h : first.UpTo second)
    (h' : second.UpTo third) : first.UpTo third := by
  revert h h'
  cases first <;> cases second <;> cases third <;> decide

theorem reason_inj {first second : Stage} (h : first.reason = second.reason) : first = second := by
  revert h
  cases first <;> cases second <;> decide

/-- The question about the stock that a stage puts. -/
def query (spec : NodeClassSpec) : Stage → Query
  | .zone => .enabledZone spec.zone
  | .networks => .resolveNetworks spec.networkTerms spec.zone
  | .templates => .resolveTemplates spec.templateTerms spec.zone
  | .offerings => .resolveOfferings spec.offeringTerms spec.zone

/-- A call that belongs to no later stage. -/
def Lists (stage : Stage) (call : Cloud.Call) : Prop :=
  ∃ own, call.stage? = some own ∧ own.UpTo stage

/-- A question that calls nothing but what belongs to no later stage. -/
def MayAsk (stage : Stage) : Request fleetSignature → Prop
  | .act (.beginCall call) => stage.Lists call
  | .act (.serveCall call) => stage.Lists call
  | .act _ => False
  | _ => True

theorem mayAsk_of_not_act (stage : Stage) (request : Request fleetSignature)
    (h : ∀ action, request ≠ .act action) : stage.MayAsk request := by
  cases request with
  | act action => exact absurd rfl (h action)
  | _ => trivial

theorem MayAsk.mono {first second : Stage} (h : first.UpTo second)
    {request : Request fleetSignature} (asks : first.MayAsk request) : second.MayAsk request := by
  have hlists {call : Cloud.Call} (hcall : first.Lists call) : second.Lists call := by
    obtain ⟨own, hown, hupTo⟩ := hcall
    exact ⟨own, hown, hupTo.trans h⟩
  cases request with
  | act action =>
      cases action with
      | beginCall call => exact hlists asks
      | serveCall call => exact hlists asks
      | _ => exact asks.elim
  | _ => trivial

theorem mayCall {stage own : Stage} {call : Cloud.Call} (h : call.stage? = some own)
    (upTo : own.UpTo stage) : MayCall stage.MayAsk call where
  begins := ⟨own, h, upTo⟩
  serves := ⟨own, h, upTo⟩
  time request hr := stage.mayAsk_of_not_act request fun action ha => by
    rw [ha] at hr
    exact hr

/-- The question of a stage lists nothing that belongs to a later stage. -/
theorem obeys_query (f : Fleet) (spec : NodeClassSpec) (stage : Stage) :
    Obeys stage.MayAsk (fun _ => True) ((stage.query spec).attempt f).run := by
  have hsource : Obeys stage.MayAsk Asked ((stage.query spec).source.attempt f).run := by
    cases stage with
    | zone => exact f.obeys_zones_of (mayAsk_of_not_act _) fun _ => mayCall rfl (by decide)
    | networks =>
        exact f.obeys_networks_of (mayAsk_of_not_act _) (fun _ => mayCall rfl (by decide))
          (fun _ => mayCall rfl (by decide)) (fun _ => mayCall rfl (by decide)) _
    | templates =>
        exact f.obeys_templates_of (mayAsk_of_not_act _) (fun _ => mayCall rfl (by decide))
          (fun _ => mayCall rfl (by decide)) (fun _ => mayCall rfl (by decide)) _
    | offerings =>
        exact f.obeys_offerings_of (mayAsk_of_not_act _) (fun _ => mayCall rfl (by decide)) _
  rw [Query.attempt_eq]
  exact hsource.run_bind (fun _ _ => trivial) fun items _ => trivial

end Stage

section Stages

variable {f : Fleet} {spec : NodeClassSpec} {trace : List (Exchange fleetSignature)}

/-- A trace goes through stages one after another, and the question of each is answered. -/
inductive Passes (f : Fleet) (spec : NodeClassSpec) :
    List Stage → List (Exchange fleetSignature) → Prop
  | nil : Passes f spec [] []
  | cons {stage : Stage} {rest : List Stage} {first second : List (Exchange fleetSignature)}
      {answer : (stage.query spec).Answer}
      (answered : Ends ((stage.query spec).attempt f).run first (.ok answer))
      (passes : Passes f spec rest second) : Passes f spec (stage :: rest) (first ++ second)

theorem Passes.asks {stages : List Stage} {last : Stage} (h : Passes f spec stages trace)
    (upTo : ∀ stage ∈ stages, stage.UpTo last) : ∀ x ∈ trace, last.MayAsk x.request := by
  induction h with
  | nil => exact fun x hx => (nomatch hx)
  | @cons stage rest first second answer answered _ ih =>
      obtain ⟨hstage, hrest⟩ := List.forall_mem_cons.1 upTo
      obtain ⟨hasks, -⟩ := (stage.obeys_query f spec).ends answered
      exact List.forall_mem_append.2 ⟨fun x hx => (hasks x hx).mono hstage, ih hrest⟩

/-- What the stages of a pass went through: they came to the first one that fails, or to the end. -/
inductive StagesCourse (f : Fleet) (spec : NodeClassSpec) :
    List (Exchange fleetSignature) → Except (Stage × ResourceError) Resolution → Prop
  | failed {stage : Stage} {e : ResourceError} {before own : List (Exchange fleetSignature)}
      (passes : Passes f spec stage.earlier before)
      (fails : Ends ((stage.query spec).attempt f).run own (.error e)) :
      StagesCourse f spec (before ++ own) (.error (stage, e))
  | resolved {zone : Zone} {r : Resolution}
      {first second third fourth : List (Exchange fleetSignature)}
      (zoned : Ends (f.enabledZone spec.zone).run first (.ok zone))
      (networks : Ends (f.resolveNetworks spec.networkTerms spec.zone).run second (.ok r.networks))
      (templates :
        Ends (f.resolveTemplates spec.templateTerms spec.zone).run third (.ok r.templates))
      (offerings :
        Ends (f.resolveOfferings spec.offeringTerms spec.zone).run fourth (.ok r.offerings)) :
      StagesCourse f spec (first ++ (second ++ (third ++ fourth))) (.ok r)

theorem ends_inStage_error {α : Type} {stage : Stage} {x : Attempt ResourceError α}
    {failure : Stage × ResourceError}
    (h : Ends (Fleet.inStage stage x).run trace (.error failure)) :
    ∃ e, failure = (stage, e) ∧ Ends x.run trace (.error e) := by
  obtain ⟨result, own, rest, rfl, hown, hrest⟩ := ends_bind.1 h
  cases result with
  | ok b => cases (Routine.ends_pure.1 hrest).2
  | error e =>
      obtain ⟨rfl, hfailure⟩ := Routine.ends_pure.1 hrest
      cases hfailure
      exact ⟨e, rfl, (List.append_nil own).symm ▸ hown⟩

theorem course_of_resolveAll {result : Except (Stage × ResourceError) Resolution}
    (h : Ends (f.resolveAll spec).run trace result) : StagesCourse f spec trace result := by
  rcases ends_run_bind.1 h with ⟨_, rfl, hfails⟩ | ⟨zone, first, rest, rfl, hzone, hrest⟩
  · obtain ⟨e, rfl, hown⟩ := ends_inStage_error hfails
    have hpasses : Passes f spec Stage.zone.earlier [] := .nil
    exact .failed hpasses hown
  have hzone := ends_inStage hzone
  rcases ends_run_bind.1 hrest with ⟨_, rfl, hfails⟩ | ⟨networks, second, rest, rfl, hnets, hrest⟩
  · obtain ⟨e, rfl, hown⟩ := ends_inStage_error hfails
    have hpasses : Passes f spec Stage.networks.earlier (first ++ []) := .cons hzone .nil
    rw [List.append_nil] at hpasses
    exact .failed hpasses hown
  have hnets := ends_inStage hnets
  rcases ends_run_bind.1 hrest with ⟨_, rfl, hfails⟩ | ⟨templates, third, rest, rfl, htemps, hrest⟩
  · obtain ⟨e, rfl, hown⟩ := ends_inStage_error hfails
    have hpasses : Passes f spec Stage.templates.earlier (first ++ (second ++ [])) :=
      .cons hzone (.cons hnets .nil)
    rw [List.append_nil] at hpasses
    rw [← List.append_assoc]
    exact .failed hpasses hown
  have htemps := ends_inStage htemps
  rcases ends_run_bind.1 hrest with ⟨_, rfl, hfails⟩ | ⟨offerings, fourth, rest, rfl, hoffs, hrest⟩
  · obtain ⟨e, rfl, hown⟩ := ends_inStage_error hfails
    have hpasses : Passes f spec Stage.offerings.earlier (first ++ (second ++ (third ++ []))) :=
      .cons hzone (.cons hnets (.cons htemps .nil))
    rw [List.append_nil] at hpasses
    rw [← List.append_assoc, ← List.append_assoc, List.append_assoc first]
    exact .failed hpasses hown
  obtain ⟨rfl, rfl⟩ := Routine.ends_run_pure.1 hrest
  rw [List.append_nil]
  exact .resolved hzone hnets htemps (ends_inStage hoffs)

end Stages

section Conditions

/-- A condition is set in a list of conditions: it replaces the first one of its type, or else comes
last, and all others stay as they are. -/
inductive Sets (new : Condition) : List Condition → List Condition → Prop
  | replaces (before : List Condition) {rest : List Condition} {old : Condition}
      (others : ∀ condition ∈ before, condition.type ≠ new.type) (same : old.type = new.type)
      (since : old.status = new.status → new.lastTransition = old.lastTransition) :
      Sets new (before ++ old :: rest) (before ++ new :: rest)
  | appends {conditions : List Condition}
      (others : ∀ condition ∈ conditions, condition.type ≠ new.type) :
      Sets new conditions (conditions ++ [new])

/-- Putting a condition sets it, but for the time since which its status is the same. -/
theorem sets_putCondition (condition : Condition) (conditions : List Condition) :
    ∃ since, Sets { condition with lastTransition := since } conditions
      (putCondition condition conditions) := by
  induction conditions with
  | nil => exact ⟨condition.lastTransition, .appends fun _ h => (nomatch h)⟩
  | cons old rest ih =>
      rw [putCondition]
      by_cases htype : old.type = condition.type
      · rw [if_pos htype]
        by_cases hstatus : old.status = condition.status
        · rw [if_pos hstatus]
          exact ⟨old.lastTransition, .replaces [] (fun _ h => (nomatch h)) htype
            fun _ => rfl⟩
        · rw [if_neg hstatus]
          exact ⟨condition.lastTransition, .replaces [] (fun _ h => (nomatch h)) htype
            fun h => absurd h hstatus⟩
      · rw [if_neg htype]
        obtain ⟨since, hsets⟩ := ih
        refine ⟨since, ?_⟩
        generalize putCondition condition rest = after at hsets ⊢
        cases hsets with
        | @replaces before tail old' others same hsince =>
            exact .replaces (old :: before) (List.forall_mem_cons.2 ⟨htype, others⟩)
              same hsince
        | appends others => exact .appends (List.forall_mem_cons.2 ⟨htype, others⟩)

/-- The condition that was set is the first of its type. -/
theorem Sets.find? {new : Condition} {before after : List Condition} (h : Sets new before after) :
    after.find? (fun condition => condition.type = new.type) = some new := by
  have hskip {conditions rest : List Condition}
      (others : ∀ condition ∈ conditions, condition.type ≠ new.type) :
      (conditions ++ new :: rest).find? (fun condition => condition.type = new.type) =
        some new := by
    rw [List.find?_append, List.find?_eq_none.2 fun x hx => by simpa using others x hx]
    simp
  cases h with
  | replaces _ others => exact hskip others
  | appends others => exact hskip others

end Conditions

section Pass

variable {f : Fleet} {c after : NodeClass} {retryAfter : Option Nat}
  {trace : List (Exchange fleetSignature)}

/-- The three ways of a pass. -/
inductive PassKind where
  | skipped
  | failed (stage : Stage)
  | resolved
deriving DecidableEq

/-- What a pass of each kind goes through, the class that it leaves, and after how many seconds it
asks to look at it again. -/
inductive PassCourse (f : Fleet) (c : NodeClass) :
    PassKind → List (Exchange fleetSignature) → NodeClass → Option Nat → Prop
  | skipped (deleting : c.isDeleting = true) : PassCourse f c .skipped [] c none
  | failed {stage : Stage} {before own : List (Exchange fleetSignature)} {e : ResourceError}
      {time : Instant} {ready : Condition} {conditions : List Condition}
      (kept : c.isDeleting = false) (passes : Passes f c.spec stage.earlier before)
      (fails : Ends ((stage.query c.spec).attempt f).run own (.error e))
      (lists : ∀ x ∈ before ++ own, ∀ call, x.request = .act (.beginCall call) → stage.Lists call)
      (sets : Sets ready c.status.conditions conditions) (type : ready.type = Condition.ready)
      (status : ready.status = .unmet) (reason : ready.reason = stage.reason)
      (message : ready.message = stage.title ++ " failed: " ++ e.message)
      (observed : ready.observedGeneration = c.generation) :
      PassCourse f c (.failed stage) (before ++ own ++ [⟨.act .today, time⟩])
        { c with status := { c.status with conditions } } (some stage.retryAfter)
  | resolved {zone : Zone} {r : Resolution}
      {first second third fourth : List (Exchange fleetSignature)} {time : Instant}
      {ready : Condition} {conditions : List Condition} (kept : c.isDeleting = false)
      (zoned : Ends (f.enabledZone c.spec.zone).run first (.ok zone))
      (networks :
        Ends (f.resolveNetworks c.spec.networkTerms c.spec.zone).run second (.ok r.networks))
      (templates :
        Ends (f.resolveTemplates c.spec.templateTerms c.spec.zone).run third (.ok r.templates))
      (offerings :
        Ends (f.resolveOfferings c.spec.offeringTerms c.spec.zone).run fourth (.ok r.offerings))
      (someNetwork : r.networks ≠ []) (someTemplate : r.templates ≠ [])
      (someOffering : r.offerings ≠ []) (distinctNetworks : (r.networks.map (·.id)).Nodup)
      (distinctTemplates : (r.templates.map (·.id)).Nodup)
      (distinctOfferings : (r.offerings.map (·.id)).Nodup)
      (sets : Sets ready c.status.conditions conditions) (type : ready.type = Condition.ready)
      (status : ready.status = .met) (observed : ready.observedGeneration = c.generation) :
      PassCourse f c .resolved
        (first ++ (second ++ (third ++ fourth)) ++ [⟨.act .today, time⟩])
        { c with status :=
          { networks := r.networks.map fun n => ⟨n.id, n.name, n.zone, n.networkType⟩
            templates := r.templates.map fun t => ⟨t.id, t.name, t.osTypeName, t.zone⟩
            offerings := r.offerings.map fun o =>
              ⟨o.id, o.name, o.cpuNumber, o.cpuSpeed, o.memory, o.networkRate⟩
            conditions } }
        (some 900)

/-- What a listing resolves to is not empty, and every identifier occurs once. -/
theorem Selectable.resolve_spec {R : Type} [Selectable R] {items resolved : List R}
    {terms : List Criteria} {zone : String} (h : resolve items terms zone = .ok resolved) :
    resolved ≠ [] ∧ (resolved.map id).Nodup := by
  rw [resolve] at h
  split at h
  next => cases h
  next hne =>
    obtain rfl := Except.ok.inj h
    exact ⟨hne, (nodup_map_firstPerKey _).sublist (List.filter_sublist.map id)⟩

theorem ends_resolve {R : Type} [Selectable R] {listing : Attempt ResourceError (List R)}
    {terms : List Criteria} {zone : String} {resolved : List R}
    (h : Ends (listing >>= fun items =>
      (ExceptT.mk (pure (Selectable.resolve items terms zone)) :
        Attempt ResourceError (List R))).run trace (.ok resolved)) :
    resolved ≠ [] ∧ (resolved.map Selectable.id).Nodup := by
  obtain ⟨items, first, second, rfl, -, hresolve⟩ := ends_run_bind_ok h
  obtain ⟨-, hresolved⟩ := Routine.ends_pure.1 hresolve
  exact Selectable.resolve_spec hresolved.symm

/-- Every pass that ends takes one of the three courses. -/
theorem course_of_reconcile (h : Ends (f.reconcile c) trace (after, retryAfter)) :
    ∃ kind, PassCourse f c kind trace after retryAfter := by
  rw [Fleet.reconcile] at h
  cases hdeleting : c.isDeleting with
  | true =>
      rw [hdeleting, if_pos rfl] at h
      obtain ⟨rfl, hafter⟩ := Routine.ends_pure.1 h
      obtain ⟨rfl, rfl⟩ := Prod.mk.inj hafter
      exact ⟨.skipped, .skipped hdeleting⟩
  | false =>
      rw [hdeleting, if_neg (by decide)] at h
      obtain ⟨result, stages, rest, rfl, hstages, hrest⟩ := ends_bind.1 h
      have hcourse := course_of_resolveAll hstages
      cases hcourse with
      | @failed stage e before own passes fails =>
          obtain ⟨time, tail, rfl, hdone⟩ := ends_request_bind.1 hrest
          obtain ⟨rfl, hafter⟩ := Routine.ends_pure.1 hdone
          obtain ⟨rfl, rfl⟩ := Prod.mk.inj hafter
          have hasks : ∀ x ∈ before ++ own, stage.MayAsk x.request :=
            List.forall_mem_append.2 ⟨passes.asks fun _ hs => .inl hs,
              ((stage.obeys_query f c.spec).ends fails).1⟩
          obtain ⟨since, hsets⟩ := sets_putCondition
            { readyCondition time (.error (stage, e)) with observedGeneration := c.generation }
            c.status.conditions
          refine ⟨.failed stage, .failed hdeleting passes fails (fun x hx call hcall => ?_) hsets
            rfl rfl rfl rfl rfl⟩
          have hx := hasks x hx
          rw [hcall] at hx
          exact hx
      | @resolved zone r first second third fourth zoned networks templates offerings =>
          obtain ⟨time, tail, rfl, hdone⟩ := ends_request_bind.1 hrest
          obtain ⟨rfl, hafter⟩ := Routine.ends_pure.1 hdone
          obtain ⟨rfl, rfl⟩ := Prod.mk.inj hafter
          obtain ⟨someNetwork, distinctNetworks⟩ := ends_resolve networks
          obtain ⟨someTemplate, distinctTemplates⟩ := ends_resolve templates
          obtain ⟨someOffering, distinctOfferings⟩ := ends_resolve offerings
          obtain ⟨since, hsets⟩ := sets_putCondition
            { readyCondition time (.ok ()) with observedGeneration := c.generation }
            c.status.conditions
          exact ⟨.resolved, .resolved hdeleting zoned networks templates offerings someNetwork
            someTemplate someOffering distinctNetworks distinctTemplates distinctOfferings hsets
            rfl rfl rfl⟩

/-- What a class shows before and after a pass of each kind. -/
def PassKind.ShownBy (c after : NodeClass) : PassKind → Prop
  | .skipped => c.isDeleting = true
  | .failed stage => c.isDeleting = false ∧ ∃ ready, after.condition? Condition.ready = some ready ∧
      ready.status = .unmet ∧ ready.reason = stage.reason
  | .resolved => c.isDeleting = false ∧ ∃ ready, after.condition? Condition.ready = some ready ∧
      ready.status = .met

theorem PassCourse.shown {kind : PassKind} (h : PassCourse f c kind trace after retryAfter) :
    kind.ShownBy c after := by
  cases h with
  | skipped deleting => exact deleting
  | failed kept _ _ _ sets type status reason =>
      have hfound := sets.find?
      rw [type] at hfound
      exact ⟨kept, _, hfound, status, reason⟩
  | resolved kept _ _ _ _ _ _ _ _ _ _ sets type status =>
      have hfound := sets.find?
      rw [type] at hfound
      exact ⟨kept, _, hfound, status⟩

theorem PassKind.ShownBy.unique {first second : PassKind} (h : first.ShownBy c after)
    (h' : second.ShownBy c after) : first = second := by
  cases first with
  | skipped =>
      have deleting : c.isDeleting = true := h
      cases second with
      | skipped => rfl
      | failed stage => exact absurd (deleting.symm.trans h'.1) (by decide)
      | resolved => exact absurd (deleting.symm.trans h'.1) (by decide)
  | failed stage =>
      obtain ⟨kept, ready, hready, hstatus, hreason⟩ := h
      cases second with
      | skipped => exact absurd (kept.symm.trans h') (by decide)
      | failed stage' =>
          obtain ⟨-, ready', hready', -, hreason'⟩ := h'
          obtain rfl := Option.some.inj (hready.symm.trans hready')
          rw [Stage.reason_inj (hreason.symm.trans hreason')]
      | resolved =>
          obtain ⟨-, ready', hready', hstatus'⟩ := h'
          obtain rfl := Option.some.inj (hready.symm.trans hready')
          exact absurd (hstatus.symm.trans hstatus') (by decide)
  | resolved =>
      obtain ⟨kept, ready, hready, hstatus⟩ := h
      cases second with
      | skipped => exact absurd (kept.symm.trans h') (by decide)
      | failed stage =>
          obtain ⟨-, ready', hready', hstatus', -⟩ := h'
          obtain rfl := Option.some.inj (hready.symm.trans hready')
          exact absurd (hstatus.symm.trans hstatus') (by decide)
      | resolved => rfl

/-- Every pass that ends takes exactly one of the three courses. -/
theorem existsUnique_course_of_reconcile (h : Ends (f.reconcile c) trace (after, retryAfter)) :
    ∃! kind, PassCourse f c kind trace after retryAfter := by
  obtain ⟨kind, hkind⟩ := course_of_reconcile h
  exact ⟨kind, hkind, fun other hother => hother.shown.unique hkind.shown⟩

end Pass

section History

variable (s : FleetState) (parties : List Party)

end History

end NodeFleet
