import NodeFleet.Fleet.Episode
import NodeFleet.Proofs.Fleet.Effects
import NodeFleet.Proofs.Fleet.Order

/-!
# The record of a launch

What a launch leaves behind when it has ended: the states that it logged, the calls that deploy and
tag a machine, and, if it never came to deploy, machines and tags as they were. All of this holds in
every interleaving with other programs, and a run of orderly programs does end every launch.
-/

namespace NodeFleet

open Routine (Ends)
open Program (CallsOnly InTime)
open Fleet (Course SeenRunning resolving)

/-- The sequences of states that a launch may log. -/
def launchCourses : List (List LaunchState) := [
  [.requested, .failed],
  [.requested, .deploying, .failed],
  [.requested, .deploying, .timedOut],
  [.requested, .deploying, .polling, .running],
  [.requested, .deploying, .polling, .failed],
  [.requested, .deploying, .polling, .timedOut]]

/-- The state with which a launch ends. -/
def finalState : Except ResourceError Instance → LaunchState
  | .ok _ => .running
  | .error e => Fleet.failureState e

theorem finalState_eq_running (r : Except ResourceError Instance) :
    finalState r = .running ↔ ∃ launched, r = .ok launched := by
  cases r with
  | ok launched => simp [finalState]
  | error e => cases e <;> simp [finalState, Fleet.failureState]

theorem finalState_eq_timedOut (r : Except ResourceError Instance) :
    finalState r = .timedOut ↔ ∃ what, r = .error (.timeout what) := by
  cases r with
  | ok launched => simp [finalState]
  | error e => cases e <;> simp [finalState, Fleet.failureState]

theorem finalState_ne_deploying (r : Except ResourceError Instance) :
    finalState r ≠ .deploying := by
  cases r with
  | ok launched => simp [finalState]
  | error e => cases e <;> simp [finalState, Fleet.failureState]

theorem finalState_error (e : ResourceError) :
    finalState (.error e) = .failed ∨ finalState (.error e) = .timedOut := by
  cases e <;> simp [finalState, Fleet.failureState]

theorem finalState_of_inTime {e : ResourceError}
    (h : InTime (.error e : Except ResourceError Instance)) : finalState (.error e) = .failed := by
  rcases finalState_error e with hfailed | htimedOut
  · exact hfailed
  · obtain ⟨what, he⟩ := (finalState_eq_timedOut _).1 htimedOut
    exact absurd he (h what)

theorem mem_launchCourses_of_error (e : ResourceError) {states : List LaunchState}
    (hfailed : .requested :: (states ++ [.failed]) ∈ launchCourses)
    (htimedOut : .requested :: (states ++ [.timedOut]) ∈ launchCourses) :
    .requested :: (states ++ [finalState (.error e)]) ∈ launchCourses := by
  rcases finalState_error e with he | he
  · rwa [he]
  · rwa [he]

section Traces

variable {trace : List (Exchange fleetSignature)}

/-- A call begun in a trace is among its operations. -/
theorem mem_operationsIn {x : Exchange fleetSignature} {c : Cloud.Call} (hx : x ∈ trace)
    (hc : x.called? = some c) : c.operation ∈ operationsIn trace := by
  apply List.mem_filterMap.2
  refine ⟨x, hx, ?_⟩
  rw [hc]
  rfl

theorem operationsIn_cons_of_called?_eq_none {x : Exchange fleetSignature} (h : x.called? = none) :
    operationsIn (x :: trace) = operationsIn trace := by
  rw [operationsIn, List.filterMap_cons, h]
  rfl

/-- An exchange that begins a call to tag. -/
def Exchange.Tags (x : Exchange fleetSignature) : Prop :=
  ∃ w, x.called? = some (.createTags w)

theorem not_tags_of_not_mem (h : .createTags ∉ operationsIn trace) :
    ∀ x ∈ trace, ¬ x.Tags := by
  rintro x hx ⟨w, hw⟩
  exact h (mem_operationsIn (c := .createTags w) hx hw)

/-- A list is cut in one way at the only item with a property. -/
theorem cut_unique {α : Type} {P : α → Prop} {before after first second : List α} {a x : α}
    (h : before ++ x :: after = first ++ a :: second) (hx : P x) (hfirst : ∀ y ∈ first, ¬ P y)
    (hsecond : ∀ y ∈ second, ¬ P y) : before = first ∧ x = a := by
  rcases List.append_eq_append_iff.1 h with ⟨middle, rfl, hmiddle⟩ | ⟨middle, rfl, hmiddle⟩
  · cases middle with
    | nil =>
        obtain ⟨rfl, -⟩ := List.cons.inj hmiddle
        exact ⟨(List.append_nil before).symm, rfl⟩
    | cons y rest =>
        obtain ⟨rfl, -⟩ := List.cons.inj hmiddle
        exact absurd hx (hfirst x (by simp))
  · cases middle with
    | nil =>
        obtain ⟨rfl, -⟩ := List.cons.inj hmiddle
        exact ⟨List.append_nil first, rfl⟩
    | cons y rest =>
        obtain ⟨rfl, hrest⟩ := List.cons.inj hmiddle
        exact absurd hx (hsecond x (by simp [hrest]))

end Traces

/-- No course deploys twice. -/
theorem count_deploying_of_mem {states : List LaunchState} (h : states ∈ launchCourses) :
    states.count .deploying = if .deploying ∈ states then 1 else 0 := by
  revert states
  decide

/-- A part of a trace that logs nothing and neither deploys nor tags. -/
structure Quiet (trace : List (Exchange fleetSignature)) : Prop where
  states : statesIn trace = []
  deploys : (operationsIn trace).count .deployMachine = 0
  tags : .createTags ∉ operationsIn trace

theorem quiet_of_callsOnly {trace : List (Exchange fleetSignature)} {ops : List Cloud.Operation}
    (h : ∀ x ∈ trace, CallsOnly ops x.request) (deploys : .deployMachine ∉ ops)
    (tags : .createTags ∉ ops) : Quiet trace :=
  ⟨statesIn_of_callsOnly h, count_of_callsOnly h deploys,
    fun htags => tags (mem_of_mem_operationsIn h htags)⟩

namespace Fleet.Course

variable {subject : String} {trace : List (Exchange fleetSignature)}
  {r : Except ResourceError Instance}

/-- What a launch logs between its first and its last state, and which calls go with it. -/
theorem tally (h : Course subject trace r) :
    ∃ states, statesIn trace = states.map (Prod.mk subject) ∧
      (operationsIn trace).count .deployMachine = states.count .deploying ∧
      (.createTags ∈ operationsIn trace → ∃ launched, r = .ok launched) ∧
      .requested :: (states ++ [finalState r]) ∈ launchCourses := by
  cases h with
  | unplanned planned inTime =>
      have plan := quiet_of_callsOnly planned (by decide) (by decide)
      refine ⟨[], plan.states, plan.deploys, fun h => absurd h plan.tags, ?_⟩
      rw [finalState_of_inTime inTime]
      decide
  | undeployed planned deployed parts =>
      subst parts
      have plan := quiet_of_callsOnly planned (by decide) (by decide)
      obtain ⟨hstates, hoperations, -⟩ := ends_call deployed
      refine ⟨[.deploying], ?_, ?_, ?_, by simp [launchCourses, finalState, failureState]⟩
      · simp [plan.states, hstates]
      · simp [plan.deploys, hoperations, Cloud.Call.operation]
      · simp [plan.tags, hoperations, Cloud.Call.operation]
  | unfinished planned deployed finished parts =>
      subst parts
      have plan := quiet_of_callsOnly planned (by decide) (by decide)
      have job := quiet_of_callsOnly finished (by decide) (by decide)
      obtain ⟨hstates, hoperations, -⟩ := ends_call deployed
      refine ⟨[.deploying], ?_, ?_, ?_, ?_⟩
      · simp [plan.states, job.states, hstates]
      · simp [plan.deploys, job.deploys, hoperations, Cloud.Call.operation]
      · simp [plan.tags, job.tags, hoperations, Cloud.Call.operation]
      · exact mem_launchCourses_of_error _ (by decide) (by decide)
  | unready planned deployed finished waited parts =>
      subst parts
      have plan := quiet_of_callsOnly planned (by decide) (by decide)
      have job := quiet_of_callsOnly finished (by decide) (by decide)
      have wait := quiet_of_callsOnly waited (by decide) (by decide)
      obtain ⟨hstates, hoperations, -⟩ := ends_call deployed
      refine ⟨[.deploying, .polling], ?_, ?_, ?_, ?_⟩
      · simp [plan.states, job.states, wait.states, hstates]
      · simp [plan.deploys, job.deploys, wait.deploys, hoperations, Cloud.Call.operation]
      · simp [plan.tags, job.tags, wait.tags, hoperations, Cloud.Call.operation]
      · exact mem_launchCourses_of_error _ (by decide) (by decide)
  | registered planned deployed finished waited seen marked remembered parts =>
      subst parts
      have plan := quiet_of_callsOnly planned (by decide) (by decide)
      have job := quiet_of_callsOnly finished (by decide) (by decide)
      have wait := quiet_of_callsOnly waited (by decide) (by decide)
      have rest := quiet_of_callsOnly remembered (by decide) (by decide)
      obtain ⟨hstates, hoperations, -⟩ := ends_call deployed
      obtain ⟨hmarkStates, hmarkOperations, -⟩ := ends_call marked
      refine ⟨[.deploying, .polling], ?_, ?_, fun _ => ⟨_, rfl⟩, ?_⟩
      · simp [plan.states, job.states, wait.states, rest.states, hstates, hmarkStates]
      · simp [plan.deploys, job.deploys, wait.deploys, rest.deploys, hoperations,
          hmarkOperations, Cloud.Call.operation]
      · simp [launchCourses, finalState]

/-- A launch that logs no deployment has done no more than plan. -/
theorem planning (h : Course subject trace r)
    (hdeploying : (subject, .deploying) ∉ statesIn trace) : ∀ x ∈ trace, CallsOnly resolving x.request := by
  cases h with
  | unplanned planned inTime => exact planned
  | undeployed planned deployed parts => simp [parts] at hdeploying
  | unfinished planned deployed finished parts => simp [parts] at hdeploying
  | unready planned deployed finished waited parts => simp [parts] at hdeploying
  | registered planned deployed finished waited seen marked remembered parts =>
      simp [parts] at hdeploying

/-- Where a launch tags, it has deployed and then seen the machine running that it tags. -/
theorem tagging (h : Course subject trace r) {first last x : Exchange fleetSignature}
    {before after : List (Exchange fleetSignature)} {w : Cloud.TagWrite}
    (hfirst : first.called? = none) (hlast : last.called? = none)
    (hx : before ++ x :: after = first :: (trace ++ [last]))
    (hcalled : x.called? = some (.createTags w)) :
    (∃ launched, r = .ok launched) ∧
      ∃ request reply vm deploying waiting, before = deploying ++ waiting ∧
        Answered (.deployMachine request) (.ok reply) deploying ∧ SeenRunning reply.id vm waiting ∧
        w.resourceIds = [vm.id] := by
  have htags : .createTags ∈ operationsIn trace := by
    have hmem : .createTags ∈ operationsIn (before ++ x :: after) :=
      mem_operationsIn (c := .createTags w) (by simp) hcalled
    rw [hx, operationsIn_cons_of_called?_eq_none hfirst, operationsIn_append,
      operationsIn_cons_of_called?_eq_none hlast] at hmem
    simpa [operationsIn] using hmem
  have hok : ∃ launched, r = .ok launched := by
    obtain ⟨states, -, -, hok, -⟩ := h.tally
    exact hok htags
  refine ⟨hok, ?_⟩
  obtain ⟨launched, rfl⟩ := hok
  cases h with
  | @registered plan deploy job wait mark rest request reply vm tags tagged _ planned deployed
      finished waited seen marked remembered parts =>
      have hplan := quiet_of_callsOnly planned (by decide) (by decide)
      have hjob := quiet_of_callsOnly finished (by decide) (by decide)
      have hwait := quiet_of_callsOnly waited (by decide) (by decide)
      have hrest := quiet_of_callsOnly remembered (by decide) (by decide)
      obtain ⟨-, hoperations, hdeployed, -⟩ := ends_call deployed
      obtain ⟨-, -, -, opening, tail, rfl, htail⟩ := ends_call marked
      let deploying := first :: (plan ++ ⟨.act (.log subject .deploying), ()⟩ ::
        (deploy ++ job ++ [⟨.act (.log subject .polling), ()⟩]))
      have hcut : before ++ x :: after = (deploying ++ wait) ++
          ⟨.act (.beginCall (.createTags ⟨[vm.id], .machine, tags⟩)), opening⟩ ::
            (tail ++ rest ++ [last]) := by
        rw [hx, parts]
        simp [deploying]
      have hbefore : ∀ y ∈ deploying ++ wait, ¬ y.Tags := by
        apply not_tags_of_not_mem
        simp [deploying, operationsIn_cons_of_called?_eq_none hfirst, hplan.tags, hjob.tags,
          hwait.tags, hoperations, Cloud.Call.operation]
      have hafter : ∀ y ∈ tail ++ rest ++ [last], ¬ y.Tags := by
        rintro y hy ⟨v, hv⟩
        rcases List.mem_append.1 hy with hy | hy
        · rcases List.mem_append.1 hy with hy | hy
          · rw [htail y hy] at hv
            cases hv
          · exact not_tags_of_not_mem hrest.tags y hy ⟨v, hv⟩
        · obtain rfl := List.mem_singleton.1 hy
          rw [hlast] at hv
          cases hv
      obtain ⟨rfl, rfl⟩ := cut_unique hcut ⟨w, hcalled⟩ hbefore hafter
      obtain rfl := Cloud.Call.createTags.inj (Option.some.inj hcalled)
      refine ⟨request, reply, vm, deploying, wait, rfl, hdeployed.mono fun y hy => ?_, seen, rfl⟩
      simp [deploying, hy]

end Fleet.Course

/-- What a launch that took the turns of a number and ended with a result leaves behind, from the
shared state in which it started to the configuration in which it is done. -/
structure LaunchRecord (claim : NodeClaim) (s : FleetState) (i : Nat)
    (events : List (Event fleetWorld)) (d : Config fleetWorld (Except ResourceError Instance))
    (r : Except ResourceError Instance) : Prop where
  /-- The states that it logged are one of the courses. -/
  logged : ∃ states ∈ launchCourses,
    statesIn (traceOf i events) = states.map (Prod.mk claim.name)
  /-- It deployed once if it logged that it deploys, and never otherwise. -/
  deployed : (operationsIn (traceOf i events)).count .deployMachine =
    if (claim.name, .deploying) ∈ statesIn (traceOf i events) then 1 else 0
  /-- Its last state is that of success exactly if it succeeded. -/
  running : (statesIn (traceOf i events)).getLast? = some (claim.name, .running) ↔
    ∃ launched, r = .ok launched
  /-- Its last state is that of a timeout exactly if it ran out of time. -/
  timedOut : (statesIn (traceOf i events)).getLast? = some (claim.name, .timedOut) ↔
    ∃ what, r = .error (.timeout what)
  /-- It tagged only if it succeeded, and only the machine that was deployed before and seen
  running since. -/
  tagged {before after : List (Exchange fleetSignature)} {x : Exchange fleetSignature}
    {w : Cloud.TagWrite} (cut : traceOf i events = before ++ x :: after)
    (called : x.called? = some (.createTags w)) :
    (∃ launched, r = .ok launched) ∧
      ∃ request reply vm deploying waiting, before = deploying ++ waiting ∧
        Answered (.deployMachine request) (.ok reply) deploying ∧ SeenRunning reply.id vm waiting ∧
        w.resourceIds = [vm.id]
  /-- If it did not come to deploy, it left the machines and tags alone in each of its turns. -/
  untouched (undeployed : (claim.name, .deploying) ∉ statesIn (traceOf i events))
    {e : Event fleetWorld} (he : e ∈ events) (own : e.routine = i) : e.KeepsMachines
  /-- If it did not come to deploy and no one else changed them, the machines and tags are those
  from before it started. -/
  unchanged (undeployed : (claim.name, .deploying) ∉ statesIn (traceOf i events))
    (others : ∀ e ∈ events, e.routine ≠ i → e.KeepsMachines) :
    s.world.cloud.SameMachines d.shared.world.cloud

section Launches

variable (f : Fleet) (c : NodeClass) (claim : NodeClaim) (candidates : List InstanceType)
  (token : Token)

/-- What is asked for a claim is a launch between its first and its last state. -/
theorem ends_launch {trace : List (Exchange fleetSignature)} {r : Except ResourceError Instance}
    (h : Ends (f.createInstance c claim candidates token).run trace r) :
    ∃ own, trace = ⟨.act (.log claim.name .requested), ()⟩ ::
        (own ++ [⟨.act (.log claim.name (finalState r)), ()⟩]) ∧
      Ends (f.launch c claim candidates token).run own r := by
  obtain ⟨_, tail, rfl, hlaunch⟩ := Routine.ends_request_bind.1 h
  obtain ⟨result, own, rest, rfl, hown, hrest⟩ := Routine.ends_bind.1 hlaunch
  cases result with
  | ok launched =>
      obtain ⟨_, last, rfl, hlast⟩ := Routine.ends_request_bind.1 hrest
      obtain ⟨rfl, rfl⟩ := Routine.ends_pure.1 hlast
      exact ⟨own, rfl, hown⟩
  | error e =>
      obtain ⟨_, last, rfl, hlast⟩ := Routine.ends_request_bind.1 hrest
      obtain ⟨rfl, rfl⟩ := Routine.ends_pure.1 hlast
      exact ⟨own, rfl, hown⟩

theorem ends_createInstance {trace : List (Exchange fleetSignature)}
    {r : Except ResourceError Instance}
    (h : Ends (f.createInstance c claim candidates token).run trace r) :
    ∃ own, trace = ⟨.act (.log claim.name .requested), ()⟩ ::
        (own ++ [⟨.act (.log claim.name (finalState r)), ()⟩]) ∧ Course claim.name own r := by
  obtain ⟨own, htrace, hown⟩ := ends_launch f c claim candidates token h
  exact ⟨own, htrace, f.course_of_launch c claim candidates token hown⟩

/-- A launch that has ended in an interleaving with other programs has its record. -/
theorem Steps.launchRecord {s : FleetState} {ps : List (Program (Except ResourceError Instance))}
    {events : List (Event fleetWorld)} {d : Config fleetWorld (Except ResourceError Instance)}
    {i : Nat} {r : Except ResourceError Instance} (h : Steps (Config.start s ps) events d)
    (launch : ps[i]? = some (f.createInstance c claim candidates token).run)
    (result : d.routines[i]? = some (.done r)) : LaunchRecord claim s i events d r := by
  obtain ⟨own, htrace, hcourse⟩ :=
    ends_createInstance f c claim candidates token (h.ends launch result)
  obtain ⟨states, hstates, hdeploys, -, hcourses⟩ := hcourse.tally
  have hlogged : statesIn (traceOf i events) =
      (.requested :: (states ++ [finalState r])).map (Prod.mk claim.name) := by
    rw [htrace, statesIn_log, statesIn_append, hstates, List.map_cons, List.map_append]
    rfl
  have hlast : (statesIn (traceOf i events)).getLast? = some (claim.name, finalState r) := by
    rw [hlogged, ← List.cons_append, List.map_append]
    exact List.getLast?_concat
  have huntouched (undeployed : (claim.name, .deploying) ∉ statesIn (traceOf i events))
      {e : Event fleetWorld} (he : e ∈ events) (turn : e.routine = i) : e.KeepsMachines := by
    have hplanning := hcourse.planning fun hmem => undeployed (by
      rw [htrace]
      simp [hmem])
    have hexchange : e.exchange ∈ traceOf i events :=
      List.mem_map_of_mem (mem_turnsOf.2 ⟨he, turn⟩)
    rw [htrace] at hexchange
    apply Event.keepsMachines_of_planning
    change e.exchange.request.Planning
    rcases List.mem_cons.1 hexchange with hfirst | hrest
    · rw [hfirst]
      exact .inr ⟨_, _, rfl⟩
    · rcases List.mem_append.1 hrest with hown | hlast
      · exact .inl (hplanning _ hown)
      · rw [List.mem_singleton.1 hlast]
        exact .inr ⟨_, _, rfl⟩
  constructor
  case logged => exact ⟨_, hcourses, hlogged⟩
  case deployed =>
    have hcount : (operationsIn (traceOf i events)).count .deployMachine =
        (.requested :: (states ++ [finalState r])).count .deploying := by
      rw [htrace, operationsIn_log, operationsIn_append, List.count_append, hdeploys]
      simp [finalState_ne_deploying, operationsIn, Exchange.called?]
    rw [hcount, count_deploying_of_mem hcourses, hlogged]
    simp
  case running =>
    rw [hlast, ← finalState_eq_running]
    simp
  case timedOut =>
    rw [hlast, ← finalState_eq_timedOut]
    simp
  case tagged =>
    intro before after x w cut called
    rw [htrace] at cut
    exact hcourse.tagging rfl rfl cut.symm called
  case untouched => exact huntouched
  case unchanged =>
    intro undeployed others
    have hsame := h.sameMachines fun e he => by
      by_cases hown : e.routine = i
      · exact huntouched undeployed he hown
      · exact others e he hown
    rwa [Config.world_start s ps] at hsame

/-- A launch has its record once it has ended, in every interleaving with other programs. From free
locks every run with programs that take locks in order does end it. -/
theorem launch_leaves_record :
    (∀ (s : FleetState) (ps : List (Program (Except ResourceError Instance))) (i : Nat)
        (events : List (Event fleetWorld)) (d : Config fleetWorld (Except ResourceError Instance))
        (r : Except ResourceError Instance),
      ps[i]? = some (f.createInstance c claim candidates token).run →
        Steps (Config.start s ps) events d → d.routines[i]? = some (.done r) →
          LaunchRecord claim s i events d r) ∧
      ∀ (s : FleetState) (others : List (Program (Except ResourceError Instance))),
        (∀ cache, s.queues cache = []) → (∀ p ∈ others, p.IsOrderly) →
          let ps := (f.createInstance c claim candidates token).run :: others
          ∃ events d r, Steps (Config.start s ps) events d ∧
            s.run ps = (d.shared, d.routines.map Shared.result?) ∧
            d.routines[0]? = some (.done r) ∧ LaunchRecord claim s 0 events d r := by
  constructor
  · intro s ps i events d r launch h result
    exact h.launchRecord f c claim candidates token launch result
  · intro s others free orderly ps
    have hall : ∀ p ∈ ps, p.IsOrderly := by
      intro p hp
      rcases List.mem_cons.1 hp with rfl | hp
      · exact f.orderly_createInstance c claim candidates token
      · exact orderly p hp
    obtain ⟨events, d, h, hrun, hdone⟩ := run_completes s ps free hall
    obtain ⟨r, hr⟩ := hdone 0 (Nat.succ_pos _)
    exact ⟨events, d, r, h, hrun, hr, h.launchRecord f c claim candidates token rfl hr⟩

end Launches

/-- Caches in which one zone, one network and one template are listed. -/
def listedOnce (cache : CacheId) : Cache cache.Value :=
  match cache with
  | ⟨_, .zones⟩ =>
      (Cache.empty : Cache (List Zone)).set 0 "zones"
        [⟨"z1", "z1", "", "Enabled", false, false⟩] 1000
  | ⟨_, .networks⟩ =>
      (Cache.empty : Cache (List Network)).set 0 "networks-z1"
        [⟨"net1", "net1", "z1", "z1", "", "Implemented", "", "", .empty⟩] 1000
  | ⟨_, .templates⟩ =>
      (Cache.empty : Cache (List Template)).set 0 "templates-z1"
        [⟨"t1", "t1", "", "z1", "z1", "", "", "Download Complete", true, true, false, .empty⟩] 1000
  | ⟨_, .offerings⟩ => .empty
  | ⟨_, .instances⟩ => .empty

/-- An empty cloud whose resources were listed before. -/
def listedState : FleetState :=
  { (Shared.initial ⟨{}, .empty, .ofSeconds 0, []⟩ : FleetState) with caches := listedOnce }

/-- A fleet that looks at its machines every millisecond. -/
def smallFleet : Fleet where
  owner := 0
  cacheTtl := 1000
  settings := { clusterName := "c1", pollInterval := 1, readyTimeout := 10 }

/-- A node class that takes the listed network and template. -/
def smallClass : NodeClass :=
  .new "class"
    { zone := "z1", networkTerms := [.byId "net1"], templateTerms := [{ id := some "t1" }] }

/-- An available instance type. -/
def smallType : InstanceType where
  name := "small"
  requirements := .ofList [(Label.serviceOfferingId, ["o1"])]
  offerings := [⟨"z1", "", 0, true⟩]
  capacity := ⟨0, 0, 0⟩
  overhead := ⟨0, 0, 0⟩

/-- A launch for a claim `n1`. -/
def smallLaunch : Program (Except ResourceError Instance) :=
  (smallFleet.createInstance smallClass { name := "n1" } [smallType] 0).run

/-- A program that cancels the token of a launch. -/
def cancelling : Program (Except ResourceError Instance) :=
  .ask (.cancel 0) fun _ => .done (.error .cancelled)

/-- A launch that comes to run alone, and the run of the same launch with its cancellation. -/
theorem launch_leaves_record_of_small_launch :
    (∃ events d launched, Steps (Config.start listedState [smallLaunch]) events d ∧
      d.routines = [.done (.ok launched)] ∧
      LaunchRecord { name := "n1" } listedState 0 events d (.ok launched)) ∧
    ∃ events d r, Steps (Config.start listedState [smallLaunch, cancelling]) events d ∧
      listedState.run [smallLaunch, cancelling] = (d.shared, d.routines.map Shared.result?) ∧
      d.routines[0]? = some (.done r) ∧
      LaunchRecord { name := "n1" } listedState 0 events d r := by
  have record := launch_leaves_record smallFleet smallClass { name := "n1" } [smallType] 0
  constructor
  · have h := Steps.refl (Config.start listedState [smallLaunch])
    -- The launch is requested and planned from the caches.
    have h := h.turn (i := 0) rfl rfl
    have h := h.turn (i := 0) rfl rfl
    have h := h.turn (i := 0) rfl rfl
    have h := h.turn (i := 0) rfl rfl
    have h := h.turn (i := 0) rfl rfl
    -- It deploys; there is no job to wait for.
    have h := h.turn (i := 0) rfl rfl
    have h := h.turn (i := 0) rfl rfl
    have h := h.turn (i := 0) rfl rfl
    have h := h.turn (i := 0) rfl rfl
    have h := h.turn (i := 0) rfl rfl
    -- It polls, and at the first look the machine is running.
    have h := h.turn (i := 0) rfl rfl
    have h := h.turn (i := 0) rfl rfl
    have h := h.turn (i := 0) rfl rfl
    have h := h.wait (Nat.zero_le 1)
    have h := h.turn (i := 0) rfl rfl
    have h := h.turn (i := 0) rfl rfl
    have h := h.turn (i := 0) rfl rfl
    have h := h.turn (i := 0) rfl rfl
    have h := h.turn (i := 0) rfl rfl
    have h := h.turn (i := 0) rfl rfl
    have h := h.turn (i := 0) rfl rfl
    -- It tags the machine and remembers it.
    have h := h.turn (i := 0) rfl rfl
    have h := h.turn (i := 0) rfl rfl
    have h := h.turn (i := 0) rfl rfl
    have h := h.turn (i := 0) rfl rfl
    have h := h.turn (i := 0) rfl rfl
    have h := h.turn (i := 0) rfl rfl
    exact ⟨_, _, _, h, rfl, record.1 _ _ 0 _ _ _ rfl h rfl⟩
  · refine record.2 _ [cancelling] (fun _ => rfl) fun p hp => ?_
    obtain rfl := List.mem_singleton.1 hp
    exact Routine.orderly_ask ⟨rfl, rfl⟩ fun _ => rfl

end NodeFleet
