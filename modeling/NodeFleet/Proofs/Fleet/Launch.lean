import NodeFleet.Proofs.Fleet.Calls
import NodeFleet.Proofs.Routine.Effects

/-!
# The course of a launch

A launch plans, deploys once, waits for the job and for the machine, and tags a machine that was
seen running. Its trace is cut at these steps, and each step calls operations of its own only. So
the states that a launch logs tell how far it came, and before it deploys it leaves the machines
and tags of the cloud alone.
-/

namespace NodeFleet

open Routine (Ends ends_bind ends_run_bind ends_run_lift ends_lift_request_bind ends_request
  ends_request_bind)
open Program (CallsOnly InTime callsOnly asked_error)

namespace Exchange

/-- The launch state that is logged, with its subject. -/
def logged? (x : Exchange fleetSignature) : Option (String × LaunchState) :=
  match x.request with
  | .act (.log subject state) => some (subject, state)
  | _ => none

/-- The call of the cloud that is begun. -/
def called? (x : Exchange fleetSignature) : Option Cloud.Call :=
  match x.request with
  | .act (.beginCall c) => some c
  | _ => none

end Exchange

/-- The launch states that a trace logs, in order. -/
def statesIn (trace : List (Exchange fleetSignature)) : List (String × LaunchState) :=
  trace.filterMap Exchange.logged?

/-- The operations of the cloud that a trace calls, in order. -/
def operationsIn (trace : List (Exchange fleetSignature)) : List Cloud.Operation :=
  trace.filterMap fun x => x.called?.map Cloud.Call.operation

/-- A call of the cloud was answered somewhere in a trace. -/
def Answered (c : Cloud.Call) (reply : Except Cloud.CallError c.Reply)
    (trace : List (Exchange fleetSignature)) : Prop :=
  ⟨.act (.beginCall c), .answered reply⟩ ∈ trace ∨ ⟨.act (.serveCall c), reply⟩ ∈ trace

section Traces

variable {first second trace : List (Exchange fleetSignature)}

@[simp] theorem statesIn_append : statesIn (first ++ second) = statesIn first ++ statesIn second :=
  List.filterMap_append

@[simp] theorem operationsIn_append :
    operationsIn (first ++ second) = operationsIn first ++ operationsIn second :=
  List.filterMap_append

@[simp] theorem statesIn_log (subject : String) (state : LaunchState) :
    statesIn (⟨.act (.log subject state), ()⟩ :: trace) = (subject, state) :: statesIn trace :=
  rfl

@[simp] theorem operationsIn_log (subject : String) (state : LaunchState) :
    operationsIn (⟨.act (.log subject state), ()⟩ :: trace) = operationsIn trace :=
  rfl

theorem Answered.mono {c : Cloud.Call} {reply : Except Cloud.CallError c.Reply}
    (h : Answered c reply first) (hsub : ∀ x ∈ first, x ∈ second) : Answered c reply second :=
  h.imp (hsub _) (hsub _)

theorem statesIn_of_callsOnly {ops : List Cloud.Operation}
    (h : ∀ x ∈ trace, CallsOnly ops x.request) : statesIn trace = [] := by
  rw [statesIn, List.filterMap_eq_nil_iff]
  intro x hx
  have hcalls := h x hx
  obtain ⟨request, answer⟩ := x
  cases request with
  | act action =>
      cases action with
      | log subject state => exact hcalls.elim
      | _ => rfl
  | _ => rfl

theorem mem_of_mem_operationsIn {ops : List Cloud.Operation} {op : Cloud.Operation}
    (h : ∀ x ∈ trace, CallsOnly ops x.request) (hop : op ∈ operationsIn trace) : op ∈ ops := by
  obtain ⟨x, hx, hcalled⟩ := List.mem_filterMap.1 hop
  have hcalls := h x hx
  obtain ⟨request, answer⟩ := x
  cases request with
  | act action =>
      cases action with
      | beginCall c =>
          obtain rfl := Option.some.inj hcalled
          exact hcalls
      | _ => cases hcalled
  | _ => cases hcalled

theorem count_of_callsOnly {ops : List Cloud.Operation} {op : Cloud.Operation}
    (h : ∀ x ∈ trace, CallsOnly ops x.request) (hop : op ∉ ops) :
    (operationsIn trace).count op = 0 :=
  List.count_eq_zero.2 fun hmem => hop (mem_of_mem_operationsIn h hmem)

/-- A call is begun once, logs nothing and is answered with its result. -/
theorem ends_call {c : Cloud.Call} {reply : Except Cloud.CallError c.Reply}
    (h : Ends (Program.call c) trace reply) :
    statesIn trace = [] ∧ operationsIn trace = [c.operation] ∧ Answered c reply trace ∧
      ∃ opening rest, trace = ⟨.act (.beginCall c), opening⟩ :: rest ∧
        ∀ x ∈ rest, x.called? = none := by
  obtain ⟨opening, tail, rfl, hopening⟩ := ends_request_bind.1 h
  cases opening with
  | answered reply =>
      obtain ⟨rfl, rfl⟩ := Routine.ends_pure.1 hopening
      exact ⟨rfl, rfl, .inl List.mem_cons_self, _, [], rfl, fun x hx => (nomatch hx)⟩
  | delayed latency =>
      obtain ⟨_, slept, served, rfl, hslept, hserved⟩ := ends_bind.1 hopening
      obtain ⟨start, tail, rfl, hstart⟩ := ends_request_bind.1 hslept
      obtain ⟨wake, tail, rfl, hwake⟩ := ends_request_bind.1 hstart
      obtain ⟨rfl, -⟩ := Routine.ends_pure.1 hwake
      obtain rfl := ends_request.1 hserved
      refine ⟨rfl, rfl, .inr (by simp), _, _, rfl, ?_⟩
      intro x hx
      simp only [List.cons_append, List.nil_append, List.mem_cons, List.not_mem_nil,
        or_false] at hx
      rcases hx with rfl | rfl | rfl <;> rfl

theorem ends_tryCall {context : String} {c : Cloud.Call} {r : Except ResourceError c.Reply}
    (h : Ends (Program.tryCall context c).run trace r) :
    (∃ reply, r = .ok reply ∧ Ends (Program.call c) trace (.ok reply)) ∨
      ∃ e, r = .error (.call context e) ∧ Ends (Program.call c) trace (.error e) := by
  obtain ⟨reply, own, rest, rfl, hown, hrest⟩ := ends_bind.1 h
  cases reply with
  | ok reply =>
      obtain ⟨rfl, rfl⟩ := Routine.ends_pure.1 hrest
      exact .inl ⟨reply, rfl, (List.append_nil own).symm ▸ hown⟩
  | error e =>
      obtain ⟨rfl, rfl⟩ := Routine.ends_pure.1 hrest
      exact .inr ⟨e, rfl, (List.append_nil own).symm ▸ hown⟩

/-- What goes on from a call fails with its error or has its reply. -/
theorem ends_tryCall_bind {β : Type} {context : String} {c : Cloud.Call}
    {f : c.Reply → Attempt ResourceError β} {r : Except ResourceError β}
    (h : Ends (Program.tryCall context c >>= f).run trace r) :
    (∃ e, r = .error (.call context e) ∧ Ends (Program.call c) trace (.error e)) ∨
      ∃ reply own rest, trace = own ++ rest ∧ Ends (Program.call c) own (.ok reply) ∧
        Ends (f reply).run rest r := by
  rcases ends_run_bind.1 h with ⟨e, rfl, hfailed⟩ | ⟨reply, own, rest, rfl, hown, hrest⟩
  · rcases ends_tryCall hfailed with ⟨_, hreply, _⟩ | ⟨e', he, hcall⟩
    · cases hreply
    · cases he
      exact .inl ⟨e', rfl, hcall⟩
  · rcases ends_tryCall hown with ⟨_, hreply, hcall⟩ | ⟨_, he, _⟩
    · cases hreply
      exact .inr ⟨reply, own, rest, rfl, hcall, hrest⟩
    · cases he

end Traces

namespace Fleet

variable (f : Fleet) (c : NodeClass) (claim : NodeClaim) (candidates : List InstanceType)
  (token : Token)

/-- A machine of an identifier was listed first, and running, somewhere in a trace. -/
def SeenRunning (id : String) (vm : Cloud.VirtualMachine)
    (trace : List (Exchange fleetSignature)) : Prop :=
  ∃ page, Answered (.listMachines { id := some id }) (.ok page) trace ∧
    page.items.head? = some vm ∧ vm.state = Cloud.VirtualMachine.running

theorem ends_checkState {id target : String} {vm : Cloud.VirtualMachine}
    {trace : List (Exchange fleetSignature)}
    (h : Ends (checkState id target) trace (.ok (some vm))) :
    ∃ page, Answered (.listMachines { id := some id }) (.ok page) trace ∧
      page.items.head? = some vm ∧ vm.state = target := by
  rcases ends_tryCall_bind h with ⟨e, he, _⟩ | ⟨page, own, rest, rfl, hcall, hrest⟩
  · cases he
  cases hhead : page.items.head? with
  | none =>
      simp only [hhead] at hrest
      cases (Routine.ends_run_throw.1 hrest).2
  | some found =>
      simp only [hhead] at hrest
      have hfound := (Routine.ends_run_pure.1 hrest).2
      by_cases hstate : found.state = target
      · rw [if_pos hstate] at hfound
        cases hfound
        exact ⟨page, (ends_call hcall).2.2.1.mono fun x hx => List.mem_append_left _ hx,
          hhead, hstate⟩
      · rw [if_neg hstate] at hfound
        cases hfound

theorem ends_awaitState {id : String} {vm : Cloud.VirtualMachine}
    {trace : List (Exchange fleetSignature)}
    (h : Ends (f.awaitState id Cloud.VirtualMachine.running token).run trace (.ok vm)) :
    SeenRunning id vm trace := by
  rcases Routine.ends_poll h with ⟨before, own, after, rfl, hown⟩ | hcancelled | htimeout
  · obtain ⟨page, hanswered, hhead, hstate⟩ := ends_checkState hown
    refine ⟨page, hanswered.mono fun x hx => ?_, hhead, hstate⟩
    exact List.mem_append_left _ (List.mem_append_right _ hx)
  · cases hcancelled
  · cases htimeout

/-- How far a launch came, with the parts of its trace. -/
inductive Course (subject : String) (trace : List (Exchange fleetSignature)) :
    Except ResourceError Instance → Prop
  | unplanned {e : ResourceError} (planned : ∀ x ∈ trace, CallsOnly resolving x.request)
      (inTime : InTime (.error e : Except ResourceError Instance)) : Course subject trace (.error e)
  | undeployed {plan deploy : List (Exchange fleetSignature)} {request : Cloud.DeployRequest}
      {context : String} {e : Cloud.CallError}
      (planned : ∀ x ∈ plan, CallsOnly resolving x.request)
      (deployed : Ends (Program.call (.deployMachine request)) deploy (.error e))
      (parts : trace = plan ++ ⟨.act (.log subject .deploying), ()⟩ :: deploy) :
      Course subject trace (.error (.call context e))
  | unfinished {plan deploy job : List (Exchange fleetSignature)} {request : Cloud.DeployRequest}
      {reply : Cloud.DeployReply} {e : ResourceError}
      (planned : ∀ x ∈ plan, CallsOnly resolving x.request)
      (deployed : Ends (Program.call (.deployMachine request)) deploy (.ok reply))
      (finished : ∀ x ∈ job, CallsOnly [.queryJob] x.request)
      (parts : trace = plan ++ ⟨.act (.log subject .deploying), ()⟩ :: (deploy ++ job)) :
      Course subject trace (.error e)
  | unready {plan deploy job wait : List (Exchange fleetSignature)}
      {request : Cloud.DeployRequest} {reply : Cloud.DeployReply} {e : ResourceError}
      (planned : ∀ x ∈ plan, CallsOnly resolving x.request)
      (deployed : Ends (Program.call (.deployMachine request)) deploy (.ok reply))
      (finished : ∀ x ∈ job, CallsOnly [.queryJob] x.request)
      (waited : ∀ x ∈ wait, CallsOnly [.listMachines] x.request)
      (parts : trace = plan ++ ⟨.act (.log subject .deploying), ()⟩ ::
        (deploy ++ job ++ ⟨.act (.log subject .polling), ()⟩ :: wait)) :
      Course subject trace (.error e)
  | registered {plan deploy job wait mark rest : List (Exchange fleetSignature)}
      {request : Cloud.DeployRequest} {reply : Cloud.DeployReply} {vm : Cloud.VirtualMachine}
      {tags : Table String} {tagged : Except Cloud.CallError Unit} {launched : Instance}
      (planned : ∀ x ∈ plan, CallsOnly resolving x.request)
      (deployed : Ends (Program.call (.deployMachine request)) deploy (.ok reply))
      (finished : ∀ x ∈ job, CallsOnly [.queryJob] x.request)
      (waited : ∀ x ∈ wait, CallsOnly [.listMachines] x.request)
      (seen : SeenRunning reply.id vm wait)
      (marked : Ends (Program.call (.createTags ⟨[vm.id], .machine, tags⟩)) mark tagged)
      (remembered : ∀ x ∈ rest, CallsOnly [] x.request)
      (parts : trace = plan ++ ⟨.act (.log subject .deploying), ()⟩ ::
        (deploy ++ job ++ ⟨.act (.log subject .polling), ()⟩ :: (wait ++ mark ++ rest))) :
      Course subject trace (.ok launched)

/-- What a launch does once it is planned. -/
def deployment (request : Cloud.DeployRequest) : Attempt ResourceError Instance := do
  Program.log claim.name .deploying
  let reply ← Program.tryCall "deploy virtual machine" (.deployMachine request)
  f.finishJob "deploy virtual machine" reply.jobId token
  Program.log claim.name .polling
  let vm ← f.awaitState reply.id Cloud.VirtualMachine.running token
  f.register c claim vm

theorem launch_run : (f.launch c claim candidates token).run =
    Program.isCancelled token >>= fun cancelled =>
      if cancelled then pure (.error .cancelled)
      else (f.plan c claim candidates >>= f.deployment c claim token).run := by
  rw [launch, ExceptT.run_bind]
  change ((fun b => Except.ok b) <$> Program.isCancelled token >>= _) = _
  rw [map_eq_pure_bind, bind_assoc]
  rfl

theorem ends_register {vm : Cloud.VirtualMachine} {trace : List (Exchange fleetSignature)}
    {launched : Instance} (h : Ends (f.register c claim vm) trace launched) :
    ∃ mark rest tagged, trace = mark ++ rest ∧
      Ends (Program.call (.createTags ⟨[vm.id], .machine, f.machineTags c claim⟩)) mark tagged ∧
      ∀ x ∈ rest, CallsOnly [] x.request := by
  obtain ⟨tagged, mark, rest, rfl, hmark, hrest⟩ := ends_bind.1 h
  refine ⟨mark, rest, tagged, rfl, hmark, ?_⟩
  obtain ⟨_, tail, rfl, htail⟩ := ends_request_bind.1 hrest
  obtain ⟨rfl, -⟩ := Routine.ends_pure.1 htail
  intro x hx
  obtain rfl := List.mem_singleton.1 hx
  trivial

theorem course_of_deployment {request : Cloud.DeployRequest} {r : Except ResourceError Instance}
    {plan trace : List (Exchange fleetSignature)}
    (planned : ∀ x ∈ plan, CallsOnly resolving x.request)
    (h : Ends (f.deployment c claim token request).run trace r) :
    Course claim.name (plan ++ trace) r := by
  obtain ⟨_, afterLog, rfl, hdeploy⟩ := ends_lift_request_bind.1 h
  rcases ends_tryCall_bind hdeploy with
    ⟨e, rfl, hcall⟩ | ⟨reply, deploy, afterDeploy, rfl, hcall, hjob⟩
  · exact .undeployed planned hcall rfl
  rcases ends_run_bind.1 hjob with ⟨e, rfl, hfailed⟩ | ⟨_, job, afterJob, rfl, hfinished, hpoll⟩
  · exact .unfinished planned hcall ((callsOnly (f.obeys_finishJob _ _ token)).ends hfailed).1 rfl
  have finished := ((callsOnly (f.obeys_finishJob _ _ token)).ends hfinished).1
  obtain ⟨_, afterLog, rfl, hwait⟩ := ends_lift_request_bind.1 hpoll
  rcases ends_run_bind.1 hwait with
    ⟨e, rfl, hfailed⟩ | ⟨vm, wait, afterWait, rfl, hready, hregister⟩
  · have waited := ((callsOnly (f.obeys_awaitState _ _ token)).ends hfailed).1
    exact .unready planned hcall finished waited (by simp)
  · have waited := ((callsOnly (f.obeys_awaitState _ _ token)).ends hready).1
    obtain ⟨launched, hregistered, rfl⟩ := ends_run_lift.1 hregister
    obtain ⟨mark, rest, tagged, rfl, hmark, hrest⟩ := f.ends_register c claim hregistered
    exact .registered planned hcall finished waited (f.ends_awaitState token hready) hmark hrest
      (by simp)

/-- Every launch that ends took one of the courses. -/
theorem course_of_launch {r : Except ResourceError Instance}
    {trace : List (Exchange fleetSignature)}
    (h : Ends (f.launch c claim candidates token).run trace r) : Course claim.name trace r := by
  rw [launch_run] at h
  obtain ⟨cancelled, tail, rfl, htail⟩ := ends_request_bind.1 h
  cases cancelled with
  | true =>
      obtain ⟨rfl, rfl⟩ := Routine.ends_pure.1 htail
      refine .unplanned (fun x hx => ?_) fun _ he => (nomatch he)
      obtain rfl := List.mem_singleton.1 hx
      trivial
  | false =>
      have hplanned {plan : List (Exchange fleetSignature)}
          (h : ∀ x ∈ plan, CallsOnly resolving x.request) :
          ∀ x ∈ ⟨.isCancelled token, false⟩ :: plan, CallsOnly resolving x.request := by
        intro x hx
        rcases List.mem_cons.1 hx with rfl | hx
        · trivial
        · exact h x hx
      rcases ends_run_bind.1 htail with ⟨e, rfl, hfailed⟩ | ⟨request, plan, rest, rfl, hplan, hrest⟩
      · obtain ⟨hcalls, hasked⟩ := (f.obeys_plan c claim candidates).ends hfailed
        refine .unplanned (hplanned hcalls) (asked_error (hasked e rfl)).inTime
      · have hcalls := ((f.obeys_plan c claim candidates).ends hplan).1
        exact f.course_of_deployment c claim token (hplanned hcalls) hrest

end Fleet

end NodeFleet
