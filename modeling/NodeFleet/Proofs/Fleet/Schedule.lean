import NodeFleet.Proofs.Fleet.LaunchRecord
import NodeFleet.Proofs.Fleet.Tending

/-!
# The schedule of a launch

In a calm cloud the course of a launch from its deployment on is fixed to the moment, as long as the
others leave its job and its machine alone. It waits for the job, if there is one, then for the machine
to run, and tags and remembers it at once. What follows the deployment is one residual of the launch;
its turns are cut into these phases, each of which starts where the one before it has left.
-/

namespace NodeFleet

open Cloud (DeployReply)
open Cloud.Inventory (MachineCourse JobCourse)
open Routine (Paced Obeys Path path_ask_iff path_done_iff)
open Program (MayCall CallsOnly)

/-- A question that does not deploy. -/
def Request.DeploysNothing (request : Request fleetSignature) : Prop :=
  ∀ deployed, request ≠ .act (.serveCall (.deployMachine deployed))

theorem Request.Tends.deploysNothing {reply : DeployReply} {request : Request fleetSignature}
    (h : request.Tends reply) : request.DeploysNothing := by
  rintro deployed rfl
  exact h

/-- A turn in which a machine is deployed in a calm cloud, under an identifier that no machine had
before and that was never listed, while the token of the launch is not cancelled. -/
structure Event.DeploysAfresh (token : Token) (request : Cloud.DeployRequest) (reply : DeployReply)
    (e : Event fleetWorld) : Prop where
  deploys : e.request = .act (.serveCall (.deployMachine request))
  answer : (e.before.world.cloud.deploy e.before.world.today request).1 = reply
  calm : e.before.world.cloud.Calm
  fresh : e.before.world.cloud.machinesOf reply.id = []
  unseen : e.before.world.cloud.sightings.get? reply.id = none
  uncancelled : token ∉ e.before.cancelled

namespace Fleet

variable (f : Fleet) (c : NodeClass) (claim : NodeClaim) (candidates : List InstanceType)
  (token : Token)

section Residual

/-- What a launch does once its machine is deployed. -/
def afterDeployment (reply : DeployReply) : Attempt ResourceError Instance := do
  f.finishJob "deploy virtual machine" reply.jobId token
  Program.log claim.name .polling
  let vm ← f.awaitState reply.id Cloud.VirtualMachine.running token
  f.register c claim vm

/-- What a launch goes on with when its call to deploy is answered. -/
def afterDeploying : Except Cloud.CallError DeployReply → Program (Except ResourceError Instance)
  | .ok reply => (f.afterDeployment c claim token reply).run
  | .error e => pure (.error (.call "deploy virtual machine" e))

/-- What is asked for a claim does last. -/
def conclude (r : Except ResourceError Instance) : Program (Except ResourceError Instance) := do
  Program.log claim.name (finalState r)
  return r

theorem createInstance_run : (f.createInstance c claim candidates token).run =
    Program.log claim.name .requested >>= fun _ =>
      (f.launch c claim candidates token).run >>= conclude claim := by
  refine congrArg (Program.log claim.name .requested >>= ·) (funext fun _ => ?_)
  refine congrArg ((f.launch c claim candidates token).run >>= ·) (funext fun r => ?_)
  cases r <;> rfl

theorem deployment_run (request : Cloud.DeployRequest) :
    (f.deployment c claim token request).run =
      Program.log claim.name .deploying >>= fun _ =>
        Program.call (.deployMachine request) >>= f.afterDeploying c claim token := by
  refine congrArg (Program.log claim.name .deploying >>= ·) (funext fun _ => ?_)
  refine Eq.trans (bind_assoc (Program.call (.deployMachine request)) _ _) ?_
  refine congrArg (Program.call (.deployMachine request) >>= ·) (funext fun reply => ?_)
  cases reply <;> rfl

variable {reply : DeployReply} {token}

/-- A wait for something that a deployment is about tends it. -/
theorem obeys_program_of_tends {ε β : Type} (w : Wait ε β)
    (serves : (Request.act (.serveCall w.call) : Request fleetSignature).Tends reply) :
    Obeys (Request.Tends reply) (fun _ => True) (w.program token) := by
  have may : MayCall (Request.Tends reply) w.call := ⟨trivial, serves, .of_aboutTime⟩
  exact Routine.obeys_poll (fun _ => True) (may.obeys_call.bind fun _ _ => trivial)
    .of_aboutTime (fun _ _ => trivial) trivial trivial

theorem obeys_finishJob_of_tends (context : String) :
    Obeys (Request.Tends reply) (fun _ => True) (f.finishJob context reply.jobId token).run := by
  cases hjob : reply.jobId with
  | none => trivial
  | some jobId =>
      refine Program.obeys_then (Routine.obeys_run_lift ?_) fun r => ?_
      · rw [← Wait.program_forJob]
        exact obeys_program_of_tends _ hjob
      · cases r <;> trivial

theorem obeys_afterDeployment : Obeys (Request.Tends reply) (fun _ => True)
    (f.afterDeployment c claim token reply).run := by
  refine Program.obeys_then (f.obeys_finishJob_of_tends _) fun _ => ?_
  refine Program.obeys_then (Routine.obeys_run_lift ⟨trivial, fun _ => trivial⟩) fun _ => ?_
  refine Program.obeys_then ?_ fun vm => Routine.obeys_run_lift ?_
  · rw [← Wait.program_forState]
    exact obeys_program_of_tends _ rfl
  · have may : MayCall (Request.Tends reply)
        (.createTags ⟨[vm.id], .machine, f.machineTags c claim⟩) :=
      ⟨trivial, trivial, .of_aboutTime⟩
    exact may.obeys_call.bind fun _ _ => ⟨trivial, fun _ => trivial⟩

theorem obeys_conclude (r : Except ResourceError Instance) :
    Obeys (Request.Tends reply) (fun _ => True) (conclude claim r) :=
  ⟨trivial, fun _ => trivial⟩

theorem deploysNothing_conclude (r : Except ResourceError Instance) :
    Obeys Request.DeploysNothing (fun _ => True) (conclude claim r) :=
  ⟨fun _ h => (nomatch h), fun _ => trivial⟩

theorem deploysNothing_afterDeploying (result : Except Cloud.CallError DeployReply) :
    Obeys Request.DeploysNothing (fun _ => True) (f.afterDeploying c claim token result) := by
  cases result with
  | ok reply =>
      exact (f.obeys_afterDeployment c claim).mono (fun _ => Request.Tends.deploysNothing)
        fun _ => id
  | error e => trivial

/-- What is left of a call to deploy when it is answered, if nothing is deployed after it. -/
theorem next_of_deploying {α : Type} {request asked : Cloud.DeployRequest}
    {rest next : Except Cloud.CallError DeployReply → Program α} {yields : α → Prop}
    {trace : List (Exchange fleetSignature)}
    (h : Path (Program.call (.deployMachine asked) >>= rest) trace
      (.ask (.act (.serveCall (.deployMachine request))) next))
    (once : ∀ result, Obeys Request.DeploysNothing yields (rest result)) : next = rest := by
  have never (result : Except Cloud.CallError DeployReply) (tail : List (Exchange fleetSignature)) :
      ¬Path (rest result) tail (.ask (.act (.serveCall (.deployMachine request))) next) :=
    fun h => ((once result).path h).2.1 request rfl
  rcases path_ask_iff.1 h with ⟨-, hnext⟩ | ⟨opening, tail, rfl, hopened⟩
  · cases hnext
  cases opening with
  | answered result => exact absurd hopened (never result tail)
  | delayed latency =>
      rcases path_ask_iff.1 hopened with ⟨-, hnext⟩ | ⟨start, tail, rfl, hstarted⟩
      · cases hnext
      rcases path_ask_iff.1 hstarted with ⟨-, hnext⟩ | ⟨wake, tail, rfl, hwoken⟩
      · cases hnext
      rcases path_ask_iff.1 hwoken with ⟨-, hnext⟩ | ⟨result, tail, rfl, hserved⟩
      · cases hnext
        rfl
      · exact absurd hserved (never result tail)

theorem not_callsOnly_deploying (request : Cloud.DeployRequest) :
    ¬CallsOnly resolving (.act (.serveCall (.deployMachine request))) :=
  (by decide : Cloud.Operation.deployMachine ∉ resolving)

/-- When the deployment of a launch is answered, it goes on with what follows a deployment. -/
theorem next_of_createInstance {candidates : List InstanceType} {request : Cloud.DeployRequest}
    {trace : List (Exchange fleetSignature)}
    {next : Except Cloud.CallError DeployReply → Program (Except ResourceError Instance)}
    (h : Path (f.createInstance c claim candidates token).run trace
      (.ask (.act (.serveCall (.deployMachine request))) next)) (reply : DeployReply) :
    next (.ok reply) = (f.afterDeployment c claim token reply).run >>= conclude claim := by
  rw [createInstance_run] at h
  rcases path_ask_iff.1 h with ⟨-, hnext⟩ | ⟨_, tail, rfl, hlogged⟩
  · cases hnext
  -- The launch is what deploys, not the log of its last state.
  have hlaunch : Path ((f.launch c claim candidates token).run >>= conclude claim) tail _ := hlogged
  obtain ⟨before, hown, rfl⟩ := Path.of_bind_left hlaunch (deploysNothing_conclude claim)
    fun deploys => deploys request rfl
  rw [launch_run] at hown
  rcases path_ask_iff.1 hown with ⟨-, hnext⟩ | ⟨cancelled, tail, rfl, hplan⟩
  · cases hnext
  cases cancelled with
  | true => cases (path_done_iff.1 hplan).2
  | false =>
      have hplan : Path (f.plan c claim candidates >>= f.deployment c claim token).run tail _ := hplan
      rw [ExceptT.run_bind] at hplan
      -- The plan only lists.
      obtain ⟨planned, first, second, rfl, -, hdeploys⟩ :=
        Path.of_bind_right hplan (f.obeys_plan c claim candidates)
          (not_callsOnly_deploying request)
      cases planned with
      | error e => cases (path_done_iff.1 hdeploys).2
      | ok asked =>
          have hdeploys : Path (f.deployment c claim token asked).run second _ := hdeploys
          rw [deployment_run] at hdeploys
          rcases path_ask_iff.1 hdeploys with ⟨-, hnext⟩ | ⟨_, tail, rfl, hcall⟩
          · cases hnext
          rw [next_of_deploying hcall (f.deploysNothing_afterDeploying c claim)]
          rfl

end Residual

/-- How many queries it takes until the job of a deployment has succeeded, if it has one. -/
def jobQueries : Option Nat → Nat
  | none => 0
  | some polls => polls + 1

/-- The job of a deployment, if it has one, succeeds before its deadline. -/
def JobInTime (jobPolls : Option Nat) : Prop :=
  ∀ polls, jobPolls = some polls → (polls + 1) * jobPollInterval < f.settings.jobTimeout

/-- A machine runs before its deadline. -/
def MachineInTime (after : Option Nat) : Prop :=
  ∃ n, after = some n ∧ max 1 n * f.settings.pollInterval < f.settings.readyTimeout

/-- How the wait for the job of a deployment ends: the queries that it makes, its result and how long
it takes. -/
inductive JobEnd (jobPolls : Option Nat) (jobId : Option String) :
    Nat → Except ResourceError Unit → Nat → Prop
  | finished (inTime : f.JobInTime jobPolls) :
      JobEnd jobPolls jobId (jobQueries jobPolls) (.ok ()) (jobQueries jobPolls * jobPollInterval)
  | late {id : String} (started : jobId = some id) (late : ¬f.JobInTime jobPolls) :
      JobEnd jobPolls jobId (f.settings.jobTimeout ⌈/⌉ jobPollInterval - 1)
        (.error (.timeout s!"async job {id}")) f.settings.jobTimeout

/-- How the wait for a machine to run, and to be registered then, ends: the operations that it calls,
its result and how long it takes. -/
inductive MachineEnd (after : Option Nat) (id : String) :
    List Cloud.Operation → Except ResourceError Instance → Nat → Prop
  | ready {n : Nat} {launched : Instance} (runs : after = some n)
      (early : max 1 n * f.settings.pollInterval < f.settings.readyTimeout) :
      MachineEnd after id (List.replicate (max 1 n) .listMachines ++ [.createTags]) (.ok launched)
        (max 1 n * f.settings.pollInterval)
  | late (late : ¬f.MachineInTime after) :
      MachineEnd after id
        (List.replicate (f.settings.readyTimeout ⌈/⌉ f.settings.pollInterval - 1) .listMachines)
        (.error (.timeout s!"VM {id} to reach state {Cloud.VirtualMachine.running}"))
        f.settings.readyTimeout

/-- How a launch ends after its deployment: the operations that it calls, its result and how long that
takes. -/
inductive LaunchEnd (jobPolls after : Option Nat) (reply : DeployReply) :
    List Cloud.Operation → Except ResourceError Instance → Nat → Prop
  | unfinished {queries waited : Nat} {e : ResourceError}
      (job : f.JobEnd jobPolls reply.jobId queries (.error e) waited) :
      LaunchEnd jobPolls after reply (List.replicate queries .queryJob) (.error e) waited
  | finished {queries waited duration : Nat} {operations : List Cloud.Operation}
      {r : Except ResourceError Instance} (job : f.JobEnd jobPolls reply.jobId queries (.ok ()) waited)
      (machine : f.MachineEnd after reply.id operations r duration) :
      LaunchEnd jobPolls after reply (List.replicate queries .queryJob ++ operations) r
        (waited + duration)

/-- A launch succeeds exactly if its job and its machine are in time. -/
theorem LaunchEnd.succeeds_iff {jobPolls after : Option Nat} {reply : DeployReply}
    {operations : List Cloud.Operation} {r : Except ResourceError Instance} {duration : Nat}
    (h : f.LaunchEnd jobPolls after reply operations r duration) :
    (∃ launched, r = .ok launched) ↔ f.JobInTime jobPolls ∧ f.MachineInTime after := by
  cases h with
  | unfinished job =>
      cases job with
      | late _ late => simp [late]
  | finished job machine =>
      cases job with
      | finished inTime =>
          cases machine with
          | ready runs early => simp [inTime, MachineInTime, runs, early]
          | late late => simp [late]

/-- Every turn finds the job of a deployment, if there is one, as far as it was queried before. -/
structure FindsJob (jobPolls : Option Nat) (jobId : Option String) (turns : List (Event fleetWorld)) :
    Prop where
  synchronous : jobId = none → jobPolls = none
  pending : ∀ id, jobId = some id → ∃ polls, jobPolls = some polls ∧
    Attended (fun k (world : WorldState) => JobCourse id polls k world.cloud)
      (fun e : Event fleetWorld => e.request.serves (· = .queryJob id)) 0 turns

/-- Every turn finds a machine as far as it was listed before. -/
def FindsMachine (after : Option Nat) (id : String) (k : Nat) (turns : List (Event fleetWorld)) : Prop :=
  Attended (fun k (world : WorldState) => MachineCourse id after k world.cloud)
    (fun e : Event fleetWorld => e.request.serves (· = .listMachines { id := some id })) k turns

section Phases

variable {cancelled : Token → Nat → Prop} {arrived left k : Nat} {turns rest : List (Event fleetWorld)}
  {jobPolls after : Option Nat} {reply : DeployReply} {token : Token} {c : NodeClass}
  {claim : NodeClaim} {id : String}

theorem FindsJob.of_append {jobId : Option String} (h : FindsJob jobPolls jobId (turns ++ rest)) :
    FindsJob jobPolls jobId turns where
  synchronous := h.synchronous
  pending id hid :=
    (h.pending id hid).imp fun _ ⟨hpolls, attended⟩ => ⟨hpolls, (Attended.append_iff.1 attended).1⟩

theorem FindsMachine.calm (h : FindsMachine after id k turns) :
    ∀ e ∈ turns, e.before.world.cloud.Calm := fun e he => by
  obtain ⟨k, course⟩ := Attended.exists_expected h e he
  exact course.calm

/-- Turns that do not serve a listing leave the machine where it was. -/
theorem FindsMachine.of_append (h : FindsMachine after id k (turns ++ rest))
    (unlisted : ∀ e ∈ turns, e.request ≠ .act (.serveCall (.listMachines { id := some id }))) :
    FindsMachine after id k rest := by
  have hrest := (Attended.append_iff.1 h).2
  rwa [List.countP_eq_zero.2 fun e he => ?_] at hrest
  intro serves
  obtain ⟨call, hrequest, hcall⟩ := Request.exists_of_serves serves
  obtain rfl := of_decide_eq_true hcall
  exact unlisted e he hrequest

/-- How a launch waits for its job, if nobody else queries it. -/
theorem jobEnd_of_finishJob {context : String} {jobId : Option String}
    {r : Except ResourceError Unit} (never : ∀ moment, ¬cancelled token moment)
    (h : Paced (Event.Timely (W := fleetWorld) cancelled) arrived
      (f.finishJob context jobId token).run turns (.done r) left)
    (job : FindsJob jobPolls jobId turns) :
    ∃ queries duration, f.JobEnd jobPolls jobId queries r duration ∧ left = arrived + duration ∧
      operationsIn (turns.map Event.exchange) = List.replicate queries .queryJob := by
  cases jobId with
  | none =>
      obtain rfl := job.synchronous rfl
      obtain ⟨rfl, rfl, rfl⟩ := Paced.of_pure h
      exact ⟨0, 0, .finished nofun, rfl, rfl⟩
  | some id =>
      obtain ⟨polls, rfl, attended⟩ := job.pending id rfl
      obtain ⟨outcome, own, rest, middle, rfl, hown, hrest⟩ := Paced.of_lift_bind h
      obtain ⟨hattended, -⟩ := Attended.append_iff.1 attended
      obtain ⟨checks, duration, hend, rfl, hoperations⟩ :=
        Wait.swiftEnd_forJob never hown hattended
      cases hend with
      | passed first early =>
          obtain rfl := Option.some.inj first
          obtain ⟨rfl, rfl, rfl⟩ := Paced.of_pure hrest
          rw [Nat.max_eq_right (Nat.succ_pos polls)] at hoperations early ⊢
          have inTime : f.JobInTime (some polls) := by
            intro other h
            obtain rfl := Option.some.inj h
            exact early
          exact ⟨_, _, .finished inTime, rfl, by rw [List.append_nil, hoperations]; rfl⟩
      | late late =>
          obtain ⟨rfl, rfl, rfl⟩ := Paced.of_pure hrest
          have hlate : ¬f.JobInTime (some polls) := fun inTime => by
            have hle := late _ rfl
            rw [Nat.max_eq_right (Nat.succ_pos polls)] at hle
            exact absurd (inTime polls rfl) (Nat.not_lt.2 hle)
          exact ⟨_, _, .late rfl hlate, rfl, by rw [List.append_nil, hoperations]⟩

/-- In a calm cloud a machine is tagged and remembered at once. -/
theorem paced_register {vm : Cloud.VirtualMachine} {launched : Instance}
    (h : Paced (Event.Timely (W := fleetWorld) cancelled) arrived (f.register c claim vm) turns
      (.done launched) left) (calm : ∀ e ∈ turns, e.before.world.cloud.Calm) :
    left = arrived ∧ operationsIn (turns.map Event.exchange) = [.createTags] := by
  obtain ⟨_, own, rest, middle, rfl, hcall, hstore⟩ := Paced.of_bind h
  obtain ⟨stored, _, rest, rfl, hwrite, timely, hdone⟩ := Paced.of_request_bind hstore
  obtain ⟨rfl, -, rfl⟩ := Paced.of_pure hdone
  obtain ⟨rfl, hoperations, -⟩ :=
    paced_call_of_calm hcall fun e he => calm e (List.mem_append_left _ he)
  refine ⟨clock_of_due timely hwrite trivial, ?_⟩
  rw [List.map_append, operationsIn_append, hoperations, List.map_singleton, hwrite]
  rfl

/-- The last log of a launch takes one turn and no time. -/
theorem paced_conclude {result r : Except ResourceError Instance}
    (h : Paced (Event.Timely (W := fleetWorld) cancelled) arrived (conclude claim result) turns
      (.done r) left) :
    r = result ∧ left = arrived ∧ operationsIn (turns.map Event.exchange) = [] ∧ turns ≠ [] := by
  obtain ⟨logged, _, rest, rfl, hlog, timely, hdone⟩ := Paced.of_request_bind h
  obtain ⟨rfl, rfl, rfl⟩ := Paced.of_pure hdone
  refine ⟨rfl, clock_of_due timely hlog trivial, ?_, List.cons_ne_nil _ _⟩
  rw [List.map_singleton, hlog]
  rfl

/-- How a launch waits for its machine and registers it, if nobody else lists it. -/
theorem machineEnd_of_awaitState {r : Except ResourceError Instance}
    (positive : 0 < f.settings.pollInterval) (never : ∀ moment, ¬cancelled token moment)
    (h : Paced (Event.Timely (W := fleetWorld) cancelled) arrived
      (f.awaitState id Cloud.VirtualMachine.running token >>= fun vm =>
        (liftM (f.register c claim vm) : Attempt ResourceError Instance)).run turns (.done r) left)
    (machine : FindsMachine after id 0 turns) :
    ∃ operations duration, f.MachineEnd after id operations r duration ∧ left = arrived + duration ∧
      operationsIn (turns.map Event.exchange) = operations := by
  rcases Paced.of_run_bind h with ⟨e, rfl, hstate⟩ | ⟨vm, wait, rest, running, rfl, hstate, hrest⟩
  · obtain ⟨checks, duration, hend, hleft, hchecks⟩ :=
      Wait.swiftEnd_forState positive never hstate machine
    cases hend with
    | late late =>
        have hlate : ¬f.MachineInTime after := by
          rintro ⟨n, runs, early⟩
          exact absurd early (Nat.not_lt.2 (late n runs))
        exact ⟨_, _, .late hlate, hleft, hchecks⟩
  · obtain ⟨checks, duration, hend, rfl, hchecks⟩ :=
      Wait.swiftEnd_forState positive never hstate (Attended.append_iff.1 machine).1
    obtain ⟨launched, hregister, hresult⟩ := Paced.of_run_lift hrest
    obtain ⟨rfl, htags⟩ := f.paced_register hregister fun e he =>
      machine.calm e (List.mem_append_right _ he)
    cases hend with
    | passed runs early =>
        subst hresult
        refine ⟨_, _, .ready runs early, rfl, ?_⟩
        rw [List.map_append, operationsIn_append, hchecks, htags]

/-- How a launch goes on after its deployment, if nobody else asks about its job or its machine. -/
theorem launchEnd_of_afterDeployment {r : Except ResourceError Instance}
    (positive : 0 < f.settings.pollInterval) (never : ∀ moment, ¬cancelled token moment)
    (h : Paced (Event.Timely (W := fleetWorld) cancelled) arrived
      (f.afterDeployment c claim token reply).run turns (.done r) left)
    (job : FindsJob jobPolls reply.jobId turns) (machine : FindsMachine after reply.id 0 turns) :
    ∃ operations duration, f.LaunchEnd jobPolls after reply operations r duration ∧
      left = arrived + duration ∧ operationsIn (turns.map Event.exchange) = operations := by
  rcases Paced.of_run_bind h with ⟨e, rfl, hjob⟩ | ⟨_, own, rest, middle, rfl, hjob, hrest⟩
  · obtain ⟨queries, waited, hend, hleft, hoperations⟩ := f.jobEnd_of_finishJob never hjob job
    exact ⟨_, waited, .unfinished hend, hleft, hoperations⟩
  obtain ⟨queries, waited, hend, rfl, hqueries⟩ := f.jobEnd_of_finishJob never hjob job.of_append
  obtain ⟨_, logs, rest, middle, rfl, hlog, hwait⟩ := Paced.of_lift_bind hrest
  obtain ⟨logged, _, none, rfl, hlogged, timely, hnone⟩ := Paced.of_request_bind (f := pure) hlog
  obtain ⟨rfl, -, rfl⟩ := Paced.of_pure hnone
  -- No listing is served while the job is waited for, nor when the launch is logged as polling.
  have hmachine : FindsMachine after reply.id 0 rest := by
    refine (machine.of_append fun e he hlists => ?_).of_append
      (List.forall_mem_singleton.2 fun hlists => ?_)
    · have hmay := ((f.obeys_finishJob _ _ token).path hjob.path).1 _ (List.mem_map_of_mem he)
      rw [show e.exchange.request = _ from hlists] at hmay
      exact absurd hmay (by decide : Cloud.Operation.listMachines ∉ [Cloud.Operation.queryJob])
    · cases hlists.symm.trans (congrArg Exchange.request hlogged)
  obtain ⟨operations, duration, hready, rfl, hlater⟩ :=
    f.machineEnd_of_awaitState positive never hwait hmachine
  refine ⟨_, waited + duration, .finished hend hready, ?_, ?_⟩
  · rw [clock_of_due timely hlogged trivial, Nat.add_assoc]
  · rw [List.map_append, operationsIn_append, hqueries, List.map_append, operationsIn_append, hlater,
      List.map_singleton, hlogged]
    rfl

end Phases

section History

variable {reply : DeployReply} {jobPolls after : Option Nat} {i : Nat}
  {start d : Config fleetWorld (Except ResourceError Instance)} {events : List (Event fleetWorld)}
  {request : Cloud.DeployRequest} {e : Event fleetWorld}

/-- A launch that has just deployed: neither its job nor its machine has been asked about yet. -/
structure JustDeployed (reply : DeployReply) (jobPolls after : Option Nat) (i : Nat)
    (start : Config fleetWorld (Except ResourceError Instance)) : Prop where
  found : start.routines[i]? =
    some ((f.afterDeployment c claim token reply).run >>= conclude claim)
  uncancelled : token ∉ start.shared.cancelled
  synchronous : reply.jobId = none → jobPolls = none
  job : ∀ id, reply.jobId = some id →
    ∃ polls, jobPolls = some polls ∧ JobCourse id polls 0 start.shared.world.cloud
  machine : MachineCourse reply.id after 0 start.shared.world.cloud

variable {f c claim token}

theorem JustDeployed.tends (deployed : f.JustDeployed c claim token reply jobPolls after i start)
    (h : Steps start events d) : ∀ x ∈ events, x.routine = i → x.request.Tends reply :=
  h.asks_of deployed.found ((f.obeys_afterDeployment c claim).bind fun r _ => obeys_conclude claim r)

/-- However a history goes on after the deployment of a launch, it comes to the end of the launch. -/
theorem JustDeployed.completes (deployed : f.JustDeployed c claim token reply jobPolls after i start)
    (h : Prompt start events d) :
    ∃ later last r, Prompt d later last ∧ last.routines[i]? = some (.done r) := by
  refine h.completes deployed.found ?_
  exact ((f.obeys_afterDeployment c claim).bind fun r _ => obeys_conclude claim r).mono
    (fun _ => Request.Tends.lockFree) fun _ => id

/-- If the others avoid a deployment, nobody cancels the token of its launch. -/
theorem JustDeployed.never (deployed : f.JustDeployed c claim token reply jobPolls after i start)
    (h : Steps start events d) (others : ∀ x ∈ events, x.routine ≠ i → x.Avoids reply token)
    (moment : Nat) : ¬CancelledBy start events token moment := by
  rintro (hstart | ⟨x, hx, hcancel, -⟩)
  · exact deployed.uncancelled hstart
  · by_cases hi : x.routine = i
    · exact (deployed.tends h x hx hi).ne_cancel token hcancel
    · have avoids := others x hx hi
      rw [Event.Avoids, hcancel] at avoids
      exact avoids rfl

theorem JustDeployed.findsJob (deployed : f.JustDeployed c claim token reply jobPolls after i start)
    (h : Steps start events d) (others : ∀ x ∈ events, x.routine ≠ i → x.Avoids reply token) :
    FindsJob jobPolls reply.jobId (turnsOf i events) where
  synchronous := deployed.synchronous
  pending id hid := by
    obtain ⟨polls, hpolls, course⟩ := deployed.job id hid
    refine ⟨polls, hpolls, (h.attended course ?_ ?_).1⟩
    · exact fun x hx hi k course => course.tended (deployed.tends h x hx hi)
    · exact fun x hx hi k course => course.avoided hid (others x hx hi)

theorem JustDeployed.findsMachine
    (deployed : f.JustDeployed c claim token reply jobPolls after i start) (h : Steps start events d)
    (others : ∀ x ∈ events, x.routine ≠ i → x.Avoids reply token) :
    FindsMachine after reply.id 0 (turnsOf i events) := by
  refine (h.attended deployed.machine ?_ ?_).1
  · exact fun x hx hi k course => course.tended (deployed.tends h x hx hi)
  · exact fun x hx hi k course => course.avoided (others x hx hi)

/-- How a launch ends after its deployment, and in which turn. -/
theorem JustDeployed.ends (deployed : f.JustDeployed c claim token reply jobPolls after i start)
    (positive : 0 < f.settings.pollInterval) (h : Prompt start events d)
    (others : ∀ x ∈ events, x.routine ≠ i → x.Avoids reply token)
    {r : Except ResourceError Instance} (done : d.routines[i]? = some (.done r)) :
    ∃ duration, f.LaunchEnd jobPolls after reply (operationsIn (traceOf i events)) r duration ∧
      (turnsOf i events).getLast?.map (fun x => x.before.clock) =
        some (start.shared.clock + duration) := by
  obtain ⟨q, left, hq, paced, -, -⟩ := h.paced deployed.found
  obtain rfl := Option.some.inj (done.symm.trans hq)
  have never := deployed.never h.steps others
  have job := deployed.findsJob h.steps others
  have machine := deployed.findsMachine h.steps others
  have hlast := paced.left_eq
  obtain ⟨result, own, rest, middle, hturns, hown, hrest⟩ := Paced.of_bind paced
  rw [hturns] at job machine
  obtain ⟨operations, duration, hend, rfl, hoperations⟩ :=
    f.launchEnd_of_afterDeployment positive never hown job.of_append (Attended.append_iff.1 machine).1
  obtain ⟨rfl, rfl, hlogged, hturn⟩ := paced_conclude hrest
  have htrace : traceOf i events = (own ++ rest).map (Event.exchange (W := fleetWorld)) :=
    congrArg (List.map (Event.exchange (W := fleetWorld))) hturns
  refine ⟨duration, ?_, ?_⟩
  · rwa [htrace, List.map_append, operationsIn_append, hoperations, hlogged, List.append_nil]
  · rw [hturns] at hlast ⊢
    rw [List.getLast?_append_of_ne_nil _ hturn] at hlast ⊢
    rw [List.getLast?_eq_some_getLast hturn] at hlast ⊢
    exact congrArg some hlast.symm

/-- After the call to deploy is served in a calm cloud, the launch has just deployed. -/
theorem justDeployed_of_turn {candidates : List InstanceType}
    {m : Config fleetWorld (Except ResourceError Instance)} {trace : List (Exchange fleetSignature)}
    {next : Except Cloud.CallError DeployReply → Program (Except ResourceError Instance)}
    (found : m.routines[i]? = some (.ask (.act (.serveCall (.deployMachine request))) next))
    (h : Path (f.createInstance c claim candidates token).run trace
      (.ask (.act (.serveCall (.deployMachine request))) next))
    (deploys : Event.DeploysAfresh token request reply
      ⟨i, m.shared, .act (.serveCall (.deployMachine request))⟩) :
    f.JustDeployed c claim token reply m.shared.world.cloud.jobPolls
      m.shared.world.cloud.runningAfter i
      (m.turn i (.act (.serveCall (.deployMachine request))) next) := by
  obtain ⟨-, rfl, calm, fresh, unseen, uncancelled⟩ := deploys
  have hserved : m.shared.world.cloud.serve m.shared.world.today (.deployMachine request) =
      (.ok (m.shared.world.cloud.deploy m.shared.world.today request).1,
        (m.shared.world.cloud.deploy m.shared.world.today request).2) :=
    calm.serve_eq _ _
  have hworld : (m.turn i (.act (.serveCall (.deployMachine request))) next).shared.world.cloud =
      (m.shared.world.cloud.deploy m.shared.world.today request).2 := by
    rw [Config.world_turn m]
    exact congrArg Prod.snd hserved
  refine ⟨?_, ?_, ?_, ?_, ?_⟩
  · have hset : (m.turn i (.act (.serveCall (.deployMachine request))) next).routines[i]? =
        some (next (m.shared.world.cloud.serve m.shared.world.today (.deployMachine request)).1) :=
      List.getElem?_set_self (List.getElem?_eq_some_iff.1 found).1
    rw [hset, hserved, f.next_of_createInstance c claim h]
  · exact fun h => ((m.mem_cancelled_turn_iff _ _ _).1 h).elim nofun uncancelled
  · exact Cloud.Inventory.jobPolls_of_deploy _ _
  · intro id hid
    rw [hworld]
    exact Cloud.Inventory.jobCourse_deploy _ _ calm hid
  · rw [hworld]
    exact Cloud.Inventory.machineCourse_deploy _ _ calm fresh unseen

end History

end Fleet

/-- In a calm cloud a launch ends to the moment, if the others avoid what it has deployed and nobody
cancels it. It succeeds exactly if its job, should there be one, and its machine are in time. Then it
ends with the query that finds the job succeeded and, so many intervals after that, with the first
listing that finds the machine running; else it ends as timed out at the deadline of the job, with no
listing, or at that of the machine. And however a history goes on, the launch ends. -/
theorem launches_keep_schedule (f : Fleet) (c : NodeClass) (claim : NodeClaim)
    (candidates : List InstanceType) (token : Token) (positive : 0 < f.settings.pollInterval)
    {s : FleetState} {ps : List (Program (Except ResourceError Instance))}
    {before after : List (Event fleetWorld)} {e : Event fleetWorld}
    {d : Config fleetWorld (Except ResourceError Instance)} {request : Cloud.DeployRequest}
    {reply : DeployReply}
    (launch : ps[e.routine]? = some (f.createInstance c claim candidates token).run)
    (prompt : Prompt (Config.start s ps) (before ++ e :: after) d)
    (deploys : e.DeploysAfresh token request reply)
    (others : ∀ x ∈ after, x.routine ≠ e.routine → x.Avoids reply token) :
    (∃ later last r, Prompt d later last ∧ last.routines[e.routine]? = some (.done r)) ∧
    ∀ r, d.routines[e.routine]? = some (.done r) →
      ((∃ launched, r = .ok launched) ↔
        f.JobInTime e.before.world.cloud.jobPolls ∧
          f.MachineInTime e.before.world.cloud.runningAfter) ∧
      ∃ duration, f.LaunchEnd e.before.world.cloud.jobPolls e.before.world.cloud.runningAfter reply
          (operationsIn (traceOf e.routine after)) r duration ∧
        (turnsOf e.routine after).getLast?.map (fun x => x.before.clock) =
          some (e.before.clock + duration) := by
  obtain ⟨m, next, hm, hshared, found, hrest⟩ := prompt.split rfl
  obtain ⟨i, s', asked⟩ := e
  obtain rfl : m.shared = s' := hshared
  obtain rfl : asked = _ := deploys.deploys
  obtain ⟨q, hq, hpath⟩ := hm.steps.path launch
  obtain rfl := Option.some.inj (found.symm.trans hq)
  have deployed := Fleet.justDeployed_of_turn found hpath deploys
  refine ⟨deployed.completes hrest, fun r done => ?_⟩
  obtain ⟨duration, hend, hlast⟩ := deployed.ends positive hrest others done
  rw [Config.clock_turn m] at hlast
  exact ⟨hend.succeeds_iff, duration, hend, hlast⟩

section Slow

/-- An empty cloud in which a deployment is a job that one query finds pending, and a machine runs at
its second listing. -/
def startingState : FleetState :=
  { listedState with
    world := { listedState.world with cloud := { jobPolls := some 1, runningAfter := some 2 } } }

/-- A program that cancels another token after seven seconds. -/
def bystander : Program (Except ResourceError Instance) :=
  .ask (.pause none 7000) fun _ => .ask (.cancel 1) fun _ => .done (.error .cancelled)

/-- A launch beside a program that leaves it alone. -/
def slowStart : Config fleetWorld (Except ResourceError Instance) :=
  Config.start startingState [smallLaunch, bystander]

/-- Whether a turn deploys afresh in a calm cloud that starts machines like the empty one. -/
def Event.deploysSlowly (e : Event fleetWorld) : Bool :=
  match e.request with
  | .act (.serveCall (.deployMachine request)) =>
      let cloud := e.before.world.cloud
      let reply := (cloud.deploy e.before.world.today request).1
      cloud.failures.isEmpty && decide (cloud.latency = 0) && decide (cloud.jobFailure = none) &&
        cloud.scripted.isEmpty && (cloud.machinesOf reply.id).isEmpty &&
        decide (cloud.sightings.get? reply.id = none) && !e.before.cancelled.contains 0 &&
        decide (cloud.jobPolls = some 1) && decide (cloud.runningAfter = some 2)
  | _ => false

theorem Event.deploysAfresh_of_deploysSlowly {e : Event fleetWorld} (h : e.deploysSlowly = true) :
    (∃ request reply, e.DeploysAfresh 0 request reply) ∧
      e.before.world.cloud.jobPolls = some 1 ∧ e.before.world.cloud.runningAfter = some 2 := by
  rw [Event.deploysSlowly] at h
  split at h
  next request deploys =>
    simp only [Bool.and_eq_true, decide_eq_true_eq, List.isEmpty_iff, Bool.not_eq_true',
      List.contains_eq_mem, decide_eq_false_iff_not] at h
    obtain ⟨⟨⟨⟨⟨⟨⟨⟨failures, latency⟩, jobFailure⟩, scripted⟩, fresh⟩, unseen⟩, uncancelled⟩, polls⟩,
      runs⟩ := h
    have calm : e.before.world.cloud.Calm := ⟨failures, latency, jobFailure, scripted⟩
    exact ⟨⟨request, _, deploys, rfl, calm, fresh, unseen, uncancelled⟩, polls, runs⟩
  next => cases h

/-- A turn that only pauses, or that cancels another token than that of the launch. -/
def Event.StandsAside (e : Event fleetWorld) : Prop :=
  match e.request with
  | .pause _ _ => True
  | .cancel token => token ≠ 0
  | _ => False

instance (e : Event fleetWorld) : Decidable e.StandsAside :=
  match h : e.request with
  | .pause _ _ => .isTrue (by rw [Event.StandsAside, h]; trivial)
  | .cancel token => decidable_of_iff (token ≠ 0) (by rw [Event.StandsAside, h])
  | .act _ | .now | .setAlarm _ | .dropAlarm _ | .isCancelled _ | .acquire _ | .release _
  | .read _ _ | .write _ _ _ _ | .evict _ _ | .purge _ | .count _ =>
      .isFalse (by rw [Event.StandsAside, h]; exact id)

theorem Event.StandsAside.avoids {e : Event fleetWorld} {reply : DeployReply} (h : e.StandsAside) :
    e.Avoids reply 0 := by
  rw [Event.StandsAside] at h
  rw [Event.Avoids]
  split at h
  next hpause => rw [hpause]; trivial
  next token hcancel => rw [hcancel]; exact h
  next => exact h.elim

/-- The launch up to its job, the queries and listings at their times, and the other program between
them. -/
def slowScript : List Move :=
  [.turns 0 12, .wait 5000, .turns 0 6, .wait 7000, .turns 1 2, .wait 10000, .turns 0 10, .wait 10001,
    .turns 0 6, .wait 10002, .turns 0 13]

/-- A launch whose job takes two queries and whose machine takes two listings. -/
theorem launches_keep_schedule_of_slow_start :
    ∃ before e after d r, Prompt slowStart (before ++ e :: after) d ∧ e.before.clock = 0 ∧
      d.routines[0]? = some (.done r) ∧ (∃ launched, r = .ok launched) ∧
      operationsIn (traceOf 0 after) =
        [.queryJob, .queryJob, .listMachines, .listMachines, .createTags] ∧
      (turnsOf 0 after).getLast?.map (fun x => x.before.clock) = some 10002 := by
  -- The tenth turn is the one in which the deployment is served.
  obtain ⟨events, d, prompt, e, he, hdeploys, hown, hclock, hothers, hdone⟩ :
      ∃ events d, Prompt slowStart events d ∧
        ∃ e ∈ (events.drop 9).head?, e.deploysSlowly = true ∧ e.routine = 0 ∧ e.before.clock = 0 ∧
          (∀ x ∈ (events.drop 9).tail, x.routine ≠ 0 → x.StandsAside) ∧
          (d.result? 0).isSome = true :=
    Config.exists_prompt_of_follow slowScript (by decide +kernel) (by decide +kernel)
  obtain ⟨⟨request, reply, deploys⟩, polls, runs⟩ := Event.deploysAfresh_of_deploysSlowly hdeploys
  obtain ⟨r, hresult⟩ := Option.isSome_iff_exists.1 hdone
  have done := Config.result?_eq_some_iff.1 hresult
  generalize hafter : (events.drop 9).tail = after at hothers
  have hsplit : events.drop 9 = e :: after := by rw [← hafter, List.cons_head?_tail he]
  rw [← List.take_append_drop 9 events, hsplit] at prompt
  have others : ∀ x ∈ after, x.routine ≠ e.routine → x.Avoids reply 0 :=
    fun x hx hother => (hothers x hx (hown ▸ hother)).avoids
  have launch : [smallLaunch, bystander][e.routine]? = some smallLaunch := by
    rw [hown]
    rfl
  obtain ⟨-, ends⟩ := launches_keep_schedule smallFleet smallClass { name := "n1" } [smallType] 0
    (by decide) launch prompt deploys others
  rw [hown] at ends
  obtain ⟨succeeds, duration, hend, hlast⟩ := ends r done
  rw [polls, runs] at succeeds hend
  have job : smallFleet.JobInTime (some 1) := by
    intro polls hpolls
    obtain rfl := Option.some.inj hpolls
    decide
  have machine : smallFleet.MachineInTime (some 2) := ⟨2, rfl, by decide⟩
  generalize hoperations : operationsIn (traceOf 0 after) = operations at hend
  refine ⟨_, e, after, d, r, prompt, hclock, done, succeeds.2 ⟨job, machine⟩, ?_⟩
  rw [hclock] at hlast
  cases hend with
  | unfinished late =>
      cases late with
      | late _ late => exact absurd job late
  | finished queried listed =>
      cases queried
      cases listed with
      | ready runs _ =>
          obtain rfl := Option.some.inj runs
          exact ⟨hoperations, hlast⟩
      | late late => exact absurd machine late

end Slow

end NodeFleet
