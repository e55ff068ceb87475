import NodeFleet.Proofs.Cloud.Startup
import NodeFleet.Proofs.Fleet.Serving
import NodeFleet.Proofs.Fleet.Waiting
import NodeFleet.Proofs.Routine.Swift

/-!
# Tending a deployment

After its deployment a launch queries the job and lists the machine, and nobody else does. In a calm
cloud each of its calls is begun, served and answered at one moment, so the waits for the job and for
the machine are polls with swift checks: the reply is told by how many queries or listings of this
launch were served before.
-/

namespace NodeFleet

open Cloud (DeployReply Inventory)
open Cloud.Inventory (KeepsMachine KeepsJob MachineCourse JobCourse)
open Routine (Paced)

variable {W : World fleetSignature} {e : Event fleetWorld} {reply : DeployReply} {token : Token}
  {id jobId : String} {after : Option Nat} {polls k : Nat}

namespace Event

/-- The operation that is called in a turn. -/
def operation? (e : Event W) : Option Cloud.Operation :=
  e.exchange.called?.map Cloud.Call.operation

/-- A turn of somebody who leaves a deployment to those who made it: nothing happens to its machine or
its job, no failure or latency is set up, and the token is not cancelled. -/
def Avoids (reply : DeployReply) (token : Token) (e : Event fleetWorld) : Prop :=
  match e.request with
  | .act (.serveCall call) => call.SparesMachine reply.id e.before.world.cloud ∧
      ∀ jobId, reply.jobId = some jobId → call ≠ .queryJob jobId
  | .act (.change f) => KeepsMachine reply.id e.before.world.cloud (f e.before.world).cloud ∧
      ∀ jobId, reply.jobId = some jobId → KeepsJob jobId e.before.world.cloud (f e.before.world).cloud
  | .cancel other => other ≠ token
  | _ => True

end Event

/-- A question of a launch after its deployment: about its job, its machine, its tags, its states or
the time. -/
def Request.Tends (reply : DeployReply) : Request fleetSignature → Prop
  | .act (.beginCall _) => True
  | .act (.serveCall (.queryJob jobId)) => reply.jobId = some jobId
  | .act (.serveCall (.listMachines query)) => query = { id := some reply.id }
  | .act (.serveCall (.createTags _)) => True
  | .act (.log _ _) => True
  | .write _ _ _ _ => True
  | request => request.AboutTime

theorem Request.Tends.of_aboutTime (request : Request fleetSignature) (h : request.AboutTime) :
    request.Tends reply := by
  cases request with
  | act action => exact h.elim
  | write cache key value ttl => trivial
  | _ => exact h

theorem Request.Tends.lockFree {request : Request fleetSignature} (h : request.Tends reply) :
    request.LockFree := by
  cases request with
  | acquire cache => exact h.elim
  | release cache => exact h.elim
  | _ => exact ⟨rfl, rfl⟩

theorem Request.Tends.ne_cancel {request : Request fleetSignature} (h : request.Tends reply)
    (token : Token) : request ≠ .cancel token := by
  rintro rfl
  exact h

section Turns

/-- In a calm cloud a call is recorded when it begins, and it takes no time. -/
theorem WorldState.beginCall_of_calm {w : WorldState} (calm : w.cloud.Calm) (call : Cloud.Call) :
    w.beginCall call = (.delayed 0, { w with cloud := w.cloud.record call }) := by
  cases call with
  | queryJob jobId =>
      rw [beginCall, calm.scripted]
      dsimp only
      rw [calm.latency]
  | _ => exact congrArg (fun latency => (Opening.delayed latency, _)) calm.latency

theorem Event.after_began {call : Cloud.Call} (calm : e.before.world.cloud.Calm)
    (h : e.request = .act (.beginCall call)) :
    e.after.world.cloud = e.before.world.cloud.record call := by
  obtain ⟨i, s, request⟩ := e
  subst h
  exact congrArg (fun done => done.2.cloud) (WorldState.beginCall_of_calm calm call)

/-- What a turn does to a calm cloud: nothing, or it records a call, serves one or changes it. -/
theorem Event.related {R : Inventory → Inventory → Prop} (calm : e.before.world.cloud.Calm)
    (refl : ∀ inv, R inv inv) (recorded : ∀ inv call, R inv (inv.record call))
    (served : ∀ call, e.request = .act (.serveCall call) →
      R e.before.world.cloud (e.before.world.cloud.serve e.before.world.today call).2)
    (changed : ∀ f, e.request = .act (.change f) →
      R e.before.world.cloud (f e.before.world).cloud) :
    R e.before.world.cloud e.after.world.cloud := by
  cases hrequest : e.request with
  | act action =>
      cases action with
      | beginCall call =>
          rw [Event.after_began calm hrequest]
          exact recorded _ call
      | serveCall call =>
          rw [Event.after_served hrequest]
          exact served call hrequest
      | change f =>
          have keeps := changed f hrequest
          obtain ⟨i, s, request⟩ := e
          subst hrequest
          exact keeps
      | _ =>
          obtain ⟨i, s, request⟩ := e
          subst hrequest
          exact refl _
  | _ =>
      obtain ⟨i, s, request⟩ := e
      subst hrequest
      exact refl _

/-- A turn keeps a machine if no call for it is served and nobody changes it. -/
theorem Event.keepsMachine (calm : e.before.world.cloud.Calm)
    (given : e.before.world.cloud.IsMachineId id)
    (served : ∀ call, e.request = .act (.serveCall call) →
      call.SparesMachine id e.before.world.cloud)
    (changed : ∀ f, e.request = .act (.change f) →
      KeepsMachine id e.before.world.cloud (f e.before.world).cloud) :
    KeepsMachine id e.before.world.cloud e.after.world.cloud := by
  refine Event.related calm (.refl id) (fun inv call => ?_) (fun call hcall => ?_) changed
  · exact ⟨Cloud.Inventory.goesOn_of_eq rfl rfl rfl rfl (Nat.le_refl _), rfl, rfl, rfl⟩
  · exact Cloud.Inventory.keepsMachine_serve calm given (served call hcall)

/-- A turn keeps a job if no query of it is served and nobody changes it. -/
theorem Event.keepsJob (calm : e.before.world.cloud.Calm)
    (given : e.before.world.cloud.IsJobId jobId)
    (served : ∀ call, e.request = .act (.serveCall call) → call ≠ .queryJob jobId)
    (changed : ∀ f, e.request = .act (.change f) →
      KeepsJob jobId e.before.world.cloud (f e.before.world).cloud) :
    KeepsJob jobId e.before.world.cloud e.after.world.cloud := by
  refine Event.related calm (.refl jobId) (fun inv call => ?_) (fun call hcall => ?_) changed
  · exact ⟨Cloud.Inventory.goesOn_of_eq rfl rfl rfl rfl (Nat.le_refl _), rfl⟩
  · exact Cloud.Inventory.keepsJob_serve calm given (served call hcall)

/-- Others do not move a machine that they avoid. -/
theorem Cloud.Inventory.MachineCourse.avoided
    (h : MachineCourse reply.id after k e.before.world.cloud) (avoids : e.Avoids reply token) :
    MachineCourse reply.id after k e.after.world.cloud := by
  refine h.keeps (Event.keepsMachine h.calm h.given (fun call hcall => ?_) fun f hf => ?_)
  · rw [Event.Avoids, hcall] at avoids
    exact avoids.1
  · rw [Event.Avoids, hf] at avoids
    exact avoids.1

/-- Others do not move a job that they avoid. -/
theorem Cloud.Inventory.JobCourse.avoided (h : JobCourse jobId polls k e.before.world.cloud)
    (job : reply.jobId = some jobId) (avoids : e.Avoids reply token) :
    JobCourse jobId polls k e.after.world.cloud := by
  refine h.keeps (Event.keepsJob h.calm h.given (fun call hcall => ?_) fun f hf => ?_)
  · rw [Event.Avoids, hcall] at avoids
    exact avoids.2 jobId job
  · rw [Event.Avoids, hf] at avoids
    exact avoids.2 jobId job

/-- Who tends a deployment moves its machine on by listing it, and by nothing else. -/
theorem Cloud.Inventory.MachineCourse.tended
    (h : MachineCourse reply.id after k e.before.world.cloud) (tends : e.request.Tends reply) :
    MachineCourse reply.id after
      (if e.request.serves (· = .listMachines { id := some reply.id }) then k + 1 else k)
      e.after.world.cloud := by
  split
  next serves =>
    obtain ⟨call, hrequest, hcall⟩ := Request.exists_of_serves serves
    obtain rfl := of_decide_eq_true hcall
    rw [Event.after_served hrequest, h.calm.serve_eq]
    exact h.listed.1
  next unserved =>
    refine h.keeps (Event.keepsMachine h.calm h.given (fun call hcall => ?_) fun f hf => ?_)
    · rw [hcall] at tends unserved
      cases call with
      | listMachines query =>
          obtain rfl : query = { id := some reply.id } := tends
          exact absurd (decide_eq_true rfl) unserved
      | destroyMachine r => exact tends.elim
      | _ => trivial
    · rw [hf] at tends
      exact tends.elim

/-- Who tends a deployment moves its job on by querying it, and by nothing else. -/
theorem Cloud.Inventory.JobCourse.tended (h : JobCourse jobId polls k e.before.world.cloud)
    (tends : e.request.Tends reply) :
    JobCourse jobId polls (if e.request.serves (· = .queryJob jobId) then k + 1 else k)
      e.after.world.cloud := by
  split
  next serves =>
    obtain ⟨call, hrequest, hcall⟩ := Request.exists_of_serves serves
    obtain rfl := of_decide_eq_true hcall
    rw [Event.after_served hrequest, h.calm.serve_eq]
    exact h.queried.1
  next unserved =>
    refine h.keeps (Event.keepsJob h.calm h.given (fun call hcall => ?_) fun f hf => ?_)
    · rintro rfl
      rw [hcall] at unserved
      exact unserved (decide_eq_true rfl)
    · rw [hf] at tends
      exact tends.elim

end Turns

section Calls

variable {cancelled : Token → Nat → Prop} {arrived left : Nat} {turns : List (Event fleetWorld)}
  {call : Cloud.Call}

theorem filterMap_operation? (turns : List (Event W)) :
    turns.filterMap Event.operation? = operationsIn (turns.map Event.exchange) := by
  rw [operationsIn, List.filterMap_map]
  rfl

/-- A call that begins in a calm cloud is served at the same moment. -/
theorem paced_call_of_calm {result : Except Cloud.CallError call.Reply}
    (h : Paced (Event.Timely (W := fleetWorld) cancelled) arrived (Program.call call) turns
      (.done result) left) (calm : ∀ e ∈ turns, e.before.world.cloud.Calm) :
    left = arrived ∧ operationsIn (turns.map Event.exchange) = [call.operation] ∧
      ∃ before serving, turns = before ++ [serving] ∧
        serving.exchange = ⟨.act (.serveCall call), result⟩ ∧
        ∀ e ∈ before, ∀ test, e.request.serves test = false := by
  have hoperations := (ends_call h.path).2.1
  obtain ⟨begun, opening, rest, rfl, hbegin, timely, hopening⟩ := Paced.of_request_bind h
  have hclock := clock_of_due timely hbegin trivial
  have hbegun : begun.request = .act (.beginCall call) := congrArg Exchange.request hbegin
  obtain rfl : opening = .delayed 0 := by
    have hcalm := WorldState.beginCall_of_calm (calm begun List.mem_cons_self) call
    obtain ⟨i, s, request⟩ := begun
    obtain ⟨rfl, hanswer⟩ := Exchange.mk.inj hbegin
    exact (eq_of_heq hanswer).symm.trans (congrArg Prod.fst hcalm)
  obtain ⟨_, slept, rest, middle, rfl, hsleep, hserve⟩ := Paced.of_bind hopening
  obtain ⟨hour, start, rest, rfl, hnow, timely, hstart⟩ := Paced.of_request_bind hsleep
  have hhour := (clock_of_due timely hnow trivial).trans hclock
  obtain rfl : arrived = start := hhour.symm.trans (Event.clock_of_now hnow)
  obtain ⟨pausing, wake, rest, rfl, hpause, timely, hwake⟩ := Paced.of_request_bind hstart
  have hpausing := (clock_of_due timely hpause (.inl (Nat.le_of_eq hhour.symm))).trans hhour
  obtain ⟨rfl, -, rfl⟩ := Paced.of_pure hwake
  obtain ⟨serving, answer, rest, rfl, hserved, timely, hanswer⟩ :=
    Paced.of_request_bind (f := pure) hserve
  have hserving := (clock_of_due timely hserved trivial).trans hpausing
  obtain ⟨rfl, rfl, rfl⟩ := Paced.of_pure hanswer
  refine ⟨hserving, hoperations, [begun, hour, pausing], serving, rfl, hserved, ?_⟩
  have unserved {request : Request fleetSignature} {e : Event fleetWorld}
      {answer : request.Answer} (h : e.exchange = ⟨request, answer⟩)
      (never : ∀ test, request.serves test = false) : ∀ test, e.request.serves test = false := by
    rw [show e.request = request from congrArg Exchange.request h]
    exact never
  simp only [List.forall_mem_cons]
  exact ⟨unserved hbegin fun _ => rfl, unserved hnow fun _ => rfl, unserved hpause fun _ => rfl,
    fun _ h => (nomatch h)⟩

variable {ε β : Type} {expected : Nat → WorldState → Prop} {passes : Nat → Prop}

/-- In a calm world that tells which replies decide, the checks of a wait are swift. -/
theorem Wait.swift (w : Wait ε β) (calm : ∀ k world, expected k world → world.cloud.Calm)
    (judged : ∀ k world, expected k world →
      (passes k ∧ ∃ value, w.verdict (world.cloud.serve world.today w.call).1 = .ok (some value)) ∨
        (¬passes k ∧ w.verdict (world.cloud.serve world.today w.call).1 = .ok none)) :
    SwiftCheck (W := fleetWorld) cancelled expected (fun e => e.request.serves (· = w.call))
      Event.operation? w.call.operation passes w.check := by
  intro arrived left k turns outcome h attended
  obtain ⟨result, own, rest, middle, rfl, hcall, hverdict⟩ := Paced.of_bind h
  obtain ⟨rfl, rfl, rfl⟩ := Paced.of_pure hverdict
  rw [List.append_nil] at attended ⊢
  have hcalm : ∀ e ∈ own, e.before.world.cloud.Calm := fun e he => by
    obtain ⟨k, found⟩ := attended.exists_expected e he
    exact calm k _ found
  obtain ⟨hleft, hoperations, before, serving, rfl, hserved, unserved⟩ :=
    paced_call_of_calm hcall hcalm
  have hbefore : before.countP (fun e => e.request.serves (· = w.call)) = 0 :=
    List.countP_eq_zero.2 fun e he => by simp [unserved e he]
  have hserves : serving.request.serves (· = w.call) = true := by
    rw [show serving.request = .act (.serveCall w.call) from congrArg Exchange.request hserved]
    exact decide_eq_true rfl
  have hfound : expected k serving.before.world := by
    have hlast := (Attended.append_iff.1 attended).2
    rw [hbefore] at hlast
    cases hlast with
    | cons found _ => exact found
  refine ⟨hleft, ?_, ?_, ?_⟩
  · rw [List.countP_append, hbefore, List.countP_singleton, if_pos hserves]
  · rw [filterMap_operation?, hoperations]
  · rw [← Event.served hserved]
    exact judged k _ hfound

/-- A question about time serves and calls nothing. -/
theorem idleInTime_serves (test : Cloud.Call → Bool) :
    IdleInTime (fun e : Event fleetWorld => e.request.serves test) Event.operation? := by
  rintro ⟨i, s, request⟩ h
  cases request with
  | act action => exact h.elim
  | _ => exact ⟨rfl, rfl⟩

/-- How a wait ends in a calm world, without cancellations: with the first reply that decides, or at
its deadline. -/
theorem Wait.swiftEnd (w : Wait ε β) {needed : Option Nat} {r : Except ε β}
    (positive : 0 < w.interval) (never : ∀ moment, ¬cancelled token moment)
    (calm : ∀ k world, expected k world → world.cloud.Calm)
    (judged : ∀ k world, expected k world →
      ((∃ n, needed = some n ∧ n ≤ k + 1) ∧
          ∃ value, w.verdict (world.cloud.serve world.today w.call).1 = .ok (some value)) ∨
        (¬(∃ n, needed = some n ∧ n ≤ k + 1) ∧
          w.verdict (world.cloud.serve world.today w.call).1 = .ok none))
    (h : Paced (Event.Timely (W := fleetWorld) cancelled) arrived (w.program token) turns (.done r)
      left)
    (attended : Attended expected (fun e => e.request.serves (· = w.call)) 0 turns) :
    ∃ checks duration, SwiftEnd needed w.errors w.interval w.timeout checks r duration ∧
      left = arrived + duration ∧
      operationsIn (turns.map Event.exchange) = List.replicate checks w.call.operation := by
  obtain ⟨checks, duration, hend, hleft, htally⟩ :=
    swiftEnd_of_poll positive (w.swift calm judged) (idleInTime_serves _) never h attended
  exact ⟨checks, duration, hend, hleft, (filterMap_operation? turns).symm.trans htally⟩

/-- How the wait for a job ends that is queried by nobody else. -/
theorem Wait.swiftEnd_forJob {timeout : Nat} {r : Except Cloud.CallError (Option Json)}
    (never : ∀ moment, ¬cancelled token moment)
    (h : Paced (Event.Timely (W := fleetWorld) cancelled) arrived
      (Program.awaitJob jobId timeout token) turns (.done r) left)
    (attended : Attended (fun k (world : WorldState) => JobCourse jobId polls k world.cloud)
      (fun e : Event fleetWorld => e.request.serves (· = .queryJob jobId)) 0 turns) :
    ∃ checks duration, SwiftEnd (some (polls + 1)) ⟨.cancelled, .jobTimeout jobId⟩ jobPollInterval
        timeout checks r duration ∧
      left = arrived + duration ∧
      operationsIn (turns.map Event.exchange) = List.replicate checks .queryJob := by
  rw [← Wait.program_forJob] at h
  have positive : 0 < jobPollInterval := by decide
  refine (Wait.forJob jobId timeout).swiftEnd positive never (fun k world h => h.calm)
    (fun k world course => ?_) h attended
  obtain ⟨-, answer, hanswer, hstatus⟩ := course.queried
  rw [course.calm.serve_eq]
  change (_ ∧ ∃ value, Wait.jobVerdict jobId (world.cloud.queryJob jobId).1 = _) ∨
    (_ ∧ Wait.jobVerdict jobId (world.cloud.queryJob jobId).1 = _)
  rw [hanswer, Wait.jobVerdict_ok, jobOutcome, hstatus]
  by_cases hpolls : polls ≤ k
  · rw [if_pos hpolls]
    exact .inl ⟨⟨_, rfl, Nat.succ_le_succ hpolls⟩, _, rfl⟩
  · rw [if_neg hpolls]
    refine .inr ⟨?_, rfl⟩
    rintro ⟨n, hn, hle⟩
    obtain rfl := Option.some.inj hn
    exact hpolls (Nat.le_of_succ_le_succ hle)

/-- How the wait for a machine ends that is listed by nobody else. -/
theorem Wait.swiftEnd_forState {f : Fleet} {r : Except ResourceError Cloud.VirtualMachine}
    (positive : 0 < f.settings.pollInterval) (never : ∀ moment, ¬cancelled token moment)
    (h : Paced (Event.Timely (W := fleetWorld) cancelled) arrived
      (f.awaitState id Cloud.VirtualMachine.running token).run turns (.done r) left)
    (attended : Attended (fun k (world : WorldState) => MachineCourse id after k world.cloud)
      (fun e : Event fleetWorld => e.request.serves (· = .listMachines { id := some id })) 0 turns) :
    ∃ checks duration, SwiftEnd after
        ⟨.cancelled, .timeout s!"VM {id} to reach state {Cloud.VirtualMachine.running}"⟩
        f.settings.pollInterval f.settings.readyTimeout checks r duration ∧
      left = arrived + duration ∧
      operationsIn (turns.map Event.exchange) = List.replicate checks .listMachines := by
  rw [← Wait.program_forState] at h
  refine (Wait.forState f id Cloud.VirtualMachine.running).swiftEnd positive never
    (fun k world h => h.calm) (fun k world course => ?_) h attended
  obtain ⟨-, found, hitems, hrunning⟩ := course.listed
  rw [course.calm.serve_eq]
  have hverdict : Wait.stateVerdict id Cloud.VirtualMachine.running
      (.ok (world.cloud.listMachines { id := some id }).1) =
        .ok (if found.state = Cloud.VirtualMachine.running then some found else none) := by
    rw [Wait.stateVerdict, hitems]
    rfl
  change (_ ∧ ∃ value, Wait.stateVerdict id _ (.ok (world.cloud.listMachines _).1) = _) ∨
    (_ ∧ Wait.stateVerdict id _ (.ok (world.cloud.listMachines _).1) = _)
  rw [hverdict, ← hrunning]
  by_cases hup : found.state = Cloud.VirtualMachine.running
  · rw [if_pos hup]
    exact .inl ⟨hup, _, rfl⟩
  · rw [if_neg hup]
    exact .inr ⟨hup, rfl⟩

end Calls

end NodeFleet
