import NodeFleet.Proofs.Fleet.Requesting
import NodeFleet.Proofs.Routine.Cancellation

/-!
# How a launch notices that it is cancelled

A launch looks at its token once, before it plans, and then not again until its request is answered.
So a token that is cancelled by that look stops the launch before it calls anything, and one that is
cancelled later does not keep it from requesting its machine: the first wait after that is cut
short, and a machine that was deployed stays behind without its tags.
-/

namespace NodeFleet

open Routine (Ends ends_run_bind ends_lift_bind ends_lift_request_bind)
open Program (callsPlainly_of_aboutTime)
open Cloud (DeployRequest)

section Waits

variable {f : Fleet} {token : Token} {trace : List (Exchange fleetSignature)}

theorem operationsIn_of_aboutTime (h : ∀ x ∈ trace, x.request.AboutTime) :
    operationsIn trace = [] := by
  rw [List.eq_nil_iff_forall_not_mem]
  intro op hop
  exact List.not_mem_nil
    (mem_of_mem_operationsIn (fun x hx => (callsPlainly_of_aboutTime _ (h x hx)).callsOnly) hop)

theorem operationsIn_of_called?_eq_none (h : ∀ x ∈ trace, x.called? = none) :
    operationsIn trace = [] := by
  refine List.filterMap_eq_nil_iff.2 fun x hx => ?_
  rw [h x hx]
  rfl

theorem ends_finishJob_of_cutShort {context : String} {jobId : Option String}
    {r : Except ResourceError Unit} (h : Ends (f.finishJob context jobId token).run trace r)
    (cut : ∀ x ∈ trace, x.CutShort token) :
    (r = .ok () ∨ r = .error .cancelled) ∧ operationsIn trace = [] := by
  cases jobId with
  | none =>
      obtain ⟨rfl, rfl⟩ := Routine.ends_run_pure.1 h
      exact ⟨.inl rfl, rfl⟩
  | some id =>
      obtain ⟨outcome, wait, rest, rfl, hwait, hrest⟩ := ends_lift_bind.1 h
      obtain ⟨rfl, htime⟩ := ends_poll_of_cutShort hwait fun x hx => cut x (by simp [hx])
      obtain ⟨rfl, rfl⟩ := Routine.ends_run_throw.1 hrest
      refine ⟨.inr rfl, ?_⟩
      rw [operationsIn_append, operationsIn_of_aboutTime htime]
      rfl

theorem ends_awaitState_of_cutShort {id target : String}
    {r : Except ResourceError Cloud.VirtualMachine}
    (h : Ends (f.awaitState id target token).run trace r)
    (cut : ∀ x ∈ trace, x.CutShort token) :
    r = .error .cancelled ∧ operationsIn trace = [] := by
  obtain ⟨rfl, htime⟩ := ends_poll_of_cutShort h cut
  exact ⟨rfl, operationsIn_of_aboutTime htime⟩

/-- A launch that was cancelled before its request is answered gives up its machine when the request
is answered, and calls nothing more. -/
theorem ends_deployment_of_cutShort {c : NodeClass} {claim : NodeClaim} {request : DeployRequest}
    {r : Except ResourceError Instance} {opening : Opening Cloud.DeployReply}
    {rest : List (Exchange fleetSignature)}
    (h : Ends (f.deployment c claim token request).run
      (⟨.act (.log claim.name .deploying), ()⟩ ::
        ⟨.act (.beginCall (.deployMachine request)), opening⟩ :: rest) r)
    (cut : ∀ x ∈ rest, x.CutShort token) :
    (r = .error .cancelled ∨ ∃ source, r = .error (.call "deploy virtual machine" source)) ∧
      operationsIn rest = [] := by
  obtain ⟨_, afterLog, hlog, hdeploy⟩ := ends_lift_request_bind.1 h
  obtain ⟨-, rfl⟩ := List.cons.inj hlog
  rcases ends_tryCall_bind hdeploy with ⟨e, rfl, hcall⟩ | ⟨reply, own, after, htrace, hcall, hafter⟩
  · obtain ⟨-, -, -, _, tail, htail, hquiet⟩ := ends_call hcall
    obtain ⟨-, rfl⟩ := List.cons.inj htail
    exact ⟨.inr ⟨e, rfl⟩, operationsIn_of_called?_eq_none hquiet⟩
  obtain ⟨-, -, -, _, tail, rfl, hquiet⟩ := ends_call hcall
  obtain rfl : rest = tail ++ after := (List.cons.inj htrace).2
  have hafterCut : ∀ x ∈ after, x.CutShort token := fun x hx => cut x (List.mem_append_right _ hx)
  rw [operationsIn_append, operationsIn_of_called?_eq_none hquiet, List.nil_append]
  -- The job of the deployment is waited for if it has one, and else the machine is.
  rcases ends_run_bind.1 hafter with ⟨e, rfl, hjob⟩ | ⟨_, job, afterJob, rfl, hjob, hpoll⟩
  · obtain ⟨he, hoperations⟩ := ends_finishJob_of_cutShort hjob hafterCut
    rcases he with he | he
    · cases he
    · cases he
      exact ⟨.inl rfl, hoperations⟩
  obtain ⟨-, hoperations⟩ :=
    ends_finishJob_of_cutShort hjob fun x hx => hafterCut x (List.mem_append_left _ hx)
  obtain ⟨_, afterLog, rfl, hwait⟩ := ends_lift_request_bind.1 hpoll
  rw [operationsIn_append, hoperations, List.nil_append, operationsIn_log]
  rcases ends_run_bind.1 hwait with ⟨e, rfl, hready⟩ | ⟨vm, wait, last, rfl, hready, -⟩
  · obtain ⟨he, hnone⟩ := ends_awaitState_of_cutShort hready fun x hx => hafterCut x (by simp [hx])
    cases he
    exact ⟨.inl rfl, hnone⟩
  · obtain ⟨he, -⟩ := ends_awaitState_of_cutShort hready fun x hx => hafterCut x (by simp [hx])
    cases he

end Waits

/-- What the token of a launch has to do with its end, where the launch took the turns of a number
and ended with a result. -/
structure CancellationRecord (token : Token) (i : Nat) (events : List (Event fleetWorld))
    (r : Except ResourceError Instance) : Prop where
  /-- In its second turn it looks at the token. It fails as cancelled without having requested a
  machine exactly if the token is cancelled then, and in that case it calls nothing at all. -/
  look : ∃ look, (turnsOf i events)[1]? = some look ∧ look.request = .isCancelled token ∧
    ((r = .error .cancelled ∧ deploysIn (traceOf i events) = []) ↔
      token ∈ look.before.cancelled) ∧
    (token ∈ look.before.cancelled → operationsIn (traceOf i events) = [])
  /-- If the token was cancelled between that look and its request, it requests the machine all the
  same. Then it fails as the request does or as cancelled, and the request is its last call. -/
  abandoned {e : Event fleetWorld} (own : e ∈ turnsOf i events)
    (deploys : e.request.deploys? ≠ none) (cancelled : token ∈ e.before.cancelled) :
    (r = .error .cancelled ∨ ∃ source, r = .error (.call "deploy virtual machine" source)) ∧
      (operationsIn (traceOf i events)).getLast? = some .deployMachine

section Launch

variable {f : Fleet} {c : NodeClass} {claim : NodeClaim} {candidates : List InstanceType}
  {token : Token} {i : Nat} {events : List (Event fleetWorld)} {r : Except ResourceError Instance}

/-- The second turn of a routine whose trace is known. -/
theorem exists_second_turn {x y : Exchange fleetSignature} {rest : List (Exchange fleetSignature)}
    (h : traceOf i events = x :: y :: rest) :
    ∃ e, (turnsOf i events)[1]? = some e ∧ e.exchange = y := by
  obtain ⟨first, later, hturns, -, hlater⟩ := List.map_eq_cons_iff.1 h
  obtain ⟨e, last, rfl, hx, -⟩ := List.map_eq_cons_iff.1 hlater
  exact ⟨e, by rw [hturns]; rfl, hx⟩

theorem Fleet.PlanCourse.look
    (h : f.PlanCourse c claim candidates token (traceOf i events) r) :
    ∃ look, (turnsOf i events)[1]? = some look ∧ look.request = .isCancelled token ∧
      ((r = .error .cancelled ∧ deploysIn (traceOf i events) = []) ↔
        token ∈ look.before.cancelled) ∧
      (token ∈ look.before.cancelled → operationsIn (traceOf i events) = []) := by
  have hlook {answer : Bool} {e : Event fleetWorld} (hx : e.exchange = ⟨.isCancelled token, answer⟩) :
      e.request = .isCancelled token ∧ (token ∈ e.before.cancelled ↔ answer = true) := by
    obtain ⟨hrequest, hanswer⟩ := Event.cancelled_of_exchange hx
    refine ⟨hrequest, ?_⟩
    rw [← hanswer, List.contains_eq_mem, decide_eq_true_iff]
  cases h with
  | refused parts =>
      obtain ⟨e, he, hx⟩ := exists_second_turn parts
      obtain ⟨hrequest, hcancelled⟩ := hlook hx
      refine ⟨e, he, hrequest, iff_of_true ⟨rfl, ?_⟩ (hcancelled.2 rfl), fun _ => ?_⟩
      · rw [parts]
        rfl
      · rw [parts]
        rfl
  | @unplanned plan e planned parts =>
      obtain ⟨look, he, hx⟩ := exists_second_turn parts
      obtain ⟨hrequest, hcancelled⟩ := hlook hx
      have hnot : token ∉ look.before.cancelled := fun h => nomatch hcancelled.1 h
      refine ⟨look, he, hrequest, iff_of_false ?_ hnot, fun h => absurd h hnot⟩
      rintro ⟨hresult, -⟩
      cases hresult
      exact ((f.obeys_plan c claim candidates).ends planned).2 _ rfl
  | planned planned deployed parts =>
      obtain ⟨look, he, hx⟩ := exists_second_turn parts
      obtain ⟨hrequest, hcancelled⟩ := hlook hx
      have hnot : token ∉ look.before.cancelled := fun h => nomatch hcancelled.1 h
      refine ⟨look, he, hrequest, iff_of_false ?_ hnot, fun h => absurd h hnot⟩
      rintro ⟨-, hdeploys⟩
      rw [parts, deploysIn_cons, deploysIn_cons, deploysIn_append, deploysIn_append,
        (deploysIn_deployment deployed).1] at hdeploys
      simp at hdeploys

/-- What is left of a launch is cut short when its token is cancelled before its request. -/
theorem Fleet.PlanCourse.abandoned {s : FleetState}
    {ps : List (Program (Except ResourceError Instance))}
    {d : Config fleetWorld (Except ResourceError Instance)}
    (h : f.PlanCourse c claim candidates token (traceOf i events) r)
    (steps : Steps (Config.start s ps) events d) {e : Event fleetWorld} (own : e ∈ turnsOf i events)
    (deploys : e.request.deploys? ≠ none) (cancelled : token ∈ e.before.cancelled) :
    (r = .error .cancelled ∨ ∃ source, r = .error (.call "deploy virtual machine" source)) ∧
      (operationsIn (traceOf i events)).getLast? = some .deployMachine := by
  obtain ⟨he, rfl⟩ := mem_turnsOf.1 own
  obtain ⟨first, second, rfl⟩ := List.append_of_mem he
  have hcut := traceOf_append_cons first second e
  obtain ⟨request, hrequest⟩ := Option.ne_none_iff_exists'.1 deploys
  obtain ⟨plan, opening, rest, -, hx, -, hafter, deployed⟩ := h.cut hcut hrequest
  rw [hx] at deployed
  have hshort : ∀ x ∈ rest, x.CutShort token := by
    intro x hxrest
    have hmem : x ∈ traceOf e.routine second := by
      rw [hafter]
      exact List.mem_append_left _ hxrest
    obtain ⟨e', he', rfl⟩ := exists_turn_of_mem hmem
    exact Event.cutShort (steps.mem_cancelled_after cancelled e' (mem_turnsOf.1 he').1)
  obtain ⟨hresult, hoperations⟩ := ends_deployment_of_cutShort deployed hshort
  refine ⟨hresult, ?_⟩
  have hlast : operationsIn (e.exchange :: traceOf e.routine second) = [.deployMachine] := by
    rw [hafter, hx, ← List.cons_append, operationsIn_append]
    change (.deployMachine :: operationsIn rest) ++ [] = _
    rw [hoperations]
    rfl
  rw [hcut, operationsIn_append, hlast]
  exact List.getLast?_concat

/-- A launch that has ended in an interleaving with other programs has its record. -/
theorem Steps.cancellationRecord {s : FleetState}
    {ps : List (Program (Except ResourceError Instance))}
    {d : Config fleetWorld (Except ResourceError Instance)} (h : Steps (Config.start s ps) events d)
    (launch : ps[i]? = some (f.createInstance c claim candidates token).run)
    (result : d.routines[i]? = some (.done r)) : CancellationRecord token i events r := by
  have hcourse := Fleet.planCourse_of_createInstance (h.ends launch result)
  constructor
  case look => exact hcourse.look
  case abandoned =>
    intro e own deploys cancelled
    exact hcourse.abandoned h own deploys cancelled

end Launch

/-- Who requests a machine for a claim has looked at the token of its provisioner before, and the
provisioner was not shut down then. -/
theorem Steps.looked_before_request {s : FleetState} {parties : List Party} {k : Nat}
    {o : Provisioner} {claim : NodeClaim} {first second : List (Event fleetWorld)}
    {e : Event fleetWorld} {d : Config fleetWorld Outcome}
    (h : Steps (Config.start s (parties.map Party.program)) (first ++ e :: second) d)
    (party : parties[k]? = some (.serves o (.create claim))) (own : e.routine = k)
    (deploys : e.request.deploys? ≠ none) :
    ∃ look ∈ turnsOf k first, look.request = .isCancelled o.shutdown ∧
      o.shutdown ∉ look.before.cancelled := by
  subst own
  obtain ⟨request, hrequest⟩ := Option.ne_none_iff_exists'.1 deploys
  have hprepared := h.preparation party (traceOf_append_cons first second e) hrequest
  generalize htrace : traceOf e.routine first = trace at hprepared
  cases hprepared
  have hmem : (⟨.isCancelled o.shutdown, false⟩ : Exchange fleetSignature) ∈
      traceOf e.routine first := by simp [htrace]
  obtain ⟨look, hlook, hx⟩ := exists_turn_of_mem hmem
  obtain ⟨hasked, hanswer⟩ := Event.cancelled_of_exchange hx
  refine ⟨look, hlook, hasked, ?_⟩
  rw [List.contains_eq_mem] at hanswer
  exact of_decide_eq_false hanswer

/-- A launch that has ended has looked at its token once, and by what it saw it went on to its
request or not, in every interleaving with other programs; from free locks every run with programs
that take locks in order does end it. So a provisioner requests a machine only if it was not shut
down when the launch looked, but it may have been by the time of the request. -/
theorem launch_looks_at_its_token_once (f : Fleet) (c : NodeClass) (claim : NodeClaim)
    (candidates : List InstanceType) (token : Token) :
    (∀ (s : FleetState) (ps : List (Program (Except ResourceError Instance))) (i : Nat)
        (events : List (Event fleetWorld)) (d : Config fleetWorld (Except ResourceError Instance))
        (r : Except ResourceError Instance),
      ps[i]? = some (f.createInstance c claim candidates token).run →
        Steps (Config.start s ps) events d → d.routines[i]? = some (.done r) →
          CancellationRecord token i events r) ∧
      (∀ (s : FleetState) (others : List (Program (Except ResourceError Instance))),
        (∀ cache, s.queues cache = []) → (∀ p ∈ others, p.IsOrderly) →
          let ps := (f.createInstance c claim candidates token).run :: others
          ∃ events d r, Steps (Config.start s ps) events d ∧
            s.run ps = (d.shared, d.routines.map Shared.result?) ∧
            d.routines[0]? = some (.done r) ∧ CancellationRecord token 0 events r) ∧
      ∀ (s : FleetState) (parties : List Party) (k : Nat) (o : Provisioner)
        (first second : List (Event fleetWorld)) (e : Event fleetWorld)
        (d : Config fleetWorld Outcome),
        parties[k]? = some (.serves o (.create claim)) →
          Steps (Config.start s (parties.map Party.program)) (first ++ e :: second) d →
            e.routine = k → e.request.deploys? ≠ none →
              ∃ look ∈ turnsOf k first, look.request = .isCancelled o.shutdown ∧
                o.shutdown ∉ look.before.cancelled := by
  refine ⟨?_, ?_, ?_⟩
  · intro s ps i events d r launch h result
    exact h.cancellationRecord launch result
  · intro s others free orderly ps
    obtain ⟨events, d, r, h, hrun, hr⟩ :=
      run_ends_first s free (f.orderly_createInstance c claim candidates token) orderly
    exact ⟨events, d, r, h, hrun, hr, h.cancellationRecord rfl hr⟩
  · intro s parties k o first second e d party h own deploys
    exact h.looked_before_request party own deploys

/-- The world of a stocked cloud in which a ready node class is stored. -/
def readyWorld : WorldState :=
  { worldOf stockedCloud with nodeClasses := Table.empty.insert "class" reconciledClass }

/-- Who creates a node, and who shuts the provisioner down. -/
def shutdownParties : List Party := [
  .serves stockedProvisioner (.create stockedClaim),
  .other (Routine.request (.cancel stockedProvisioner.shutdown : Request fleetSignature))]

theorem exists_shutdown_history :
    ∃ (first second : List (Event fleetWorld)) (e : Event fleetWorld)
      (d : Config fleetWorld Outcome) (r : Except NodeError NodeClaim),
      Steps (Config.start (.initial readyWorld) (shutdownParties.map Party.program))
        (first ++ e :: second) d ∧
      d.routines[0]? = some (.done (.served (.create stockedClaim) r)) ∧
      e.routine = 0 ∧ e.request.deploys? ≠ none ∧
      stockedProvisioner.shutdown ∈ e.before.cancelled ∧
      ∃ vm ∈ d.shared.world.cloud.machines, d.shared.world.cloud.tagsOf vm.id = [] := by
  obtain ⟨events, d, steps, hcreate, ⟨e, he, hown, hdeploys, hcancelled⟩, hmachine⟩ :
      ∃ events d, Steps (Config.start (.initial readyWorld : FleetState)
          (shutdownParties.map Party.program)) events d ∧
        (d.answer? 0 (.create stockedClaim)).isSome = true ∧
        (∃ e ∈ events, e.routine = 0 ∧ e.request.deploys?.isSome = true ∧
          stockedProvisioner.shutdown ∈ e.before.cancelled) ∧
        ∃ vm ∈ d.shared.world.cloud.machines, d.shared.world.cloud.tagsOf vm.id = [] :=
    Config.exists_steps_of_follow [.turns 0 12, .turns 1 1, .turns 0 56] (by decide +kernel)
  obtain ⟨r, hanswer⟩ := Option.isSome_iff_exists.1 hcreate
  obtain ⟨first, second, rfl⟩ := List.append_of_mem he
  exact ⟨first, second, e, d, r, steps, Config.done_of_answer? hanswer, hown,
    Option.isSome_iff_ne_none.1 hdeploys, hcancelled, hmachine⟩

/-- A launch that has looked at its token before the provisioner is shut down deploys a machine after
that, which nobody tags. -/
theorem exists_deployment_after_shutdown :
    ∃ (first second : List (Event fleetWorld)) (e : Event fleetWorld)
      (d : Config fleetWorld Outcome),
      Steps (Config.start (.initial readyWorld) (shutdownParties.map Party.program))
        (first ++ e :: second) d ∧
      e.routine = 0 ∧ e.request.deploys? ≠ none ∧
      stockedProvisioner.shutdown ∈ e.before.cancelled ∧
      ∃ vm ∈ d.shared.world.cloud.machines, d.shared.world.cloud.tagsOf vm.id = [] := by
  obtain ⟨first, second, e, d, r, steps, -, hown, hdeploys, hcancelled, hmachine⟩ :=
    exists_shutdown_history
  exact ⟨first, second, e, d, steps, hown, hdeploys, hcancelled, hmachine⟩

/-- A launch that is cancelled right after its look, the run of the same launch with its
cancellation, and what a provisioner that is shut down meanwhile has looked at. -/
theorem launch_looks_at_its_token_once_when_cancelled :
    (∃ events d e, Steps (Config.start listedState [smallLaunch, cancelling]) events d ∧
      e ∈ turnsOf 0 events ∧ e.request.deploys? ≠ none ∧ 0 ∈ e.before.cancelled ∧
      CancellationRecord 0 0 events (.error .cancelled)) ∧
    (∃ events d r, Steps (Config.start listedState [smallLaunch, cancelling]) events d ∧
      listedState.run [smallLaunch, cancelling] = (d.shared, d.routines.map Shared.result?) ∧
      d.routines[0]? = some (.done r) ∧ CancellationRecord 0 0 events r) ∧
    ∃ events d look, Steps (Config.start (.initial readyWorld : FleetState)
        (shutdownParties.map Party.program)) events d ∧
      look ∈ turnsOf 0 events ∧ look.request = .isCancelled stockedProvisioner.shutdown ∧
      stockedProvisioner.shutdown ∉ look.before.cancelled := by
  refine ⟨?_, ?_, ?_⟩
  · obtain ⟨events, d, steps, hresult, e, he, hown, hdeploys, hcancelled⟩ :
        ∃ events d, Steps (Config.start listedState [smallLaunch, cancelling]) events d ∧
          d.error? 0 = some .cancelled ∧
          ∃ e ∈ events, e.routine = 0 ∧ e.request.deploys?.isSome = true ∧
            0 ∈ e.before.cancelled :=
      Config.exists_steps_of_follow [.turns 0 2, .turns 1 1, .turns 0 14] (by decide +kernel)
    exact ⟨events, d, e, steps, mem_turnsOf.2 ⟨he, hown⟩, Option.isSome_iff_ne_none.1 hdeploys,
      hcancelled, (launch_looks_at_its_token_once _ _ _ _ _).1 _ _ 0 _ _ _ rfl steps
        (Config.error?_eq_some_iff.1 hresult)⟩
  · refine (launch_looks_at_its_token_once _ _ _ _ _).2.1 _ [cancelling] (fun _ => rfl) fun p hp => ?_
    obtain rfl := List.mem_singleton.1 hp
    exact Routine.orderly_ask ⟨rfl, rfl⟩ fun _ => rfl
  · obtain ⟨first, second, e, d, r, steps, -, hown, hdeploys, -⟩ := exists_shutdown_history
    obtain ⟨look, hlook, hrequest, hnot⟩ :=
      (launch_looks_at_its_token_once stockedProvisioner.fleet stockedClass stockedClaim []
        stockedProvisioner.shutdown).2.2 _ _ 0 _ first second e d rfl steps hown hdeploys
    refine ⟨_, d, look, steps, ?_, hrequest, hnot⟩
    rw [turnsOf_append]
    exact List.mem_append_left _ hlook

end NodeFleet
