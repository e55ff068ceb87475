import NodeFleet.Fleet.Provisioner
import NodeFleet.Proofs.Fleet.Query

/-!
# Disciplines

A discipline is a property that a program has if its parts have it. What a provisioner does is
composed of plain questions, of answers about the stock, of looks for instances and of what a launch
does once it is planned; so whatever is demanded of it, it has a property if these have it. Tags are
set by launches only.
-/

namespace NodeFleet

open Routine (Obeys)
open Program (CallsPlainly)

/-- The operations that set or remove tags. -/
def Cloud.Operation.tagging : List Cloud.Operation :=
  [.createTags, .deleteTags]

open Cloud.Operation (tagging)

/-- A question that stores nothing, is about no lock, sets and removes no tags and changes the world
by calls only. -/
def Request.Plain : Request fleetSignature → Prop
  | .write _ _ _ _ => False
  | .acquire _ => False
  | .release _ => False
  | .act (.serveCall call) => call.operation ∉ tagging
  | .act (.change _) => False
  | _ => True

theorem Request.plain_of_callsPlainly {ops : List Cloud.Operation}
    (untagged : ∀ op ∈ ops, op ∉ tagging) (request : Request fleetSignature)
    (h : CallsPlainly ops request) : request.Plain := by
  cases request with
  | act action =>
      cases action with
      | serveCall call => exact untagged _ h
      | change f => exact h.elim
      | _ => trivial
  | write cache key value ttl => exact h.elim
  | acquire cache => exact h.elim
  | release cache => exact h.elim
  | _ => trivial

/-- A property of programs that a whole has if its parts have it, and that the parts have of which
a provisioner is composed. -/
structure Discipline where
  Holds : {α : Type} → Program α → Prop
  yield {α : Type} (a : α) : Holds (pure a)
  bind {α β : Type} {p : Program α} {f : α → Program β} (first : Holds p)
    (rest : ∀ a, Holds (f a)) : Holds (p >>= f)
  ask (request : Request fleetSignature) (plain : request.Plain) : Holds (Routine.request request)
  attempt (f : Fleet) (q : Query) : Holds (q.attempt f).run
  getInstance (f : Fleet) (id : String) : Holds (f.getInstance id).run
  deployment (f : Fleet) (c : NodeClass) (claim : NodeClaim) (token : Token)
    (request : Cloud.DeployRequest) : Holds (f.deployment c claim token request).run

namespace Discipline

variable (D : Discipline) {α β ε : Type}

theorem of_obeys {yields : α → Prop} {p : Program α} (h : Obeys Request.Plain yields p) :
    D.Holds p := by
  induction p with
  | done a => exact D.yield a
  | ask request next ih => exact D.bind (D.ask request h.1) fun answer => ih answer (h.2 answer)

theorem of_callsPlainly {ops : List Cloud.Operation} {yields : α → Prop} {p : Program α}
    (untagged : ∀ op ∈ ops, op ∉ tagging) (h : Obeys (CallsPlainly ops) yields p) : D.Holds p :=
  D.of_obeys (h.mono (Request.plain_of_callsPlainly untagged) fun _ => id)

theorem map {p : Program α} (hp : D.Holds p) (f : α → β) : D.Holds (f <$> p) := by
  rw [map_eq_pure_bind]
  exact D.bind hp fun a => D.yield (f a)

theorem lift {p : Program α} (hp : D.Holds p) : D.Holds (liftM p : Attempt ε α).run :=
  D.bind hp fun _ => D.yield _

theorem next {x : Attempt ε α} {f : α → Attempt ε β} (hx : D.Holds x.run)
    (hf : ∀ a, D.Holds (f a).run) : D.Holds (x >>= f).run := by
  rw [ExceptT.run_bind]
  apply D.bind hx
  intro r
  cases r with
  | error e => exact D.yield _
  | ok a => exact hf a

theorem act (action : Action) (plain : (Request.act action : Request fleetSignature).Plain) :
    D.Holds (Program.act action) :=
  D.ask (.act action) plain

theorem tryCall (context : String) (call : Cloud.Call) (untagged : call.operation ∉ tagging) :
    D.Holds (Program.tryCall context call).run :=
  D.of_callsPlainly (List.forall_mem_singleton.2 untagged)
    (Program.obeys_tryCall context (List.mem_singleton_self call.operation))

section Fleet

variable (f : Fleet) (c : NodeClass) (claim : NodeClaim) (token : Token)

theorem plan (candidates : List InstanceType) : D.Holds (f.plan c claim candidates).run := by
  refine D.next (D.yield _) fun offeringId => ?_
  refine D.next (D.attempt f (.lookupZone c.spec.zone)) fun zone => ?_
  refine D.next (D.attempt f (.resolveNetworks c.spec.networkTerms c.spec.zone))
    fun networks => ?_
  refine D.next (D.attempt f (.resolveTemplates c.spec.templateTerms c.spec.zone))
    fun templates => ?_
  split <;> exact D.yield _

theorem createInstance (candidates : List InstanceType) :
    D.Holds (f.createInstance c claim candidates token).run := by
  refine D.bind (D.act _ trivial) fun _ => D.bind ?_ fun r => ?_
  · rw [Fleet.launch_run]
    refine D.bind (D.ask _ trivial) fun cancelled => ?_
    cases cancelled with
    | true => exact D.yield _
    | false => exact D.next (D.plan f c claim candidates) (D.deployment f c claim token)
  · cases r with
    | ok launched => exact D.bind (D.act _ trivial) fun _ => D.yield _
    | error e => exact D.bind (D.act _ trivial) fun _ => D.yield _

theorem deleteInstance (id : String) : D.Holds (f.deleteInstance id token).run := by
  refine D.bind (D.getInstance f id) fun looked => ?_
  cases looked with
  | error e => exact D.yield _
  | ok found =>
      refine D.next (D.lift (D.act _ trivial)) fun _ => ?_
      refine D.next (D.tryCall _ _ (by simp [tagging, Cloud.Call.operation])) fun ticket => ?_
      refine D.next (D.lift (D.ask _ trivial)) fun _ => ?_
      refine D.next (D.of_callsPlainly (by decide) (f.obeys_finishJob _ _ token)) fun _ => ?_
      exact D.lift (D.act _ trivial)

theorem inStage (stage : Stage) {x : Attempt ResourceError α} (hx : D.Holds x.run) :
    D.Holds (Fleet.inStage stage x).run := by
  refine D.bind hx fun r => ?_
  cases r <;> exact D.yield _

theorem reconcile : D.Holds (f.reconcile c) := by
  rw [Fleet.reconcile]
  split
  · exact D.yield _
  · refine D.bind ?_ fun r => ?_
    · refine D.next (D.inStage _ (D.attempt f (.enabledZone _))) fun _ => ?_
      refine D.next (D.inStage _ (D.attempt f (.resolveNetworks _ _))) fun networks => ?_
      refine D.next (D.inStage _ (D.attempt f (.resolveTemplates _ _))) fun templates => ?_
      refine D.next (D.inStage _ (D.attempt f (.resolveOfferings _ _))) fun offerings => ?_
      exact D.yield _
    · cases r <;> exact D.bind (D.act _ trivial) fun _ => D.yield _

end Fleet

theorem surface (wrap : ResourceError → NodeError) {x : Attempt ResourceError α}
    (hx : D.Holds x.run) : D.Holds (Provisioner.surface wrap x).run := by
  refine D.bind hx fun r => ?_
  cases r <;> exact D.yield _

theorem classOf? (claim : NodeClaim) : D.Holds (Provisioner.classOf? claim) := by
  rw [Provisioner.classOf?]
  cases claim.nodeClassRef with
  | none => exact D.yield _
  | some name => exact D.bind (D.act _ trivial) fun _ => D.yield _

theorem create (o : Provisioner) (claim : NodeClaim) : D.Holds (o.create claim).run := by
  refine D.next (D.lift (D.classOf? claim)) fun found => ?_
  cases found with
  | none => exact D.yield _
  | some c =>
      dsimp only
      split
      · exact D.yield _
      · refine D.next (D.surface _ (D.attempt o.fleet (.instanceTypes c))) fun types => ?_
        refine D.next (D.surface _ (D.createInstance o.fleet c claim o.shutdown types))
          fun launched => ?_
        exact D.next (D.lift (D.act _ trivial)) fun _ => D.yield _

theorem get (o : Provisioner) (providerId : String) : D.Holds (o.get providerId).run := by
  refine D.next (D.yield _) fun id => ?_
  refine D.next (D.surface _ (D.getInstance o.fleet id)) fun found => ?_
  exact D.next (D.lift (D.act _ trivial)) fun _ => D.yield _

theorem list : D.Holds Provisioner.list.run := by
  refine D.next (D.surface _ (D.of_callsPlainly (by decide) Fleet.obeys_listInstances))
    fun instances => ?_
  exact D.next (D.lift (D.act _ trivial)) fun _ => D.yield _

theorem delete (o : Provisioner) (claim : NodeClaim) : D.Holds (o.delete claim).run := by
  refine D.next (D.yield _) fun id => ?_
  exact D.surface _ (D.deleteInstance o.fleet o.shutdown id)

end Discipline

end NodeFleet
