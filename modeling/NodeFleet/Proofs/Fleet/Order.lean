import NodeFleet.Proofs.Fleet.Launch
import NodeFleet.Proofs.Routine.Completion

/-!
# Fleets take locks in order

Networks and templates are listed while the lock of their cache is held, and listing them may list
zones; nothing else takes one lock while it holds another. With the zones below the other caches
the programs of a fleet are orderly, so any of them run together to the end.
-/

namespace NodeFleet

open Routine (Orderly orderly_ask orderly_request orderly_run_lift)
open Program (orderly)

/-- The rank of the lock of a cache. -/
def lockRank (cache : CacheId) : Nat :=
  match cache.kind with
  | .zones => 0
  | _ => 1

namespace Program

variable {α β : Type} {bound : Nat}

/-- The programs of a fleet that may run together. -/
abbrev IsOrderly (p : Program α) : Prop :=
  p.Orderly lockRank 2 []

theorem orderly_call (c : Cloud.Call) : (call c).Orderly lockRank bound [] :=
  orderly (obeys_call (List.mem_singleton_self c.operation))

theorem orderly_tryCall (context : String) (c : Cloud.Call) :
    (tryCall context c).run.Orderly lockRank bound [] :=
  orderly (obeys_tryCall context (List.mem_singleton_self c.operation))

theorem orderly_cached {cache : CacheId} {key : String} {ttl : Nat}
    {fetch : Attempt ResourceError cache.Value}
    (hfetch : fetch.run.Orderly lockRank (lockRank cache) []) (below : lockRank cache < bound) :
    (cached cache key ttl fetch).run.Orderly lockRank bound [] :=
  Routine.orderly_cached hfetch below

theorem orderly_findOrThrow (items : List α) (test : α → Bool) (kind name : String) :
    (findOrThrow items test kind name).run.Orderly lockRank bound [] := by
  rw [findOrThrow]
  cases items.find? test <;> rfl

end Program

namespace Fleet

open Program

variable (f : Fleet)

theorem orderly_zones : f.zones.run.Orderly lockRank 1 [] := by
  refine orderly_cached ?_ (Nat.lt_succ_self 0)
  exact (orderly_tryCall _ _).run_bind fun records => rfl

theorem orderly_lookupZone (idOrName : String) :
    (f.lookupZone idOrName).run.Orderly lockRank 1 [] :=
  f.orderly_zones.run_bind fun zones => orderly_findOrThrow zones _ _ _

theorem orderly_networks (zone : String) : (f.networks zone).run.IsOrderly := by
  refine orderly_cached ?_ (Nat.lt_succ_self 1)
  refine (f.orderly_lookupZone zone).run_bind fun found => ?_
  refine (orderly_tryCall _ _).run_bind fun records => ?_
  exact orderly_run_lift (orderly (obeys_withTags records (List.mem_singleton_self _)))

theorem orderly_templates (zone : String) : (f.templates zone).run.IsOrderly := by
  refine orderly_cached ?_ (Nat.lt_succ_self 1)
  refine (f.orderly_lookupZone zone).run_bind fun found => ?_
  refine Orderly.run_bind ?_ fun batches => ?_
  · exact orderly_run_lift (orderly (obeys_templateBatches _ _ (List.mem_singleton_self _)))
  · cases joinBatches batches with
    | ok records =>
        exact orderly_run_lift (orderly (obeys_withTags _ (List.mem_singleton_self _)))
    | error e => rfl

theorem orderly_offerings (zone : String) : (f.offerings zone).run.IsOrderly := by
  refine orderly_cached ?_ (Nat.lt_succ_self 1)
  exact (orderly_tryCall _ _).run_bind fun records => rfl

theorem orderly_resolveNetworks (terms : List SelectorTerm) (zone : String) :
    (f.resolveNetworks terms zone).run.IsOrderly :=
  (f.orderly_networks zone).run_bind fun _ => rfl

theorem orderly_resolveTemplates (terms : List TemplateTerm) (zone : String) :
    (f.resolveTemplates terms zone).run.IsOrderly :=
  (f.orderly_templates zone).run_bind fun _ => rfl

theorem orderly_plan (c : NodeClass) (claim : NodeClaim) (candidates : List InstanceType) :
    (f.plan c claim candidates).run.IsOrderly := by
  refine Orderly.run_bind rfl fun offeringId => ?_
  refine ((f.orderly_lookupZone _).mono (Nat.le_succ 1)).run_bind fun zone => ?_
  refine (f.orderly_resolveNetworks _ _).run_bind fun networks => ?_
  refine (f.orderly_resolveTemplates _ _).run_bind fun templates => ?_
  cases networks.head? with
  | none => rfl
  | some network =>
      cases templates.head? with
      | none => rfl
      | some template => rfl

variable (c : NodeClass) (claim : NodeClaim) (candidates : List InstanceType) (token : Token)

theorem orderly_register (vm : Cloud.VirtualMachine) :
    (f.register c claim vm).IsOrderly := by
  refine (orderly_call _).bind fun tagged => ?_
  exact (orderly_request ⟨rfl, rfl⟩).bind fun _ => rfl

theorem orderly_deployment (request : Cloud.DeployRequest) :
    (f.deployment c claim token request).run.IsOrderly := by
  refine Orderly.run_bind ?_ fun _ => ?_
  · exact orderly_run_lift (orderly_request ⟨rfl, rfl⟩)
  refine (orderly_tryCall _ _).run_bind fun reply => ?_
  refine (orderly (f.obeys_finishJob _ _ token)).run_bind fun _ => ?_
  refine Orderly.run_bind ?_ fun _ => ?_
  · exact orderly_run_lift (orderly_request ⟨rfl, rfl⟩)
  refine (orderly (f.obeys_awaitState _ _ token)).run_bind fun vm => ?_
  exact orderly_run_lift (f.orderly_register c claim vm)

/-- A launch takes locks in order. -/
theorem orderly_createInstance :
    (f.createInstance c claim candidates token).run.IsOrderly := by
  refine Orderly.bind (orderly_request ⟨rfl, rfl⟩) fun _ => ?_
  refine Orderly.bind ?_ fun r => ?_
  · rw [launch_run]
    refine orderly_ask ⟨rfl, rfl⟩ fun cancelled => ?_
    cases cancelled with
    | true => rfl
    | false =>
        exact (f.orderly_plan c claim candidates).run_bind
          (f.orderly_deployment c claim token)
  · cases r with
    | ok launched => exact (orderly_request ⟨rfl, rfl⟩).bind fun _ => rfl
    | error e => exact (orderly_request ⟨rfl, rfl⟩).bind fun _ => rfl

theorem orderly_getInstance (id : String) : (f.getInstance id).run.IsOrderly := by
  refine orderly_cached ?_ (Nat.lt_succ_self 1)
  refine (orderly_tryCall _ _).run_bind fun page => ?_
  cases page.items.head? with
  | none => rfl
  | some vm =>
      refine Orderly.run_bind (orderly_run_lift (orderly_call _)) fun reply => ?_
      cases reply <;> rfl

theorem orderly_destroyInstance (id : String) : (f.destroyInstance id token).run.IsOrderly := by
  refine Orderly.run_bind (orderly_run_lift (orderly_request ⟨rfl, rfl⟩)) fun _ => ?_
  refine (orderly_tryCall _ _).run_bind fun ticket => ?_
  refine Orderly.run_bind (orderly_run_lift (orderly_request ⟨rfl, rfl⟩)) fun _ => ?_
  refine (orderly (f.obeys_finishJob _ _ token)).run_bind fun _ => ?_
  exact orderly_run_lift (orderly_request ⟨rfl, rfl⟩)

/-- A removal takes locks in order. -/
theorem orderly_deleteInstance (id : String) : (f.deleteInstance id token).run.IsOrderly := by
  refine Orderly.bind (f.orderly_getInstance id) fun looked => ?_
  cases looked with
  | ok found => exact f.orderly_destroyInstance token id
  | error e => rfl

end Fleet

end NodeFleet
