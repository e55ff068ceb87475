import NodeFleet.Proofs.Fleet.Agreement

/-!
# The way to a request

A provisioner that requests a machine for a claim has read the node class of the claim, has found it
ready and listed its instance types, has looked at its token and planned, and the request is the one
that it planned. A history in which it has come so far need not have come to its end.
-/

namespace NodeFleet

open Routine (Ends Path ends_lift_bind ends_lift_request_bind ends_map)
open Program (CallsOnly)
open Cloud (DeployRequest)

instance (request : Request fleetSignature) : Nonempty request.Answer := by
  cases request with
  | act action =>
      cases action with
      | beginCall call => exact ⟨.delayed 0⟩
      | serveCall call => exact ⟨.error .cancelled⟩
      | today => exact ⟨.ofSeconds 0⟩
      | nodeClass name => exact ⟨none⟩
      | observe => exact ⟨⟨{}, .empty, .ofSeconds 0, []⟩⟩
      | log subject state => exact ⟨()⟩
      | change f => exact ⟨()⟩
  | now => exact ⟨0⟩
  | pause token time => exact ⟨.elapsed⟩
  | isCancelled token => exact ⟨false⟩
  | read cache key => exact ⟨none⟩
  | purge cache => exact ⟨0⟩
  | count cache => exact ⟨0⟩
  | _ => exact ⟨()⟩

theorem deploys?_of_called?_eq_none {x : Exchange fleetSignature} (h : x.called? = none) :
    x.request.deploys? = none := by
  obtain ⟨question, answer⟩ := x
  cases question with
  | act action =>
      cases action with
      | beginCall call => cases h
      | _ => rfl
  | _ => rfl

theorem deploysIn_eq_nil_iff {trace : List (Exchange fleetSignature)} :
    deploysIn trace = [] ↔ ∀ x ∈ trace, x.request.deploys? = none :=
  List.filterMap_eq_nil_iff

/-- An item with a property is in the part of a list outside of which no item has it. -/
theorem cut_within {α : Type} {P : α → Prop} {before after first middle last : List α} {x : α}
    (h : before ++ x :: after = first ++ (middle ++ last)) (hx : P x) (hfirst : ∀ y ∈ first, ¬ P y)
    (hlast : ∀ y ∈ last, ¬ P y) :
    ∃ early late, middle = early ++ x :: late ∧ before = first ++ early ∧ after = late ++ last := by
  have hbefore : ∃ early, before = first ++ early ∧ early ++ x :: after = middle ++ last := by
    rcases List.append_eq_append_iff.1 h with ⟨rest, rfl, hrest⟩ | ⟨early, rfl, hearly⟩
    · cases rest with
      | nil => exact ⟨[], by simp, hrest⟩
      | cons y rest =>
          obtain ⟨rfl, -⟩ := List.cons.inj hrest
          exact absurd hx (hfirst x (by simp))
    · exact ⟨early, rfl, hearly.symm⟩
  obtain ⟨early, rfl, hearly⟩ := hbefore
  rcases List.append_eq_append_iff.1 hearly with ⟨rest, rfl, hrest⟩ | ⟨rest, rfl, rfl⟩
  · cases rest with
    | nil =>
        obtain rfl : x :: after = last := hrest
        exact absurd hx (hlast x List.mem_cons_self)
    | cons y late =>
        obtain ⟨rfl, rfl⟩ := List.cons.inj hrest
        exact ⟨early, late, rfl, rfl, rfl⟩
  · exact absurd hx (hlast x (by simp))

section Launch

variable {f : Fleet} {c : NodeClass} {claim : NodeClaim} {candidates : List InstanceType}
  {token : Token} {request : DeployRequest} {r : Except ResourceError Instance}
  {trace before after : List (Exchange fleetSignature)} {x : Exchange fleetSignature}

/-- A launch that is planned requests its machine first, and no other after that. -/
theorem ends_deployment (h : Ends (f.deployment c claim token request).run trace r) :
    ∃ opening rest, trace = ⟨.act (.log claim.name .deploying), ()⟩ ::
        ⟨.act (.beginCall (.deployMachine request)), opening⟩ :: rest ∧
      ∀ x ∈ rest, x.request.deploys? = none := by
  obtain ⟨_, afterLog, rfl, hdeploy⟩ := ends_lift_request_bind.1 h
  rcases ends_tryCall_bind hdeploy with ⟨e, rfl, hcall⟩ | ⟨reply, deploy, rest, rfl, hcall, hafter⟩
  · obtain ⟨-, -, -, opening, tail, rfl, htail⟩ := ends_call hcall
    exact ⟨opening, tail, rfl, fun x hx => deploys?_of_called?_eq_none (htail x hx)⟩
  · obtain ⟨-, -, -, opening, tail, rfl, htail⟩ := ends_call hcall
    refine ⟨opening, tail ++ rest, rfl, List.forall_mem_append.2 ⟨?_, ?_⟩⟩
    · exact fun x hx => deploys?_of_called?_eq_none (htail x hx)
    · exact ((obeys_afterDeploy f c claim token reply).ends hafter).1

theorem deploysIn_of_ends_plan {r : Except ResourceError DeployRequest}
    (h : Ends (f.plan c claim candidates).run trace r) : deploysIn trace = [] :=
  deploysIn_of_callsOnly (by decide) ((f.obeys_plan c claim candidates).ends h).1

/-- Where a launch requests a machine, it has planned the request, and it goes on from there. -/
theorem Fleet.PlanCourse.cut (h : f.PlanCourse c claim candidates token trace r)
    (cut : trace = before ++ x :: after) (deploys : x.request.deploys? = some request) :
    ∃ plan opening rest, Ends (f.plan c claim candidates).run plan (.ok request) ∧
      x = ⟨.act (.beginCall (.deployMachine request)), opening⟩ ∧
      before = ⟨.act (.log claim.name .requested), ()⟩ :: ⟨.isCancelled token, false⟩ ::
        (plan ++ [⟨.act (.log claim.name .deploying), ()⟩]) ∧
      after = rest ++ [⟨.act (.log claim.name (finalState r)), ()⟩] ∧
      Ends (f.deployment c claim token request).run
        (⟨.act (.log claim.name .deploying), ()⟩ :: x :: rest) r := by
  have hmem : request ∈ deploysIn trace := by
    rw [cut, deploysIn_append, deploysIn_cons, deploys]
    simp
  cases h with
  | refused parts =>
      subst parts
      cases hmem
  | unplanned planned parts =>
      subst parts
      have hplan := deploysIn_of_ends_plan planned
      simp [deploysIn_cons, Request.deploys?, hplan] at hmem
  | @planned plan deployment request' r planned deployed parts =>
      obtain ⟨opening, rest, rfl, hrest⟩ := ends_deployment deployed
      have hplan := deploysIn_eq_nil_iff.1 (deploysIn_of_ends_plan planned)
      have hcut : before ++ x :: after = (⟨.act (.log claim.name .requested), ()⟩ ::
          ⟨.isCancelled token, false⟩ :: (plan ++ [⟨.act (.log claim.name .deploying), ()⟩])) ++
            ⟨.act (.beginCall (.deployMachine request')), opening⟩ ::
              (rest ++ [⟨.act (.log claim.name (finalState r)), ()⟩]) := by
        rw [← cut, parts]
        simp
      obtain ⟨rfl, rfl⟩ := cut_unique (P := fun y => y.request.deploys? ≠ none) hcut
        (by rw [deploys]; exact Option.some_ne_none _)
        (by simpa [Request.deploys?, or_imp, forall_and] using hplan)
        (by simpa [Request.deploys?, or_imp, forall_and] using hrest)
      obtain rfl := Option.some.inj deploys
      have hafter := List.append_cancel_left hcut
      exact ⟨plan, opening, rest, planned, rfl, rfl, (List.cons.inj hafter).2, deployed⟩

end Launch

/-- What a provisioner went through that has come to request a machine for a claim. -/
inductive Provisioner.Preparation (o : Provisioner) (claim : NodeClaim) (request : DeployRequest) :
    List (Exchange fleetSignature) → Prop
  | intro {name : String} {c : NodeClass} {types : List InstanceType}
      {listing plan : List (Exchange fleetSignature)} (named : claim.nodeClassRef = some name)
      (kept : c.isDeleting = false) (ready : c.isReady = true)
      (listed : Ends (o.fleet.instanceTypes c).run listing (.ok types))
      (planned : Ends (o.fleet.plan c claim types).run plan (.ok request)) :
      Preparation o claim request (⟨.act (.nodeClass name), some c⟩ ::
        (listing ++ ⟨.act (.log claim.name .requested), ()⟩ :: ⟨.isCancelled o.shutdown, false⟩ ::
          (plan ++ [⟨.act (.log claim.name .deploying), ()⟩])))

section Create

variable {o : Provisioner} {claim : NodeClaim} {request : DeployRequest}
  {r : Except NodeError NodeClaim} {trace before after : List (Exchange fleetSignature)}
  {x : Exchange fleetSignature}

theorem Provisioner.preparation_of_create (h : Ends (o.create claim).run trace r)
    (cut : trace = before ++ x :: after) (deploys : x.request.deploys? = some request) :
    o.Preparation claim request before := by
  have hdeploys : x.request.deploys? ≠ none := by
    rw [deploys]
    exact Option.some_ne_none request
  have hx : x ∈ trace := by
    rw [cut]
    simp
  cases named : claim.nodeClassRef with
  | none =>
      obtain ⟨found, look, rest, rfl, hlook, hrest⟩ := ends_lift_bind.1 h
      rw [classOf?, named] at hlook
      obtain ⟨rfl, rfl⟩ := Routine.ends_pure.1 hlook
      obtain ⟨rfl, -⟩ := Routine.ends_run_throw.1 hrest
      cases hx
  | some name =>
      obtain ⟨stored, rest, rfl, hrest⟩ := course_of_create named h
      rcases hrest with ⟨c, rfl, ⟨kept, ready⟩, hlaunch⟩ | ⟨rfl, -⟩
      swap
      · obtain rfl := List.mem_singleton.1 hx
        cases deploys
      have hlisting {listing : List (Exchange fleetSignature)} {types : Except ResourceError _}
          (h : Ends (o.fleet.instanceTypes c).run listing types) :
          ∀ y ∈ (⟨.act (.nodeClass name), some c⟩ : Exchange fleetSignature) :: listing,
            ¬ y.request.deploys? ≠ none := by
        refine List.forall_mem_cons.2 ⟨fun h => h rfl, fun y hy hne => hne ?_⟩
        exact deploys?_of_callsOnly (by decide)
          ((((Query.instanceTypes c).obeys_attempt o.fleet).ends h).1 y hy)
      rcases ends_launchFor hlaunch with ⟨e, -, hfailed⟩ | ⟨types, listing, launch, listed, hrest⟩
      · exact absurd hdeploys (hlisting hfailed x hx)
      obtain ⟨last, result, hlast, rfl, hcreated⟩ : ∃ last result,
          (∀ y ∈ last, ¬ Request.deploys? (Exchange.request y) ≠ none) ∧
            rest = listing ++ (launch ++ last) ∧
            Ends (o.fleet.createInstance c claim types o.shutdown).run launch result := by
        rcases hrest with ⟨e, -, rfl, hcreated⟩ | ⟨launched, today, -, rfl, hcreated⟩
        · exact ⟨[], _, List.forall_mem_nil _, by simp, hcreated⟩
        · exact ⟨_, _, List.forall_mem_singleton.2 fun h => h rfl, rfl, hcreated⟩
      obtain ⟨early, late, rfl, rfl, -⟩ :=
        cut_within (P := fun y : Exchange fleetSignature => y.request.deploys? ≠ none) cut.symm
          hdeploys (hlisting listed) hlast
      obtain ⟨plan, opening, afterwards, planned, -, rfl, -⟩ :=
        (Fleet.planCourse_of_createInstance hcreated).cut rfl deploys
      exact .intro named kept ready listed planned

/-- In every history, whoever requests a machine for a claim has come to it by the way of a
preparation. -/
theorem Steps.preparation {s : FleetState} {parties : List Party} {k : Nat}
    {events : List (Event fleetWorld)} {d : Config fleetWorld Outcome}
    (h : Steps (Config.start s (parties.map Party.program)) events d)
    (party : parties[k]? = some (.serves o (.create claim)))
    (cut : traceOf k events = before ++ x :: after)
    (deploys : x.request.deploys? = some request) : o.Preparation claim request before := by
  obtain ⟨q, -, hpath⟩ := h.path (routine_of_party party)
  obtain ⟨rest, outcome, hends⟩ := hpath.exists_ends
  obtain ⟨r, hcreate, -⟩ := ends_map.1 hends
  have cut' : traceOf k events ++ rest = before ++ x :: (after ++ rest) := by simp [cut]
  exact Provisioner.preparation_of_create hcreate cut' deploys

end Create

end NodeFleet
