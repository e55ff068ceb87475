import NodeFleet.Proofs.Fleet.Requesting
import NodeFleet.Proofs.Selection

/-!
# Terms that are added

Terms that are added to a node class behind its own resolve to what these did and perhaps to more
behind it. A launch takes the first of each list, so after the same answers it requests the same
machine.
-/

namespace NodeFleet

open Routine (Ends ends_run_bind_ok)
open Cloud (DeployRequest)

section AnsweredAlike

variable {ε α β γ δ : Type}

/-- Where the first of two attempts succeeds, the second one succeeds after the same answers, with a
related value. -/
def AnsweredAlike (related : α → β → Prop) (x : Attempt ε α) (y : Attempt ε β) : Prop :=
  ∀ trace a, Ends x.run trace (.ok a) → ∃ b, Ends y.run trace (.ok b) ∧ related a b

namespace AnsweredAlike

theorem refl (x : Attempt ε α) : AnsweredAlike (· = ·) x x :=
  fun _ a h => ⟨a, h, rfl⟩

theorem bind {related : α → β → Prop} {results : γ → δ → Prop} {x : Attempt ε α} {y : Attempt ε β}
    {f : α → Attempt ε γ} {g : β → Attempt ε δ} (h : AnsweredAlike related x y)
    (next : ∀ a b, related a b → AnsweredAlike results (f a) (g b)) :
    AnsweredAlike results (x >>= f) (y >>= g) := by
  intro trace c hc
  obtain ⟨a, first, second, rfl, hfirst, hsecond⟩ := ends_run_bind_ok hc
  obtain ⟨b, hy, hab⟩ := h first a hfirst
  obtain ⟨d, hd, hcd⟩ := next a b hab second c hsecond
  exact ⟨d, Routine.ends_run_bind.2 (.inr ⟨b, first, second, rfl, hy, hd⟩), hcd⟩

/-- Nothing is asked: only the values matter. -/
theorem of_values {related : α → β → Prop} {x : Except ε α} {y : Except ε β}
    (h : ∀ a, x = .ok a → ∃ b, y = .ok b ∧ related a b) :
    AnsweredAlike related (ExceptT.mk (pure x)) (ExceptT.mk (pure y)) := by
  intro trace a ha
  obtain ⟨rfl, hx⟩ := Routine.ends_pure.1 ha
  obtain ⟨b, hy, hab⟩ := h a hx.symm
  exact ⟨b, Routine.ends_pure.2 ⟨rfl, hy.symm⟩, hab⟩

end AnsweredAlike

end AnsweredAlike

/-- The spec with more selector terms behind its own. -/
def NodeClassSpec.withTerms (spec : NodeClassSpec) (networks offerings : List SelectorTerm)
    (templates : List TemplateTerm) : NodeClassSpec :=
  { spec with
    networkTerms := spec.networkTerms ++ networks
    offeringTerms := spec.offeringTerms ++ offerings
    templateTerms := spec.templateTerms ++ templates }

/-- The node class with more selector terms behind its own. -/
def NodeClass.withTerms (c : NodeClass) (networks offerings : List SelectorTerm)
    (templates : List TemplateTerm) : NodeClass :=
  { c with spec := c.spec.withTerms networks offerings templates }

/-- The first item of a list is the first of every longer one. -/
theorem head?_of_longer {α : Type} {items longer : List α} {a : α} (h : items <+: longer)
    (head : items.head? = some a) : longer.head? = some a := by
  obtain ⟨rest, rfl⟩ := h
  rw [List.head?_append, head]
  rfl

section Resolving

variable {R : Type} [Selectable R] {T : Type} (criteria : T → Criteria)

/-- What is resolved in a listing stays in front when terms are added. -/
theorem answeredAlike_resolve {list : Attempt ResourceError (List R)} {terms more : List T}
    {zone : String} :
    AnsweredAlike (· <+: ·)
      (do
        let items ← list
        ExceptT.mk (pure (Selectable.resolve items (terms.map criteria) zone)))
      (do
        let items ← list
        ExceptT.mk (pure (Selectable.resolve items ((terms ++ more).map criteria) zone))) := by
  refine (AnsweredAlike.refl list).bind ?_
  rintro items _ rfl
  refine .of_values fun resolved h => ?_
  rw [List.map_append]
  exact Selectable.resolve_append h

end Resolving

namespace Fleet

variable (f : Fleet) (c : NodeClass) (claim : NodeClaim) (networks offerings : List SelectorTerm)
  (templates : List TemplateTerm)

/-- The instance types that a node class offers come first when terms are added. -/
theorem answeredAlike_instanceTypes :
    AnsweredAlike (· <+: ·) (f.instanceTypes c)
      (f.instanceTypes (c.withTerms networks offerings templates)) := by
  refine (answeredAlike_resolve SelectorTerm.criteria).bind fun resolved longer hlonger => ?_
  exact .of_values fun types h => by
    obtain rfl := Except.ok.inj h
    exact ⟨_, rfl, hlonger.map _⟩

/-- The first available instance type is the same among more of them. -/
theorem chooseOffering_of_longer {f : Fleet} (choose : f.chooseType = firstAvailable?)
    {candidates more : List InstanceType} {id : String} (h : candidates <+: more)
    (chosen : f.chooseOffering candidates = .ok id) : f.chooseOffering more = .ok id := by
  obtain ⟨rest, rfl⟩ := h
  rw [chooseOffering, choose, firstAvailable?] at chosen ⊢
  rw [List.find?_append]
  cases hfound : candidates.find? (·.isAvailable) with
  | none =>
      rw [hfound] at chosen
      cases chosen
  | some found =>
      rw [hfound] at chosen
      exact chosen

/-- A plan for a node class with more terms makes the same request, if its candidates lead to the
same service offering. -/
theorem answeredAlike_plan {candidates more : List InstanceType}
    (chosen : ∀ id, f.chooseOffering candidates = .ok id → f.chooseOffering more = .ok id) :
    AnsweredAlike (· = ·) (f.plan c claim candidates)
      (f.plan (c.withTerms networks offerings templates) claim more) := by
  have hchoice : AnsweredAlike (· = ·) (ExceptT.mk (pure (f.chooseOffering candidates)))
      (ExceptT.mk (pure (f.chooseOffering more)) : Attempt ResourceError String) :=
    .of_values fun id h => ⟨id, chosen id h, rfl⟩
  refine hchoice.bind ?_
  rintro offeringId _ rfl
  refine (AnsweredAlike.refl (f.lookupZone c.spec.zone)).bind ?_
  rintro zone _ rfl
  refine (answeredAlike_resolve SelectorTerm.criteria).bind fun found moreFound hnetworks => ?_
  refine (answeredAlike_resolve TemplateTerm.criteria).bind fun seen moreSeen htemplates => ?_
  -- The request is made from the first of each list, or there is none.
  intro trace request h
  cases hnetwork : found.head? with
  | none =>
      rw [hnetwork] at h
      cases (Routine.ends_run_throw.1 h).2
  | some network =>
      cases htemplate : seen.head? with
      | none =>
          rw [hnetwork, htemplate] at h
          cases (Routine.ends_run_throw.1 h).2
      | some template =>
          rw [hnetwork, htemplate] at h
          rw [head?_of_longer hnetworks hnetwork, head?_of_longer htemplates htemplate]
          exact ⟨request, h, rfl⟩

end Fleet

/-- Terms that are added to a node class behind its own leave the way to a request as it was: after the
same answers the same machine is requested. -/
theorem Provisioner.Preparation.withTerms {o : Provisioner} {claim : NodeClaim}
    {request : DeployRequest} {name : String} {c : NodeClass}
    {rest : List (Exchange fleetSignature)} (choose : o.fleet.chooseType = firstAvailable?)
    (h : o.Preparation claim request (⟨.act (.nodeClass name), some c⟩ :: rest))
    (networks offerings : List SelectorTerm) (templates : List TemplateTerm) :
    o.Preparation claim request
      (⟨.act (.nodeClass name), some (c.withTerms networks offerings templates)⟩ :: rest) := by
  generalize htrace : (⟨.act (.nodeClass name), some c⟩ :: rest :
    List (Exchange fleetSignature)) = trace at h
  cases h with
  | @intro name' c' types listing plan named kept ready listed planned =>
      cases htrace
      obtain ⟨more, hmore, hlonger⟩ :=
        o.fleet.answeredAlike_instanceTypes c networks offerings templates listing types listed
      obtain ⟨_, hplan, rfl⟩ := o.fleet.answeredAlike_plan c claim networks offerings templates
        (fun _ => Fleet.chooseOffering_of_longer choose hlonger) plan request planned
      exact .intro named kept ready hmore hplan

/-- Whatever the candidates: if terms resolve, what they resolve to comes first when more terms are
added behind them, and a term that is repeated behind its first occurrence changes nothing, be it an
error. So a launch for a node class to which terms are added requests the same machine after the same
answers, from the same candidates or from the instance types that the class offers. -/
theorem added_terms_keep_the_choice {R T : Type} [Selectable R] (criteria : T → Criteria)
    (candidates : List R) (zone : String) (o : Provisioner) (c : NodeClass) (claim : NodeClaim)
    (networks offerings : List SelectorTerm) (templates : List TemplateTerm) :
    (∀ (terms more : List T) (resolved : List R),
      Selectable.resolve candidates (terms.map criteria) zone = .ok resolved →
        ∃ longer, Selectable.resolve candidates ((terms ++ more).map criteria) zone = .ok longer ∧
          resolved <+: longer) ∧
    (∀ (before after : List T) (t : T), t ∈ before →
      Selectable.resolve candidates ((before ++ t :: after).map criteria) zone =
        Selectable.resolve candidates ((before ++ after).map criteria) zone) ∧
    (∀ (types : List InstanceType) (trace : List (Exchange fleetSignature))
        (request : DeployRequest),
      Ends (o.fleet.plan c claim types).run trace (.ok request) →
        Ends (o.fleet.plan (c.withTerms networks offerings templates) claim types).run trace
          (.ok request)) ∧
    ∀ (name : String) (rest : List (Exchange fleetSignature)) (request : DeployRequest),
      o.fleet.chooseType = firstAvailable? →
        o.Preparation claim request (⟨.act (.nodeClass name), some c⟩ :: rest) →
          o.Preparation claim request
            (⟨.act (.nodeClass name), some (c.withTerms networks offerings templates)⟩ :: rest) := by
  refine ⟨fun terms more resolved h => ?_, fun before after t held => ?_,
    fun types trace request planned => ?_,
    fun name rest request choose h => h.withTerms choose networks offerings templates⟩
  · rw [List.map_append]
    exact Selectable.resolve_append h
  · rw [List.map_append, List.map_append, List.map_cons]
    exact Selectable.resolve_insert (List.mem_map_of_mem held) zone
  · obtain ⟨_, hplan, rfl⟩ := o.fleet.answeredAlike_plan c claim networks offerings templates
      (fun _ chosen => chosen) trace request planned
    exact hplan

section Hidden

/-- The network that launches are left with. -/
def spareNetwork : Network :=
  ⟨"n2", "spare", "z1", "z1", "", "Implemented", "", "", .empty⟩

/-- A network `lan` that cannot be used, another network of its identifier that could be, the spare
one and one more. -/
def hiddenNetworks : List Network := [
  ⟨"n1", "lan", "z1", "z1", "", "Allocated", "", "", .empty⟩,
  ⟨"n1", "wan", "z1", "z1", "", "Implemented", "", "", .empty⟩,
  spareNetwork,
  ⟨"n3", "backup", "z1", "z1", "", "Setup", "", "", .empty⟩]

/-- A node class that takes the network that cannot be used, or else the spare one. -/
def sparingClass : NodeClass :=
  { smallClass with
    spec := { smallClass.spec with
      networkTerms := [.byName "lan", .byName "spare"]
      offeringTerms := [.byName "small"] }
    status.conditions := [⟨Condition.ready, .met, "Ready", "", .ofSeconds 0, 1⟩] }

/-- Terms for the network that is hidden and for another one. -/
def laterTerms : List SelectorTerm := [.byName "wan", .byName "backup"]

/-- A claim for a node of that class. -/
def sparingClaim : NodeClaim := { name := "n1", nodeClassRef := some "class" }

/-- A provisioner that finds in its caches all that it lists. -/
def sparingProvisioner : Provisioner where
  settings := { apiUrl := "", apiKey := "", secretKey := "", clusterName := "c1" }
  fleet := smallFleet
  shutdown := 0

/-- The listing of the only service offering. -/
def sparingListing : List (Exchange fleetSignature) := [
  ⟨.read ⟨0, .offerings⟩ "service-offerings-z1",
    some ([⟨"o1", "small", 1, 1000, 1024, 100⟩] : List ServiceOffering)⟩]

/-- The listings that make a plan. -/
def sparingPlan : List (Exchange fleetSignature) := [
  ⟨.read ⟨0, .zones⟩ "zones", some ([⟨"z1", "z1", "", "Enabled", false, false⟩] : List Zone)⟩,
  ⟨.read ⟨0, .networks⟩ "networks-z1", some hiddenNetworks⟩,
  ⟨.read ⟨0, .templates⟩ "templates-z1", some
    ([⟨"t1", "t1", "", "z1", "z1", "", "", "Download Complete", true, true, false, .empty⟩] :
      List Template)⟩]

/-- What is asked after the node class and before the machine is requested. -/
def sparingWay : List (Exchange fleetSignature) :=
  sparingListing ++ ⟨.act (.log sparingClaim.name .requested), ()⟩ :: ⟨.isCancelled 0, false⟩ ::
    (sparingPlan ++ [⟨.act (.log sparingClaim.name .deploying), ()⟩])

/-- The machine that is requested, at the spare network. -/
def sparingRequest : DeployRequest where
  offeringId := "o1"
  templateId := "t1"
  zoneId := "z1"
  networkIds := ["n2"]
  name := some "karpenter-n1"
  displayName := some "karpenter-n1"

/-- A network that cannot be used goes on to hide the one of its identifier that a later term names,
and the launch takes the spare network with the later terms as without them. -/
theorem added_terms_keep_the_choice_of_hidden_network :
    let terms := sparingClass.spec.networkTerms
    let longerClass := sparingClass.withTerms laterTerms [] []
    Selectable.resolve hiddenNetworks (terms.map (·.criteria)) "z1" =
        .ok [spareNetwork] ∧
      (∃ longer, Selectable.resolve hiddenNetworks ((terms ++ laterTerms).map (·.criteria)) "z1" =
        .ok longer ∧ [spareNetwork] <+: longer) ∧
      Selectable.resolve hiddenNetworks ((terms ++ .byName "lan" :: laterTerms).map (·.criteria))
          "z1" =
        Selectable.resolve hiddenNetworks ((terms ++ laterTerms).map (·.criteria)) "z1" ∧
      Ends (smallFleet.plan longerClass sparingClaim [smallType]).run sparingPlan
        (.ok sparingRequest) ∧
      sparingProvisioner.Preparation sparingClaim sparingRequest
        (⟨.act (.nodeClass "class"), some longerClass⟩ :: sparingWay) := by
  intro terms longerClass
  obtain ⟨hlonger, hcopy, hplan, hway⟩ := added_terms_keep_the_choice SelectorTerm.criteria
    hiddenNetworks "z1" sparingProvisioner sparingClass sparingClaim laterTerms [] []
  have resolved : Selectable.resolve hiddenNetworks (terms.map (·.criteria)) "z1" =
      .ok [spareNetwork] := by
    decide +kernel
  have planned (types : List InstanceType)
      (chosen : smallFleet.chooseOffering types = .ok "o1") :
      Ends (smallFleet.plan sparingClass sparingClaim types).run sparingPlan
        (.ok sparingRequest) := by
    rw [Fleet.plan, chosen]
    exact .ask _ (.ask _ (.ask _ (.refl _)))
  refine ⟨resolved, hlonger terms laterTerms _ resolved, hcopy terms laterTerms _ (by decide),
    hplan [smallType] sparingPlan sparingRequest (planned _ (by decide)), ?_⟩
  refine hway "class" sparingWay sparingRequest rfl ?_
  exact .intro rfl rfl (by decide) (.ask _ (.refl _)) (planned _ rfl)

end Hidden

end NodeFleet
