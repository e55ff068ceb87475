import NodeFleet.Fleet.Listing

/-!
# Reconciling a node class

A pass checks the zone of a node class and resolves its networks, templates and service offerings,
in this order. The first stage that fails sets the ready condition to unmet and leaves the rest of
the status as it was. When all succeed, the status lists what they resolved to and the class is
ready. A node class that is being deleted is left alone.
-/

namespace NodeFleet

/-- The stages of a pass. -/
inductive Stage where
  | zone
  | networks
  | templates
  | offerings
deriving DecidableEq, Repr

namespace Stage

/-- The reason under which a failure of the stage is recorded. -/
def reason : Stage → String
  | .zone => "ZoneValidationFailed"
  | .networks => "NetworkResolutionFailed"
  | .templates => "TemplateResolutionFailed"
  | .offerings => "ServiceOfferingResolutionFailed"

/-- What is said to have failed. -/
def title : Stage → String
  | .zone => "Zone validation"
  | .networks => "Network resolution"
  | .templates => "Template resolution"
  | .offerings => "Service offering resolution"

/-- After how many seconds a node class that failed in the stage is looked at again. -/
def retryAfter : Stage → Nat
  | .zone => 300
  | _ => 60

end Stage

/-- What the stages of a pass resolved to. -/
structure Resolution where
  networks : List Network
  templates : List Template
  offerings : List ServiceOffering

namespace Resolution

/-- The status of a network. -/
def networkStatus (n : Network) : NetworkStatus :=
  ⟨n.id, n.name, n.zone, n.networkType⟩

/-- The status of a template, with the name of its operating system. -/
def templateStatus (t : Template) : TemplateStatus :=
  ⟨t.id, t.name, t.osTypeName, t.zone⟩

/-- The status of a service offering. -/
def offeringStatus (o : ServiceOffering) : OfferingStatus :=
  ⟨o.id, o.name, o.cpuNumber, o.cpuSpeed, o.memory, o.networkRate⟩

/-- Writes the resolution into the status of a node class. -/
def record (r : Resolution) (c : NodeClass) : NodeClass :=
  { c with status :=
    { networks := r.networks.map networkStatus
      templates := r.templates.map templateStatus
      offerings := r.offerings.map offeringStatus
      conditions := c.status.conditions } }

end Resolution

/-- The ready condition of a pass at a time. -/
def readyCondition (time : Instant) : Except (Stage × ResourceError) Unit → Condition
  | .ok _ =>
      { type := Condition.ready, status := .met, reason := "Ready"
        message := "NodeClass is ready", lastTransition := time }
  | .error (stage, e) =>
      { type := Condition.ready, status := .unmet, reason := stage.reason
        message := stage.title ++ " failed: " ++ e.message, lastTransition := time }

namespace Fleet

/-- Marks the error of a stage. -/
def inStage {α : Type} (stage : Stage) (attempt : Attempt ResourceError α) :
    Attempt (Stage × ResourceError) α :=
  ExceptT.mk do
    match ← attempt.run with
    | .ok a => return .ok a
    | .error e => return .error (stage, e)

/-- The stages of a pass. -/
def resolveAll (f : Fleet) (spec : NodeClassSpec) :
    Attempt (Stage × ResourceError) Resolution := do
  let _ ← inStage .zone (f.enabledZone spec.zone)
  let networks ← inStage .networks (f.resolveNetworks spec.networkTerms spec.zone)
  let templates ← inStage .templates (f.resolveTemplates spec.templateTerms spec.zone)
  let offerings ← inStage .offerings (f.resolveOfferings spec.offeringTerms spec.zone)
  return ⟨networks, templates, offerings⟩

/-- One pass over a node class: the class with its new status, and after how many seconds it is to
be looked at again. -/
def reconcile (f : Fleet) (c : NodeClass) : Program (NodeClass × Option Nat) := do
  if c.isDeleting then return (c, none)
  match ← (f.resolveAll c.spec).run with
  | .ok resolution =>
      let time ← Program.today
      return ((resolution.record c).setCondition (readyCondition time (.ok ())), some 900)
  | .error (stage, e) =>
      let time ← Program.today
      return (c.setCondition (readyCondition time (.error (stage, e))), some stage.retryAfter)

end Fleet

end NodeFleet
