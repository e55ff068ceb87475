import NodeFleet.Table
import NodeFleet.Time.Instant

/-!
# Node classes

A node class says in which zone nodes are launched and which networks, service offerings and
templates are eligible, and how a launched machine is set up. Its status holds what the selector
terms resolved to and a list of conditions, at most one of a type: setting a condition replaces the
one of its type in place and keeps the transition time as long as the status stays.
-/

namespace NodeFleet

/-- One alternative of a network or service offering selector. -/
structure SelectorTerm where
  tags : Table String := .empty
  id : Option String := none
  name : Option String := none
deriving DecidableEq

namespace SelectorTerm

/-- The term that asks for an identifier. -/
def byId (id : String) : SelectorTerm := { id := some id }

/-- The term that asks for a name. -/
def byName (name : String) : SelectorTerm := { name := some name }

/-- Asks for one more tag. -/
def withTag (term : SelectorTerm) (key value : String) : SelectorTerm :=
  { term with tags := term.tags.insert key value }

/-- The term that asks for a tag. -/
def byTag (key value : String) : SelectorTerm :=
  ({} : SelectorTerm).withTag key value

end SelectorTerm

/-- One alternative of a template selector; the operating system is an identifier or a name. -/
structure TemplateTerm extends SelectorTerm where
  osType : Option String := none
deriving DecidableEq

namespace TemplateTerm

/-- The term that asks for an identifier. -/
def byId (id : String) : TemplateTerm := { id := some id }

/-- The term that asks for a name. -/
def byName (name : String) : TemplateTerm := { name := some name }

/-- The term that asks for an operating system. -/
def byOsType (osType : String) : TemplateTerm := { osType := some osType }

/-- Asks for one more tag. -/
def withTag (term : TemplateTerm) (key value : String) : TemplateTerm :=
  { term with tags := term.tags.insert key value }

end TemplateTerm

/-- The desired launch configuration. -/
structure NodeClassSpec where
  zone : String
  networkTerms : List SelectorTerm := []
  offeringTerms : List SelectorTerm := []
  templateTerms : List TemplateTerm := []
  userData : Option String := none
  tags : Table String := .empty
  rootDiskSize : Option Int64 := none
  diskOffering : Option String := none
  sshKeyPair : Option String := none
deriving DecidableEq

/-- A resolved network. -/
structure NetworkStatus where
  id : String
  name : String
  zone : String
  networkType : String
deriving DecidableEq

/-- A resolved service offering; the memory is in megabytes. -/
structure OfferingStatus where
  id : String
  name : String
  cpuNumber : UInt32
  cpuSpeed : UInt32
  memory : UInt64
  networkRate : UInt32
deriving DecidableEq

/-- A resolved template. -/
structure TemplateStatus where
  id : String
  name : String
  osType : String
  zone : String
deriving DecidableEq

/-- Whether a condition holds. -/
inductive ConditionStatus where
  | met
  | unmet
  | unknown
deriving DecidableEq, Repr

namespace ConditionStatus

/-- All statuses. -/
def all : List ConditionStatus := [.met, .unmet, .unknown]

/-- The written form of a status. -/
def text : ConditionStatus → String
  | .met => "True"
  | .unmet => "False"
  | .unknown => "Unknown"

end ConditionStatus

/-- A statement about a node class, with the time since which its status is the same. -/
structure Condition where
  type : String
  status : ConditionStatus
  reason : String
  message : String
  lastTransition : Instant
  observedGeneration : Int64 := 0
deriving DecidableEq

namespace Condition

/-- The type of the condition that sums up whether a node class can be used. -/
def ready : String := "Ready"

end Condition

/-- What the selector terms of a node class resolved to, and its conditions. -/
structure NodeClassStatus where
  networks : List NetworkStatus := []
  offerings : List OfferingStatus := []
  templates : List TemplateStatus := []
  conditions : List Condition := []
deriving DecidableEq

/-- A named launch configuration with its status. -/
structure NodeClass where
  name : String
  generation : Int64 := 0
  deletion : Option Instant := none
  spec : NodeClassSpec
  status : NodeClassStatus := {}
deriving DecidableEq

/-- Replaces the condition of the same type in place, or appends the condition. The transition
time of the old one stays where the status does. -/
def putCondition (c : Condition) : List Condition → List Condition
  | [] => [c]
  | old :: rest =>
      if old.type = c.type then
        (if old.status = c.status then { c with lastTransition := old.lastTransition } else c)
          :: rest
      else old :: putCondition c rest

namespace NodeClass

/-- A node class of the first generation, without a status. -/
def new (name : String) (spec : NodeClassSpec) : NodeClass :=
  { name, generation := 1, spec }

/-- Whether the node class is about to go. -/
def isDeleting (c : NodeClass) : Bool :=
  c.deletion.isSome

/-- The condition of a type. -/
def condition? (c : NodeClass) (type : String) : Option Condition :=
  c.status.conditions.find? fun condition => condition.type = type

/-- Sets the condition of a type as observed at the current generation. -/
def setCondition (c : NodeClass) (condition : Condition) : NodeClass :=
  { c with status.conditions :=
      putCondition { condition with observedGeneration := c.generation } c.status.conditions }

/-- Whether the node class can be used for launching. -/
def isReady (c : NodeClass) : Bool :=
  match c.condition? Condition.ready with
  | some condition => condition.status = .met
  | none => false

end NodeClass

end NodeFleet
