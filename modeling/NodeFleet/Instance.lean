import NodeFleet.Cloud.Record
import NodeFleet.WellKnown

/-!
# Instances

An instance is a machine of the cloud as the launch sees it, with the tags found for it.
-/

namespace NodeFleet

/-- A machine with its tags. -/
structure Instance where
  id : String
  name : String
  state : String
  zone : String
  zoneId : String
  serviceOffering : String
  serviceOfferingId : String
  template : String
  templateId : String
  networkId : String
  ipAddress : Option String
  created : Option Instant
  tags : Table String
deriving DecidableEq

namespace Instance

/-- The instance of a machine and its tags. -/
def ofMachine (vm : Cloud.VirtualMachine) (tags : Table String) : Instance where
  id := vm.id
  name := vm.name
  state := vm.state
  zone := vm.zoneName
  zoneId := vm.zoneId
  serviceOffering := vm.offeringName
  serviceOfferingId := vm.offeringId
  template := vm.templateName
  templateId := vm.templateId
  networkId := vm.networkId?.getD ""
  ipAddress := vm.ipAddress?
  created := Instant.ofCreationText? vm.created
  tags := tags

/-- Whether the machine is up. -/
def isRunning (i : Instance) : Bool :=
  i.state = Cloud.VirtualMachine.running

/-- Whether the machine is gone or about to go. -/
def isTerminating (i : Instance) : Bool :=
  i.state = Cloud.VirtualMachine.destroyed || i.state = "Expunging"

/-- The value of a tag. -/
def tag? (i : Instance) (key : String) : Option String :=
  i.tags.get? key

/-- Whether the machine was launched here. -/
def isManaged (i : Instance) : Bool :=
  i.tags.contains Tag.managedBy

end Instance

/-- The value of every key; of tags with one key the last counts. -/
def tagTable (tags : List Cloud.ResourceTag) : Table String :=
  .ofList (tags.map fun t => (t.key, t.value))

/-- How far a launch or a removal is. -/
inductive LaunchState where
  | requested
  | deploying
  | polling
  | running
  | failed
  | timedOut
  | destroying
  | destroyed
deriving DecidableEq, Repr

namespace LaunchState

/-- All states. -/
def all : List LaunchState :=
  [.requested, .deploying, .polling, .running, .failed, .timedOut, .destroying, .destroyed]

/-- The written form of a state. -/
def text : LaunchState → String
  | .requested => "requested"
  | .deploying => "deploying"
  | .polling => "polling"
  | .running => "running"
  | .failed => "failed"
  | .timedOut => "timed_out"
  | .destroying => "destroying"
  | .destroyed => "destroyed"

end LaunchState

end NodeFleet
