import NodeFleet.Cloud.Call
import NodeFleet.Text.Quoted

/-!
# Errors

Two layers of errors stand above those of a single call: the errors of resolving and launching, and
the errors shown to the orchestrator. Each has a constructor per cause and one wording per
constructor.
-/

namespace NodeFleet

/-- Why a resource does not resolve or a machine does not come up. -/
inductive ResourceError where
  | notFound (kind : String) (id : String)
  | noMatch (kind : String) (zone : String)
  | zoneNotEnabled (zone : String) (state : String)
  | noInstanceType
  | invalidInstanceType (name : String) (reason : String)
  | timeout (what : String)
  | cancelled
  | call (context : String) (source : Cloud.CallError)
deriving DecidableEq

namespace ResourceError

/-- The kind of the error; that of a call stands after a point. -/
def kind : ResourceError → String
  | .notFound _ _ => "NotFound"
  | .noMatch _ _ => "NoSelectorMatch"
  | .zoneNotEnabled _ _ => "ZoneNotEnabled"
  | .noInstanceType => "NoInstanceType"
  | .invalidInstanceType _ _ => "InvalidInstanceType"
  | .timeout _ => "Timeout"
  | .cancelled => "Cancelled"
  | .call _ source => "Client." ++ source.kind

/-- The wording of the error. -/
def message : ResourceError → String
  | .notFound kind id => s!"{kind} {id} not found"
  | .noMatch kind zone => s!"no {kind}s matched the selector terms in zone {zone}"
  | .zoneNotEnabled zone state => s!"zone {zone} is not enabled (state: {state})"
  | .noInstanceType => "no suitable instance type found"
  | .invalidInstanceType name reason => s!"invalid instance type {name}: {reason}"
  | .timeout what => s!"timeout waiting for {what}"
  | .cancelled => "Operation cancelled"
  | .call context source => s!"failed to {context}: " ++ source.message

/-- The error of a wait for a job: a cancellation and a timeout keep their kind. -/
def ofJobError (context : String) : Cloud.CallError → ResourceError
  | .cancelled => .cancelled
  | .jobTimeout jobId => .timeout s!"async job {jobId}"
  | source => .call context source

/-- Whether the error says that something does not exist. -/
def isNotFound : ResourceError → Bool
  | .notFound _ _ => true
  | _ => false

end ResourceError

/-- Errors shown to the orchestrator. -/
inductive NodeError where
  | claimNotFound (providerId : String)
  | classNotReady (name : String)
  | insufficientCapacity (message : String)
  | createFailed (reason : String) (detail : String)
  | invalidProviderId (providerId : String)
  | resource (source : ResourceError)
deriving DecidableEq

namespace NodeError

/-- The kind of the error; that of its cause stands after a point. -/
def kind : NodeError → String
  | .claimNotFound _ => "NodeClaimNotFound"
  | .classNotReady _ => "NodeClassNotReady"
  | .insufficientCapacity _ => "InsufficientCapacity"
  | .createFailed _ _ => "CreateError"
  | .invalidProviderId _ => "InvalidProviderId"
  | .resource source => "Provider." ++ source.kind

/-- The wording of the error. -/
def message : NodeError → String
  | .claimNotFound providerId => s!"NodeClaim not found: {providerId}"
  | .classNotReady name => s!"NodeClass {name} is not ready"
  | .insufficientCapacity message => s!"insufficient capacity: {message}"
  | .createFailed reason detail => s!"{reason}: {detail}"
  | .invalidProviderId providerId => "invalid provider ID: " ++ Text.quoted providerId
  | .resource source => source.message

end NodeError

end NodeFleet
