import NodeFleet.NodeClaim
import NodeFleet.NodeClass.Codec

/-!
# Drift

A launched claim carries the hash of its node class's spec and the version of the hash format. The
claim has drifted when the spec has another hash of the same version. A claim without a recorded
hash, or with one of another version, has not.
-/

namespace NodeFleet

namespace NodeClaim

/-- Records the hash of a node class on a claim. -/
def annotate (claim : NodeClaim) (c : NodeClass) : NodeClaim :=
  let hashed := claim.annotations.insert Annotation.nodeClassHash c.hash.value
  { claim with annotations := hashed.insert Annotation.nodeClassHashVersion c.hash.version }

/-- Why a claim has drifted from its node class, if it has. -/
def driftReason? (claim : NodeClaim) (c : NodeClass) : Option String :=
  match claim.annotations.get? Annotation.nodeClassHash,
      claim.annotations.get? Annotation.nodeClassHashVersion with
  | some recorded, some version =>
      if version = c.hash.version ∧ recorded ≠ c.hash.value then some "NodeClassDrifted" else none
  | _, _ => none

end NodeClaim

end NodeFleet
