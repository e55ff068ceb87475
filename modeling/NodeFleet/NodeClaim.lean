import NodeFleet.Json.Codec
import NodeFleet.WellKnown

/-!
# Node claims

A node claim asks for one node, or describes one: its class, its labels and annotations, when it
came to be and when it started to go, and the machine and image behind it.
-/

namespace NodeFleet

/-- The machine and the image of a node. -/
structure NodeClaimStatus where
  providerId : String := ""
  imageId : String := ""
deriving DecidableEq

/-- A request for a node, or the observed state of one. -/
structure NodeClaim where
  name : String
  labels : Table String := .empty
  annotations : Table String := .empty
  nodeClassRef : Option String := none
  creation : Option Instant := none
  deletion : Option Instant := none
  status : NodeClaimStatus := {}
deriving DecidableEq

namespace NodeClaim

/-- The claim for a node of a node class. -/
def withNodeClass (c : NodeClaim) (name : String) : NodeClaim :=
  { c with nodeClassRef := some name }

/-- The claim with a label. -/
def withLabel (c : NodeClaim) (key value : String) : NodeClaim :=
  { c with labels := c.labels.insert key value }

/-- The node pool that owns the claim; an empty label names none. -/
def nodePool? (c : NodeClaim) : Option String :=
  (c.labels.get? Label.nodePool).filter fun pool => pool ≠ ""

end NodeClaim

instance : Encode NodeClaimStatus where
  encode s := .obj <|
    Json.fieldUnless s.providerId.isEmpty "providerId" s.providerId
      ++ Json.fieldUnless s.imageId.isEmpty "imageId" s.imageId

instance : Decode NodeClaimStatus where
  decode j := do
    let j := Json.named ["providerId", "imageId"] j
    let providerId ← Json.fieldOr "providerId" "" j
    let imageId ← Json.fieldOr "imageId" "" j
    return { providerId, imageId }

instance : Encode NodeClaim where
  encode c := .obj <|
    Json.field "name" c.name
      ++ Json.field "labels" c.labels
      ++ Json.field "annotations" c.annotations
      ++ Json.fieldOf? "nodeClassRef" c.nodeClassRef
      ++ Json.fieldOf? "creationTimestamp" c.creation
      ++ Json.fieldOf? "deletionTimestamp" c.deletion
      ++ Json.field "status" c.status

instance : Decode NodeClaim where
  decode j := do
    let j := Json.named [
      "name", "labels", "annotations", "nodeClassRef", "creationTimestamp", "deletionTimestamp",
      "status"] j
    let name ← Json.requiredField "name" j
    let labels ← Json.fieldOr "labels" Table.empty j
    let annotations ← Json.fieldOr "annotations" Table.empty j
    let nodeClassRef ← Json.optionalField "nodeClassRef" j
    let creation ← Json.optionalField "creationTimestamp" j
    let deletion ← Json.optionalField "deletionTimestamp" j
    let status ← Json.fieldOr "status" {} j
    return { name, labels, annotations, nodeClassRef, creation, deletion, status }

end NodeFleet
