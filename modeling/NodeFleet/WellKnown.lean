/-!
# Well-known keys

Keys of node labels, of the tags written on machines and of annotations, and the values that have
a fixed meaning under them.
-/

namespace NodeFleet

namespace Label

def topologyZone : String := "topology.kubernetes.io/zone"

def instanceType : String := "node.kubernetes.io/instance-type"

def architecture : String := "kubernetes.io/arch"

def operatingSystem : String := "kubernetes.io/os"

def nodePool : String := "karpenter.sh/nodepool"

def capacityType : String := "karpenter.sh/capacity-type"

def zoneId : String := "karpenter.k8s.cloudstack/zone-id"

def zoneName : String := "karpenter.k8s.cloudstack/zone-name"

def networkId : String := "karpenter.k8s.cloudstack/network-id"

def serviceOfferingId : String := "karpenter.k8s.cloudstack/service-offering-id"

def serviceOfferingName : String := "karpenter.k8s.cloudstack/service-offering-name"

def templateId : String := "karpenter.k8s.cloudstack/template-id"

def templateName : String := "karpenter.k8s.cloudstack/template-name"

/-- The capacity type of every machine. -/
def onDemand : String := "on-demand"

/-- The architecture of every machine. -/
def amd64 : String := "amd64"

/-- The operating system of every machine. -/
def linux : String := "linux"

end Label

namespace Tag

def nodePool : String := "karpenter.sh/nodepool"

def nodeClaim : String := "karpenter.sh/nodeclaim"

def nodeClass : String := "karpenter.k8s.cloudstack/nodeclass"

def managedBy : String := "karpenter.sh/managed-by"

/-- The value under `managedBy` of the machines launched here. -/
def manager : String := "karpenter"

/-- The value under the key of the owning cluster. -/
def owned : String := "owned"

/-- The key that marks a machine as owned by a cluster. -/
def cluster (name : String) : String :=
  "kubernetes.io/cluster/" ++ name

end Tag

namespace Annotation

def nodeClassHash : String := "karpenter.k8s.cloudstack/nodeclass-hash"

def nodeClassHashVersion : String := "karpenter.k8s.cloudstack/nodeclass-hash-version"

end Annotation

end NodeFleet
