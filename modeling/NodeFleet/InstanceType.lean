import NodeFleet.Json.Codec

/-!
# Instance types

An instance type is a shape of machine offered to the scheduler: the label values it satisfies,
where and at what price it is offered, what it provides and what of that is set aside for the
system.
-/

namespace NodeFleet

/-- Amounts of compute resources. -/
structure Resources where
  cpuMillis : UInt64
  memoryBytes : UInt64
  pods : UInt64
deriving DecidableEq

/-- The difference of two amounts, zero where there is none. -/
def amountLeft (a b : UInt64) : UInt64 :=
  if a ≤ b then 0 else a - b

namespace Resources

/-- What is left of an amount of resources after another is taken off. -/
def minus (a b : Resources) : Resources where
  cpuMillis := amountLeft a.cpuMillis b.cpuMillis
  memoryBytes := amountLeft a.memoryBytes b.memoryBytes
  pods := amountLeft a.pods b.pods

end Resources

/-- Where and at what price an instance type can be had. -/
structure Offering where
  zone : String
  capacityType : String
  price : Float
  available : Bool

/-- A shape of machine. -/
structure InstanceType where
  name : String
  requirements : Table (List String)
  offerings : List Offering
  capacity : Resources
  overhead : Resources

/-- A number that orders prices as their bits do: negative ones reversed and below positive ones. -/
def priceRank (price : Float) : Int :=
  let bits := price.toBits.toNat
  if bits < Nat.pow 2 63 then bits else Nat.pow 2 63 - 1 - (bits : Int)

/-- The first of the cheapest offerings. -/
def cheapestOf : List Offering → Option Offering
  | [] => none
  | offering :: rest =>
      match cheapestOf rest with
      | none => some offering
      | some other =>
          if priceRank offering.price ≤ priceRank other.price then some offering else some other

namespace InstanceType

/-- The first value under a requirement. -/
def requirement? (t : InstanceType) (key : String) : Option String :=
  (t.requirements.get? key).bind List.head?

/-- What is left of the capacity for workloads. -/
def allocatable (t : InstanceType) : Resources :=
  t.capacity.minus t.overhead

/-- Whether some offering is available. -/
def isAvailable (t : InstanceType) : Bool :=
  t.offerings.any (·.available)

/-- The cheapest available offering. -/
def cheapestOffering? (t : InstanceType) : Option Offering :=
  cheapestOf (t.offerings.filter (·.available))

end InstanceType

instance : Encode Resources where
  encode r := .obj <|
    Json.field "cpuMillis" r.cpuMillis
      ++ Json.field "memoryBytes" r.memoryBytes
      ++ Json.field "pods" r.pods

instance : Decode Resources where
  decode j := do
    let j := Json.named ["cpuMillis", "memoryBytes", "pods"] j
    let cpuMillis ← Json.requiredField "cpuMillis" j
    let memoryBytes ← Json.requiredField "memoryBytes" j
    let pods ← Json.requiredField "pods" j
    return { cpuMillis, memoryBytes, pods }

instance : Decode Offering where
  decode j := do
    let j := Json.named ["zone", "capacityType", "price", "available"] j
    let zone ← Json.requiredField "zone" j
    let capacityType ← Json.requiredField "capacityType" j
    let price ← Json.requiredField "price" j
    let available ← Json.requiredField "available" j
    return { zone, capacityType, price, available }

instance : Decode InstanceType where
  decode j := do
    let j := Json.named ["name", "requirements", "offerings", "capacity", "overhead"] j
    let name ← Json.requiredField "name" j
    let requirements ← Json.requiredField "requirements" j
    let offerings ← Json.requiredField "offerings" j
    let capacity ← Json.requiredField "capacity" j
    let overhead ← Json.requiredField "overhead" j
    return { name, requirements, offerings, capacity, overhead }

end NodeFleet
