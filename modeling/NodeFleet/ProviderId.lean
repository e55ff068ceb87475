import NodeFleet.Error

/-!
# Provider identifiers

A provider identifier names a machine as scheme, zone and machine, separated by slashes. It is read
from its end: the machine is what follows the last slash, and it must not be empty.
-/

namespace NodeFleet

namespace ProviderId

/-- The scheme of provider identifiers. -/
def scheme : String := "cloudstack://"

/-- The provider identifier of a machine in a zone. -/
def format (zone id : String) : String :=
  scheme ++ zone ++ "/" ++ id

/-- The characters after the last slash. -/
def lastSegment (cs : List Char) : List Char :=
  (cs.reverse.takeWhile (· ≠ '/')).reverse

/-- The machine of a provider identifier. -/
def parse (text : String) : Except NodeError String :=
  match lastSegment text.toList with
  | [] => .error (.invalidProviderId text)
  | id => .ok (String.ofList id)

end ProviderId

end NodeFleet
