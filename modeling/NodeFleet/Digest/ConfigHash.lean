import NodeFleet.Digest.Sha256
import NodeFleet.Json.Canonical

/-!
# Configuration hash

The hash of a configuration is taken over its canonical text, so it does not see the order of
fields and list elements, nor zero values. It carries the version of the format it was taken in;
hashes of two versions are not comparable.
-/

namespace NodeFleet

/-- A configuration hash with the version of its format. -/
structure ConfigHash where
  version : String
  value : String
deriving DecidableEq

namespace ConfigHash

/-- The version of hashes taken now. -/
def currentVersion : String := "v1"

/-- The first sixteen bytes of the SHA-256 digest, in hexadecimal. -/
def ofText (canonical : String) : ConfigHash :=
  ⟨currentVersion, Text.hex ((Sha256.digest (Text.utf8 canonical)).take 16)⟩

/-- The hash of a JSON value; a zero value has the hash of the empty text. -/
def ofJson (value : Json) : ConfigHash :=
  ofText (value.canonical?.getD "")

end ConfigHash

end NodeFleet
