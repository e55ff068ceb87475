import NodeFleet.Json.Basic

/-!
# Canonical text of a JSON value

Two values that differ in the order of fields, in the order of array elements, or in zero values
have one canonical text. A zero value is `null`, `false`, a number equal to zero, an empty string,
or an array or object in which nothing else is left; it has no canonical text and is dropped
wherever it occurs. Elements are sorted by their texts, fields by their keys.
-/

namespace NodeFleet.Json

/-- Whether a text comes no later than another, by code points. -/
def textLe (a b : String) : Bool :=
  decide (a ≤ b)

mutual

/-- The canonical text, or none for a zero value. -/
def canonical? : Json → Option String
  | .null => none
  | .bool b => if b then some "true" else none
  | .num n => if n.isZero then none else some n.text
  | .str s => if s = "" then none else some (quote s)
  | .arr items =>
      match canonicalItems items with
      | [] => none
      | texts => some (arrayText (sortBy textLe texts))
  | .obj fields =>
      match canonicalFields fields with
      | [] => none
      | texts => some (objectText (sortBy fieldLe texts))

/-- The canonical texts of the elements that are no zero values. -/
def canonicalItems : List Json → List String
  | [] => []
  | item :: rest =>
      match canonical? item with
      | none => canonicalItems rest
      | some t => t :: canonicalItems rest

/-- The keys and canonical texts of the fields that hold no zero values. -/
def canonicalFields : List (String × Json) → List (String × String)
  | [] => []
  | (key, value) :: rest =>
      match canonical? value with
      | none => canonicalFields rest
      | some t => (key, t) :: canonicalFields rest

end

end NodeFleet.Json
