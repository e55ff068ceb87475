import NodeFleet.Json.Basic
import NodeFleet.Table
import NodeFleet.Time.Reader

/-!
# Values as JSON

A type is encoded by one function and decoded by another. Records are objects: decoding ignores
fields it does not know, and a field is required, has a default where it is absent, or is optional,
which admits `null` as well. A record is also decoded from an array that lists its fields in order.
Nothing is converted: a number is no string, and a whole number of the wrong range or with a point
is refused.
-/

namespace NodeFleet

/-- Why a value does not decode. -/
inductive DecodeError where
  | missing (field : String)
  | mismatch
deriving DecidableEq, Repr

namespace DecodeError

/-- The wording of the error. -/
def message : DecodeError → String
  | .missing field => "missing field \x60" ++ field ++ "\x60"
  | .mismatch => "invalid type"

end DecodeError

/-- Types with a JSON form. -/
class Encode (α : Type) where
  encode : α → Json

/-- Types that are read from their JSON form. -/
class Decode (α : Type) where
  decode : Json → Except DecodeError α

export Encode (encode)
export Decode (decode)

instance : Encode Json := ⟨id⟩

instance : Decode Json := ⟨.ok⟩

instance : Encode String := ⟨.str⟩

instance : Decode String where
  decode
    | .str s => .ok s
    | _ => .error .mismatch

instance : Encode Bool := ⟨.bool⟩

instance : Decode Bool where
  decode
    | .bool b => .ok b
    | _ => .error .mismatch

/-- A whole number between two bounds, both included. -/
def decodeWhole (least greatest : Int) : Json → Except DecodeError Int
  | .num (.whole n) => if least ≤ n ∧ n ≤ greatest then .ok n else .error .mismatch
  | _ => .error .mismatch

/-- The JSON form of a whole number. -/
def wholeNumber (n : Int) : Json :=
  .num (.whole n)

instance : Encode UInt16 := ⟨fun n => wholeNumber n.toNat⟩

instance : Decode UInt16 :=
  ⟨fun j => (decodeWhole 0 65535 j).map fun n => UInt16.ofNat n.toNat⟩

instance : Encode UInt32 := ⟨fun n => wholeNumber n.toNat⟩

instance : Decode UInt32 :=
  ⟨fun j => (decodeWhole 0 4294967295 j).map fun n => UInt32.ofNat n.toNat⟩

instance : Encode UInt64 := ⟨fun n => wholeNumber n.toNat⟩

instance : Decode UInt64 :=
  ⟨fun j => (decodeWhole 0 18446744073709551615 j).map fun n => UInt64.ofNat n.toNat⟩

instance : Encode Int32 := ⟨fun n => wholeNumber n.toInt⟩

instance : Decode Int32 :=
  ⟨fun j => (decodeWhole (-2147483648) 2147483647 j).map Int32.ofInt⟩

instance : Encode Int64 := ⟨fun n => wholeNumber n.toInt⟩

instance : Decode Int64 :=
  ⟨fun j => (decodeWhole (-9223372036854775808) 9223372036854775807 j).map Int64.ofInt⟩

instance : Decode Float where
  decode
    | .num n =>
        match n.toBinary64? with
        | some x => .ok (Float.ofBits x.bits)
        | none => .error .mismatch
    | _ => .error .mismatch

instance : Encode Instant := ⟨fun t => .str t.text⟩

instance : Decode Instant where
  decode
    | .str s =>
        match Instant.ofText? s with
        | some t => .ok t
        | none => .error .mismatch
    | _ => .error .mismatch

instance : Encode Unit := ⟨fun _ => .null⟩

instance {α : Type} [Encode α] : Encode (Option α) where
  encode
    | some value => encode value
    | none => .null

/-- Decodes every element of a list. -/
def decodeItems {α : Type} [Decode α] : List Json → Except DecodeError (List α)
  | [] => .ok []
  | item :: rest => do
      let first ← decode item
      let others ← decodeItems rest
      return first :: others

instance {α : Type} [Encode α] : Encode (List α) :=
  ⟨fun items => .arr (items.map encode)⟩

instance {α : Type} [Decode α] : Decode (List α) where
  decode
    | .arr items => decodeItems items
    | _ => .error .mismatch

/-- Decodes the value of every field. -/
def decodeEntries {α : Type} [Decode α] :
    List (String × Json) → Except DecodeError (List (String × α))
  | [] => .ok []
  | (key, value) :: rest => do
      let first ← decode value
      let others ← decodeEntries rest
      return (key, first) :: others

instance {α : Type} [Encode α] : Encode (Table α) :=
  ⟨fun t => .obj (t.entries.map fun e => (e.1, encode e.2))⟩

instance {α : Type} [Decode α] : Decode (Table α) where
  decode
    | .obj fields => (decodeEntries fields).map Table.ofList
    | _ => .error .mismatch

namespace Json

variable {α : Type}

/-- The object of an array that lists the values of fields in the order of their keys, of which the
last ones may be absent. An array of more values has none, and any other value is left as it is. -/
def named (keys : List String) : Json → Json
  | .arr items => if items.length ≤ keys.length then .obj (keys.zip items) else .arr items
  | other => other

/-- A field that has to be there. -/
def requiredField [Decode α] (key : String) : Json → Except DecodeError α
  | .obj fields =>
      match fields.lookup key with
      | some value => decode value
      | none => .error (.missing key)
  | _ => .error .mismatch

/-- A field with a value for the case that it is absent. -/
def fieldOr [Decode α] (key : String) (absent : α) : Json → Except DecodeError α
  | .obj fields =>
      match fields.lookup key with
      | some value => decode value
      | none => .ok absent
  | _ => .error .mismatch

/-- A field that may be absent or `null`. -/
def optionalField [Decode α] (key : String) : Json → Except DecodeError (Option α)
  | .obj fields =>
      match fields.lookup key with
      | some .null => .ok none
      | some value => (decode value).map some
      | none => .ok none
  | _ => .error .mismatch

/-- A field that is always written. -/
def field [Encode α] (key : String) (value : α) : List (String × Json) :=
  [(key, encode value)]

/-- A field that is left out under a condition. -/
def fieldUnless [Encode α] (skip : Bool) (key : String) (value : α) : List (String × Json) :=
  if skip then [] else [(key, encode value)]

/-- A field that is left out where there is no value. -/
def fieldOf? [Encode α] (key : String) : Option α → List (String × Json)
  | some value => [(key, encode value)]
  | none => []

end Json

end NodeFleet
