import NodeFleet.Json.Number
import NodeFleet.Sorting
import NodeFleet.Text.Bytes

/-!
# JSON values and their compact text

The compact text has no blanks and writes the fields of an object in the order of their keys.
Strings escape quotes, backslashes and control characters and leave every other character as it
is.
-/

namespace NodeFleet

/-- A JSON value. -/
inductive Json where
  | null
  | bool (value : Bool)
  | num (value : Json.Number)
  | str (value : String)
  | arr (items : List Json)
  | obj (fields : List (String × Json))
deriving Inhabited

namespace Json

/-- One character inside a quoted string. -/
def escape (c : Char) : List Char :=
  if c = '"' then ['\\', '"']
  else if c = '\\' then ['\\', '\\']
  else if c = '\n' then ['\\', 'n']
  else if c = '\r' then ['\\', 'r']
  else if c = '\t' then ['\\', 't']
  else if c = '\x08' then ['\\', 'b']
  else if c = '\x0c' then ['\\', 'f']
  else if c.toNat < 32 then
    ['\\', 'u', '0', '0', Text.hexDigit (c.toNat / 16), Text.hexDigit (c.toNat % 16)]
  else [c]

/-- A string between quotes. -/
def quote (s : String) : String :=
  String.ofList ('"' :: s.toList.flatMap escape ++ ['"'])

/-- Texts one after another with commas between them. -/
def commaSeparated : List String → String
  | [] => ""
  | [text] => text
  | text :: rest => text ++ "," ++ commaSeparated rest

/-- The text of an array whose elements have the given texts. -/
def arrayText (items : List String) : String :=
  "[" ++ commaSeparated items ++ "]"

/-- The text of an object with the given keys and value texts. -/
def objectText (fields : List (String × String)) : String :=
  "\x7b" ++ commaSeparated (fields.map fun f => quote f.1 ++ ":" ++ f.2) ++ "\x7d"

/-- Whether a field comes no later than another: by key, and by text where the keys are equal. -/
def fieldLe (a b : String × String) : Bool :=
  decide (a.1 < b.1) || (a.1 == b.1 && decide (a.2 ≤ b.2))

mutual

/-- The compact text of a value. -/
def text : Json → String
  | .null => "null"
  | .bool b => if b then "true" else "false"
  | .num n => n.text
  | .str s => quote s
  | .arr items => arrayText (itemTexts items)
  | .obj fields => objectText (sortBy fieldLe (fieldTexts fields))

/-- The compact texts of a list of values. -/
def itemTexts : List Json → List String
  | [] => []
  | item :: rest => text item :: itemTexts rest

/-- The compact texts of the values of a list of fields. -/
def fieldTexts : List (String × Json) → List (String × String)
  | [] => []
  | (key, value) :: rest => (key, text value) :: fieldTexts rest

end

/-- The value of a field, if the value is an object that has it. -/
def field? (key : String) : Json → Option Json
  | .obj fields => fields.lookup key
  | _ => none

/-- The text of a string value. -/
def string? : Json → Option String
  | .str s => some s
  | _ => none

end Json

end NodeFleet
