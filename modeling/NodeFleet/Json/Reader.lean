import NodeFleet.Json.Basic
import NodeFleet.Table

/-!
# Reading JSON text

A reader takes characters and returns a value and the characters after it. Nesting is bounded by
the length of the text, since every level opens with a character of its own. Of two fields with
one key the later one stays, and fields are kept in the order of their keys.
-/

namespace NodeFleet.Json

/-- Blanks between the tokens of a document. -/
def isBlank (c : Char) : Bool :=
  c == ' ' || c == '\n' || c == '\r' || c == '\t'

/-- The characters after the leading blanks. -/
def skipBlanks (cs : List Char) : List Char :=
  cs.dropWhile isBlank

/-- The value of a hexadecimal digit. -/
def hexValue? (c : Char) : Option Nat :=
  if '0' ≤ c ∧ c ≤ '9' then some (c.toNat - 48)
  else if 'a' ≤ c ∧ c ≤ 'f' then some (c.toNat - 87)
  else if 'A' ≤ c ∧ c ≤ 'F' then some (c.toNat - 55)
  else none

/-- The code unit of four hexadecimal digits. -/
def codeUnit? (a b c d : Char) : Option Nat := do
  return ((← hexValue? a) * 16 + (← hexValue? b)) * 256
    + ((← hexValue? c) * 16 + (← hexValue? d))

/-- The character behind an escape letter other than `u`. -/
def simpleEscape? (c : Char) : Option Char :=
  if c = '"' ∨ c = '\\' ∨ c = '/' then some c
  else if c = 'n' then some '\n'
  else if c = 'r' then some '\r'
  else if c = 't' then some '\t'
  else if c = 'b' then some '\x08'
  else if c = 'f' then some '\x0c'
  else none

/-- The code points and escaped code units of a string after its opening quote. -/
def readUnits? : List Char → Option (List Nat × List Char)
  | [] => none
  | '"' :: rest => some ([], rest)
  | '\\' :: 'u' :: a :: b :: c :: d :: rest => do
      let unit ← codeUnit? a b c d
      let (units, after) ← readUnits? rest
      return (unit :: units, after)
  | '\\' :: letter :: rest => do
      let c ← simpleEscape? letter
      let (units, after) ← readUnits? rest
      return (c.toNat :: units, after)
  | c :: rest =>
      if c.toNat < 32 then none
      else (readUnits? rest).map fun (units, after) => (c.toNat :: units, after)

/-- Joins the two halves of surrogate pairs; a half of its own is no character. -/
def joinUnits? : List Nat → Option (List Char)
  | [] => some []
  | high :: low :: rest =>
      if 0xD800 ≤ high ∧ high < 0xDC00 then
        if 0xDC00 ≤ low ∧ low < 0xE000 then
          (joinUnits? rest).map fun s =>
            Char.ofNat (0x10000 + (high - 0xD800) * 0x400 + (low - 0xDC00)) :: s
        else none
      else if 0xDC00 ≤ high ∧ high < 0xE000 then none
      else (joinUnits? (low :: rest)).map (Char.ofNat high :: ·)
  | [unit] => if 0xD800 ≤ unit ∧ unit < 0xE000 then none else some [Char.ofNat unit]

/-- The content of a string after its opening quote. -/
def readString? (cs : List Char) : Option (String × List Char) := do
  let (units, after) ← readUnits? cs
  return (String.ofList (← joinUnits? units), after)

/-- The number that decimal digits write. -/
def digitsValue (digits : List Char) : Nat :=
  digits.foldl (fun n c => n * 10 + (c.toNat - 48)) 0

/-- The leading digits that fit into sixty-four bits, and how many digits follow them. -/
def leadingDigits : Nat → List Char → Nat × Nat
  | acc, [] => (acc, 0)
  | acc, c :: rest =>
      let next := acc * 10 + (c.toNat - 48)
      if next < Nat.pow 2 64 then leadingDigits next rest else (acc, rest.length + 1)

/-- The double written by whole digits, fraction digits and an exponent. Digits beyond sixty-four
bits count only for their place. -/
def realNumber? (negative : Bool) (whole fraction : List Char) (exponent : Int) :
    Option Number :=
  let (head, cut) := leadingDigits 0 whole
  let (digits, unused) := leadingDigits head fraction
  let places : Int := (cut : Int) - (fraction.length - unused : Nat)
  (Binary64.ofDecimal? negative digits (places + exponent)).map .real

/-- The number of a whole literal: a double where it is `-0` or exceeds sixty-four bits. -/
def wholeNumber? (negative : Bool) (digits : List Char) : Option Number :=
  let n := digitsValue digits
  if negative then
    if 0 < n ∧ n ≤ Nat.pow 2 63 then some (.whole (-(n : Int)))
    else realNumber? true digits [] 0
  else if n < Nat.pow 2 64 then some (.whole n)
  else realNumber? false digits [] 0

/-- Splits the leading decimal digits off. -/
def spanDigits (cs : List Char) : List Char × List Char :=
  cs.span Char.isDigit

/-- The exponent part after its letter. -/
def readExponent? (cs : List Char) : Option (Int × List Char) :=
  let (negative, cs) := match cs with
    | '-' :: rest => (true, rest)
    | '+' :: rest => (false, rest)
    | _ => (false, cs)
  match spanDigits cs with
  | ([], _) => none
  | (digits, rest) =>
      some (if negative then -(digitsValue digits : Int) else digitsValue digits, rest)

/-- A number without its sign. -/
def readMagnitude? (negative : Bool) (cs : List Char) : Option (Number × List Char) :=
  match spanDigits cs with
  | ([], _) => none
  | (whole, rest) =>
      if whole.length ≠ 1 ∧ whole.head? = some '0' then none
      else do
        let (fraction, rest) ← match rest with
          | '.' :: rest =>
              match spanDigits rest with
              | ([], _) => none
              | split => some split
          | _ => some ([], rest)
        let (exponent, rest) ← match rest with
          | 'e' :: rest => (readExponent? rest).map fun (e, r) => (some e, r)
          | 'E' :: rest => (readExponent? rest).map fun (e, r) => (some e, r)
          | _ => some (none, rest)
        let number ←
          if fraction.isEmpty ∧ exponent.isNone then wholeNumber? negative whole
          else realNumber? negative whole fraction (exponent.getD 0)
        return (number, rest)

/-- A number. -/
def readNumber? : List Char → Option (Number × List Char)
  | '-' :: rest => readMagnitude? true rest
  | cs => readMagnitude? false cs

mutual

/-- A value, of at most the given nesting. -/
def readValue? : Nat → List Char → Option (Json × List Char)
  | 0, _ => none
  | depth + 1, cs =>
      match skipBlanks cs with
      | 'n' :: 'u' :: 'l' :: 'l' :: rest => some (.null, rest)
      | 't' :: 'r' :: 'u' :: 'e' :: rest => some (.bool true, rest)
      | 'f' :: 'a' :: 'l' :: 's' :: 'e' :: rest => some (.bool false, rest)
      | '"' :: rest => (readString? rest).map fun (s, after) => (.str s, after)
      | '[' :: rest =>
          match skipBlanks rest with
          | ']' :: after => some (.arr [], after)
          | _ => (readItems? depth rest).map fun (items, after) => (.arr items, after)
      | '\x7b' :: rest =>
          match skipBlanks rest with
          | '\x7d' :: after => some (.obj [], after)
          | _ => (readFields? depth rest).map fun (fields, after) =>
              (.obj (Table.ofList fields).entries, after)
      | rest => (readNumber? rest).map fun (n, after) => (.num n, after)

/-- The elements of an array up to its closing bracket. -/
def readItems? : Nat → List Char → Option (List Json × List Char)
  | 0, _ => none
  | depth + 1, cs => do
      let (item, rest) ← readValue? depth cs
      match skipBlanks rest with
      | ']' :: after => return ([item], after)
      | ',' :: after =>
          let (items, after) ← readItems? depth after
          return (item :: items, after)
      | _ => none

/-- The fields of an object up to its closing brace. -/
def readFields? : Nat → List Char → Option (List (String × Json) × List Char)
  | 0, _ => none
  | depth + 1, cs => do
      match skipBlanks cs with
      | '"' :: rest =>
          let (key, rest) ← readString? rest
          match skipBlanks rest with
          | ':' :: rest =>
              let (value, rest) ← readValue? depth rest
              match skipBlanks rest with
              | '\x7d' :: after => return ([(key, value)], after)
              | ',' :: after =>
                  let (fields, after) ← readFields? depth after
                  return ((key, value) :: fields, after)
              | _ => none
          | _ => none
      | _ => none

end

/-- The value that a whole text writes. -/
def parse? (text : String) : Option Json :=
  let cs := text.toList
  match readValue? (cs.length + 1) cs with
  | some (value, rest) => if (skipBlanks rest).isEmpty then some value else none
  | none => none

end NodeFleet.Json
