import NodeFleet.Text.Blank
import NodeFleet.Time.Instant

/-!
# Reading instants

Three grammars of a date, a time and an offset. The strict one fixes the width of every field and
admits no blanks. The loose one admits blanks before fields and separators, shorter fields and
longer signed years. The plain one has no fraction and demands a signed offset. All of them end in
the same check of ranges, by which second 60 is the leap second after second 59.
-/

namespace NodeFleet

/-- The fields of a local date and time with its offset from UTC in seconds. -/
structure LocalTime where
  year : Int
  month : Nat
  day : Nat
  hour : Nat
  minute : Nat
  second : Nat
  nanos : Nat
  offset : Int
deriving Repr

/-- The years that instants cover. -/
def Instant.inRange (year : Int) : Bool :=
  -262143 ≤ year && year ≤ 262142

namespace LocalTime

/-- The second number of the local time, before the offset is taken off. -/
def localSeconds (t : LocalTime) : Int :=
  (Date.mk t.year t.month t.day).dayNumber * 86400
    + (t.hour * 3600 + t.minute * 60 + min t.second 59 : Nat)

/-- The nanoseconds, with one second more for second 60. -/
def leapNanos (t : LocalTime) : Nat :=
  t.nanos + if t.second = 60 then 1000000000 else 0

/-- The instant of a local time whose fields are in range. -/
def toInstant? (t : LocalTime) : Option Instant :=
  let seconds := t.localSeconds - t.offset
  if (Date.mk t.year t.month t.day).isValid ∧ t.hour ≤ 23 ∧ t.minute ≤ 59 ∧ t.second ≤ 60
      ∧ t.offset.natAbs < 86400 ∧ Instant.inRange t.year
      ∧ Instant.inRange (Calendar.yearOf (seconds / 86400)) then
    if h : t.leapNanos < 2000000000 ∧ (1000000000 ≤ t.leapNanos → seconds % 60 = 59) then
      some ⟨seconds, t.leapNanos, h.1, h.2⟩
    else none
  else none

/-- A decimal number of at least one and at most `width` digits. -/
def readNumber? (width : Nat) (cs : List Char) : Option (Nat × List Char) :=
  let digits := (cs.take width).takeWhile Char.isDigit
  if digits.isEmpty then none
  else some (digits.foldl (fun n c => n * 10 + (c.toNat - 48)) 0, cs.drop digits.length)

/-- A decimal number of exactly `width` digits. -/
def readFixed? (width : Nat) (cs : List Char) : Option (Nat × List Char) :=
  if ((cs.take width).takeWhile Char.isDigit).length = width then readNumber? width cs else none

/-- A given character. -/
def readChar? (c : Char) : List Char → Option (List Char)
  | d :: rest => if d = c then some rest else none
  | [] => none

/-- The character between date and time: a letter T or a space. -/
def readBetween? : List Char → Option (List Char)
  | c :: rest => if c = 'T' ∨ c = 't' ∨ c = ' ' then some rest else none
  | [] => none

/-- A fraction of a second, if a point follows; digits after the ninth do not count. -/
def readFraction? : List Char → Option (Nat × List Char)
  | '.' :: rest =>
      let digits := rest.takeWhile Char.isDigit
      if digits.isEmpty then none
      else
        let kept := digits.take 9
        some (kept.foldl (fun n c => n * 10 + (c.toNat - 48)) 0
            * Nat.pow 10 (9 - kept.length),
          rest.drop digits.length)
  | cs => some (0, cs)

/-- A signed offset of two hour digits and two minute digits with `separator` skipped between
them; the result is in seconds. -/
def readOffset? (separator : List Char → Option (List Char)) (cs : List Char) :
    Option (Int × List Char) := do
  let (negative, cs) ← match cs with
    | '+' :: rest => some (false, rest)
    | '-' :: rest => some (true, rest)
    | '\u2212' :: rest => some (true, rest)
    | _ => none
  let (hours, cs) ← readFixed? 2 cs
  let cs ← separator cs
  let (minutes, cs) ← readFixed? 2 cs
  if 59 < minutes then none
  let seconds : Int := (hours * 3600 + minutes * 60 : Nat)
  return (if negative then -seconds else seconds, cs)

/-- Colons and blanks in any number. -/
def skipColons (cs : List Char) : Option (List Char) :=
  some (cs.dropWhile fun c => c == ':' || Text.isBlank c)

/-- The strict grammar, up to the end of the text. -/
def readStrict? (cs : List Char) : Option LocalTime := do
  let (year, cs) ← readFixed? 4 cs
  let (month, cs) ← readFixed? 2 (← readChar? '-' cs)
  let (day, cs) ← readFixed? 2 (← readChar? '-' cs)
  let (hour, cs) ← readFixed? 2 (← readBetween? cs)
  let (minute, cs) ← readFixed? 2 (← readChar? ':' cs)
  let (second, cs) ← readFixed? 2 (← readChar? ':' cs)
  let (nanos, cs) ← readFraction? cs
  let (offset, cs) ← match cs with
    | 'Z' :: rest => some (0, rest)
    | 'z' :: rest => some (0, rest)
    | _ => readOffset? (readChar? ':') cs
  if cs.isEmpty then some ⟨year, month, day, hour, minute, second, nanos, offset⟩ else none

/-- A year after blanks: up to four digits, or a sign and any number of digits. -/
def readYear? (cs : List Char) : Option (Int × List Char) :=
  match Text.trimStart cs with
  | '-' :: rest => (readNumber? rest.length rest).map fun (n, after) => (-(n : Int), after)
  | '+' :: rest => (readNumber? rest.length rest).map fun (n, after) => ((n : Int), after)
  | rest => (readNumber? 4 rest).map fun (n, after) => ((n : Int), after)

/-- A number of up to two digits after blanks. -/
def readShort? (cs : List Char) : Option (Nat × List Char) :=
  readNumber? 2 (Text.trimStart cs)

/-- Whether three characters spell UTC in any case. -/
def isUtc (cs : List Char) : Bool :=
  cs.map Char.toUpper == ['U', 'T', 'C']

/-- The loose grammar, up to the end of the text or blanks before it. -/
def readLoose? (cs : List Char) : Option LocalTime := do
  let (year, cs) ← readYear? cs
  let (month, cs) ← readShort? (← readChar? '-' (Text.trimStart cs))
  let (day, cs) ← readShort? (← readChar? '-' (Text.trimStart cs))
  let (hour, cs) ← readShort? (← readBetween? cs)
  let (minute, cs) ← readShort? (← readChar? ':' (Text.trimStart cs))
  let (second, cs) ← readShort? (← readChar? ':' (Text.trimStart cs))
  let (nanos, cs) ← readFraction? cs
  let cs := Text.trimStart cs
  let (offset, cs) ←
    if isUtc (cs.take 3) then some (0, cs.drop 3)
    else match cs with
      | 'Z' :: rest => some (0, rest)
      | 'z' :: rest => some (0, rest)
      | _ => readOffset? skipColons cs
  if (Text.trimStart cs).isEmpty then
    some ⟨year, month, day, hour, minute, second, nanos, offset⟩
  else none

/-- The plain grammar, up to the end of the text. -/
def readPlain? (cs : List Char) : Option LocalTime := do
  let (year, cs) ← readYear? cs
  let (month, cs) ← readShort? (← readChar? '-' cs)
  let (day, cs) ← readShort? (← readChar? '-' cs)
  let (hour, cs) ← readShort? (← readChar? 'T' cs)
  let (minute, cs) ← readShort? (← readChar? ':' cs)
  let (second, cs) ← readShort? (← readChar? ':' cs)
  let (offset, cs) ← readOffset? skipColons (Text.trimStart cs)
  if cs.isEmpty then some ⟨year, month, day, hour, minute, second, 0, offset⟩ else none

end LocalTime

namespace Instant

/-- The instant of a text in the loose grammar. -/
def ofText? (text : String) : Option Instant :=
  (LocalTime.readLoose? text.toList).bind LocalTime.toInstant?

/-- The instant of a creation time: strict first, then plain. -/
def ofCreationText? (text : String) : Option Instant :=
  match (LocalTime.readStrict? text.toList).bind LocalTime.toInstant? with
  | some t => some t
  | none => (LocalTime.readPlain? text.toList).bind LocalTime.toInstant?

end Instant

end NodeFleet
