import NodeFleet.Time.Calendar

/-!
# Instants

An instant counts the seconds from the start of 1970 in UTC, without leap seconds. The second part
of a nanosecond count from one billion on is the leap second that follows second 59 of its minute.
The text of an instant is its UTC date and time with the fewest of no, three, six or nine fraction
digits.
-/

namespace NodeFleet

/-- An instant; leap seconds share the number of the second before them. -/
structure Instant where
  seconds : Int
  nanos : Nat
  nanos_lt : nanos < 2000000000
  leap : 1000000000 ≤ nanos → seconds % 60 = 59
deriving DecidableEq

namespace Instant

/-- The start of a second. -/
def ofSeconds (seconds : Int) : Instant :=
  ⟨seconds, 0, by decide, by intro h; omega⟩

instance : Inhabited Instant := ⟨ofSeconds 0⟩

/-- Decimal digits with leading zeros up to a width. -/
def padded (width n : Nat) : List Char :=
  let digits := Nat.toDigits 10 n
  List.replicate (width - digits.length) '0' ++ digits

/-- Four digits for a year up to 9999, and a sign in front of any other. -/
def yearText (year : Int) : List Char :=
  if 0 ≤ year ∧ year ≤ 9999 then padded 4 year.toNat
  else (if year < 0 then '-' else '+') :: padded 4 year.natAbs

/-- Year, month and day. -/
def dateText (d : Date) : List Char :=
  yearText d.year ++ '-' :: padded 2 d.month ++ '-' :: padded 2 d.day

/-- Hour, minute and second of a second of the day; a leap second is second 60. -/
def clockText (second : Nat) (isLeap : Bool) : List Char :=
  padded 2 (second / 3600) ++ ':' :: padded 2 (second / 60 % 60)
    ++ ':' :: padded 2 (second % 60 + if isLeap then 1 else 0)

/-- The fraction of a second, with as many groups of three digits as it needs. -/
def fractionText (nanos : Nat) : List Char :=
  if nanos = 0 then []
  else if nanos % 1000000 = 0 then '.' :: padded 3 (nanos / 1000000)
  else if nanos % 1000 = 0 then '.' :: padded 6 (nanos / 1000)
  else '.' :: padded 9 nanos

/-- Date and time at an offset of so many seconds east of Greenwich, without fraction and zone. -/
def localText (t : Instant) (offset : Int) : List Char :=
  let here := t.seconds + offset
  dateText (Calendar.dateOf (here / 86400)) ++ 'T' ::
    clockText (here % 86400).toNat (decide (1000000000 ≤ t.nanos))

/-- The text in UTC. -/
def text (t : Instant) : String :=
  String.ofList (t.localText 0 ++ fractionText (t.nanos % 1000000000) ++ ['Z'])

/-- An offset of whole minutes as a sign, two digits for the hours and two for the minutes. -/
def offsetText (offset : Int) : List Char :=
  (if offset < 0 then '-' else '+') :: padded 2 (offset.natAbs / 3600)
    ++ padded 2 (offset.natAbs / 60 % 60)

/-- Date, time and offset of the creation time of a machine, in UTC and without fraction. -/
def creationText (t : Instant) : String :=
  String.ofList (t.localText 0 ++ offsetText 0)

end Instant

end NodeFleet
