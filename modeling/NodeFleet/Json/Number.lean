import NodeFleet.Binary64

/-!
# Numbers of a JSON document

A number is a whole number of the signed or unsigned 64-bit range, or a finite double. Written
`1` and `1.0` they are different numbers, and their texts differ in form as well: only a double
has a point or an exponent.
-/

namespace NodeFleet.Json

/-- A whole number or a double. -/
inductive Number where
  | whole (value : Int)
  | real (value : Binary64)
deriving DecidableEq

/-- Where the positional form of a number ends. -/
structure PositionalRange where
  least : Int
  greatest : Int

/-- A leading digit between the fifth decimal place and the sixteenth digit before the point is
written in place; any other has an exponent part. -/
def positional : PositionalRange :=
  ⟨-5, 15⟩

/-- Digits without their trailing zeros; at least one digit stays. -/
def trimZeros (digits : List Char) : List Char :=
  match (digits.reverse.dropWhile (· == '0')).reverse with
  | [] => ['0']
  | kept => kept

/-- Digits in place, with a point and at least one digit after it. The first digit stands at the
power of ten `leading`. -/
def placeDigits (digits : List Char) (leading : Int) : List Char :=
  if leading < 0 then
    ['0', '.'] ++ List.replicate (leading.natAbs - 1) '0' ++ digits
  else
    let before := leading.natAbs + 1
    let whole := digits.take before ++ List.replicate (before - digits.length) '0'
    match digits.drop before with
    | [] => whole ++ ['.', '0']
    | fraction => whole ++ '.' :: fraction

/-- Digits with a point after the first one, if more follow, and a signed exponent. -/
def exponentDigits (digits : List Char) (leading : Int) : List Char :=
  let mantissa := match digits with
    | [] => []
    | [d] => [d]
    | d :: rest => d :: '.' :: rest
  let sign := if leading < 0 then '-' else '+'
  mantissa ++ 'e' :: sign :: Nat.toDigits 10 leading.natAbs

/-- The text of a magnitude: its shortest digits, in place where `positional` admits them. -/
def magnitudeText (magnitude : Nat) : List Char :=
  if magnitude = 0 then ['0', '.', '0']
  else
    let d := Binary64.shortest magnitude
    let digits := Nat.toDigits 10 d.digits
    let leading := d.exponent + digits.length - 1
    if positional.least ≤ leading ∧ leading ≤ positional.greatest then
      placeDigits (trimZeros digits) leading
    else
      exponentDigits (trimZeros digits) leading

namespace Number

/-- The characters a number is written with. -/
def chars : Number → List Char
  | .whole (.ofNat n) => Nat.toDigits 10 n
  | .whole (.negSucc n) => '-' :: Nat.toDigits 10 (n + 1)
  | .real x => (if x.negative then ['-'] else []) ++ magnitudeText x.magnitude

/-- The text of a number. -/
def text (n : Number) : String :=
  String.ofList n.chars

/-- Whether the number equals zero. -/
def isZero : Number → Bool
  | .whole n => n == 0
  | .real x => x.isZero

/-- The double nearest to the number. -/
def toBinary64? : Number → Option Binary64
  | .whole n => Binary64.ofInt? n
  | .real x => some x

end Number

end NodeFleet.Json
