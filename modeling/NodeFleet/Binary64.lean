/-!
# Finite binary64 numbers

A number is a sign and a magnitude. The magnitude is the lower sixty-three bits of the usual
encoding read as a natural number, which orders magnitudes as it orders values. Every value is a
whole number of steps of `2 ^ -1074`, so rounding a ratio is exact arithmetic on naturals. Powers
are those of the naturals by name, so that no other meaning of a power can be in scope.
-/

namespace NodeFleet

/-- A finite double: a sign and the encoding of its magnitude, below that of infinity. -/
structure Binary64 where
  negative : Bool
  magnitude : Nat
  finite : magnitude < 2047 * Nat.pow 2 52 := by decide
deriving DecidableEq

/-- The quotient of `num` by `den` rounded to a whole number, a tie going to the even neighbour. -/
def roundHalfEven (num den : Nat) : Nat :=
  let low := num / den
  let rest := num % den
  if 2 * rest < den then low
  else if den < 2 * rest then low + 1
  else low + low % 2

namespace Binary64

instance : Inhabited Binary64 := ⟨⟨false, 0, by decide⟩⟩

/-- The sixty-four bits of the number. -/
def bits (x : Binary64) : UInt64 :=
  UInt64.ofNat ((if x.negative then Nat.pow 2 63 else 0) + x.magnitude)

/-- The magnitude counted in steps of `2 ^ -1074`. -/
def steps (magnitude : Nat) : Nat :=
  if magnitude < Nat.pow 2 52 then magnitude
  else (magnitude % Nat.pow 2 52 + Nat.pow 2 52) * Nat.pow 2 (magnitude / Nat.pow 2 52 - 1)

/-- The encoding of the magnitude nearest to `num / den`; it may be that of infinity or above. -/
def nearest (num den : Nat) : Nat :=
  let scaled := num * Nat.pow 2 1074
  let scale := (scaled / den).log2 - 52
  scale * Nat.pow 2 52 + roundHalfEven scaled (den * Nat.pow 2 scale)

/-- The number of the given sign nearest to `num / den`, unless that is beyond every finite one. -/
def ofRatio? (negative : Bool) (num den : Nat) : Option Binary64 :=
  if h : nearest num den < 2047 * Nat.pow 2 52 then some ⟨negative, nearest num den, h⟩ else none

/-- Whether the number is zero, of either sign. -/
def isZero (x : Binary64) : Bool :=
  x.magnitude == 0

/-- The product of two numbers of one sign, rounded once. -/
def mulScale? (x : Binary64) (factor : Nat) : Option Binary64 :=
  ofRatio? x.negative (steps x.magnitude * steps factor) (Nat.pow 2 1074 * Nat.pow 2 1074)

/-- The quotient by a positive magnitude, rounded once. -/
def divScale? (x : Binary64) (divisor : Nat) : Option Binary64 :=
  ofRatio? x.negative (steps x.magnitude) (steps divisor)

/-- The magnitude nearest to `10 ^ k`. -/
def powerOfTen (k : Nat) : Nat :=
  nearest (Nat.pow 10 k) 1

/-- Moves the decimal point by at most 308 places a time, rounding after each move; `moves` bounds
the number of moves. A zero stays a zero, and a value out of range is none. -/
def movePoint? (x : Binary64) (exponent : Int) : Nat → Option Binary64
  | 0 => none
  | moves + 1 =>
      if exponent.natAbs ≤ 308 then
        if 0 ≤ exponent then x.mulScale? (powerOfTen exponent.natAbs)
        else x.divScale? (powerOfTen exponent.natAbs)
      else if x.isZero then some x
      else if 0 ≤ exponent then none
      else (x.divScale? (powerOfTen 308)).bind fun y => movePoint? y (exponent + 308) moves

/-- The number written as `digits * 10 ^ exponent`: the digits and the power of ten are each
rounded to a number before they are multiplied or divided. -/
def ofDecimal? (negative : Bool) (digits : Nat) (exponent : Int) : Option Binary64 :=
  (ofRatio? negative digits 1).bind fun x => x.movePoint? exponent (exponent.natAbs / 308 + 1)

/-- The number nearest to an integer below `2 ^ 1024`. -/
def ofInt? (n : Int) : Option Binary64 :=
  ofRatio? (decide (n < 0)) n.natAbs 1

end Binary64

/-- The value `digits * 10 ^ exponent`. -/
structure Decimal where
  digits : Nat
  exponent : Int
deriving DecidableEq, Repr

namespace Decimal

/-- Numerator and denominator of the value. -/
def toRatio (d : Decimal) : Nat × Nat :=
  if 0 ≤ d.exponent then (d.digits * Nat.pow 10 d.exponent.toNat, 1)
  else (d.digits, Nat.pow 10 (-d.exponent).toNat)

end Decimal

namespace Binary64

/-- Whether `d` is a decimal that rounds to this magnitude. -/
def IsNearest (magnitude : Nat) (d : Decimal) : Prop :=
  nearest d.toRatio.1 d.toRatio.2 = magnitude

instance (magnitude : Nat) (d : Decimal) : Decidable (IsNearest magnitude d) :=
  inferInstanceAs (Decidable (_ = _))

/-- The multiple of `10 ^ exponent` nearest to the magnitude, or else its neighbour on the other
side, if one of them rounds to it. -/
def onGrid? (magnitude : Nat) (exponent : Int) : Option Decimal :=
  let num := steps magnitude * Nat.pow 10 (-exponent).toNat
  let den := Nat.pow 2 1074 * Nat.pow 10 exponent.toNat
  let near := roundHalfEven num den
  let other := num / den + (num / den + 1) - near
  if IsNearest magnitude ⟨near, exponent⟩ then some ⟨near, exponent⟩
  else if IsNearest magnitude ⟨other, exponent⟩ then some ⟨other, exponent⟩
  else none

/-- How many digits a natural number has. -/
def digitCount (n : Nat) : Nat :=
  (Nat.toDigits 10 n).length

/-- The exponent of the leading decimal digit of a positive magnitude. -/
def leadingExponent (magnitude : Nat) : Int :=
  let num := steps magnitude
  let guess : Int := digitCount num - digitCount (Nat.pow 2 1074)
  if num * Nat.pow 10 (-guess).toNat < Nat.pow 2 1074 * Nat.pow 10 guess.toNat then guess - 1
  else guess

/-- A decimal with the fewest digits, at most seventeen, that rounds to the magnitude; were there
none, its full expansion. -/
def shortest (magnitude : Nat) : Decimal :=
  ((List.range 17).findSome? fun (n : Nat) =>
    onGrid? magnitude (leadingExponent magnitude - n)).getD
    ⟨steps magnitude * Nat.pow 5 1074, -1074⟩

end Binary64

end NodeFleet
