/-!
# Binary floating point of 64 bits

A finite double as sign, mantissa and power of two, and the ways to one from exact numbers: a
quotient rounded to nearest (`ofRatio?`), a decimal rounded once (`ofDecimal?`), and a decimal
whose significand is rounded before it is scaled (`ofScaled?`). Each answers `none` beyond the
largest finite double.
-/

namespace EntityCatalog

/-- The number `(-1)^negative · mantissa · 2^exponent`. The exponent is at least `-1074`, the
mantissa below `2^53`, and at least `2^52` unless the exponent is `-1074`. -/
structure Binary64 where
  negative : Bool
  mantissa : Nat
  exponent : Int
  deriving DecidableEq, Repr

namespace Binary64

/-- The least exponent, that of the subnormal numbers. -/
def minExponent : Int := -1074

/-- The exponent of the largest finite numbers. -/
def maxExponent : Int := 971

def zero (negative : Bool) : Binary64 := ⟨negative, 0, minExponent⟩

def isZero (x : Binary64) : Bool := x.mantissa == 0

/-- `num / den` rounded to an integer, a half to the even neighbour. -/
def roundDiv (num den : Nat) : Nat :=
  let q := num / den
  let r := num % den
  if 2 * r < den then q else if den < 2 * r then q + 1 else q + q % 2

/-- The quotient `num / den` times `2^k`, as a pair of numerator and denominator. -/
def scale (num den : Nat) (k : Int) : Nat × Nat :=
  if 0 ≤ k then (num * Nat.pow 2 k.toNat, den) else (num, den * Nat.pow 2 (-k).toNat)

/-- The exponent that gives `num / den` a mantissa of 53 bits, or the least one. -/
def exponentFor (num den : Nat) : Int :=
  let k : Int := (num.log2 : Int) - den.log2
  let (n, d) := scale num den (-k)
  max (if d ≤ n then k - 52 else k - 53) minExponent

/-- `num / den` rounded to nearest, a tie to the even mantissa. -/
def ofRatio? (negative : Bool) (num den : Nat) : Option Binary64 :=
  if num = 0 then some (zero negative)
  else
    let e := exponentFor num den
    let (n, d) := scale num den (-e)
    let m := roundDiv n d
    let (m, e) := if m = Nat.pow 2 53 then (Nat.pow 2 52, e + 1) else (m, e)
    if e ≤ maxExponent then some ⟨negative, m, e⟩ else none

/-- The magnitude as a quotient. -/
def ratio (x : Binary64) : Nat × Nat := scale x.mantissa 1 x.exponent

/-- The magnitude of `x` times `n / d`, rounded. -/
def scaleBy? (x : Binary64) (n d : Nat) : Option Binary64 :=
  let (p, q) := x.ratio
  ofRatio? x.negative (p * n) (q * d)

/-- Number of decimal digits; that of `0` is one. -/
def digitCount (n : Nat) : Nat := (Nat.toDigits 10 n).length

/-- The decimal `digits · 10^power`, rounded once. -/
def ofDecimal? (negative : Bool) (digits : Nat) (power : Int) : Option Binary64 :=
  let magnitude := (digitCount digits : Int) + power
  if digits = 0 ∨ magnitude < -400 then some (zero negative)
  else if 400 < magnitude then none
  else if 0 ≤ power then ofRatio? negative (digits * Nat.pow 10 power.toNat) 1
  else ofRatio? negative digits (Nat.pow 10 (-power).toNat)

/-- The largest power of ten that is a finite double. -/
def maxPowerOfTen : Nat := 308

/-- A power of ten as a double. -/
def powerOfTen (k : Nat) : Binary64 := (ofRatio? false (Nat.pow 10 k) 1).getD (zero false)

/-- `x` divided by the largest power of ten again and again, rounded each time, until nothing is
left of it. -/
def sink (x : Binary64) : Nat → Option Binary64
  | 0 => some x
  | n + 1 =>
    if x.isZero then some x
    else
      let (p, q) := (powerOfTen maxPowerOfTen).ratio
      (x.scaleBy? q p).bind fun y => y.sink n

/-- `x` times `10^power`, rounded after every step: a power of ten within range is one factor or
divisor, a smaller one is reached by divisions by the largest. -/
def scaleTen? (x : Binary64) (power : Int) : Option Binary64 :=
  if x.isZero then some x
  else if 0 ≤ power then
    if maxPowerOfTen < power.toNat then none
    else
      let (n, d) := (powerOfTen power.toNat).ratio
      x.scaleBy? n d
  else
    let steps := ((-power).toNat - 1) / maxPowerOfTen
    let (n, d) := (powerOfTen ((-power).toNat - maxPowerOfTen * steps)).ratio
    (x.sink steps).bind fun y => y.scaleBy? d n

/-- The decimal `significand · 10^power`, the significand rounded first and then scaled. -/
def ofScaled? (negative : Bool) (significand : Nat) (power : Int) : Option Binary64 :=
  (ofRatio? negative significand 1).bind fun x => x.scaleTen? power

end Binary64

end EntityCatalog
