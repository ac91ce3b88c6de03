/-!
Finite binary floating point numbers with 53 bits, by exact arithmetic.

A number is a sign and `mantissa * 2 ^ exponent`. Every operation computes its exact quotient of
natural numbers and rounds it once, to the nearest number and on a tie to the even mantissa.
-/

namespace StyleAudit

namespace Binary64

/-- The least exponent; numbers below the normal range share it. -/
def minExponent : Int := -1074

def maxExponent : Int := 971

/-- The least mantissa of a number in the normal range. -/
def leastMantissa : Nat := 0x10000000000000

/-- Mantissas are below this number. -/
def mantissaLimit : Nat := 2 * leastMantissa

/-- The form in which each number has only one mantissa and exponent. -/
structure Canonical (mantissa : Nat) (exponent : Int) : Prop where
  below : mantissa < mantissaLimit
  least : minExponent ≤ exponent
  most : exponent ≤ maxExponent
  normal : leastMantissa ≤ mantissa ∨ exponent = minExponent

theorem canonical_iff {mantissa : Nat} {exponent : Int} :
    Canonical mantissa exponent ↔
      mantissa < mantissaLimit ∧ minExponent ≤ exponent ∧ exponent ≤ maxExponent ∧
        (leastMantissa ≤ mantissa ∨ exponent = minExponent) :=
  ⟨fun h => ⟨h.below, h.least, h.most, h.normal⟩, fun ⟨a, b, c, d⟩ => ⟨a, b, c, d⟩⟩

instance (mantissa : Nat) (exponent : Int) : Decidable (Canonical mantissa exponent) :=
  decidable_of_iff' _ canonical_iff

theorem canonical_zero : Canonical 0 minExponent := by decide

end Binary64

/-- A finite number of 53 bits. Zero keeps its sign. -/
structure Binary64 where
  negative : Bool
  mantissa : Nat
  exponent : Int
  canonical : Binary64.Canonical mantissa exponent
deriving DecidableEq, Repr

namespace Binary64

def zero (negative : Bool) : Binary64 := ⟨negative, 0, minExponent, canonical_zero⟩

instance : Inhabited Binary64 := ⟨zero false⟩

def isZero (x : Binary64) : Bool := x.mantissa == 0

/-- The factor of a power that is whole: the power itself, or one if the exponent is negative. -/
def wholePart (b : Nat) (e : Int) : Nat :=
  if 0 ≤ e then Nat.pow b e.toNat else 1

/-- The quotient `num / den / 2 ^ e` as a numerator and a denominator. -/
def scaled (num den : Nat) (e : Int) : Nat × Nat :=
  (num * wholePart 2 (-e), den * wholePart 2 e)

/-- The nearest whole number to a quotient, the even one on a tie. -/
def roundQuotient (num den : Nat) : Nat :=
  let q := num / den
  let r := num % den
  if den < 2 * r then q + 1
  else if 2 * r = den then q + q % 2
  else q

/-- The number nearest to `num / den`; `none` if that is beyond the largest one. -/
def ofQuotient (negative : Bool) (num den : Nat) : Option Binary64 :=
  if num = 0 then some (zero negative)
  else
    let low : Int := (num.log2 : Int) - den.log2 - 53
    let (n, d) := scaled num den low
    let e := max minExponent (if mantissaLimit ≤ n / d then low + 1 else low)
    let (n, d) := scaled num den e
    let q := roundQuotient n d
    let (q, e) := if q = mantissaLimit then (leastMantissa, e + 1) else (q, e)
    if h : Canonical q e then some ⟨negative, q, e, h⟩ else none

/-- The magnitude as a quotient. -/
def quotient (x : Binary64) : Nat × Nat :=
  (x.mantissa * wholePart 2 x.exponent, wholePart 2 (-x.exponent))

def ofNat (negative : Bool) (n : Nat) : Option Binary64 :=
  ofQuotient negative n 1

def mul (x y : Binary64) : Option Binary64 :=
  let (a, b) := x.quotient
  let (c, d) := y.quotient
  ofQuotient (x.negative != y.negative) (a * c) (b * d)

/-- The rounded quotient of two numbers; `none` when the divisor is zero. -/
def div (x y : Binary64) : Option Binary64 :=
  let (a, b) := x.quotient
  let (c, d) := y.quotient
  if c = 0 then none else ofQuotient (x.negative != y.negative) (a * d) (b * c)

/-- The largest power of ten that is a number. -/
def maxPower : Nat := 308

/--
The value of `significand * 10 ^ power`, reached by one multiplication or division by a rounded
power of ten, after divisions by the largest power while the exponent is below its range. `none`
when the value is too large.
-/
def ofDecimal (negative : Bool) (significand : Nat) (power : Int) : Option Binary64 := do
  let x ← ofNat negative significand
  if power < 0 then small (power.natAbs / maxPower + 1) x power.natAbs
  else if power.toNat ≤ maxPower then
    mul x (← ofNat false (Nat.pow 10 power.toNat))
  else if x.isZero then some x
  else none
where
  /-- Divides by `10 ^ power`; the first argument bounds the number of divisions. -/
  small : Nat → Binary64 → Nat → Option Binary64
    | 0, x, _ => some x
    | fuel + 1, x, power => do
      if power ≤ maxPower then div x (← ofNat false (Nat.pow 10 power))
      else if x.isZero then some x
      else small fuel (← div x (← ofNat false (Nat.pow 10 maxPower))) (power - maxPower)

end Binary64

end StyleAudit
