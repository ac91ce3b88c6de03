import StyleAudit.Number.Binary64

/-!
The shortest decimal that reads back as a given number.

Of the decimals that round to the number, one with the fewest digits is taken, and of those the
nearest. `Binary64.digits` gives its digits and its power of ten; `Binary64.text` lays them out.
-/

namespace StyleAudit.Binary64

/-- The lower end of the decimals that round to a number, in quarters of its last place. -/
def lowerEnd (x : Binary64) : Nat :=
  -- Below the least mantissa the numbers lie twice as close.
  if x.mantissa = leastMantissa ∧ minExponent < x.exponent then 4 * x.mantissa - 1
  else 4 * x.mantissa - 2

/-- The upper end of the decimals that round to a number, in quarters of its last place. -/
def upperEnd (x : Binary64) : Nat := 4 * x.mantissa + 2

/-- The decimal `d * 10 ^ power` in quarters of the last place of a number, as a quotient. -/
def quarters (x : Binary64) (d : Nat) (power : Int) : Nat × Nat :=
  let e := x.exponent - 2
  (d * wholePart 10 power * wholePart 2 (-e), wholePart 2 e * wholePart 10 (-power))

/-- Whether the decimal `d * 10 ^ power` rounds to the number; on a tie the even mantissa wins. -/
def roundsTo (x : Binary64) (d : Nat) (power : Int) : Bool :=
  let (num, den) := x.quarters d power
  if x.mantissa % 2 = 0 then x.lowerEnd * den ≤ num && num ≤ x.upperEnd * den
  else x.lowerEnd * den < num && num < x.upperEnd * den

/-- The least `j` below a bound with `den ≤ num * 10 ^ j`. -/
def leadingZeros (num den : Nat) : Nat → Nat → Nat
  | 0, j => j
  | fuel + 1, j => if den ≤ num * Nat.pow 10 j then j else leadingZeros num den fuel (j + 1)

/-- The power of ten of the first digit of a positive number. -/
def decimalExponent (x : Binary64) : Int :=
  let (num, den) := x.quotient
  if den ≤ num then ((Nat.toDigits 10 (num / den)).length : Int) - 1
  else -(leadingZeros num den 330 1 : Nat)

/-- The magnitude in units of a power of ten, as a quotient. -/
def inUnits (x : Binary64) (power : Int) : Nat × Nat :=
  let (num, den) := x.quotient
  (num * wholePart 10 (-power), den * wholePart 10 power)

/--
The nearest of the decimals with `n` digits that round to the number, if there is one. Of two that
are equally near, the even one is taken.
-/
def digitsOfLength? (x : Binary64) (n : Nat) : Option (Nat × Int) :=
  let power := x.decimalExponent + 1 - (n : Int)
  let (num, den) := x.inUnits power
  let low := num / den
  match x.roundsTo low power, x.roundsTo (low + 1) power with
  | true, true =>
    let rest := 2 * (num % den)
    if rest < den ∨ (rest = den ∧ low % 2 = 0) then some (low, power) else some (low + 1, power)
  | true, false => some (low, power)
  | false, true => some (low + 1, power)
  | false, false => none

/-- Drops the zeros at the end of a digit string; the count bounds how many. -/
def dropZeros : Nat → Nat → Int → Nat × Int
  | 0, d, power => (d, power)
  | fuel + 1, d, power =>
    if d ≠ 0 ∧ d % 10 = 0 then dropZeros fuel (d / 10) (power + 1) else (d, power)

/-- The shortest digits of a number that is not zero, and their power of ten. -/
def digits (x : Binary64) : Nat × Int :=
  let found := (List.range 17).findSome? fun n => x.digitsOfLength? (n + 1)
  let (d, power) := found.getD (0, 0)
  dropZeros 20 d power

/-- Exponents up to this one are written out in positional notation. -/
def positionalLimit : Int := 16

/-- The point and the exponent of a number in scientific notation. -/
def scientific (ds : List Char) (point : Int) : List Char :=
  let mantissa := match ds with
    | [c] => [c]
    | c :: cs => c :: '.' :: cs
    | [] => []
  let sign := if 0 < point then ['+'] else []
  mantissa ++ 'e' :: sign ++ (toString (point - 1)).toList

/-- Lays digits out: positional from `1e-5` up to sixteen places, with an exponent beyond. -/
def layout (ds : List Char) (power : Int) : List Char :=
  let point : Int := ds.length + power
  let zeros (n : Int) : List Char := List.replicate n.toNat '0'
  if 0 ≤ power ∧ point ≤ positionalLimit then ds ++ zeros power ++ ['.', '0']
  else if 0 < point ∧ point ≤ positionalLimit then
    ds.take point.toNat ++ '.' :: ds.drop point.toNat
  else if -5 < point ∧ point ≤ 0 then '0' :: '.' :: zeros (-point) ++ ds
  else scientific ds point

/-- The text of a number without its sign. -/
def body (x : Binary64) : List Char :=
  if x.isZero then ['0', '.', '0']
  else layout (Nat.toDigits 10 x.digits.1) x.digits.2

/-- The text of a number. -/
def text (x : Binary64) : String :=
  String.ofList (if x.negative then '-' :: x.body else x.body)

end StyleAudit.Binary64
