import StyleAudit.Json.Value

/-!
The value of a written number.

Whole numbers that fit 64 bits stay whole. All others become floating point numbers from at most
as many leading digits as fit 64 bits, and minus zero is one of them.
-/

namespace StyleAudit.Json.Numeral

/-- The largest significand. -/
def maxSignificand : Nat := 0xFFFFFFFFFFFFFFFF

/-- The number of values of a word of 64 bits without its sign. -/
def signedLimit : Nat := 0x8000000000000000

def digitValue (c : Char) : Nat := c.toNat - '0'.toNat

/-- The value of a hexadecimal digit. -/
def hexValue? (c : Char) : Option Nat :=
  if c.isDigit then some (digitValue c)
  else if 'a' ≤ c ∧ c ≤ 'f' then some (c.toNat - 'a'.toNat + 10)
  else if 'A' ≤ c ∧ c ≤ 'F' then some (c.toNat - 'A'.toNat + 10)
  else none

/-- The digits that fit a significand, and the digits left over. -/
def significand : Nat → List Char → Nat × List Char
  | acc, [] => (acc, [])
  | acc, c :: cs =>
    if maxSignificand < acc * 10 + digitValue c then (acc, c :: cs)
    else significand (acc * 10 + digitValue c) cs

/-- The parts of a decimal numeral. -/
structure Decimal where
  negative : Bool
  whole : List Char
  fraction : Option (List Char)
  /-- Whether the exponent is negative, and its digits. -/
  exponent : Option (Bool × List Char)

/-- The value of a numeral; `none` when it is beyond the largest number. -/
def Decimal.value? (d : Decimal) : Option Number :=
  let (s, spare) := significand 0 d.whole
  match d.fraction, d.exponent, spare with
  | none, none, [] =>
    if !d.negative then some (.whole s)
    else if s = 0 ∨ signedLimit < s then (Binary64.ofNat true s).map .float
    else some (.whole (-(s : Int)))
  | _, _, _ =>
    let digits := d.fraction.getD []
    let (s, ignored) := significand s digits
    let power : Int := (spare.length : Int) - ((digits.length : Int) - ignored.length)
    let shift : Int := match d.exponent with
      | none => 0
      | some (negative, digits) =>
        let n : Nat := digits.foldl (fun n c => n * 10 + digitValue c) 0
        if negative then -(n : Int) else n
    (Binary64.ofDecimal d.negative s (power + shift)).map .float

/-- The digits at the head of a text. -/
def takeDigits (cs : List Char) : List Char × List Char :=
  (cs.takeWhile Char.isDigit, cs.dropWhile Char.isDigit)

/-- A number as read: its value, or its own text when it has none. -/
def valueOrText (value : Option Number) (written : List Char) : Json :=
  match value with
  | some n => .number n
  | none => .string (String.ofList written)

/-- Reads the exponent at the head of a text, if one begins there. -/
def readExponent : List Char → Option (Option (Bool × List Char) × List Char)
  | [] => some (none, [])
  | c :: cs =>
    if c = 'e' ∨ c = 'E' then
      let (negative, cs) := match cs with
        | '-' :: ds => (true, ds)
        | '+' :: ds => (false, ds)
        | ds => (false, ds)
      match takeDigits cs with
      | ([], _) => none
      | (digits, rest) => some (some (negative, digits), rest)
    else some (none, c :: cs)

/-- Reads the fraction at the head of a text, if one begins there. -/
def readFraction : List Char → Option (Option (List Char) × List Char)
  | '.' :: cs =>
    match takeDigits cs with
    | ([], _) => none
    | (digits, rest) => some (some digits, rest)
  | cs => some (none, cs)

/-- The part of `whole` that comes before `rest`. -/
def written (whole rest : List Char) : List Char :=
  whole.take (whole.length - rest.length)

/-- Reads hexadecimal digits after their mark. -/
def readHex (negative : Bool) (source cs : List Char) : Option (Json × List Char × List Char) :=
  let digits := cs.takeWhile fun c => (hexValue? c).isSome
  let rest := cs.dropWhile fun c => (hexValue? c).isSome
  if digits.isEmpty then none
  else
    let n : Nat := digits.foldl (fun n c => n * 16 + (hexValue? c).getD 0) 0
    let text := written source rest
    let value : Option Number :=
      if n < signedLimit then some (.whole (if negative then -(n : Int) else n)) else none
    some (valueOrText value text, text, rest)

/-- Reads what follows the whole part of a decimal numeral. -/
def readTail (negative : Bool) (source whole cs : List Char) :
    Option (Json × List Char × List Char) := do
  let (fraction, cs) ← readFraction cs
  let (exponent, rest) ← readExponent cs
  let text := written source rest
  return (valueOrText (Decimal.value? ⟨negative, whole, fraction, exponent⟩) text, text, rest)

/--
Reads the numeral at the head of a text: its value, its text, and what follows. A sign may stand
before it, and a leading zero ends the whole part unless it opens a hexadecimal numeral.
-/
def read (source : List Char) : Option (Json × List Char × List Char) :=
  let (negative, cs) := match source with
    | '-' :: ds => (true, ds)
    | '+' :: ds => (false, ds)
    | ds => (false, ds)
  match cs with
  | [] => none
  | c :: ds =>
    if c = '0' then
      match ds with
      | 'x' :: es => readHex negative source es
      | 'X' :: es => readHex negative source es
      | es => readTail negative source ['0'] es
    else if c.isDigit then
      let (digits, rest) := takeDigits cs
      readTail negative source digits rest
    else none

end StyleAudit.Json.Numeral
