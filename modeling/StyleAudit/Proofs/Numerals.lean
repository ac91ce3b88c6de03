import Mathlib.Algebra.Order.Field.Power
import Mathlib.Algebra.Order.Field.Rat
import Mathlib.Data.List.TakeWhile
import Mathlib.Data.Nat.Log
import Mathlib.Tactic.FieldSimp
import Mathlib.Tactic.Linarith
import Mathlib.Tactic.NormNum
import Mathlib.Tactic.Positivity
import Mathlib.Tactic.Ring
import StyleAudit.Number.Shortest

/-!
The text of a number tells which number it is.

The decimals that round to a number lie in an interval around it, and the intervals of two numbers
have no decimal in common. Seventeen digits are always enough to hit the interval. So the digits
that are found belong to one number only, and they can be read off the text.
-/

namespace StyleAudit.Binary64

/-! ### Magnitudes -/

def magnitude (x : Binary64) : ℚ := x.mantissa * 2 ^ x.exponent

/-- A decimal in quarters of the last place of a number. -/
def position (x : Binary64) (d : Nat) (power : Int) : ℚ :=
  d * 10 ^ power / 2 ^ (x.exponent - 2)

theorem wholePart_pos {b : Nat} (hb : 0 < b) (e : Int) : 0 < wholePart b e := by
  rw [wholePart]
  split
  · exact Nat.pow_pos hb
  · exact Nat.one_pos

/-- A power is the quotient of its whole part and that of its inverse. -/
theorem wholePart_eq {b : Nat} (hb : 0 < b) (e : Int) :
    (wholePart b e : ℚ) = (b : ℚ) ^ e * wholePart b (-e) := by
  have hb' : (b : ℚ) ≠ 0 := Nat.cast_ne_zero.2 hb.ne'
  rw [wholePart, wholePart]
  rcases lt_trichotomy e 0 with he | rfl | he
  · rw [if_neg (by omega), if_pos (by omega)]
    obtain ⟨n, hn⟩ := Int.eq_ofNat_of_zero_le (show 0 ≤ -e by omega)
    obtain rfl : e = -(n : Int) := by omega
    simp [hb']
  · simp
  · rw [if_pos (by omega), if_neg (by omega)]
    obtain ⟨n, rfl⟩ := Int.eq_ofNat_of_zero_le he.le
    simp

/-- Comparing a quotient of natural numbers with a whole number. -/
theorem mul_le_iff_of_eq {num den : Nat} {v : ℚ} (hden : 0 < den) (hv : (num : ℚ) = v * den)
    (n : Nat) : n * den ≤ num ↔ (n : ℚ) ≤ v := by
  rw [← Nat.cast_le (α := ℚ), hv, Nat.cast_mul]
  exact mul_le_mul_iff_left₀ (by exact_mod_cast hden)

theorem le_mul_iff_of_eq {num den : Nat} {v : ℚ} (hden : 0 < den) (hv : (num : ℚ) = v * den)
    (n : Nat) : num ≤ n * den ↔ v ≤ (n : ℚ) := by
  rw [← Nat.cast_le (α := ℚ), hv, Nat.cast_mul]
  exact mul_le_mul_iff_left₀ (by exact_mod_cast hden)

theorem quarters_pos (x : Binary64) (d : Nat) (power : Int) : 0 < (x.quarters d power).2 :=
  Nat.mul_pos (wholePart_pos (by decide) _) (wholePart_pos (by decide) _)

theorem quarters_eq (x : Binary64) (d : Nat) (power : Int) :
    ((x.quarters d power).1 : ℚ) = x.position d power * (x.quarters d power).2 := by
  have htwo := wholePart_eq (b := 2) (by decide) (x.exponent - 2)
  have hten := wholePart_eq (b := 10) (by decide) power
  have hpow : (2 : ℚ) ^ (x.exponent - 2) ≠ 0 := zpow_ne_zero _ (by norm_num)
  rw [quarters, position]
  push_cast at htwo hten ⊢
  rw [hten, htwo]
  field_simp

/-- Rounding to a number is lying between the ends, which belong to numbers with even mantissa. -/
theorem roundsTo_iff (x : Binary64) (d : Nat) (power : Int) :
    x.roundsTo d power = true ↔
      if x.mantissa % 2 = 0 then
        (x.lowerEnd : ℚ) ≤ x.position d power ∧ x.position d power ≤ x.upperEnd
      else (x.lowerEnd : ℚ) < x.position d power ∧ x.position d power < x.upperEnd := by
  have hpos := x.quarters_pos d power
  have heq := x.quarters_eq d power
  unfold roundsTo
  generalize x.quarters d power = q at hpos heq ⊢
  dsimp only
  split
  · rw [Bool.and_eq_true, decide_eq_true_eq, decide_eq_true_eq, mul_le_iff_of_eq hpos heq,
      le_mul_iff_of_eq hpos heq]
  · rw [Bool.and_eq_true, decide_eq_true_eq, decide_eq_true_eq, ← not_le, ← not_le,
      le_mul_iff_of_eq hpos heq, mul_le_iff_of_eq hpos heq, not_le, not_le]

theorem quotient_pos (x : Binary64) : 0 < x.quotient.2 := wholePart_pos (by decide) _

theorem quotient_eq (x : Binary64) : (x.quotient.1 : ℚ) = x.magnitude * x.quotient.2 := by
  have htwo := wholePart_eq (b := 2) (by decide) x.exponent
  rw [quotient, magnitude]
  push_cast at htwo ⊢
  rw [htwo]
  ring

theorem inUnits_pos (x : Binary64) (power : Int) : 0 < (x.inUnits power).2 :=
  Nat.mul_pos x.quotient_pos (wholePart_pos (by decide) _)

theorem inUnits_eq (x : Binary64) (power : Int) :
    ((x.inUnits power).1 : ℚ) = x.magnitude / 10 ^ power * (x.inUnits power).2 := by
  have hten := wholePart_eq (b := 10) (by decide) power
  have hpow : (10 : ℚ) ^ power ≠ 0 := zpow_ne_zero _ (by norm_num)
  rw [inUnits]
  push_cast at hten ⊢
  rw [x.quotient_eq, hten]
  field_simp

/-! ### Intervals of different numbers -/

/-- Numbers in canonical form with the same sign, mantissa and exponent are equal. -/
theorem ext {x y : Binary64} (hs : x.negative = y.negative) (hm : x.mantissa = y.mantissa)
    (he : x.exponent = y.exponent) : x = y := by
  cases x
  cases y
  simp_all

theorem position_le_of_roundsTo {x : Binary64} {d : Nat} {power : Int}
    (h : x.roundsTo d power = true) :
    (x.lowerEnd : ℚ) ≤ x.position d power ∧ x.position d power ≤ x.upperEnd := by
  rw [roundsTo_iff] at h
  split at h
  · exact h
  · exact ⟨h.1.le, h.2.le⟩

theorem position_lt_of_roundsTo {x : Binary64} {d : Nat} {power : Int}
    (h : x.roundsTo d power = true) (hodd : x.mantissa % 2 = 1) :
    (x.lowerEnd : ℚ) < x.position d power ∧ x.position d power < x.upperEnd := by
  rwa [roundsTo_iff, if_neg (by omega)] at h

/-- The same decimal in the units of another number. -/
theorem position_eq_mul (x y : Binary64) (d : Nat) (power : Int) :
    x.position d power = y.position d power * 2 ^ (y.exponent - x.exponent) := by
  have hx : (2 : ℚ) ^ (x.exponent - 2) ≠ 0 := zpow_ne_zero _ (by norm_num)
  have hy : (2 : ℚ) ^ (y.exponent - 2) = 2 ^ (y.exponent - x.exponent) * 2 ^ (x.exponent - 2) := by
    rw [← zpow_add₀ (by norm_num)]
    congr 1
    omega
  have hxy : (2 : ℚ) ^ (y.exponent - x.exponent) ≠ 0 := zpow_ne_zero _ (by norm_num)
  rw [position, position, hy]
  field_simp

/-- No decimal rounds to two numbers with the same exponent. -/
theorem not_roundsTo_of_mantissa_lt {x y : Binary64} {d : Nat} {power : Int}
    (he : x.exponent = y.exponent) (hm : x.mantissa < y.mantissa)
    (hx : x.roundsTo d power = true) : y.roundsTo d power = false := by
  by_contra hy
  rw [Bool.not_eq_false] at hy
  have hpos : x.position d power = y.position d power := by rw [position, position, he]
  have hlower : y.lowerEnd = 4 * y.mantissa - 2 := by
    rw [lowerEnd, if_neg]
    rintro ⟨hleast, hexp⟩
    have := x.canonical.normal
    omega
  have hup := (position_le_of_roundsTo hx).2
  have hdown := (position_le_of_roundsTo hy).1
  rw [hpos, upperEnd] at hup
  rw [hlower] at hdown
  have hle : 4 * y.mantissa - 2 ≤ 4 * x.mantissa + 2 := by exact_mod_cast hdown.trans hup
  -- The intervals could only touch, and one of two neighbours leaves its ends out.
  rcases Nat.mod_two_eq_zero_or_one x.mantissa with heven | hodd
  · have := (position_lt_of_roundsTo hy (by omega)).1
    rw [hlower] at this
    have : 4 * y.mantissa - 2 < 4 * x.mantissa + 2 := by exact_mod_cast this.trans_le hup
    omega
  · have := (position_lt_of_roundsTo hx hodd).2
    rw [hpos, upperEnd] at this
    have : 4 * y.mantissa - 2 < 4 * x.mantissa + 2 := by exact_mod_cast hdown.trans_lt this
    omega

/-- No decimal rounds to two numbers with different exponents. -/
theorem not_roundsTo_of_exponent_lt {x y : Binary64} {d : Nat} {power : Int}
    (he : x.exponent < y.exponent) (hx : x.roundsTo d power = true) :
    y.roundsTo d power = false := by
  by_contra hy
  rw [Bool.not_eq_false] at hy
  have hbelow := x.canonical.below
  have hleast := x.canonical.least
  have hnormal : leastMantissa ≤ y.mantissa := by
    rcases y.canonical.normal with h | h
    · exact h
    · omega
  have hlower : 4 * leastMantissa - 1 ≤ y.lowerEnd := by
    rw [lowerEnd]
    split <;> omega
  have hpow : (2 : ℚ) ≤ 2 ^ (y.exponent - x.exponent) := by
    calc (2 : ℚ) = 2 ^ (1 : Int) := (zpow_one _).symm
      _ ≤ 2 ^ (y.exponent - x.exponent) := zpow_le_zpow_right₀ (by norm_num) (by omega)
  have hdown : ((4 * leastMantissa - 1 : Nat) : ℚ) ≤ y.position d power :=
    (Nat.cast_le.2 hlower).trans (position_le_of_roundsTo hy).1
  have hfar : ((4 * leastMantissa - 1 : Nat) : ℚ) * 2 ≤ x.position d power := by
    rw [position_eq_mul x y d power]
    exact mul_le_mul hdown hpow (by norm_num) ((Nat.cast_nonneg _).trans hdown)
  have hup := (position_le_of_roundsTo hx).2
  have hle : (4 * leastMantissa - 1) * 2 ≤ 4 * x.mantissa + 2 := by
    exact_mod_cast hfar.trans hup
  -- Only the number just below the least mantissa comes near, and it leaves its end out.
  have hodd : x.mantissa % 2 = 1 := by
    rw [mantissaLimit] at hbelow
    simp only [leastMantissa] at hbelow hle
    omega
  have hlt := (position_lt_of_roundsTo hx hodd).2
  have : (4 * leastMantissa - 1) * 2 < 4 * x.mantissa + 2 := by
    exact_mod_cast hfar.trans_lt hlt
  rw [mantissaLimit] at hbelow
  simp only [leastMantissa] at hbelow this
  omega

/-- A decimal rounds to one number only. -/
theorem eq_of_roundsTo {x y : Binary64} {d : Nat} {power : Int} (hs : x.negative = y.negative)
    (hx : x.roundsTo d power = true) (hy : y.roundsTo d power = true) : x = y := by
  rcases lt_trichotomy x.exponent y.exponent with he | he | he
  · rw [not_roundsTo_of_exponent_lt he hx] at hy
    cases hy
  · rcases lt_trichotomy x.mantissa y.mantissa with hm | hm | hm
    · rw [not_roundsTo_of_mantissa_lt he hm hx] at hy
      cases hy
    · exact ext hs hm he
    · rw [not_roundsTo_of_mantissa_lt he.symm hm hy] at hx
      cases hx
  · rw [not_roundsTo_of_exponent_lt he hy] at hx
    cases hx

/-! ### Seventeen digits are enough -/

/-- A decimal within half a unit of the seventeenth digit rounds to the number. -/
theorem roundsTo_of_near {x : Binary64} {d : Nat} {power : Int} (hx : x.mantissa ≠ 0)
    (hdigits : (10 : ℚ) ^ power * 10 ^ 16 ≤ x.magnitude)
    (hnear : |(d : ℚ) - x.magnitude / 10 ^ power| ≤ 1 / 2) : x.roundsTo d power = true := by
  have hten : (0 : ℚ) < 10 ^ power := by positivity
  have htwo : (0 : ℚ) < 2 ^ (x.exponent - 2) := by positivity
  -- The number itself lies at four times its mantissa.
  have hself : x.magnitude = 4 * x.mantissa * 2 ^ (x.exponent - 2) := by
    rw [magnitude, zpow_sub₀ (by norm_num)]
    norm_num
    ring
  set scale : ℚ := 10 ^ power / 2 ^ (x.exponent - 2) with hscale
  have hscalePos : 0 < scale := div_pos hten htwo
  have hposition : x.position d power = d * scale := by rw [position, hscale, mul_div_assoc]
  have hcentre : (4 * x.mantissa : ℚ) = x.magnitude / 10 ^ power * scale := by
    rw [hself, hscale]
    field_simp
  have hscaleLe : scale * 10 ^ 16 ≤ 4 * x.mantissa := by
    rw [hscale, div_mul_eq_mul_div, div_le_iff₀ htwo, ← hself]
    exact hdigits
  have hdist : |x.position d power - 4 * x.mantissa| ≤ scale / 2 := by
    rw [hposition, hcentre, ← sub_mul, abs_mul, abs_of_pos hscalePos]
    calc |(d : ℚ) - x.magnitude / 10 ^ power| * scale ≤ 1 / 2 * scale :=
          mul_le_mul_of_nonneg_right hnear hscalePos.le
      _ = scale / 2 := by ring
  obtain ⟨hdown, hup⟩ := abs_le.1 hdist
  have hbelow : (x.mantissa : ℚ) + 1 ≤ 9007199254740992 := by
    have := x.canonical.below
    rw [mantissaLimit] at this
    simp only [leastMantissa] at this
    exact_mod_cast this
  have hlower : (x.lowerEnd : ℚ) < x.position d power := by
    rw [lowerEnd]
    split
    case isTrue hleast =>
        have hm : (x.mantissa : ℚ) = 4503599627370496 := by
          rw [hleast.1, leastMantissa]
          norm_num
        rw [Nat.cast_sub (by omega)]
        push_cast
        linarith
    case isFalse =>
        rw [Nat.cast_sub (by omega)]
        push_cast
        linarith
  have hupper : x.position d power < x.upperEnd := by
    rw [upperEnd]
    push_cast
    linarith
  rw [roundsTo_iff]
  split
  · exact ⟨hlower.le, hupper.le⟩
  · exact ⟨hlower, hupper⟩

theorem leadingZeros_spec {num den fuel j : Nat} (h : den ≤ num * 10 ^ (j + fuel)) :
    den ≤ num * 10 ^ leadingZeros num den fuel j := by
  induction fuel generalizing j with
  | zero => exact h
  | succ fuel ih =>
      rw [leadingZeros]
      split
      case isTrue hle => exact hle
      case isFalse => exact ih (by rwa [show j + 1 + fuel = j + (fuel + 1) by omega])

theorem pow_length_toDigits_le {n : Nat} (hn : 0 < n) :
    10 ^ ((Nat.toDigits 10 n).length - 1) ≤ n := by
  rcases Nat.eq_or_lt_of_le (Nat.length_toDigits_pos (b := 10) (n := n)) with hone | hmore
  · rw [← hone]
    exact hn
  · by_contra hlt
    have := (Nat.length_toDigits_le_iff (by decide) (by omega)).2 (not_le.1 hlt)
    omega

theorem wholePart_le {b n : Nat} {e : Int} (hb : 0 < b) (he : e ≤ n) : wholePart b e ≤ b ^ n := by
  rw [wholePart]
  split
  · exact Nat.pow_le_pow_right hb (by omega)
  · exact Nat.one_le_pow _ _ hb

theorem two_pow_le_ten_pow (n : Nat) : 2 ^ (13 * n + 8) ≤ 10 ^ (4 * n + 3) := by
  rw [Nat.pow_add, Nat.pow_mul, Nat.pow_add, Nat.pow_mul]
  exact Nat.mul_le_mul (Nat.pow_le_pow_left (by norm_num) n) (by norm_num)

/-- The denominators of numbers have at most 331 digits. -/
theorem quotient_le (x : Binary64) : x.quotient.2 ≤ 10 ^ (4 * 82 + 3) := by
  have hexponent : -x.exponent ≤ (13 * 82 + 8 : Nat) := by
    have := x.canonical.least
    rw [minExponent] at this
    omega
  exact (wholePart_le (by decide) hexponent).trans (two_pow_le_ten_pow 82)

/-- The first digit of a number stands at its decimal exponent or above. -/
theorem decimalExponent_le {x : Binary64} (hx : x.mantissa ≠ 0) :
    (10 : ℚ) ^ x.decimalExponent ≤ x.magnitude := by
  have hden : (0 : ℚ) < x.quotient.2 := by exact_mod_cast x.quotient_pos
  have hquotient := x.quotient_eq
  have hnum : 0 < x.quotient.1 :=
    Nat.mul_pos (Nat.pos_of_ne_zero hx) (wholePart_pos (by decide) _)
  have hplaces : 4 * 82 + 3 = 1 + 330 := rfl
  have hbound : x.quotient.2 ≤ x.quotient.1 * 10 ^ (1 + 330) :=
    (hplaces ▸ x.quotient_le).trans (Nat.le_mul_of_pos_left _ hnum)
  unfold decimalExponent
  generalize x.quotient = q at *
  dsimp only
  split
  case isTrue hle =>
      have hpos : 0 < q.1 / q.2 := Nat.div_pos hle (by exact_mod_cast hden)
      have hlength := Nat.length_toDigits_pos (b := 10) (n := q.1 / q.2)
      have hexponent : ((Nat.toDigits 10 (q.1 / q.2)).length : Int) - 1 =
          (((Nat.toDigits 10 (q.1 / q.2)).length - 1 : Nat) : Int) := by omega
      have hpow : 10 ^ ((Nat.toDigits 10 (q.1 / q.2)).length - 1) * q.2 ≤ q.1 :=
        (Nat.mul_le_mul_right _ (pow_length_toDigits_le hpos)).trans (Nat.div_mul_le_self _ _)
      rw [hexponent, zpow_natCast, ← mul_le_mul_iff_left₀ hden, ← hquotient]
      exact_mod_cast hpow
  case isFalse =>
      have hzeros : (q.2 : ℚ) ≤ q.1 * 10 ^ leadingZeros q.1 q.2 330 1 := by
        exact_mod_cast leadingZeros_spec hbound
      rw [zpow_neg, zpow_natCast, inv_le_iff_one_le_mul₀ (by positivity),
        ← mul_le_mul_iff_left₀ hden, one_mul, mul_right_comm, ← hquotient]
      exact hzeros

/-- Of the two decimals next to a number, one is at most half a unit away. -/
theorem roundsTo_neighbour {x : Binary64} {power : Int} (hx : x.mantissa ≠ 0)
    (hdigits : (10 : ℚ) ^ power * 10 ^ 16 ≤ x.magnitude) :
    x.roundsTo ((x.inUnits power).1 / (x.inUnits power).2) power = true ∨
      x.roundsTo ((x.inUnits power).1 / (x.inUnits power).2 + 1) power = true := by
  have hden := x.inUnits_pos power
  have hunits := x.inUnits_eq power
  generalize x.inUnits power = q at hden hunits ⊢
  have hdenRat : (0 : ℚ) < q.2 := by exact_mod_cast hden
  have hlow : ((q.1 / q.2 : Nat) : ℚ) ≤ x.magnitude / 10 ^ power := by
    rw [← mul_le_mul_iff_left₀ hdenRat, ← hunits]
    exact_mod_cast Nat.div_mul_le_self q.1 q.2
  have hhigh : x.magnitude / 10 ^ power < ((q.1 / q.2 + 1 : Nat) : ℚ) := by
    rw [← mul_lt_mul_iff_left₀ hdenRat, ← hunits]
    exact_mod_cast (Nat.div_lt_iff_lt_mul hden).1 (Nat.lt_succ_self _)
  rw [Nat.cast_add, Nat.cast_one] at hhigh
  by_cases hhalf : x.magnitude / 10 ^ power - ((q.1 / q.2 : Nat) : ℚ) ≤ 1 / 2
  · refine .inl (roundsTo_of_near hx hdigits (abs_le.2 ⟨?_, ?_⟩)) <;> linarith
  · refine .inr (roundsTo_of_near hx hdigits (abs_le.2 ⟨?_, ?_⟩)) <;> push_cast <;> linarith

/-- Seventeen digits are always enough. -/
theorem digitsOfLength?_seventeen {x : Binary64} (hx : x.mantissa ≠ 0) :
    x.digitsOfLength? 17 ≠ none := by
  have hpower : (10 : ℚ) ^ (x.decimalExponent + 1 - (17 : Nat)) * 10 ^ 16 =
      10 ^ x.decimalExponent := by
    rw [← zpow_natCast, ← zpow_add₀ (by norm_num)]
    congr 1
    push_cast
    omega
  have hnear := roundsTo_neighbour hx (hpower ▸ decimalExponent_le hx)
  unfold digitsOfLength?
  dsimp only
  split
  · split <;> exact Option.some_ne_none _
  · exact Option.some_ne_none _
  · exact Option.some_ne_none _
  case h_4 hlow hhigh =>
      rcases hnear with hnear | hnear
      · exact absurd (hlow.symm.trans hnear) Bool.false_ne_true
      · exact absurd (hhigh.symm.trans hnear) Bool.false_ne_true

theorem roundsTo_of_digitsOfLength? {x : Binary64} {n d : Nat} {power : Int}
    (h : x.digitsOfLength? n = some (d, power)) : x.roundsTo d power = true := by
  unfold digitsOfLength? at h
  dsimp only at h
  split at h
  case h_1 hlow hhigh =>
      split at h
      · cases h
        exact hlow
      · cases h
        exact hhigh
  case h_2 hlow _ =>
      cases h
      exact hlow
  case h_3 _ hhigh =>
      cases h
      exact hhigh
  case h_4 => cases h

/-- The digits that are found are those of a decimal that rounds to the number. -/
theorem exists_roundsTo {x : Binary64} (hx : x.mantissa ≠ 0) :
    ∃ d power, x.roundsTo d power = true ∧ x.digits = dropZeros 20 d power := by
  match hfound : (List.range 17).findSome? fun n => x.digitsOfLength? (n + 1) with
  | none =>
      have := List.findSome?_eq_none_iff.1 hfound 16 (by decide)
      exact absurd this (digitsOfLength?_seventeen hx)
  | some (d, power) =>
      obtain ⟨n, -, hn⟩ := List.exists_of_findSome?_eq_some hfound
      refine ⟨d, power, roundsTo_of_digitsOfLength? hn, ?_⟩
      rw [digits, hfound]
      rfl

/-- Dropping zeros changes the digits, but not the decimal. -/
theorem dropZeros_eq (fuel d : Nat) (power : Int) :
    ((dropZeros fuel d power).1 : ℚ) * 10 ^ (dropZeros fuel d power).2 = d * 10 ^ power := by
  induction fuel generalizing d power with
  | zero => rfl
  | succ fuel ih =>
      rw [dropZeros]
      split
      case isTrue h =>
          have hd : (d : ℚ) = (d / 10 : Nat) * 10 := by
            exact_mod_cast (Nat.div_mul_cancel (Nat.dvd_of_mod_eq_zero h.2)).symm
          rw [ih, zpow_add₀ (by norm_num), hd, zpow_one]
          ring
      case isFalse => rfl

/-- Numbers with the same sign and the same decimal are equal. -/
theorem eq_of_digits {x y : Binary64} (hs : x.negative = y.negative) (hx : x.mantissa ≠ 0)
    (hy : y.mantissa ≠ 0)
    (h : (x.digits.1 : ℚ) * 10 ^ x.digits.2 = y.digits.1 * 10 ^ y.digits.2) : x = y := by
  obtain ⟨d, power, hround, hdigits⟩ := exists_roundsTo hx
  obtain ⟨d', power', hround', hdigits'⟩ := exists_roundsTo hy
  rw [hdigits, hdigits', dropZeros_eq, dropZeros_eq] at h
  have hposition : y.position d' power' = y.position d power := by
    rw [position, position, h]
  refine eq_of_roundsTo hs hround ?_
  rw [roundsTo_iff] at hround' ⊢
  rwa [hposition] at hround'

/-! ### Reading the text -/

def readWhole : List Char → Int
  | '-' :: ds => -(Nat.ofDigitChars 10 ds 0 : Nat)
  | '+' :: ds => Nat.ofDigitChars 10 ds 0
  | ds => Nat.ofDigitChars 10 ds 0

def readPoint (cs : List Char) : ℚ :=
  let whole := cs.takeWhile (· ≠ '.')
  let fraction := (cs.dropWhile (· ≠ '.')).drop 1
  Nat.ofDigitChars 10 (whole ++ fraction) 0 / 10 ^ fraction.length

def readBody (cs : List Char) : ℚ :=
  readPoint (cs.takeWhile (· ≠ 'e')) * 10 ^ readWhole ((cs.dropWhile (· ≠ 'e')).drop 1)

/-- Digits, as opposed to the marks between them. -/
def Digits (ds : List Char) : Prop := ∀ c ∈ ds, c.isDigit

theorem digits_toDigits (n : Nat) : Digits (Nat.toDigits 10 n) :=
  fun _ hc => Nat.isDigit_of_mem_toDigits (by decide) (by decide) hc

theorem Digits.append {ds es : List Char} (hd : Digits ds) (he : Digits es) :
    Digits (ds ++ es) :=
  fun c hc => (List.mem_append.1 hc).elim (hd c) (he c)

theorem digits_zeros (n : Nat) : Digits (List.replicate n '0') :=
  fun c hc => by rw [List.eq_of_mem_replicate hc]; rfl

theorem Digits.ne {ds : List Char} (hd : Digits ds) {mark : Char} (hmark : mark.isDigit = false) :
    ∀ c ∈ ds, decide (c ≠ mark) = true := by
  intro c hc
  refine decide_eq_true fun h => ?_
  have := hd c hc
  rw [h, hmark] at this
  cases this

theorem readWhole_digits {ds : List Char} (hd : Digits ds) :
    readWhole ds = Nat.ofDigitChars 10 ds 0 := by
  rw [readWhole.eq_def]
  split
  · exact absurd (hd '-' List.mem_cons_self) (by decide)
  · exact absurd (hd '+' List.mem_cons_self) (by decide)
  · rfl

theorem readWhole_toString (n : Int) : readWhole (toString n).toList = n := by
  rw [Int.toString_eq_repr, Int.repr_eq_if]
  split
  case isTrue hn =>
      rw [Nat.toList_repr, readWhole_digits (digits_toDigits _), Nat.ofDigitChars_ten_toDigits]
      omega
  case isFalse hn =>
      rw [String.toList_append, Nat.toList_repr]
      show -((Nat.ofDigitChars 10 (Nat.toDigits 10 (-n).toNat) 0 : Nat) : Int) = n
      rw [Nat.ofDigitChars_ten_toDigits]
      omega

theorem readPoint_digits {ds : List Char} (hd : Digits ds) :
    readPoint ds = Nat.ofDigitChars 10 ds 0 := by
  have hne := hd.ne (show Char.isDigit '.' = false from rfl)
  rw [readPoint, List.takeWhile_eq_self_iff.2 hne, List.dropWhile_eq_nil_iff.2 hne]
  simp

theorem readPoint_point {whole fraction : List Char} (hw : Digits whole) :
    readPoint (whole ++ '.' :: fraction) =
      Nat.ofDigitChars 10 (whole ++ fraction) 0 / 10 ^ fraction.length := by
  have hne := hw.ne (show Char.isDigit '.' = false from rfl)
  rw [readPoint, List.takeWhile_append_of_pos hne, List.dropWhile_append_of_pos hne]
  simp

theorem readBody_plain {cs : List Char} (h : ∀ c ∈ cs, decide (c ≠ 'e') = true) :
    readBody cs = readPoint cs := by
  rw [readBody, List.takeWhile_eq_self_iff.2 h, List.dropWhile_eq_nil_iff.2 h]
  simp [readWhole]

theorem readBody_exponent {cs tail : List Char} (h : ∀ c ∈ cs, decide (c ≠ 'e') = true) :
    readBody (cs ++ 'e' :: tail) = readPoint cs * 10 ^ readWhole tail := by
  rw [readBody, List.takeWhile_append_of_pos h, List.dropWhile_append_of_pos h]
  simp

theorem ne_e_of_point {whole fraction : List Char} (hw : Digits whole) (hf : Digits fraction) :
    ∀ c ∈ whole ++ '.' :: fraction, decide (c ≠ 'e') = true := by
  intro c hc
  rcases List.mem_append.1 hc with hc | hc
  · exact hw.ne rfl c hc
  · rcases List.mem_cons.1 hc with rfl | hc
    · rfl
    · exact hf.ne rfl c hc

theorem readBody_point {whole fraction : List Char} (hw : Digits whole) (hf : Digits fraction) :
    readBody (whole ++ '.' :: fraction) =
      Nat.ofDigitChars 10 (whole ++ fraction) 0 * 10 ^ (-fraction.length : Int) := by
  rw [readBody_plain (ne_e_of_point hw hf), readPoint_point hw, zpow_neg, zpow_natCast,
    div_eq_mul_inv]

/-- What follows the mark of an exponent is read as the exponent. -/
theorem readWhole_exponent (point : Int) :
    readWhole ((if 0 < point then ['+'] else []) ++ (toString (point - 1)).toList) =
      point - 1 := by
  split
  case isTrue hpoint =>
      rw [Int.toString_eq_repr, Int.repr_eq_if, if_pos (by omega), Nat.toList_repr]
      show ((Nat.ofDigitChars 10 (Nat.toDigits 10 (point - 1).toNat) 0 : Nat) : Int) = point - 1
      rw [Nat.ofDigitChars_ten_toDigits]
      omega
  case isFalse => exact readWhole_toString _

theorem scientific_one (c : Char) (point : Int) :
    scientific [c] point =
      [c] ++ 'e' :: ((if 0 < point then ['+'] else []) ++ (toString (point - 1)).toList) := rfl

theorem scientific_more (c c' : Char) (cs : List Char) (point : Int) :
    scientific (c :: c' :: cs) point = ([c] ++ '.' :: (c' :: cs)) ++
      'e' :: ((if 0 < point then ['+'] else []) ++ (toString (point - 1)).toList) := by
  simp [scientific]

theorem readBody_scientific {ds : List Char} (hd : Digits ds) (hne : ds ≠ []) (point : Int) :
    readBody (scientific ds point) =
      Nat.ofDigitChars 10 ds 0 * 10 ^ (point - ds.length) := by
  match ds, hne with
  | [c], _ =>
      rw [scientific_one, readBody_exponent (hd.ne rfl), readPoint_digits hd, readWhole_exponent]
      rfl
  | c :: c' :: cs, _ =>
      have hw : Digits [c] := fun b hb => hd b (by simp_all)
      have hf : Digits (c' :: cs) := fun b hb => hd b (List.mem_cons_of_mem _ hb)
      have hlength : point - ((c :: c' :: cs).length : Int) =
          -((c' :: cs).length : Int) + (point - 1) := by
        simp only [List.length_cons]
        push_cast
        ring
      rw [scientific_more, readBody_exponent (ne_e_of_point hw hf), readPoint_point hw,
        readWhole_exponent, hlength, zpow_add₀ (by norm_num), zpow_neg, zpow_natCast,
        div_eq_mul_inv, mul_assoc]
      rfl

/-- The layout of some digits is read as their decimal. -/
theorem readBody_layout {ds : List Char} (hd : Digits ds) (hne : ds ≠ []) (power : Int) :
    readBody (layout ds power) = Nat.ofDigitChars 10 ds 0 * 10 ^ power := by
  have hzero : Digits ['0'] := digits_zeros 1
  rw [layout]
  dsimp only
  split
  case isTrue h =>
      have hpower : (10 : ℚ) ^ power = 10 ^ power.toNat := by
        rw [← zpow_natCast, Int.toNat_of_nonneg h.1]
      rw [readBody_point (hd.append (digits_zeros _)) hzero, List.append_assoc,
        Nat.ofDigitChars_append, Nat.ofDigitChars_append, Nat.ofDigitChars_replicate_zero, hpower]
      simp [Nat.ofDigitChars_cons]
      ring
  case isFalse hwhole =>
      split
      case isTrue h =>
          have hlength : -((ds.drop (ds.length + power).toNat).length : Int) = power := by
            rw [List.length_drop]
            omega
          rw [readBody_point (fun c hc => hd c (List.mem_of_mem_take hc))
            (fun c hc => hd c (List.mem_of_mem_drop hc)), List.take_append_drop, hlength]
      case isFalse =>
          split
          case isTrue h =>
              have hlength : -((List.replicate (-(ds.length + power)).toNat '0' ++ ds).length : Int)
                  = power := by
                rw [List.length_append, List.length_replicate]
                push_cast
                omega
              show readBody (['0'] ++ '.' :: (List.replicate _ '0' ++ ds)) = _
              rw [readBody_point hzero ((digits_zeros _).append hd), hlength]
              simp [Nat.ofDigitChars_append, Nat.ofDigitChars_cons]
          case isFalse =>
              rw [readBody_scientific hd hne]
              congr 2
              omega

/-- The text of a number that is not zero is read as the decimal of its digits. -/
theorem readBody_body {x : Binary64} (hx : x.mantissa ≠ 0) :
    readBody x.body = x.digits.1 * 10 ^ x.digits.2 := by
  have hzero : x.isZero = false := by simp [isZero, hx]
  rw [body, hzero, if_neg (by decide),
    readBody_layout (digits_toDigits _) Nat.toDigits_ne_nil, Nat.ofDigitChars_ten_toDigits]

theorem readBody_body_zero {x : Binary64} (hx : x.mantissa = 0) : readBody x.body = 0 := by
  have hzero : x.isZero = true := by simp [isZero, hx]
  rw [body, hzero, if_pos rfl]
  have hdigit : Digits ['0'] := digits_zeros 1
  show readBody (['0'] ++ '.' :: ['0']) = 0
  rw [readBody_point hdigit hdigit]
  simp [Nat.ofDigitChars_cons]

/-- Zero rounds to no number but itself. -/
theorem digits_ne_zero {x : Binary64} (hx : x.mantissa ≠ 0) :
    (x.digits.1 : ℚ) * 10 ^ x.digits.2 ≠ 0 := by
  obtain ⟨d, power, hround, hdigits⟩ := exists_roundsTo hx
  intro hzero
  rw [hdigits, dropZeros_eq] at hzero
  have hposition : x.position d power = 0 := by rw [position, hzero, zero_div]
  have hlower := (position_le_of_roundsTo hround).1
  rw [hposition] at hlower
  have : x.lowerEnd = 0 := by exact_mod_cast le_antisymm hlower (Nat.cast_nonneg _)
  rw [lowerEnd] at this
  split at this <;> omega

theorem mantissa_eq_zero_iff (x : Binary64) : x.mantissa = 0 ↔ readBody x.body = 0 := by
  constructor
  · exact readBody_body_zero
  · intro h
    by_contra hx
    exact digits_ne_zero hx (readBody_body hx ▸ h)

/-- Numbers that are zero differ in their sign only. -/
theorem eq_of_zero {x y : Binary64} (hs : x.negative = y.negative) (hx : x.mantissa = 0)
    (hy : y.mantissa = 0) : x = y := by
  have hnormalX := x.canonical.normal
  have hnormalY := y.canonical.normal
  rw [hx, leastMantissa] at hnormalX
  rw [hy, leastMantissa] at hnormalY
  exact ext hs (hx.trans hy.symm) (by omega)

theorem eq_of_body {x y : Binary64} (hs : x.negative = y.negative) (h : x.body = y.body) :
    x = y := by
  by_cases hx : x.mantissa = 0
  · have hy : y.mantissa = 0 := by
      rw [mantissa_eq_zero_iff, ← h]
      exact readBody_body_zero hx
    exact eq_of_zero hs hx hy
  · have hy : y.mantissa ≠ 0 := by
      rw [Ne, mantissa_eq_zero_iff, ← h, ← mantissa_eq_zero_iff]
      exact hx
    exact eq_of_digits hs hx hy (by rw [← readBody_body hx, ← readBody_body hy, h])

/-! ### The characters of the text -/

def isNumeral (c : Char) : Bool :=
  c.isDigit || c == '.' || c == 'e' || c == '+' || c == '-'

theorem Digits.isNumeral {ds : List Char} (hd : Digits ds) : ∀ c ∈ ds, isNumeral c = true :=
  fun c hc => by simp [Binary64.isNumeral, hd c hc]

theorem isNumeral_toString (n : Int) : ∀ c ∈ (toString n).toList, isNumeral c = true := by
  rw [Int.toString_eq_repr, Int.repr_eq_if]
  split
  · rw [Nat.toList_repr]
    exact (digits_toDigits _).isNumeral
  · rw [String.toList_append, Nat.toList_repr]
    intro c hc
    rcases List.mem_append.1 hc with hc | hc
    · rw [List.mem_singleton.1 (show c ∈ ['-'] from hc)]
      rfl
    · exact (digits_toDigits _).isNumeral c hc

/-- Digits, a mark, and more of what numbers are written with. -/
def Marked (cs : List Char) : Prop :=
  ∃ c head mark tail, cs = c :: head ++ mark :: tail ∧ Digits (c :: head) ∧
    (mark = '.' ∨ mark = 'e') ∧ ∀ c ∈ tail, isNumeral c = true

theorem Marked.of_point {whole fraction : List Char} (hw : Digits whole) (hne : whole ≠ [])
    (hf : ∀ c ∈ fraction, isNumeral c = true) : Marked (whole ++ '.' :: fraction) := by
  obtain ⟨c, cs, rfl⟩ := List.exists_cons_of_ne_nil hne
  exact ⟨c, cs, '.', fraction, rfl, hw, .inl rfl, hf⟩

theorem isNumeral_exponent (point : Int) :
    ∀ c ∈ (if 0 < point then ['+'] else []) ++ (toString (point - 1)).toList,
      isNumeral c = true := by
  intro c hc
  rcases List.mem_append.1 hc with hc | hc
  · split at hc
    · rw [List.mem_singleton.1 hc]
      rfl
    · cases hc
  · exact isNumeral_toString _ c hc

theorem marked_scientific {ds : List Char} (hd : Digits ds) (hne : ds ≠ []) (point : Int) :
    Marked (scientific ds point) := by
  match ds, hne with
  | [c], _ => exact ⟨c, [], 'e', _, scientific_one c point, hd, .inr rfl, isNumeral_exponent point⟩
  | c :: c' :: cs, _ =>
      have hw : Digits [c] := fun b hb => hd b (by simp_all)
      have hf : Digits (c' :: cs) := fun b hb => hd b (List.mem_cons_of_mem _ hb)
      rw [scientific_more, List.append_assoc]
      refine .of_point hw (List.cons_ne_nil _ _) fun b hb => ?_
      rcases List.mem_append.1 hb with hb | hb
      · exact hf.isNumeral b hb
      · rcases List.mem_cons.1 hb with rfl | hb
        · rfl
        · exact isNumeral_exponent point b hb

theorem marked_layout {ds : List Char} (hd : Digits ds) (hne : ds ≠ []) (power : Int) :
    Marked (layout ds power) := by
  have hzero : Digits ['0'] := digits_zeros 1
  have hlength : 0 < ds.length := List.length_pos_of_ne_nil hne
  rw [layout]
  dsimp only
  split
  · exact .of_point (hd.append (digits_zeros _)) (by simp [hne]) hzero.isNumeral
  · split
    case isTrue h =>
        refine .of_point (fun c hc => hd c (List.mem_of_mem_take hc)) ?_
          (Digits.isNumeral fun c hc => hd c (List.mem_of_mem_drop hc))
        rw [Ne, List.take_eq_nil_iff, not_or]
        exact ⟨by omega, hne⟩
    case isFalse =>
        split
        · exact .of_point hzero (List.cons_ne_nil _ _) ((digits_zeros _).append hd).isNumeral
        · exact marked_scientific hd hne _

theorem marked_body (x : Binary64) : Marked x.body := by
  have hzero : Digits ['0'] := digits_zeros 1
  rw [body]
  split
  · exact .of_point hzero (List.cons_ne_nil _ _) hzero.isNumeral
  · exact marked_layout (digits_toDigits _) Nat.toDigits_ne_nil _

theorem Marked.isNumeral {cs : List Char} (h : Marked cs) : ∀ c ∈ cs, isNumeral c = true := by
  obtain ⟨c, head, mark, tail, rfl, hd, hmark, ht⟩ := h
  intro b hb
  rcases List.mem_append.1 hb with hb | hb
  · exact hd.isNumeral b hb
  · rcases List.mem_cons.1 hb with rfl | hb
    · rcases hmark with rfl | rfl <;> rfl
    · exact ht b hb

theorem Marked.head {cs : List Char} (h : Marked cs) :
    ∃ c rest, cs = c :: rest ∧ c.isDigit = true := by
  obtain ⟨c, head, mark, tail, rfl, hd, -, -⟩ := h
  exact ⟨c, head ++ mark :: tail, rfl, hd c List.mem_cons_self⟩

theorem Marked.mem {cs : List Char} (h : Marked cs) : '.' ∈ cs ∨ 'e' ∈ cs := by
  obtain ⟨c, head, mark, tail, rfl, -, hmark, -⟩ := h
  rcases hmark with rfl | rfl
  · exact .inl (by simp)
  · exact .inr (by simp)

theorem toList_text (x : Binary64) :
    x.text.toList = if x.negative then '-' :: x.body else x.body := by
  rw [text, String.toList_ofList]

theorem body_ne_minus (x : Binary64) (cs : List Char) : x.body ≠ '-' :: cs := by
  obtain ⟨c, rest, hbody, hc⟩ := x.marked_body.head
  rintro h
  rw [hbody, List.cons.injEq] at h
  rw [h.1] at hc
  cases hc

/-- The text of a floating point number tells the number. -/
theorem text_injective {x y : Binary64} (h : x.text = y.text) : x = y := by
  have hlist : (if x.negative then '-' :: x.body else x.body) =
      if y.negative then '-' :: y.body else y.body := by
    rw [← toList_text, ← toList_text, h]
  cases hx : x.negative <;> cases hy : y.negative <;> simp only [hx, hy] at hlist
  · exact eq_of_body (hx.trans hy.symm) hlist
  · exact absurd hlist (x.body_ne_minus _)
  · exact absurd hlist.symm (y.body_ne_minus _)
  · exact eq_of_body (hx.trans hy.symm) (List.cons.inj hlist).2

theorem isNumeral_text (x : Binary64) : ∀ c ∈ x.text.toList, isNumeral c = true := by
  rw [toList_text]
  split
  · intro c hc
    rcases List.mem_cons.1 hc with rfl | hc
    · rfl
    · exact x.marked_body.isNumeral c hc
  · exact x.marked_body.isNumeral

/-- A floating point number has a mark in its text that no whole number has. -/
theorem mem_text (x : Binary64) : '.' ∈ x.text.toList ∨ 'e' ∈ x.text.toList := by
  rw [toList_text]
  split
  · exact x.marked_body.mem.imp (List.mem_cons_of_mem _) (List.mem_cons_of_mem _)
  · exact x.marked_body.mem

end StyleAudit.Binary64
