import Mathlib.Algebra.Order.Field.Basic
import Mathlib.Algebra.Order.Field.Power
import Mathlib.Algebra.Order.Field.Rat
import Mathlib.Tactic.FieldSimp
import Mathlib.Tactic.Linarith
import Mathlib.Tactic.Ring
import QueryPlanner.Number.Rounding

/-!
# The nearest floating-point number

A floating-point number is a rational number, its significand times a power of two.  Rounding gives
the number nearest to a quotient, and of two equally near ones the one with the even significand.
An integer has only one such number, so what is equal to the rounded integer is the number nearest
to it.  Integers of up to 53 binary digits are floating-point numbers themselves.

At the scale at which a quotient has 53 digits, every number is a whole number or has fewer digits
(`multiple_or_small`).  So the nearest whole number there is the nearest number of all
(`Rounds.isNearest`), and the only one (`Rounds.toRat_eq_of_isNearest`).

Main statements: `isNearest_of_ofRatio?` and `sameNumber_ofInt?_iff`.
-/

namespace QueryPlanner

/-! ## Rounding quotients -/

theorem le_div_iff_cast {m n d : Nat} (hd : 0 < d) : m ≤ n / d ↔ (m : ℚ) ≤ (n : ℚ) / d := by
  have hd' : (0 : ℚ) < d := Nat.cast_pos.2 hd
  rw [Nat.le_div_iff_mul_le hd, le_div_iff₀ hd']
  exact_mod_cast Iff.rfl

/-- The rounded quotient is at most a half away, and if it is just that then it is even. -/
theorem roundHalfEven_spec (num : Nat) {den : Nat} (hden : 0 < den) :
    |(roundHalfEven num den : ℚ) - num / den| ≤ 1 / 2 ∧
      (|(roundHalfEven num den : ℚ) - num / den| = 1 / 2 → Even (roundHalfEven num den)) := by
  have hden' : (0 : ℚ) < den := Nat.cast_pos.2 hden
  have hquotient : (num : ℚ) / den = (num / den : Nat) + (num % den : Nat) / (den : ℚ) := by
    rw [div_eq_iff hden'.ne', add_mul, div_mul_cancel₀ _ hden'.ne']
    exact_mod_cast (Nat.div_add_mod' num den).symm
  have hpart : (0 : ℚ) ≤ (num % den : Nat) / (den : ℚ) := by positivity
  unfold roundHalfEven
  rw [hquotient]
  generalize num / den = whole
  dsimp only
  split
  next hbelow =>
    have hlt : ((num % den : Nat) : ℚ) / den < 1 / 2 := by
      rw [div_lt_iff₀ hden']
      have : (2 * (num % den : Nat) : ℚ) < den := by exact_mod_cast hbelow
      linarith
    have hdistance : |(whole : ℚ) - (whole + (num % den : Nat) / (den : ℚ))| < 1 / 2 := by
      rw [sub_add_cancel_left, abs_neg, abs_of_nonneg hpart]
      exact hlt
    exact ⟨hdistance.le, fun h => absurd h hdistance.ne⟩
  next hbelow =>
    split
    next habove =>
      have hlt : 1 / 2 < ((num % den : Nat) : ℚ) / den := by
        rw [lt_div_iff₀ hden']
        have : (den : ℚ) < 2 * (num % den : Nat) := by exact_mod_cast habove
        linarith
      have hle : ((num % den : Nat) : ℚ) / den ≤ 1 := by
        rw [div_le_one hden']
        exact_mod_cast (Nat.mod_lt num hden).le
      have hdistance :
          |((whole + 1 : Nat) : ℚ) - (whole + (num % den : Nat) / (den : ℚ))| < 1 / 2 := by
        rw [abs_lt]
        push_cast
        constructor <;> linarith
      exact ⟨hdistance.le, fun h => absurd h hdistance.ne⟩
    next habove =>
      have hhalf : ((num % den : Nat) : ℚ) / den = 1 / 2 := by
        rw [div_eq_iff hden'.ne']
        have htwice : 2 * (num % den) = den := by omega
        have : (2 * (num % den : Nat) : ℚ) = den := by exact_mod_cast htwice
        linarith
      rw [hhalf]
      rcases Nat.mod_two_eq_zero_or_one whole with h | h
      · refine ⟨?_, fun _ => ⟨whole / 2, by omega⟩⟩
        rw [h]
        norm_num
      · refine ⟨?_, fun _ => ⟨(whole + 1) / 2, by omega⟩⟩
        rw [h]
        push_cast
        norm_num

/-- No other whole number is nearer than the rounded quotient, and if one is as near then the
rounded quotient is even and the other one odd. -/
theorem roundHalfEven_nearest (num : Nat) {den : Nat} (hden : 0 < den) (j : ℤ) :
    |(roundHalfEven num den : ℚ) - num / den| ≤ |(j : ℚ) - num / den| ∧
      (|(j : ℚ) - num / den| = |(roundHalfEven num den : ℚ) - num / den| →
        j ≠ roundHalfEven num den → Even (roundHalfEven num den) ∧ Odd j) := by
  obtain ⟨hhalf, heven⟩ := roundHalfEven_spec num hden
  generalize roundHalfEven num den = k at hhalf heven ⊢
  generalize (num : ℚ) / den = x at hhalf heven ⊢
  by_cases hj : j = k
  · subst hj
    exact ⟨le_rfl, fun _ hne => absurd rfl hne⟩
  · have hapart : (1 : ℚ) ≤ |(j : ℚ) - k| := by
      have : (1 : ℤ) ≤ |j - k| := Int.one_le_abs (sub_ne_zero.2 hj)
      exact_mod_cast this
    have htriangle : |(j : ℚ) - k| ≤ |(j : ℚ) - x| + |(k : ℚ) - x| := by
      rw [abs_sub_comm (k : ℚ) x]
      exact abs_sub_le _ _ _
    refine ⟨by linarith, fun hsame _ => ?_⟩
    have hk : |(k : ℚ) - x| = 1 / 2 := by linarith
    have hone : |(j : ℚ) - k| = 1 := by linarith
    have hkeven := heven hk
    refine ⟨hkeven, ?_⟩
    have hone' : |j - k| = 1 := by exact_mod_cast hone
    have hodd : Odd (j - k) := by
      rcases abs_eq (by norm_num) |>.1 hone' with h | h <;> rw [h] <;> decide
    have : Odd (j - k + k) := hodd.add_even (by exact_mod_cast hkeven)
    simpa using this

/-! ## Values -/

namespace Binary64

/-- The sign of a number as a factor. -/
def sign (negative : Bool) : ℚ := if negative then -1 else 1

theorem abs_sign (negative : Bool) : |sign negative| = 1 := by
  cases negative <;> simp [sign]

/-- The exact value of a number. -/
def toRat (d : Binary64) : ℚ := sign d.negative * (d.significand * 2 ^ d.scale)

theorem leadingWeight_eq : leadingWeight = 2 ^ 52 := rfl

theorem scale_ge (d : Binary64) : -1074 ≤ d.scale := by
  unfold scale
  omega

theorem abs_toRat (d : Binary64) : |d.toRat| = d.significand * 2 ^ d.scale := by
  rw [toRat, abs_mul, abs_sign, one_mul, abs_of_nonneg (by positivity)]

/-- A significand of fewer digits belongs to the smallest scale. -/
theorem leadingWeight_le_significand {d : Binary64} (h : -1074 < d.scale) :
    leadingWeight ≤ d.significand := by
  have hexponent : d.exponent ≠ 0 := by
    unfold scale at h
    omega
  rw [significand, if_neg hexponent]
  exact Nat.le_add_right _ _

theorem isZero_iff {d : Binary64} : d.isZero ↔ d.toRat = 0 := by
  have hpower : (2 : ℚ) ^ d.scale ≠ 0 := by positivity
  have habs : d.toRat = 0 ↔ d.significand = 0 := by
    rw [← abs_eq_zero, abs_toRat, mul_eq_zero, or_iff_left hpower, Nat.cast_eq_zero]
  rw [habs, isZero, significand, Bool.and_eq_true, beq_iff_eq, beq_iff_eq]
  have := d.fraction_lt
  have hpos : 0 < leadingWeight := by decide
  split <;> omega

/-- The fields of a number are determined by its sign, its significand and its scale. -/
theorem eq_of_significand_eq {a b : Binary64} (hsign : a.negative = b.negative)
    (hsignificand : a.significand = b.significand) (hscale : a.scale = b.scale) : a = b := by
  have ha := a.fraction_lt
  have hb := b.fraction_lt
  have hfields : a.exponent = b.exponent ∧ a.fraction = b.fraction := by
    unfold significand at hsignificand
    unfold scale at hscale
    split at hsignificand <;> split at hsignificand <;> omega
  cases a
  cases b
  simp_all

theorem scale_le_of_abs_eq {a b : Binary64} (h : |a.toRat| = |b.toRat|) : b.scale ≤ a.scale := by
  by_contra hlt
  have hb := leadingWeight_le_significand ((scale_ge a).trans_lt (not_le.1 hlt))
  have ha := a.significand_lt
  rw [abs_toRat, abs_toRat] at h
  obtain ⟨k, hk⟩ := Int.eq_ofNat_of_zero_le (sub_nonneg.2 (Int.add_one_le_of_lt (not_le.1 hlt)))
  have hscale : b.scale = a.scale + ((k + 1 : Nat) : ℤ) := by push_cast; omega
  rw [hscale, zpow_add₀ two_ne_zero, zpow_natCast] at h
  have hsame : (a.significand : ℚ) = b.significand * 2 ^ (k + 1) := by
    have hpower : (2 : ℚ) ^ a.scale ≠ 0 := by positivity
    exact mul_right_cancel₀ hpower (by linarith)
  have hsame' : a.significand = b.significand * 2 ^ (k + 1) := by exact_mod_cast hsame
  have hpow : 2 ≤ 2 ^ (k + 1) := by
    calc 2 = 2 ^ 1 := rfl
      _ ≤ 2 ^ (k + 1) := Nat.pow_le_pow_right two_pos (Nat.le_add_left 1 k)
  have := Nat.mul_le_mul hb hpow
  omega

/-- Equality of numbers is equality of their values. -/
theorem sameNumber_iff {a b : Binary64} : a.sameNumber b ↔ a.toRat = b.toRat := by
  unfold sameNumber
  rw [Bool.or_eq_true, Bool.and_eq_true, isZero_iff, isZero_iff, beq_iff_eq]
  constructor
  · rintro (⟨ha, hb⟩ | rfl)
    · rw [ha, hb]
    · rfl
  · intro h
    by_cases hzero : a.toRat = 0
    · exact .inl ⟨hzero, h ▸ hzero⟩
    · have habs : |a.toRat| = |b.toRat| := by rw [h]
      have hscale : a.scale = b.scale :=
        le_antisymm (scale_le_of_abs_eq habs.symm) (scale_le_of_abs_eq habs)
      have hsignificand : a.significand = b.significand := by
        rw [abs_toRat, abs_toRat, hscale] at habs
        have hpower : (2 : ℚ) ^ b.scale ≠ 0 := by positivity
        exact_mod_cast mul_right_cancel₀ hpower habs
      refine .inr (eq_of_significand_eq ?_ hsignificand hscale)
      have hpos : (0 : ℚ) < b.significand * 2 ^ b.scale := by
        rw [← abs_toRat, ← habs]
        exact abs_pos.2 hzero
      rw [toRat, toRat, hsignificand, hscale] at h
      unfold sign at h
      revert h
      cases a.negative <;> cases b.negative <;> simp <;> intro h <;> linarith

/-! ## The nearest number -/

/-- The number is nearest to a value, and if another one is as near then it is the one whose
significand is even. -/
structure IsNearest (d : Binary64) (x : ℚ) : Prop where
  nearest : ∀ e : Binary64, |d.toRat - x| ≤ |e.toRat - x|
  tiesToEven : ∀ e : Binary64, |e.toRat - x| = |d.toRat - x| → e.toRat ≠ d.toRat →
    Even d.significand

theorem isNearest_of_eq {d : Binary64} {x : ℚ} (h : d.toRat = x) : d.IsNearest x := by
  subst h
  refine ⟨fun e => ?_, fun e hsame hne => ?_⟩
  · rw [sub_self, abs_zero]
    exact abs_nonneg _
  · rw [sub_self, abs_zero, abs_eq_zero, sub_eq_zero] at hsame
    exact absurd hsame hne

/-- A whole number at a scale rounds a value there: it has as many digits as a significand may have,
no other whole number is nearer to the value, and of two equally near ones it is the even one. -/
structure Rounds (k : ℤ) (scale : ℤ) (x : ℚ) : Prop where
  full : 2 ^ 52 * 2 ^ scale ≤ |x| ∨ scale = -1074
  nearest : ∀ j : ℤ, |k * 2 ^ scale - x| ≤ |j * 2 ^ scale - x|
  tie : ∀ j : ℤ, |j * 2 ^ scale - x| = |k * 2 ^ scale - x| → j ≠ k → Even k ∧ Odd j

/-- A number is a multiple of a power of two, an even multiple unless that is its scale, or it has
fewer digits there than a full significand. -/
theorem multiple_or_small (e : Binary64) (scale : ℤ) :
    (∃ j : ℤ, e.toRat = j * 2 ^ scale ∧ (Odd j → Odd e.significand)) ∨
      e.scale < scale ∧ |e.toRat| < 2 ^ 52 * 2 ^ scale := by
  rcases lt_or_ge e.scale scale with hlt | hge
  · refine .inr ⟨hlt, ?_⟩
    have hsignificand : (e.significand : ℚ) < 2 ^ 53 := by
      have := e.significand_lt
      rw [leadingWeight_eq] at this
      exact_mod_cast this
    rw [abs_toRat]
    calc (e.significand : ℚ) * 2 ^ e.scale < 2 ^ 53 * 2 ^ e.scale :=
          mul_lt_mul_of_pos_right hsignificand (by positivity)
      _ = 2 ^ 52 * 2 ^ (e.scale + 1) := by
          rw [zpow_add_one₀ two_ne_zero]
          ring
      _ ≤ 2 ^ 52 * 2 ^ scale :=
          mul_le_mul_of_nonneg_left (zpow_le_zpow_right₀ one_le_two hlt) (by positivity)
  · refine .inl ?_
    obtain ⟨i, hi⟩ := Int.eq_ofNat_of_zero_le (sub_nonneg.2 hge)
    have hscale : e.scale = (i : ℤ) + scale := by rw [← hi]; ring
    have hodd {j : ℤ} (hj : |j| = e.significand * 2 ^ i) (hodd : Odd j) : Odd e.significand := by
      have habs : Odd |j| := odd_abs.2 hodd
      rw [hj] at habs
      exact_mod_cast (Int.odd_mul.1 habs).1
    have hvalue : (e.significand : ℚ) * 2 ^ e.scale = (e.significand * 2 ^ i : ℤ) * 2 ^ scale := by
      rw [hscale, zpow_add₀ two_ne_zero, zpow_natCast]
      push_cast
      ring
    cases hsign : e.negative with
    | false =>
        refine ⟨e.significand * 2 ^ i, ?_, hodd (abs_of_nonneg (by positivity))⟩
        rw [toRat, hsign, hvalue, sign, if_neg Bool.false_ne_true, one_mul]
    | true =>
        refine ⟨-(e.significand * 2 ^ i), ?_, hodd ?_⟩
        · rw [toRat, hsign, hvalue, sign, if_pos rfl]
          push_cast
          ring
        · rw [abs_neg, abs_of_nonneg (by positivity)]

/-- A number with fewer digits than a full significand is farther away than the rounded value. -/
theorem Rounds.lt_of_small {k scale : ℤ} {x : ℚ} (h : Rounds k scale x) {e : Binary64}
    (hscale : e.scale < scale) (hsmall : |e.toRat| < 2 ^ 52 * 2 ^ scale) :
    |k * 2 ^ scale - x| < |e.toRat - x| := by
  rcases h.full with hfull | hleast
  · -- the full significand with the sign of the value lies between the two
    obtain ⟨j, hj⟩ : ∃ j : ℤ, |(j : ℚ) * 2 ^ scale - x| < |e.toRat - x| := by
      rcases le_total 0 x with hx | hx
      · rw [abs_of_nonneg hx] at hfull
        refine ⟨2 ^ 52, ?_⟩
        push_cast
        have := (le_abs_self e.toRat).trans_lt hsmall
        rw [abs_of_nonpos (by linarith), abs_of_nonpos (by linarith)]
        linarith
      · rw [abs_of_nonpos hx] at hfull
        refine ⟨-2 ^ 52, ?_⟩
        push_cast
        have := (neg_abs_le e.toRat)
        rw [abs_of_nonneg (by linarith), abs_of_nonneg (by linarith)]
        linarith
    exact (h.nearest j).trans_lt hj
  · have := scale_ge e
    omega

/-- The number that a rounded value stands for is the nearest one. -/
theorem Rounds.isNearest {k scale : ℤ} {x : ℚ} (h : Rounds k scale x) {d : Binary64}
    (hd : d.toRat = k * 2 ^ scale) (heven : Even k → Even d.significand) : d.IsNearest x := by
  refine ⟨fun e => ?_, fun e hsame hne => ?_⟩
  · rw [hd]
    rcases e.multiple_or_small scale with ⟨j, hj, -⟩ | ⟨hscale, hsmall⟩
    · rw [hj]
      exact h.nearest j
    · exact (h.lt_of_small hscale hsmall).le
  · rw [hd] at hsame hne
    rcases e.multiple_or_small scale with ⟨j, hj, -⟩ | ⟨hscale, hsmall⟩
    · rw [hj] at hsame hne
      exact heven (h.tie j hsame fun heq => hne (by rw [heq])).1
    · exact absurd hsame (h.lt_of_small hscale hsmall).ne'

/-- The nearest number is the one that a rounded value stands for. -/
theorem Rounds.toRat_eq_of_isNearest {k scale : ℤ} {x : ℚ} (h : Rounds k scale x)
    {d e : Binary64} (hd : d.toRat = k * 2 ^ scale) (he : e.IsNearest x) : e.toRat = d.toRat := by
  by_contra hne
  have hle := he.nearest d
  rw [hd] at hle hne
  rcases e.multiple_or_small scale with ⟨j, hj, hodd⟩ | ⟨hscale, hsmall⟩
  · have hsame : |j * 2 ^ scale - x| = |k * 2 ^ scale - x| :=
      le_antisymm (hj ▸ hle) (h.nearest j)
    have hjodd := (h.tie j hsame fun heq => hne (by rw [hj, heq])).2
    -- as a tie it is even at the scale of the other one, but there it is odd
    have heven : Even e.significand :=
      he.tiesToEven d (by rw [hd, hj, hsame]) (by rw [hd]; exact Ne.symm hne)
    exact Nat.not_even_iff_odd.2 (hodd hjodd) heven
  · exact absurd hle (not_le.2 (h.lt_of_small hscale hsmall))

/-! ## Rounding -/

theorem powerOfTwo_eq (k : Nat) : powerOfTwo k = 2 ^ k := by
  rw [powerOfTwo, Nat.one_shiftLeft]

/-- Numerator and denominator at a scale. -/
theorem scaledBy_spec (num : Nat) {den : Nat} (hden : 0 < den) (power : ℤ) :
    0 < (scaledBy num den power).2 ∧
      ((scaledBy num den power).1 : ℚ) / (scaledBy num den power).2 * 2 ^ power = num / den := by
  have hden' : (den : ℚ) ≠ 0 := by positivity
  unfold scaledBy
  split
  next hpower =>
    obtain ⟨k, rfl⟩ := Int.eq_ofNat_of_zero_le hpower
    refine ⟨?_, ?_⟩
    · rw [powerOfTwo_eq]
      positivity
    · rw [powerOfTwo_eq, Int.toNat_natCast, zpow_natCast]
      push_cast
      field_simp
  next hpower =>
    obtain ⟨k, hk⟩ := Int.eq_ofNat_of_zero_le (by omega : 0 ≤ -power)
    refine ⟨hden, ?_⟩
    rw [powerOfTwo_eq, hk, Int.toNat_natCast]
    obtain rfl : power = -(k : ℤ) := by omega
    rw [zpow_neg, zpow_natCast]
    push_cast
    field_simp

/-- The digits of numerator and denominator tell the quotient up to a factor of four. -/
theorem quotient_bounds {num den : Nat} (hnum : num ≠ 0) (hden : den ≠ 0) :
    2 ^ 52 * 2 ^ ((num.log2 : ℤ) - den.log2 - 53) ≤ (num / den : ℚ) ∧
      (num / den : ℚ) < 2 ^ 54 * 2 ^ ((num.log2 : ℤ) - den.log2 - 53) := by
  have hpos : (0 : ℚ) < den := by positivity
  have hnumLower : (2 : ℚ) ^ num.log2 ≤ num := by exact_mod_cast Nat.log2_self_le hnum
  have hnumUpper : (num : ℚ) < 2 ^ (num.log2 + 1) := by exact_mod_cast Nat.lt_log2_self
  have hdenLower : (2 : ℚ) ^ den.log2 ≤ den := by exact_mod_cast Nat.log2_self_le hden
  have hdenUpper : (den : ℚ) < 2 ^ (den.log2 + 1) := by exact_mod_cast Nat.lt_log2_self
  have hpower : (2 : ℚ) ^ ((num.log2 : ℤ) - den.log2 - 53) =
      2 ^ num.log2 / 2 ^ den.log2 / 2 ^ 53 := by
    rw [zpow_sub₀ two_ne_zero, zpow_sub₀ two_ne_zero, zpow_natCast, zpow_natCast]
    rfl
  rw [hpower]
  constructor
  · rw [le_div_iff₀ hpos]
    calc 2 ^ 52 * ((2 : ℚ) ^ num.log2 / 2 ^ den.log2 / 2 ^ 53) * den
        ≤ 2 ^ 52 * ((2 : ℚ) ^ num.log2 / 2 ^ den.log2 / 2 ^ 53) * 2 ^ (den.log2 + 1) :=
          mul_le_mul_of_nonneg_left hdenUpper.le (by positivity)
      _ = 2 ^ num.log2 := by field_simp; ring
      _ ≤ num := hnumLower
  · rw [div_lt_iff₀ hpos]
    calc (num : ℚ) < 2 ^ (num.log2 + 1) := hnumUpper
      _ = 2 ^ 54 * ((2 : ℚ) ^ num.log2 / 2 ^ den.log2 / 2 ^ 53) * 2 ^ den.log2 := by
          field_simp; ring
      _ ≤ 2 ^ 54 * ((2 : ℚ) ^ num.log2 / 2 ^ den.log2 / 2 ^ 53) * den :=
          mul_le_mul_of_nonneg_left hdenLower (by positivity)

/-- At the scale of a quotient its whole part has 53 digits, or fewer if the scale is the smallest
one. -/
theorem scaleOf_spec {num den : Nat} (hnum : num ≠ 0) (hden : 0 < den) :
    -1074 ≤ scaleOf num den ∧ (num / den : ℚ) < 2 ^ 53 * 2 ^ scaleOf num den ∧
      (2 ^ 52 * 2 ^ scaleOf num den ≤ (num / den : ℚ) ∨ scaleOf num den = -1074) := by
  obtain ⟨hlower, hupper⟩ := quotient_bounds hnum hden.ne'
  unfold scaleOf
  generalize hexact : (num.log2 : ℤ) - den.log2 - 53 = exact at hlower hupper ⊢
  obtain ⟨hpos, hscaled⟩ := scaledBy_spec num hden (max exact (-1074))
  have hguess : -1074 ≤ max exact (-1074) := le_max_right _ _
  have hexactLe : exact ≤ max exact (-1074) := le_max_left _ _
  have hpower : (2 : ℚ) ^ exact ≤ 2 ^ max exact (-1074) := zpow_le_zpow_right₀ one_le_two hexactLe
  have hguessPos : (0 : ℚ) < 2 ^ max exact (-1074) := by positivity
  have hweight : ((2 * leadingWeight : Nat) : ℚ) = 2 ^ 53 := by
    rw [leadingWeight_eq]
    norm_num
  rw [← hscaled] at hlower hupper ⊢
  dsimp only
  split
  next hlarge =>
    rw [le_div_iff_cast hpos, hweight] at hlarge
    have hscale := mul_le_mul_of_nonneg_right hlarge hguessPos.le
    rw [zpow_add_one₀ two_ne_zero]
    refine ⟨by omega, ?_, .inl ?_⟩ <;> linarith
  next hlarge =>
    rw [le_div_iff_cast hpos, hweight, not_le] at hlarge
    refine ⟨hguess, mul_lt_mul_of_pos_right hlarge hguessPos, ?_⟩
    rcases le_total exact (-1074) with hleast | hexact
    · exact .inr (max_eq_right hleast)
    · rw [max_eq_left hexact] at hlower ⊢
      exact .inl hlower

theorem toRat_of_ofParts? {negative : Bool} {k : Nat} {scale : ℤ} {d : Binary64}
    (h : ofParts? negative k scale = some d) (hscale : -1074 ≤ scale)
    (hfull : leadingWeight ≤ k ∨ scale = -1074) :
    d.toRat = sign negative * (k * 2 ^ scale) ∧ d.significand = k := by
  unfold ofParts? at h
  split at h
  next hsmall =>
    cases h
    have hleast : scale = -1074 := hfull.resolve_left (not_le.2 hsmall)
    exact ⟨by rw [hleast]; rfl, rfl⟩
  next hsmall =>
    split at h
    next hbounds =>
      cases h
      have hsignificand : (⟨negative, (scale + 1075).toNat, k - leadingWeight, hbounds.2, 
          fraction_lt_of_significand_lt hbounds.1⟩ : Binary64).significand = k := by
        unfold significand
        dsimp only
        rw [if_neg (by omega), Nat.add_sub_cancel' (not_lt.1 hsmall)]
      refine ⟨?_, hsignificand⟩
      rw [toRat, hsignificand]
      congr 3
      unfold Binary64.scale
      dsimp only
      omega
    next => cases h

theorem Rounds.neg {k scale : ℤ} {x : ℚ} (h : Rounds k scale x) : Rounds (-k) scale (-x) := by
  have hflip (j : ℤ) : |(j : ℚ) * 2 ^ scale - -x| = |((-j : ℤ) : ℚ) * 2 ^ scale - x| := by
    rw [← abs_neg]
    push_cast
    ring_nf
  refine ⟨by rw [abs_neg]; exact h.full, fun j => ?_, fun j hsame hne => ?_⟩
  · rw [hflip, hflip, neg_neg]
    exact h.nearest (-j)
  · rw [hflip, hflip, neg_neg] at hsame
    obtain ⟨heven, hodd⟩ := h.tie (-j) hsame fun heq => hne (by rw [← heq, neg_neg])
    exact ⟨heven.neg, by simpa using hodd⟩

/-- The significand of a quotient at a scale. -/
def significandAt (num den : Nat) (scale : ℤ) : Nat :=
  roundHalfEven (scaledBy num den scale).1 (scaledBy num den scale).2

theorem rounds_significandAt {num den : Nat} (hnum : num ≠ 0) (hden : 0 < den) :
    Rounds (significandAt num den (scaleOf num den)) (scaleOf num den) (num / den) := by
  obtain ⟨-, -, hfull⟩ := scaleOf_spec hnum hden
  unfold significandAt
  generalize scaleOf num den = scale at hfull ⊢
  obtain ⟨hpos, hscaled⟩ := scaledBy_spec num hden scale
  have hpower : (0 : ℚ) < 2 ^ scale := by positivity
  have hdistance (j : ℚ) : |j * 2 ^ scale - num / den| =
      |j - (scaledBy num den scale).1 / (scaledBy num den scale).2| * 2 ^ scale := by
    rw [← hscaled, ← sub_mul, abs_mul, abs_of_pos hpower]
  refine ⟨?_, fun j => ?_, fun j hsame hne => ?_⟩
  · rw [abs_of_nonneg (by positivity)]
    exact hfull
  · rw [hdistance, hdistance]
    exact mul_le_mul_of_nonneg_right (roundHalfEven_nearest _ hpos j).1 hpower.le
  · rw [hdistance, hdistance] at hsame
    have htie := (roundHalfEven_nearest _ hpos j).2 (mul_right_cancel₀ hpower.ne' hsame) hne
    exact ⟨by exact_mod_cast htie.1, htie.2⟩

/-- A significand has at most 53 digits, or is the power of two behind these, and no fewer unless
the scale is the smallest one. -/
theorem significandAt_bounds {num den : Nat} (hnum : num ≠ 0) (hden : 0 < den) :
    significandAt num den (scaleOf num den) ≤ 2 * leadingWeight ∧
      (leadingWeight ≤ significandAt num den (scaleOf num den) ∨ scaleOf num den = -1074) := by
  obtain ⟨-, hupper, hfull⟩ := scaleOf_spec hnum hden
  unfold significandAt
  generalize scaleOf num den = scale at hupper hfull ⊢
  obtain ⟨hpos, hscaled⟩ := scaledBy_spec num hden scale
  have hpower : (0 : ℚ) < 2 ^ scale := by positivity
  obtain ⟨hhalf, -⟩ := roundHalfEven_spec (scaledBy num den scale).1 hpos
  rw [abs_le] at hhalf
  rw [← hscaled] at hupper hfull
  rw [leadingWeight_eq]
  constructor
  · have hlt := lt_of_mul_lt_mul_right hupper hpower.le
    have hle : (roundHalfEven (scaledBy num den scale).1 (scaledBy num den scale).2 : ℚ) <
        (2 * 2 ^ 52 + 1 : Nat) := by
      push_cast
      linarith
    exact Nat.lt_succ_iff.1 (by exact_mod_cast hle)
  · refine hfull.imp_left fun hfull => ?_
    have hle := le_of_mul_le_mul_right hfull hpower
    have hlt : ((2 ^ 52 : Nat) : ℚ) <
        (roundHalfEven (scaledBy num den scale).1 (scaledBy num den scale).2 + 1 : Nat) := by
      push_cast
      linarith
    exact Nat.lt_succ_iff.1 (by exact_mod_cast hlt)

theorem ofRatio?_eq {num den : Nat} (hnum : num ≠ 0) (negative : Bool) :
    ofRatio? negative num den =
      if significandAt num den (scaleOf num den) = 2 * leadingWeight then
        ofParts? negative leadingWeight (scaleOf num den + 1)
      else ofParts? negative (significandAt num den (scaleOf num den)) (scaleOf num den) := by
  rw [ofRatio?, if_neg hnum]
  rfl

/-- A rounded quotient stands for a whole number that rounds the quotient at a scale. -/
theorem exists_rounds_of_ofRatio? {negative : Bool} {num den : Nat} {d : Binary64}
    (h : ofRatio? negative num den = some d) (hnum : num ≠ 0) (hden : 0 < den) :
    ∃ k scale : ℤ, Rounds k scale (sign negative * (num / den)) ∧ d.toRat = k * 2 ^ scale ∧
      (Even k → Even d.significand) := by
  have hrounds := rounds_significandAt hnum hden
  obtain ⟨-, hfull⟩ := significandAt_bounds hnum hden
  obtain ⟨hleast, -, -⟩ := scaleOf_spec hnum hden
  rw [ofRatio?_eq hnum] at h
  generalize significandAt num den (scaleOf num den) = k at *
  generalize scaleOf num den = scale at *
  have hparts : d.toRat = sign negative * (k * 2 ^ scale) ∧ (Even k → Even d.significand) := by
    split at h
    next hoverflow =>
      obtain ⟨hvalue, hsignificand⟩ := toRat_of_ofParts? h (by omega) (.inl le_rfl)
      refine ⟨?_, fun _ => ?_⟩
      · rw [hvalue, hoverflow, zpow_add_one₀ two_ne_zero]
        push_cast
        ring
      · rw [hsignificand]
        decide
    next =>
      obtain ⟨hvalue, hsignificand⟩ := toRat_of_ofParts? h hleast hfull
      exact ⟨hvalue, fun heven => hsignificand ▸ heven⟩
  cases negative with
  | false =>
      refine ⟨k, scale, ?_, ?_, fun heven => hparts.2 (by exact_mod_cast heven)⟩
      · simpa [sign] using hrounds
      · simpa [sign] using hparts.1
  | true =>
      refine ⟨-k, scale, ?_, ?_, fun heven => hparts.2 (by exact_mod_cast even_neg.1 heven)⟩
      · simpa [sign] using hrounds.neg
      · simpa [sign] using hparts.1

/-- A rounded quotient is the nearest number. -/
theorem isNearest_of_ofRatio? {negative : Bool} {num den : Nat} {d : Binary64}
    (h : ofRatio? negative num den = some d) (hden : 0 < den) :
    d.IsNearest (sign negative * (num / den)) := by
  by_cases hnum : num = 0
  · subst hnum
    cases h
    exact isNearest_of_eq (by simp [toRat, zero, significand])
  · obtain ⟨k, scale, hrounds, hvalue, heven⟩ := exists_rounds_of_ofRatio? h hnum hden
    exact hrounds.isNearest hvalue heven

/-! ## Integers -/

theorem sign_mul_natAbs (n : ℤ) : sign (decide (n < 0)) * ((n.natAbs : ℚ) / (1 : Nat)) = n := by
  have habs : (n.natAbs : ℚ) = |(n : ℚ)| := by
    rw [← Int.cast_abs, ← Int.natCast_natAbs]
    rfl
  rw [Nat.cast_one, div_one, habs, sign]
  rcases lt_or_ge n 0 with hn | hn
  · rw [if_pos (decide_eq_true hn), abs_of_neg (by exact_mod_cast hn), neg_one_mul, neg_neg]
  · rw [if_neg (by simpa using hn), abs_of_nonneg (by exact_mod_cast hn), one_mul]

theorem isNearest_of_ofInt? {n : ℤ} {d : Binary64} (h : ofInt? n = some d) : d.IsNearest n := by
  rw [← sign_mul_natAbs]
  exact isNearest_of_ofRatio? h one_pos

theorem exists_rounds_of_ofInt? {n : ℤ} {d : Binary64} (h : ofInt? n = some d) (hn : n ≠ 0) :
    ∃ k scale : ℤ, Rounds k scale n ∧ d.toRat = k * 2 ^ scale := by
  obtain ⟨k, scale, hrounds, hvalue, -⟩ :=
    exists_rounds_of_ofRatio? h (Int.natAbs_ne_zero.2 hn) one_pos
  rw [sign_mul_natAbs] at hrounds
  exact ⟨k, scale, hrounds, hvalue⟩

/-- Two numbers nearest to an integer are equal, since one of them is the rounded integer. -/
theorem toRat_eq_of_isNearest {n : ℤ} {d e : Binary64} (h : ofInt? n = some d)
    (he : e.IsNearest n) : e.toRat = d.toRat := by
  by_cases hn : n = 0
  · subst hn
    cases h
    have hzero : (zero (decide ((0 : ℤ) < 0))).toRat = 0 := by simp [toRat, zero, significand]
    have hle := he.nearest (zero (decide ((0 : ℤ) < 0)))
    rw [hzero, Int.cast_zero, sub_zero, sub_zero, abs_zero] at hle
    rw [hzero]
    exact abs_nonpos_iff.1 hle
  · obtain ⟨k, scale, hrounds, hvalue⟩ := exists_rounds_of_ofInt? h hn
    exact hrounds.toRat_eq_of_isNearest hvalue he

theorem IsNearest.congr {a b : Binary64} {x : ℚ} (h : a.IsNearest x) (hsame : a.sameNumber b) :
    b.IsNearest x := by
  have hvalue := sameNumber_iff.1 hsame
  refine ⟨fun e => hvalue ▸ h.nearest e, fun e htie hne => ?_⟩
  rw [← hvalue] at htie hne
  have heven := h.tiesToEven e htie hne
  rw [sameNumber, Bool.or_eq_true, Bool.and_eq_true, beq_iff_eq] at hsame
  rcases hsame with ⟨-, hb⟩ | rfl
  · have hb := isZero_iff.1 hb
    rw [← abs_eq_zero, abs_toRat, mul_eq_zero, or_iff_left (by positivity), Nat.cast_eq_zero] at hb
    rw [hb]
    exact Even.zero
  · exact heven

/-- A number equals the rounded integer just if it is nearest to the integer. -/
theorem sameNumber_ofInt?_iff {n : ℤ} {d e : Binary64} (h : ofInt? n = some d) :
    d.sameNumber e ↔ e.IsNearest n :=
  ⟨(isNearest_of_ofInt? h).congr, fun he => sameNumber_iff.2 (toRat_eq_of_isNearest h he).symm⟩

/-- At the scale at which it has 53 digits an integer of no more digits is a whole number. -/
theorem exists_multiple_of_full {n scale : ℤ} (hn : |n| ≤ 2 ^ 53)
    (hfull : 2 ^ 52 * 2 ^ scale ≤ |(n : ℚ)| ∨ scale = -1074) :
    ∃ j : ℤ, (n : ℚ) = j * 2 ^ scale := by
  have hn' : |(n : ℚ)| ≤ 2 ^ 53 := by exact_mod_cast hn
  rcases le_or_gt scale 0 with hscale | hscale
  · obtain ⟨i, hi⟩ := Int.eq_ofNat_of_zero_le (neg_nonneg.2 hscale)
    refine ⟨n * 2 ^ i, ?_⟩
    obtain rfl : scale = -(i : ℤ) := by omega
    rw [zpow_neg, zpow_natCast]
    push_cast
    field_simp
  · have hfull := hfull.resolve_right (by omega)
    obtain rfl : scale = 1 := by
      by_contra hne
      have hpower : (2 : ℚ) ^ (2 : ℤ) ≤ 2 ^ scale := zpow_le_zpow_right₀ one_le_two (by omega)
      norm_num at hpower hfull hn'
      linarith
    -- the only such integers are the power of two behind 53 digits and its negative
    have habs : |n| = 2 ^ 53 := by
      refine le_antisymm hn ?_
      have : (2 ^ 53 : ℚ) ≤ |(n : ℚ)| := by
        norm_num at hfull ⊢
        linarith
      exact_mod_cast this
    rcases abs_eq (by norm_num) |>.1 habs with rfl | rfl
    · exact ⟨2 ^ 52, by norm_num⟩
    · exact ⟨-2 ^ 52, by norm_num⟩

/-- Integers of up to 53 digits are numbers themselves. -/
theorem toRat_of_ofInt? {n : ℤ} {d : Binary64} (h : ofInt? n = some d) (hn : |n| ≤ 2 ^ 53) :
    d.toRat = n := by
  by_cases hzero : n = 0
  · subst hzero
    cases h
    simp [toRat, zero, significand]
  · obtain ⟨k, scale, hrounds, hvalue⟩ := exists_rounds_of_ofInt? h hzero
    obtain ⟨j, hj⟩ := exists_multiple_of_full hn hrounds.full
    have hle := hrounds.nearest j
    rw [hj, sub_self, abs_zero, ← hj, ← hvalue, abs_nonpos_iff, sub_eq_zero] at hle
    exact hle

theorem exists_ofParts? (negative : Bool) {k : Nat} {scale : ℤ} (hk : k < 2 * leadingWeight)
    (hscale : scale < 972) : ∃ d, ofParts? negative k scale = some d := by
  unfold ofParts?
  split
  · exact ⟨_, rfl⟩
  · exact ⟨_, dif_pos ⟨hk, by omega⟩⟩

/-- The integers of 64 bits are in the range of the numbers. -/
theorem exists_ofInt? {n : ℤ} (hn : |n| ≤ 2 ^ 63) : ∃ d, ofInt? n = some d := by
  unfold ofInt?
  by_cases hzero : n.natAbs = 0
  · rw [hzero]
    exact ⟨_, rfl⟩
  · obtain ⟨-, -, hfull⟩ := scaleOf_spec hzero one_pos
    obtain ⟨hle, -⟩ := significandAt_bounds hzero one_pos
    rw [ofRatio?_eq hzero]
    have hscale : scaleOf n.natAbs 1 < 12 := by
      rcases hfull with hfull | hleast
      · by_contra hge
        have hpower : (2 : ℚ) ^ (12 : ℤ) ≤ 2 ^ scaleOf n.natAbs 1 :=
          zpow_le_zpow_right₀ one_le_two (not_lt.1 hge)
        have hn' : (n.natAbs : ℚ) ≤ 2 ^ 63 := by
          rw [Int.abs_eq_natAbs] at hn
          exact_mod_cast hn
        norm_num at hpower hfull hn'
        linarith
      · omega
    split
    · exact exists_ofParts? _ (by decide) (by omega)
    · exact exists_ofParts? _ (by omega) (by omega)

end Binary64

end QueryPlanner
