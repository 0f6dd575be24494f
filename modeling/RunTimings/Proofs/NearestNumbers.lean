import Mathlib.Algebra.Order.Field.Rat
import Mathlib.Data.Nat.Cast.Order.Field
import Mathlib.Tactic.FieldSimp
import Mathlib.Tactic.Linarith
import Mathlib.Tactic.NormNum
import Mathlib.Tactic.Positivity
import Mathlib.Tactic.Ring
import Mathlib.Tactic.Zify
import RunTimings.Number.Binary64
import RunTimings.Number.Shortest

/-! # Nearest numbers — what a decimal reads as

    A decimal reads as the binary64 number next to it, a tie going to the even one.
    The rounding keeps of a quotient its whole part and two bits that tell where in
    the next unit it lies, and shifts them down; what is kept after a shift is what
    would have been kept of the shifted quotient.

    * `Keeps` — what is kept of a quotient; `Keeps.shiftRight` shifts it, and
      `Keeps.rounded` is the even rule.
    * `Binade` — the place a number is rounded at, told by its size.
    * `ReadsBack` — the numbers that are next to a binary64 number.
    * **`ofScientific_of_readsBack`** — a decimal that is next to a binary64 number
      is read as that number. -/

namespace RunTimings

open Float.Model Float.Model.UnpackedFloat

/-! ## What is kept of a quotient -/

/-- Of a quotient its whole part, whether at least half a unit is left, and whether
    something other than none or half of it is. -/
structure Keeps (num den : ℕ) (em : ExtendedMantissa) : Prop where
  whole : em.mantissa = num / den
  half : em.roundBit = decide (den ≤ 2 * (num % den))
  rest : em.stickyBit = decide (2 * (num % den) % den ≠ 0)

theorem keeps_exact (m : ℕ) : Keeps m 1 (.ofMantissaAndAccuracy m .exact) := by
  refine ⟨?_, ?_, ?_⟩ <;> simp [ExtendedMantissa.ofMantissaAndAccuracy, Nat.mod_one]

theorem keeps_fraction {num den : ℕ} (hden : 0 < den) :
    Keeps num den
      (.ofMantissaAndAccuracy (num / den) (accuracyOfFraction (num % den) den)) := by
  have hlt : num % den < den := Nat.mod_lt num hden
  unfold accuracyOfFraction
  by_cases hzero : num % den = 0
  · rw [if_pos hzero]
    refine ⟨rfl, ?_, ?_⟩
    · rw [hzero]
      exact (decide_eq_false (by omega)).symm
    · rw [hzero, Nat.mul_zero, Nat.zero_mod]
      rfl
  · rw [if_neg hzero]
    rcases lt_trichotomy (2 * (num % den)) den with hlow | hmid | hhigh
    · rw [compare_lt_iff_lt.mpr hlow]
      refine ⟨rfl, ?_, ?_⟩
      · exact (decide_eq_false (by omega)).symm
      · rw [Nat.mod_eq_of_lt hlow]
        exact (decide_eq_true (by omega)).symm
    · rw [compare_eq_iff_eq.mpr hmid]
      refine ⟨rfl, ?_, ?_⟩
      · exact (decide_eq_true (by omega)).symm
      · rw [hmid, Nat.mod_self]
        rfl
    · rw [compare_gt_iff_gt.mpr hhigh]
      refine ⟨rfl, ?_, ?_⟩
      · exact (decide_eq_true (by omega)).symm
      · have hmod : 2 * (num % den) % den = 2 * (num % den) - den := by
          rw [Nat.mod_eq_sub_mod hhigh.le, Nat.mod_eq_of_lt (by omega)]
        rw [hmod]
        exact (decide_eq_true (by omega)).symm

/-- **ONE STEP**: what is kept of half the quotient. -/
theorem Keeps.shiftRightOne {num den : ℕ} {em : ExtendedMantissa} (hden : 0 < den)
    (h : Keeps num den em) : Keeps num (den * 2) em.shiftRightOne := by
  obtain ⟨hwhole, hhalf, hrest⟩ := h
  have hlt : num % den < den := Nat.mod_lt num hden
  have hmod : num % (den * 2) = num % den + den * (num / den % 2) := Nat.mod_mul
  refine ⟨?_, ?_, ?_⟩
  · show em.mantissa / 2 = _
    rw [hwhole, Nat.div_div_eq_div_mul]
  · show (em.mantissa % 2 != 0) = _
    rw [hwhole, hmod]
    rcases Nat.mod_two_eq_zero_or_one (num / den) with hbit | hbit
    · rw [hbit]
      exact (decide_eq_false (by omega)).symm
    · rw [hbit]
      exact (decide_eq_true (by omega)).symm
  · show (em.roundBit || em.stickyBit) = _
    have hdouble : 2 * (num % (den * 2)) % (den * 2) = 2 * (num % den) := by
      rw [Nat.mul_comm den 2, Nat.mul_mod_mul_left, Nat.mul_comm 2 den,
        Nat.mod_mul_right_mod]
    rw [hhalf, hrest, hdouble, ← Bool.decide_or]
    refine decide_eq_decide.mpr ⟨?_, ?_⟩
    · rintro (hle | hne) hzero
      · omega
      · exact hne (by rw [hzero, Nat.zero_mod])
    · intro hne
      rcases Nat.lt_or_ge (2 * (num % den)) den with hlow | hhigh
      · exact .inr (by rwa [Nat.mod_eq_of_lt hlow])
      · exact .inl hhigh

/-- **ALL STEPS**: what is kept of the quotient with a power of two taken out. -/
theorem Keeps.shiftRight {num den : ℕ} {em : ExtendedMantissa} (hden : 0 < den)
    (h : Keeps num den em) (steps : ℕ) : Keeps num (den * 2 ^ steps) (em >>> steps) := by
  induction steps with
  | zero =>
      rw [Nat.pow_zero, Nat.mul_one]
      exact h
  | succ steps ih =>
      rw [Nat.pow_succ, ← Nat.mul_assoc]
      exact ih.shiftRightOne (Nat.mul_pos hden (Nat.two_pow_pos steps))

/-- The even rule, by what is left of the quotient. -/
theorem Keeps.roundedMantissa_eq {num den : ℕ} {em : ExtendedMantissa} (hden : 0 < den)
    (h : Keeps num den em) :
    em.roundedMantissa
      = if 2 * (num % den) < den then num / den
        else if 2 * (num % den) = den then num / den + num / den % 2
        else num / den + 1 := by
  obtain ⟨mantissa, roundBit, stickyBit⟩ := em
  obtain ⟨rfl, rfl, rfl⟩ := h
  have hlt : num % den < den := Nat.mod_lt num hden
  rcases lt_trichotomy (2 * (num % den)) den with hlow | hmid | hhigh
  · rw [if_pos hlow, decide_eq_false (by omega)]
    cases decide (2 * (num % den) % den ≠ 0) <;> rfl
  · rw [if_neg (by omega), if_pos hmid, decide_eq_true hmid.ge, hmid, Nat.mod_self]
    rfl
  · have hmod : 2 * (num % den) % den = 2 * (num % den) - den := by
      rw [Nat.mod_eq_sub_mod hhigh.le, Nat.mod_eq_of_lt (by omega)]
    rw [if_neg (by omega), if_neg (by omega), decide_eq_true hhigh.le, hmod,
      decide_eq_true (by omega)]
    rfl

/-- **ROUNDED**: the quotient is at most half a unit away from the whole number that
    it is rounded to, and half a unit only if that is even. -/
theorem Keeps.rounded {num den n : ℕ} {em : ExtendedMantissa} (hden : 0 < den)
    (h : Keeps num den em) (hlow : 2 * (den * n) ≤ 2 * num + den)
    (hhigh : 2 * num ≤ 2 * (den * n) + den)
    (hodd : n % 2 = 1 → 2 * (den * n) ≠ 2 * num + den ∧ 2 * num ≠ 2 * (den * n) + den) :
    em.roundedMantissa = n := by
  rw [h.roundedMantissa_eq hden]
  have hlt : num % den < den := Nat.mod_lt num hden
  have hsplit : den * (num / den) + num % den = num := Nat.div_add_mod num den
  generalize num / den = whole at hsplit ⊢
  generalize num % den = left at hlt hsplit ⊢
  have hle : whole ≤ n := by
    by_contra hgt
    have hmul : den * (n + 1) ≤ den * whole := Nat.mul_le_mul_left den (by omega)
    rw [Nat.mul_add] at hmul
    omega
  have hge : n ≤ whole + 1 := by
    by_contra hgt
    have hmul : den * (whole + 2) ≤ den * n := Nat.mul_le_mul_left den (by omega)
    rw [Nat.mul_add] at hmul
    omega
  rcases Nat.eq_or_lt_of_le hle with rfl | hup
  · split
    · rfl
    · split <;> omega
  · obtain rfl : n = whole + 1 := by omega
    rw [Nat.mul_add] at hlow hhigh hodd
    split
    · omega
    · split <;> omega

/-! ## The place a number is rounded at -/

/-- The size of a number tells the place at which it is rounded: it has fifty-three
    binary digits above that place, or fewer if there is no lower place. -/
structure Binade (v : ℚ) (place : ℤ) : Prop where
  least : -1074 ≤ place
  below : v < 2 ^ (53 + place)
  filled : place = -1074 ∨ (2 : ℚ) ^ (52 + place) ≤ v

theorem targetExponent_eq (total : ℤ) :
    Format.binary64.targetExponent total = max (total - 53) (-1074) := rfl

/-- The whole part of a quotient tells the size of the number. -/
theorem target_of_binade {v : ℚ} {place : ℤ} (h : Binade v place) {whole : ℕ} {exponent : ℤ}
    (hfloor : (whole : ℚ) * 2 ^ exponent ≤ v) (hceil : v < (whole + 1) * 2 ^ exponent)
    (hplace : exponent ≤ place) :
    Format.binary64.targetExponent (totalExponent whole exponent) = place := by
  have hone : (1 : ℚ) < 2 := by norm_num
  have htwo : (2 : ℚ) ≠ 0 := by norm_num
  obtain ⟨hleast, hbelow, hfilled⟩ := h
  rw [targetExponent_eq, totalExponent]
  rcases Nat.eq_zero_or_pos whole with rfl | hpos
  · have hsmall : v < 2 ^ place := by
      refine lt_of_lt_of_le hceil ?_
      rw [Nat.cast_zero, zero_add, one_mul]
      exact zpow_le_zpow_right₀ hone.le hplace
    rcases hfilled with rfl | hfill
    · rw [Nat.log2_zero]
      omega
    · have hlt := (zpow_lt_zpow_iff_right₀ hone).mp (lt_of_le_of_lt hfill hsmall)
      omega
  · have hlog : (2 : ℚ) ^ (Nat.log2 whole + exponent : ℤ) ≤ v := by
      refine le_trans ?_ hfloor
      rw [zpow_add₀ htwo, zpow_natCast]
      refine mul_le_mul_of_nonneg_right ?_ (zpow_pos (by norm_num) _).le
      exact_mod_cast Nat.log2_self_le hpos.ne'
    have hlog' : v < (2 : ℚ) ^ (((Nat.log2 whole + 1 : ℕ) : ℤ) + exponent) := by
      refine lt_of_lt_of_le hceil ?_
      rw [zpow_add₀ htwo, ← Nat.cast_succ, zpow_natCast]
      refine mul_le_mul_of_nonneg_right ?_ (zpow_pos (by norm_num) _).le
      exact_mod_cast Nat.lt_log2_self
    have hup := (zpow_lt_zpow_iff_right₀ hone).mp (lt_of_le_of_lt hlog hbelow)
    rcases hfilled with rfl | hfill
    · omega
    · have hdown := (zpow_lt_zpow_iff_right₀ hone).mp (lt_of_le_of_lt hfill hlog')
      omega

/-- **FIRST SHIFT**: it stops at the place that the size of the number tells, and
    keeps there what there is to keep. -/
theorem first_shift {num den : ℕ} (hden : 0 < den) {exponent : ℤ} {accuracy : Accuracy}
    (hkeeps : Keeps num den (.ofMantissaAndAccuracy (num / den) accuracy)) {v : ℚ} {place : ℤ}
    (hvalue : v = num / den * 2 ^ exponent) (hbinade : Binade v place) (hplace : exponent ≤ place) :
    ∃ (den' : ℕ) (em : ExtendedMantissa), 0 < den' ∧ v = num / den' * 2 ^ place
      ∧ Keeps num den' em
      ∧ shiftToTargetExponent .binary64 (num / den) exponent accuracy = (em, place) := by
  have hdenq : (0 : ℚ) < den := by exact_mod_cast hden
  have hexp : (0 : ℚ) < 2 ^ exponent := zpow_pos (by norm_num) _
  have htarget : Format.binary64.targetExponent (totalExponent (num / den) exponent) = place := by
    refine target_of_binade hbinade ?_ ?_ hplace
    · rw [hvalue]
      refine mul_le_mul_of_nonneg_right ?_ hexp.le
      exact Nat.cast_div_le
    · rw [hvalue]
      refine mul_lt_mul_of_pos_right ?_ hexp
      rw [div_lt_iff₀ hdenq]
      rw [mul_comm]
      exact_mod_cast Nat.lt_mul_div_succ num hden
  obtain ⟨steps, hsteps⟩ : ∃ steps : ℕ, place = exponent + steps :=
    ⟨(place - exponent).toNat, by omega⟩
  refine ⟨den * 2 ^ steps, _, Nat.mul_pos hden (Nat.two_pow_pos steps), ?_,
    hkeeps.shiftRight hden steps, ?_⟩
  · rw [hvalue, hsteps, zpow_add₀ (by norm_num), zpow_natCast]
    push_cast
    field_simp
  · rw [shiftToTargetExponent, htarget, shiftToExponent, hsteps]
    have hcount : (exponent + steps - exponent).toNat = steps := by omega
    simp only [hcount]

/-- **SECOND SHIFT**: a mantissa that fits stays. -/
theorem second_shift {mantissa : ℕ} {exponent : ℤ} (hfits : mantissa < 2 ^ 53)
    (hleast : -1074 ≤ exponent) :
    shiftToTargetExponent .binary64 mantissa exponent .exact
      = (⟨mantissa, false, false⟩, exponent) := by
  have hlog : mantissa.log2 ≤ 52 := by
    rcases Nat.eq_zero_or_pos mantissa with rfl | hpos
    · decide
    · have := (Nat.log2_lt hpos.ne').mpr hfits
      omega
  have hcount : (Format.binary64.targetExponent (totalExponent mantissa exponent)
      - exponent).toNat = 0 := by
    rw [targetExponent_eq, totalExponent]
    omega
  simp only [shiftToTargetExponent, shiftToExponent, hcount]
  rw [Int.natCast_zero, Int.add_zero]
  rfl

/-- A mantissa that is one too many for its place moves one place up. -/
theorem second_shift_carry {exponent : ℤ} (hleast : -1074 ≤ exponent) :
    shiftToTargetExponent .binary64 (2 ^ 53) exponent .exact
      = (⟨2 ^ 52, false, false⟩, exponent + 1) := by
  have hcount : (Format.binary64.targetExponent (totalExponent (2 ^ 53) exponent)
      - exponent).toNat = 1 := by
    rw [targetExponent_eq, totalExponent, Nat.log2_two_pow]
    omega
  simp only [shiftToTargetExponent, shiftToExponent, hcount]
  rfl

/-! ## Reading back -/

/-- The mantissa and exponent of a positive binary64 number. -/
structure Canonical (mantissa : ℕ) (exponent : ℤ) : Prop where
  positive : 0 < mantissa
  fits : mantissa < 2 ^ 53
  least : -1074 ≤ exponent
  greatest : exponent ≤ 971
  filled : exponent = -1074 ∨ 2 ^ 52 ≤ mantissa

/-- How far the span of a number reaches down, in quarters of its last place. -/
def reachBelow (mantissa : ℕ) (exponent : ℤ) : ℕ :=
  if mantissa = Nat.pow 2 52 ∧ -1074 < exponent then 1 else 2

theorem reachBelow_le (mantissa : ℕ) (exponent : ℤ) : reachBelow mantissa exponent ≤ 2 := by
  unfold reachBelow
  split <;> decide

/-- The numbers that are read as a binary64 number: those next to it, the ends only
    if it is even. -/
structure ReadsBack (mantissa : ℕ) (exponent : ℤ) (v : ℚ) : Prop where
  low : ((4 * mantissa - reachBelow mantissa exponent : ℤ) : ℚ) * 2 ^ (exponent - 2) ≤ v
  high : v ≤ ((4 * mantissa + 2 : ℤ) : ℚ) * 2 ^ (exponent - 2)
  odd : mantissa % 2 = 1 →
    ((4 * mantissa - reachBelow mantissa exponent : ℤ) : ℚ) * 2 ^ (exponent - 2) ≠ v
      ∧ v ≠ ((4 * mantissa + 2 : ℤ) : ℚ) * 2 ^ (exponent - 2)

/-- A whole number of units of a place that a number is rounded to there. -/
structure Nearest (n : ℕ) (place : ℤ) (v : ℚ) : Prop where
  low : (2 * n - 1) * 2 ^ (place - 1) ≤ v
  high : v ≤ (2 * n + 1) * 2 ^ (place - 1)
  odd : n % 2 = 1 → (2 * n - 1) * 2 ^ (place - 1) ≠ v ∧ v ≠ (2 * n + 1) * 2 ^ (place - 1)

theorem Keeps.rounded_of_nearest {num den n : ℕ} {em : ExtendedMantissa} (hden : 0 < den)
    (h : Keeps num den em) {place : ℤ} {v : ℚ} (hvalue : v = num / den * 2 ^ place)
    (hnear : Nearest n place v) : em.roundedMantissa = n := by
  have hdenq : (0 : ℚ) < den := by exact_mod_cast hden
  have hunit : (0 : ℚ) < 2 ^ (place - 1) := zpow_pos (by norm_num) _
  have hhalves : v = 2 * num / den * 2 ^ (place - 1) := by
    rw [hvalue, zpow_sub_one₀ (by norm_num)]
    ring
  obtain ⟨hlow, hhigh, hodd⟩ := hnear
  rw [hhalves] at hlow hhigh hodd
  have hlow := le_of_mul_le_mul_right hlow hunit
  have hhigh := le_of_mul_le_mul_right hhigh hunit
  rw [le_div_iff₀ hdenq] at hlow
  rw [div_le_iff₀ hdenq] at hhigh
  refine h.rounded hden ?_ ?_ ?_
  · have : (2 : ℚ) * (den * n) ≤ 2 * num + den := by linarith
    exact_mod_cast this
  · have : (2 : ℚ) * num ≤ 2 * (den * n) + den := by linarith
    exact_mod_cast this
  · intro hn
    obtain ⟨hne, hne'⟩ := hodd hn
    refine ⟨fun heq => hne ?_, fun heq => hne' ?_⟩
    · have heq : (2 : ℚ) * (den * n) = 2 * num + den := by exact_mod_cast heq
      congr 1
      rw [eq_div_iff hdenq.ne']
      linarith
    · have heq : (2 : ℚ) * num = 2 * (den * n) + den := by exact_mod_cast heq
      congr 1
      rw [div_eq_iff hdenq.ne']
      linarith

/-- The last place of a number and those around it, in quarters of that place. -/
theorem places_in_quarters (exponent : ℤ) :
    (2 : ℚ) ^ exponent = 4 * 2 ^ (exponent - 2)
      ∧ (2 : ℚ) ^ (exponent - 1) = 2 * 2 ^ (exponent - 2)
      ∧ (2 : ℚ) ^ (exponent - 1 - 1) = 2 ^ (exponent - 2)
      ∧ (2 : ℚ) ^ (52 + exponent) = 2 ^ 54 * 2 ^ (exponent - 2)
      ∧ (2 : ℚ) ^ (53 + exponent) = 2 ^ 55 * 2 ^ (exponent - 2) := by
  have hquarter : ∀ k : ℕ, (2 : ℚ) ^ ((k : ℤ) + (exponent - 2)) = 2 ^ k * 2 ^ (exponent - 2) := by
    intro k
    rw [zpow_add₀ (by norm_num), zpow_natCast]
  refine ⟨?_, ?_, ?_, ?_, ?_⟩
  · rw [show exponent = ((2 : ℕ) : ℤ) + (exponent - 2) by omega, hquarter]
    norm_num
  · rw [show exponent - 1 = ((1 : ℕ) : ℤ) + (exponent - 2) by omega, hquarter]
    norm_num
  · rw [show exponent - 1 - 1 = exponent - 2 by omega]
  · rw [← hquarter]
    congr 1
    omega
  · rw [← hquarter]
    congr 1
    omega

/-- What is read as a number is next to it at its last place. -/
theorem ReadsBack.nearest {mantissa : ℕ} {exponent : ℤ} {v : ℚ} (h : ReadsBack mantissa exponent v) :
    Nearest mantissa exponent v := by
  obtain ⟨hlow, hhigh, hodd⟩ := h
  obtain ⟨-, hhalf, -⟩ := places_in_quarters exponent
  have hunit : (0 : ℚ) < 2 ^ (exponent - 2) := zpow_pos (by norm_num) _
  have hreach : (reachBelow mantissa exponent : ℚ) ≤ 2 := by exact_mod_cast reachBelow_le _ _
  push_cast at hlow hhigh hodd
  refine ⟨?_, ?_, ?_⟩
  · rw [hhalf]
    nlinarith
  · rw [hhalf]
    linarith
  · intro hmod
    obtain ⟨hne, hne'⟩ := hodd hmod
    -- the span is shorter only below a power of two, which is even
    have htwo : reachBelow mantissa exponent = 2 := if_neg fun hboth => by
      rw [hboth.1] at hmod
      exact absurd hmod (by decide)
    rw [htwo] at hne
    push_cast at hne
    rw [hhalf]
    exact ⟨fun heq => hne (by linarith), fun heq => hne' (by linarith)⟩

/-- It has no more binary digits above that place than the number. -/
theorem ReadsBack.below {mantissa : ℕ} {exponent : ℤ} {v : ℚ} (h : ReadsBack mantissa exponent v)
    (hnumber : Canonical mantissa exponent) : v < 2 ^ (53 + exponent) := by
  have hhigh := h.high
  obtain ⟨-, -, -, -, hup⟩ := places_in_quarters exponent
  have hunit : (0 : ℚ) < 2 ^ (exponent - 2) := zpow_pos (by norm_num) _
  have hfits : (mantissa : ℚ) + 1 ≤ 2 ^ 53 := by
    have : mantissa + 1 ≤ 2 ^ 53 := hnumber.fits
    exact_mod_cast this
  push_cast at hhigh
  rw [hup]
  nlinarith

/-- If it has fewer, though there is a lower place, then the number is a power of two. -/
theorem ReadsBack.eq_of_lt {mantissa : ℕ} {exponent : ℤ} {v : ℚ}
    (h : ReadsBack mantissa exponent v) (hnumber : Canonical mantissa exponent)
    (hplace : exponent ≠ -1074) (hless : v < 2 ^ (52 + exponent)) : mantissa = 2 ^ 52 := by
  have hlow := h.low
  obtain ⟨-, -, -, hdown, -⟩ := places_in_quarters exponent
  have hunit : (0 : ℚ) < 2 ^ (exponent - 2) := zpow_pos (by norm_num) _
  have hreach : (reachBelow mantissa exponent : ℚ) ≤ 2 := by exact_mod_cast reachBelow_le _ _
  push_cast at hlow
  rw [hdown] at hless
  rcases Nat.eq_or_lt_of_le (hnumber.filled.resolve_left hplace) with heq | hgt
  · exact heq.symm
  · exfalso
    have hgtq : (2 : ℚ) ^ 52 + 1 ≤ mantissa := by
      have : 2 ^ 52 + 1 ≤ mantissa := hgt
      exact_mod_cast this
    nlinarith

/-- What is read as a power of two but less than it is next to it one place lower. -/
theorem ReadsBack.nearest_below {exponent : ℤ} {v : ℚ} (h : ReadsBack (2 ^ 52) exponent v)
    (hplace : -1074 < exponent) (hless : v < 2 ^ (52 + exponent)) :
    Binade v (exponent - 1) ∧ Nearest (2 ^ 53) (exponent - 1) v := by
  have hlow := h.low
  obtain ⟨-, -, hquarter, hdown, -⟩ := places_in_quarters exponent
  have hunit : (0 : ℚ) < 2 ^ (exponent - 2) := zpow_pos (by norm_num) _
  have hreach : reachBelow (2 ^ 52) exponent = 1 := if_pos ⟨rfl, hplace⟩
  rw [hreach] at hlow
  push_cast at hlow
  refine ⟨⟨by omega, ?_, .inr ?_⟩, ?_, ?_, ?_⟩
  · rw [show 53 + (exponent - 1) = 52 + exponent by omega]
    exact hless
  · rw [show 52 + (exponent - 1) = ((53 : ℕ) : ℤ) + (exponent - 2) by omega,
      zpow_add₀ (by norm_num), zpow_natCast]
    nlinarith
  · rw [hquarter]
    push_cast
    linarith
  · rw [hdown] at hless
    rw [hquarter]
    push_cast
    linarith
  · exact fun hmod => absurd hmod (by decide)

/-- **TWO PLACES**: what is read as a number is rounded at the last place of that
    number, to its mantissa; or, below a power of two, one place lower, and then all
    digits are carried. -/
theorem ReadsBack.place {mantissa : ℕ} {exponent : ℤ} {v : ℚ} (h : ReadsBack mantissa exponent v)
    (hnumber : Canonical mantissa exponent) :
    (Binade v exponent ∧ Nearest mantissa exponent v)
      ∨ (mantissa = 2 ^ 52 ∧ -1074 ≤ exponent - 1
        ∧ Binade v (exponent - 1) ∧ Nearest (2 ^ 53) (exponent - 1) v) := by
  have hleast := hnumber.least
  by_cases hfilled : exponent = -1074 ∨ (2 : ℚ) ^ (52 + exponent) ≤ v
  · exact .inl ⟨⟨hleast, h.below hnumber, hfilled⟩, h.nearest⟩
  · obtain ⟨hplace, hless⟩ := not_or.mp hfilled
    have hless := not_le.mp hless
    obtain rfl := h.eq_of_lt hnumber hplace hless
    exact .inr ⟨rfl, by omega, h.nearest_below (by omega) hless⟩

/-- The least place at which a number can be rounded. -/
theorem ReadsBack.exists_binade {mantissa : ℕ} {exponent : ℤ} {v : ℚ}
    (h : ReadsBack mantissa exponent v) (hnumber : Canonical mantissa exponent) :
    ∃ place ≤ exponent, Binade v place := by
  rcases h.place hnumber with ⟨hbinade, -⟩ | ⟨-, -, hbinade, -⟩
  · exact ⟨_, le_rfl, hbinade⟩
  · exact ⟨_, by omega, hbinade⟩

/-- Rounding is shifting, applying the even rule and shifting again. -/
theorem round_of_shifts {mantissa n : ℕ} {start place exponent : ℤ} {accuracy : Accuracy}
    {em : ExtendedMantissa}
    (hfirst : shiftToTargetExponent .binary64 mantissa start accuracy = (em, place))
    (hsecond : shiftToTargetExponent .binary64 em.roundedMantissa place .exact
      = (⟨n, false, false⟩, exponent)) (sign : Sign) (hpos : 0 < n) :
    roundWithAccuracy .binary64 sign mantissa start accuracy = .finite sign n exponent hpos := by
  unfold roundWithAccuracy
  rw [hfirst]
  dsimp only
  rw [hsecond]
  exact dif_neg hpos.ne'

/-- **ROUNDING**: a quotient that is read as a number is rounded to it. -/
theorem round_of_readsBack (num : ℕ) {den : ℕ} (hden : 0 < den) (start : ℤ) {accuracy : Accuracy}
    (hkeeps : Keeps num den (.ofMantissaAndAccuracy (num / den) accuracy)) {v : ℚ}
    (hvalue : v = num / den * 2 ^ start) (hstart : ∀ place, Binade v place → start ≤ place)
    {mantissa : ℕ} {exponent : ℤ} (hnumber : Canonical mantissa exponent)
    (hback : ReadsBack mantissa exponent v) (sign : Sign) :
    roundWithAccuracy .binary64 sign (num / den) start accuracy
      = .finite sign mantissa exponent hnumber.positive := by
  rcases hback.place hnumber with ⟨hbinade, hnear⟩ | ⟨rfl, hleast, hbinade, hnear⟩
  · obtain ⟨den', em, hden', hvalue', hkeeps', hshift⟩ :=
      first_shift hden hkeeps hvalue hbinade (hstart _ hbinade)
    have hrounded := hkeeps'.rounded_of_nearest hden' hvalue' hnear
    refine round_of_shifts hshift ?_ sign hnumber.positive
    rw [hrounded, second_shift hnumber.fits hnumber.least]
  · obtain ⟨den', em, hden', hvalue', hkeeps', hshift⟩ :=
      first_shift hden hkeeps hvalue hbinade (hstart _ hbinade)
    have hrounded := hkeeps'.rounded_of_nearest hden' hvalue' hnear
    refine round_of_shifts hshift ?_ sign hnumber.positive
    rw [hrounded, second_shift_carry hleast, sub_add_cancel]

/-- A number of at least one is rounded above the place of its fifty-third digit
    after the point. -/
theorem Binade.start_of_one_le {v : ℚ} {place : ℤ} (h : Binade v place) (hone : 1 ≤ v) :
    -53 ≤ place := by
  have hlt : (2 : ℚ) ^ (0 : ℤ) < 2 ^ (53 + place) := by
    rw [zpow_zero]
    exact lt_of_le_of_lt hone h.below
  have := (zpow_lt_zpow_iff_right₀ (by norm_num : (1 : ℚ) < 2)).mp hlt
  omega

/-- The exponent that a division starts from is no more than the place its quotient
    is rounded at. -/
theorem Binade.start_of_quotient {m₁ m₂ : ℕ} (hpos₁ : 0 < m₁) (hpos₂ : 0 < m₂) {place : ℤ}
    (h : Binade (m₁ / m₂ : ℚ) place) :
    Format.binary64.targetExponent (totalExponent m₁ 0 - totalExponent m₂ 0) ≤ place := by
  have htwo : (2 : ℚ) ≠ 0 := by norm_num
  have hlt : (2 : ℚ) ^ ((Nat.log2 m₁ : ℤ) - (Nat.log2 m₂ + 1 : ℕ)) < 2 ^ (53 + place) := by
    refine lt_of_le_of_lt ?_ h.below
    rw [zpow_sub₀ htwo, zpow_natCast, zpow_natCast]
    refine div_le_div₀ (by positivity) ?_ (by exact_mod_cast hpos₂) ?_
    · exact_mod_cast Nat.log2_self_le hpos₁.ne'
    · exact_mod_cast Nat.lt_log2_self.le
  have hexp := (zpow_lt_zpow_iff_right₀ (by norm_num : (1 : ℚ) < 2)).mp hlt
  have hleast := h.least
  rw [targetExponent_eq, totalExponent, totalExponent]
  omega

/-- A decimal, as a number. -/
def decimalValue (coefficient : ℕ) (exponent : ℤ) : ℚ :=
  coefficient * 10 ^ exponent

/-- **A WHOLE DECIMAL** that is read as a number gives it. -/
theorem mul_of_readsBack {coefficient tens : ℕ} (hpos : 0 < coefficient) {mantissa : ℕ}
    {exponent : ℤ} (hnumber : Canonical mantissa exponent)
    (hback : ReadsBack mantissa exponent (decimalValue coefficient tens))
    (hpos₁ : 0 < coefficient <<< Format.binary64.mantissaBits) (hpos₂ : 0 < 10 ^ tens) :
    UnpackedFloat.mul .binary64
        (.finite .positive (coefficient <<< Format.binary64.mantissaBits)
          (-Format.binary64.mantissaBits) hpos₁)
        (.finite .positive (10 ^ tens) 0 hpos₂)
      = .finite .positive mantissa exponent hnumber.positive := by
  have hround := round_of_readsBack (coefficient <<< 53 * 10 ^ tens) Nat.one_pos (-53)
    (by rw [Nat.div_one]; exact keeps_exact _) (v := decimalValue coefficient tens) ?_ ?_
    hnumber hback .positive
  · rw [Nat.div_one] at hround
    exact hround
  · rw [decimalValue, Nat.shiftLeft_eq, zpow_natCast]
    push_cast
    rw [zpow_neg]
    norm_num
    ring
  · intro place hbinade
    refine hbinade.start_of_one_le ?_
    rw [decimalValue, zpow_natCast]
    have : 1 ≤ coefficient * 10 ^ tens := Nat.mul_pos hpos (Nat.pow_pos (by decide))
    exact_mod_cast this

/-- **A DECIMAL FRACTION** that is read as a number gives it. -/
theorem div_of_readsBack {coefficient tens : ℕ} (hpos : 0 < coefficient) {mantissa : ℕ}
    {exponent : ℤ} (hnumber : Canonical mantissa exponent)
    (hback : ReadsBack mantissa exponent (decimalValue coefficient (-tens)))
    (hpos₂ : 0 < 10 ^ tens) :
    UnpackedFloat.div .binary64 (.finite .positive coefficient 0 hpos)
        (.finite .positive (10 ^ tens) 0 hpos₂)
      = .finite .positive mantissa exponent hnumber.positive := by
  have hvalue : decimalValue coefficient (-tens) = coefficient / (10 ^ tens : ℕ) := by
    rw [decimalValue, zpow_neg, zpow_natCast]
    push_cast
    rfl
  obtain ⟨steps, hsteps⟩ : ∃ steps : ℕ, min ((0 : ℤ) - 0) (Format.binary64.targetExponent
      (totalExponent coefficient 0 - totalExponent (10 ^ tens) 0)) = -(steps : ℤ) := by
    generalize Format.binary64.targetExponent _ = target
    exact ⟨(-min ((0 : ℤ) - 0) target).toNat, by omega⟩
  have hround := round_of_readsBack (coefficient <<< steps) hpos₂ (-steps)
    (keeps_fraction hpos₂) (v := decimalValue coefficient (-tens)) ?_ ?_ hnumber hback .positive
  · have hcount : ((0 : ℤ) - 0 - -(steps : ℤ)).toNat = steps := by omega
    have hcore : divCore .binary64 coefficient 0 (10 ^ tens) 0
        = (coefficient <<< steps / 10 ^ tens, -(steps : ℤ),
          accuracyOfFraction (coefficient <<< steps % 10 ^ tens) (10 ^ tens)) := by
      simp only [divCore, hsteps, hcount]
    show (match divCore .binary64 coefficient 0 (10 ^ tens) 0 with
      | (m, e, accuracy) => roundWithAccuracy .binary64 (Sign.positive / Sign.positive) m e accuracy) = _
    rw [hcore]
    exact hround
  · rw [hvalue, Nat.shiftLeft_eq, zpow_neg, zpow_natCast]
    push_cast
    field_simp
  · intro place hbinade
    rw [hvalue] at hbinade
    have := hbinade.start_of_quotient hpos hpos₂
    omega

/-- What is read as a positive number is at least half the least of these. -/
theorem ReadsBack.half_least {mantissa : ℕ} {exponent : ℤ} {v : ℚ}
    (h : ReadsBack mantissa exponent v) (hnumber : Canonical mantissa exponent) :
    (2 : ℚ) ^ (-1075 : ℤ) ≤ v := by
  have hleast := hnumber.least
  have hpositive : (1 : ℚ) ≤ mantissa := by exact_mod_cast hnumber.positive
  have hreach : (reachBelow mantissa exponent : ℚ) ≤ 2 := by exact_mod_cast reachBelow_le _ _
  obtain ⟨-, hhalf, -⟩ := places_in_quarters exponent
  have hunit : (0 : ℚ) < 2 ^ (exponent - 2) := zpow_pos (by norm_num) _
  calc (2 : ℚ) ^ (-1075 : ℤ)
      ≤ 2 ^ (exponent - 1) := zpow_le_zpow_right₀ (by norm_num) (by omega)
    _ = 2 * 2 ^ (exponent - 2) := hhalf
    _ ≤ ((4 * mantissa - reachBelow mantissa exponent : ℤ) : ℚ) * 2 ^ (exponent - 2) := by
        refine mul_le_mul_of_nonneg_right ?_ hunit.le
        push_cast
        linarith
    _ ≤ v := h.low

/-- The exponent of a decimal that is read as a number is of moderate size. -/
theorem ReadsBack.exponent_bounds {coefficient : ℕ} (hpos : 0 < coefficient) {tens : ℤ}
    {mantissa : ℕ} {exponent : ℤ} (hnumber : Canonical mantissa exponent)
    (hback : ReadsBack mantissa exponent (decimalValue coefficient tens)) :
    ¬ tens > 2 ^ Format.binary64.exponentBits
      ∧ ¬ tens < -(2 ^ Format.binary64.exponentBits + (coefficient.log2 : ℤ)) := by
  have hone : (1 : ℚ) < 2 := by norm_num
  have hbits : (2 : ℤ) ^ Format.binary64.exponentBits = 2048 := rfl
  rw [hbits]
  refine ⟨fun hup => ?_, fun hdown => ?_⟩
  · obtain ⟨place, hplace, hbinade⟩ := hback.exists_binade hnumber
    obtain ⟨k, rfl⟩ : ∃ k : ℕ, tens = k := ⟨tens.toNat, by omega⟩
    have hlarge : (2 : ℚ) ^ (k : ℤ) ≤ decimalValue coefficient k := by
      rw [decimalValue, zpow_natCast, zpow_natCast]
      have hpow : 2 ^ k ≤ coefficient * 10 ^ k :=
        (Nat.pow_le_pow_left (by decide) k).trans (Nat.le_mul_of_pos_left _ hpos)
      exact_mod_cast hpow
    have hlt := (zpow_lt_zpow_iff_right₀ hone).mp (lt_of_le_of_lt hlarge hbinade.below)
    have hgreatest := hnumber.greatest
    omega
  · obtain ⟨k, rfl⟩ : ∃ k : ℕ, tens = -k := ⟨(-tens).toNat, by omega⟩
    have hsmall : decimalValue coefficient (-k)
        < (2 : ℚ) ^ (((coefficient.log2 + 1 : ℕ) : ℤ) - k) := by
      rw [decimalValue, zpow_neg, zpow_sub₀ (by norm_num), zpow_natCast, zpow_natCast,
        zpow_natCast, ← div_eq_mul_inv]
      refine div_lt_div₀ ?_ ?_ (by positivity) (by positivity)
      · exact_mod_cast Nat.lt_log2_self
      · exact_mod_cast Nat.pow_le_pow_left (by decide) k
    have hlarge : (2 : ℚ) ^ (-1075 : ℤ) ≤ decimalValue coefficient (-k) :=
      hback.half_least hnumber
    have hlt := (zpow_lt_zpow_iff_right₀ hone).mp (lt_of_le_of_lt hlarge hsmall)
    omega

/-- **READING BACK**: Lean's own reading of a decimal gives the number that it is
    next to. -/
theorem ofScientific_of_readsBack {coefficient : ℕ} (hpos : 0 < coefficient) {tens : ℤ}
    {mantissa : ℕ} {exponent : ℤ} (hnumber : Canonical mantissa exponent)
    (hback : ReadsBack mantissa exponent (decimalValue coefficient tens)) :
    UnpackedFloat.ofScientific .binary64 coefficient tens
      = .finite .positive mantissa exponent hnumber.positive := by
  obtain ⟨hup, hdown⟩ := hback.exponent_bounds hpos hnumber
  refine (dif_neg hpos.ne').trans ((if_neg hup).trans ((if_neg hdown).trans ?_))
  by_cases hwhole : 0 ≤ tens
  · obtain ⟨k, rfl⟩ := Int.eq_ofNat_of_zero_le hwhole
    exact (if_pos hwhole).trans (mul_of_readsBack hpos hnumber hback _ _)
  · have htens : tens = -((-tens).toNat : ℤ) := by omega
    rw [htens] at hback
    exact (if_neg hwhole).trans (div_of_readsBack hpos hnumber hback _)

end RunTimings
