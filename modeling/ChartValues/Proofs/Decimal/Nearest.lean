import Mathlib.Algebra.Order.Field.Rat
import Mathlib.Tactic.FieldSimp
import Mathlib.Tactic.Linarith
import Mathlib.Tactic.NormNum
import Mathlib.Tactic.Positivity
import Mathlib.Tactic.Ring
import ChartValues.Decimal.Binary64

/-!
# Reading to the nearest number

Each finite number has an interval of quotients that are nearer to it than to any other number, or as near and
the number is the even one. `Rounds` tells that interval; it is narrower below a power of two, where the
numbers below are closer together. **Every quotient in the interval of a number is read as that number**
(`ofRatio_eq`, `ofDecimal_eq`), and what is read is always such a number (`wellFormed_read`).
-/

namespace ChartValues.Decimal.Binary64

/-- A mantissa and an exponent as finite numbers have them: 53 bits, all used unless the exponent is the least. -/
structure Normal (m : Nat) (e : Int) : Prop where
  mantissa : m < 2 ^ 53
  least : minExponent ≤ e
  greatest : e ≤ maxExponent
  full : 2 ^ 52 ≤ m ∨ e = minExponent

/-- How far below a number its interval reaches, in units of the last place. -/
def below (m : Nat) (e : Int) : ℚ := if m = 2 ^ 52 ∧ minExponent < e then 1 / 4 else 1 / 2

/-- The quotient `v` is read as `m * 2 ^ e`. -/
structure Rounds (m : Nat) (e : Int) (v : ℚ) : Prop where
  low : (m - below m e) * 2 ^ e ≤ v
  high : v ≤ (m + 1 / 2) * 2 ^ e
  odd : m % 2 = 1 → (m - below m e) * 2 ^ e < v ∧ v < (m + 1 / 2) * 2 ^ e

/-! ## Quotients of naturals -/

theorem scaled_pos {num den : Nat} (h : 0 < den) (shift : Int) : 0 < (scaled num den shift).2 := by
  rw [scaled]
  split_ifs
  · exact Nat.mul_pos h (Nat.pow_pos (by decide))
  · exact h

theorem scaled_eq {num den : Nat} (h : 0 < den) (shift : Int) :
    ((scaled num den shift).1 : ℚ) / (scaled num den shift).2 = num / den / 2 ^ shift := by
  have hden : (den : ℚ) ≠ 0 := by exact_mod_cast h.ne'
  rw [scaled]
  split_ifs with hshift
  · obtain ⟨n, rfl⟩ := Int.eq_ofNat_of_zero_le hshift
    simp only [Int.toNat_natCast, Nat.pow_eq]
    push_cast
    rw [zpow_natCast, div_div]
  · obtain ⟨n, hn⟩ := Int.eq_ofNat_of_zero_le (show 0 ≤ -shift by omega)
    obtain rfl : shift = -(n : Int) := by omega
    simp only [neg_neg, Int.toNat_natCast, Nat.pow_eq]
    push_cast
    rw [zpow_neg, zpow_natCast, div_inv_eq_mul]
    ring

theorem div_eq_or_succ_eq {n d q : Nat} (hd : 0 < d) (hlow : 2 * (q * d) ≤ 2 * n + d)
    (hhigh : 2 * n ≤ 2 * (q * d) + d) : n / d = q ∨ n / d + 1 = q := by
  have hle : n / d < q + 1 := by
    rw [Nat.div_lt_iff_lt_mul hd, Nat.add_mul]
    omega
  have hge : q - 1 ≤ n / d := by
    rw [Nat.le_div_iff_mul_le hd, Nat.sub_mul]
    omega
  omega

theorem roundHalfEven_eq {n d q : Nat} (hd : 0 < d) (hlow : (q : ℚ) - 1 / 2 ≤ (n : ℚ) / d)
    (hhigh : (n : ℚ) / d ≤ q + 1 / 2)
    (hodd : q % 2 = 1 → (q : ℚ) - 1 / 2 < (n : ℚ) / d ∧ (n : ℚ) / d < q + 1 / 2) : roundHalfEven n d = q := by
  have hdpos : (0 : ℚ) < d := by exact_mod_cast hd
  have hlow' : 2 * (q * d) ≤ 2 * n + d := by
    rw [le_div_iff₀ hdpos] at hlow
    have : (2 : ℚ) * (q * d) ≤ 2 * n + d := by linarith
    exact_mod_cast this
  have hhigh' : 2 * n ≤ 2 * (q * d) + d := by
    rw [div_le_iff₀ hdpos] at hhigh
    have : (2 : ℚ) * n ≤ 2 * (q * d) + d := by linarith
    exact_mod_cast this
  have hodd' : q % 2 = 1 → 2 * (q * d) < 2 * n + d ∧ 2 * n < 2 * (q * d) + d := by
    intro h
    obtain ⟨h₁, h₂⟩ := hodd h
    rw [lt_div_iff₀ hdpos] at h₁
    rw [div_lt_iff₀ hdpos] at h₂
    have h₁' : (2 : ℚ) * (q * d) < 2 * n + d := by linarith
    have h₂' : (2 : ℚ) * n < 2 * (q * d) + d := by linarith
    exact ⟨by exact_mod_cast h₁', by exact_mod_cast h₂'⟩
  have hdiv := Nat.div_add_mod n d
  have hmod := Nat.mod_lt n hd
  have hcases := div_eq_or_succ_eq hd hlow' hhigh'
  rw [roundHalfEven]
  generalize n / d = k at hcases hdiv ⊢
  generalize n % d = r at hdiv hmod ⊢
  rw [Nat.mul_comm] at hdiv
  rcases hcases with rfl | rfl
  · split_ifs <;> omega
  · rw [Nat.add_mul] at hlow' hhigh' hodd'
    split_ifs <;> omega

/-! ## The exponent -/

/-- The exponent at which a quotient has just 53 bits before the point. -/
def exactExponent (num den : Nat) : Int :=
  let guess : Int := (Nat.log2 num : Int) - (Nat.log2 den : Int) - 52
  if (scaled num den guess).1 / (scaled num den guess).2 < Nat.pow 2 52 then guess - 1 else guess

theorem ofRatio_eq_ite (negative : Bool) (num den : Nat) :
    let e := max (exactExponent num den) minExponent
    let m := roundHalfEven (scaled num den e).1 (scaled num den e).2
    ofRatio negative num den =
      if m = 2 ^ 53 then (if maxExponent < e + 1 then infinite negative else finite negative (2 ^ 52) (e + 1))
      else (if maxExponent < e then infinite negative else finite negative m e) := by
  intro e m
  have hofRatio : ofRatio negative num den =
      if maxExponent < (if m = 2 ^ 53 then (2 ^ 52, e + 1) else (m, e)).2 then infinite negative
      else finite negative (if m = 2 ^ 53 then (2 ^ 52, e + 1) else (m, e)).1
        (if m = 2 ^ 53 then (2 ^ 52, e + 1) else (m, e)).2 := rfl
  rw [hofRatio]
  by_cases hm : m = 2 ^ 53
  · simp only [if_pos hm]
  · simp only [if_neg hm]

theorem two_zpow_pos (e : Int) : (0 : ℚ) < 2 ^ e := zpow_pos (by norm_num) e

theorem zpow_log2_le {n : Nat} (h : 0 < n) : (2 : ℚ) ^ (Nat.log2 n : Int) ≤ n := by
  rw [zpow_natCast]
  exact_mod_cast Nat.log2_self_le h.ne'

theorem lt_zpow_log2 (n : Nat) : (n : ℚ) < 2 * 2 ^ (Nat.log2 n : Int) := by
  have h := Nat.lt_log2_self (n := n)
  rw [Nat.pow_succ, Nat.mul_comm] at h
  rw [zpow_natCast]
  exact_mod_cast h

theorem quotient_between {num den : Nat} (hnum : 0 < num) (hden : 0 < den) {guess : Int}
    (hguess : guess = (Nat.log2 num : Int) - (Nat.log2 den : Int) - 52) :
    (2 : ℚ) ^ 51 * 2 ^ guess < num / den ∧ (num : ℚ) / den < 2 ^ 53 * 2 ^ guess := by
  have hdenpos : (0 : ℚ) < den := by exact_mod_cast hden
  have hpos := two_zpow_pos guess
  have hsplit : (2 : ℚ) ^ (Nat.log2 num : Int) = 2 ^ 52 * 2 ^ guess * 2 ^ (Nat.log2 den : Int) := by
    rw [show ((2 : ℚ) ^ 52) = 2 ^ (52 : Int) by norm_num, ← zpow_add₀ two_ne_zero, ← zpow_add₀ two_ne_zero]
    congr 1
    omega
  have hnumlow := zpow_log2_le hnum
  have hnumhigh := lt_zpow_log2 num
  have hdenlow := mul_le_mul_of_nonneg_left (zpow_log2_le hden) (by positivity : (0 : ℚ) ≤ 2 ^ 53 * 2 ^ guess)
  have hdenhigh := mul_lt_mul_of_pos_left (lt_zpow_log2 den) (by positivity : (0 : ℚ) < 2 ^ 51 * 2 ^ guess)
  rw [hsplit] at hnumlow hnumhigh
  rw [lt_div_iff₀ hdenpos, div_lt_iff₀ hdenpos]
  constructor <;> linarith

theorem scaled_div_lt_iff (num k : Nat) {den : Nat} (hden : 0 < den) (e : Int) :
    (scaled num den e).1 / (scaled num den e).2 < k ↔ (num : ℚ) / den < k * 2 ^ e := by
  have hscaled : (0 : ℚ) < (scaled num den e).2 := by exact_mod_cast scaled_pos hden e
  rw [Nat.div_lt_iff_lt_mul (scaled_pos hden e), ← div_lt_iff₀ (two_zpow_pos e), ← scaled_eq hden e,
    div_lt_iff₀ hscaled]
  exact_mod_cast Iff.rfl

theorem exactExponent_spec {num den : Nat} (hnum : 0 < num) (hden : 0 < den) :
    (2 : ℚ) ^ 52 * 2 ^ exactExponent num den ≤ num / den ∧
      (num : ℚ) / den < 2 ^ 53 * 2 ^ exactExponent num den := by
  set guess : Int := (Nat.log2 num : Int) - (Nat.log2 den : Int) - 52 with hguess
  obtain ⟨hlow, hhigh⟩ := quotient_between hnum hden hguess
  have htest := scaled_div_lt_iff num (2 ^ 52) hden guess
  rw [Nat.cast_pow, Nat.cast_ofNat] at htest
  rw [show exactExponent num den = if (scaled num den guess).1 / (scaled num den guess).2 < 2 ^ 52 then guess - 1
    else guess from rfl]
  split_ifs with h
  · rw [htest] at h
    rw [zpow_sub_one₀ two_ne_zero]
    constructor <;> linarith
  · rw [htest, not_lt] at h
    exact ⟨h, hhigh⟩

/-! ## The interval of a number -/

theorem below_le (m : Nat) (e : Int) : below m e ≤ 1 / 2 := by
  rw [below]
  split_ifs <;> norm_num

theorem roundHalfEven_scaled {num den q : Nat} {e : Int} (hden : 0 < den)
    (hlow : ((q : ℚ) - 1 / 2) * 2 ^ e ≤ num / den) (hhigh : (num : ℚ) / den ≤ (q + 1 / 2) * 2 ^ e)
    (hodd : q % 2 = 1 → ((q : ℚ) - 1 / 2) * 2 ^ e < num / den ∧ (num : ℚ) / den < (q + 1 / 2) * 2 ^ e) :
    roundHalfEven (scaled num den e).1 (scaled num den e).2 = q := by
  have hpos := two_zpow_pos e
  refine roundHalfEven_eq (scaled_pos hden e) ?_ ?_ fun h => ?_ <;> rw [scaled_eq hden]
  · rwa [le_div_iff₀ hpos]
  · rwa [div_le_iff₀ hpos]
  · rw [lt_div_iff₀ hpos, div_lt_iff₀ hpos]
    exact hodd h

theorem Rounds.exponent_le {m : Nat} {e E : Int} {v : ℚ} (hm : Normal m e) (h : Rounds m e v)
    (hexact : 2 ^ 52 * 2 ^ E ≤ v) : E ≤ e := by
  by_contra hlt
  have hmcast : (m : ℚ) + 1 ≤ 2 ^ 53 := by exact_mod_cast hm.mantissa
  have hpos := two_zpow_pos e
  have hstep : (2 : ℚ) * 2 ^ e ≤ 2 ^ E := by
    rw [← zpow_one_add₀ two_ne_zero]
    exact zpow_le_zpow_right₀ one_le_two (by omega)
  have hhigh := h.high
  nlinarith

theorem Rounds.of_exponent_lt {m : Nat} {e E : Int} {v : ℚ} (hm : Normal m e) (h : Rounds m e v) (hlt : E < e)
    (hmin : minExponent < e) (hexact : v < 2 ^ 53 * 2 ^ E) :
    m = 2 ^ 52 ∧ e = E + 1 ∧ (2 ^ 53 - 1 / 2) * 2 ^ E ≤ v := by
  have hpos := two_zpow_pos e
  have hbelow := below_le m e
  have hlow := h.low
  have hfull : 2 ^ 52 ≤ m := hm.full.resolve_right hmin.ne'
  have hstep : (2 : ℚ) * 2 ^ E ≤ 2 ^ e := by
    rw [← zpow_one_add₀ two_ne_zero]
    exact zpow_le_zpow_right₀ one_le_two (by omega)
  have hpower : m = 2 ^ 52 := by
    have hlt' : (m : ℚ) < 2 ^ 52 + 1 := by
      by_contra hge
      nlinarith
    have hlt'' : m < 2 ^ 52 + 1 := by exact_mod_cast hlt'
    omega
  have hquarter : below m e = 1 / 4 := by rw [below, if_pos ⟨hpower, hmin⟩]
  rw [hquarter, hpower] at hlow
  push_cast at hlow
  have hsucc : e = E + 1 := by
    by_contra hne
    have hstep' : (2 : ℚ) * 2 * 2 ^ E ≤ 2 ^ e := by
      rw [mul_assoc, ← zpow_one_add₀ two_ne_zero, ← zpow_one_add₀ two_ne_zero]
      exact zpow_le_zpow_right₀ one_le_two (by omega)
    have hEpos := two_zpow_pos E
    nlinarith
  refine ⟨hpower, hsucc, ?_⟩
  rw [hsucc, zpow_add_one₀ two_ne_zero] at hlow
  linarith

/-- **A quotient in the interval of a number is read as the number.** -/
theorem ofRatio_eq {negative : Bool} {num den m : Nat} {e : Int} (hnum : 0 < num) (hden : 0 < den)
    (hm : Normal m e) (h : Rounds m e (num / den)) : ofRatio negative num den = finite negative m e := by
  obtain ⟨hexact, hexact'⟩ := exactExponent_spec hnum hden
  have hformula := ofRatio_eq_ite negative num den
  generalize exactExponent num den = E at hexact hexact' hformula
  have hle := h.exponent_le hm hexact
  have hleast := hm.least
  by_cases hsame : max E minExponent = e
  · have hpos := two_zpow_pos e
    have hbelow := below_le m e
    have hround : roundHalfEven (scaled num den e).1 (scaled num den e).2 = m := by
      refine roundHalfEven_scaled hden (le_trans ?_ h.low) h.high
        fun hodd => ⟨lt_of_le_of_lt ?_ (h.odd hodd).1, (h.odd hodd).2⟩ <;>
        exact mul_le_mul_of_nonneg_right (by linarith) hpos.le
    simp only [hsame, hround] at hformula
    rw [hformula, if_neg hm.mantissa.ne, if_neg (not_lt.mpr hm.greatest)]
  · -- Below a power of two the exponent is one less, and rounding carries.
    obtain ⟨hpower, rfl, hlow⟩ := h.of_exponent_lt hm (show E < e by omega) (by omega) hexact'
    have hround : roundHalfEven (scaled num den E).1 (scaled num den E).2 = 2 ^ 53 := by
      have hpos := two_zpow_pos E
      refine roundHalfEven_scaled hden ?_ ?_ fun h => absurd h (by decide)
      · push_cast
        exact hlow
      · push_cast
        linarith
    have hmax : max E minExponent = E := max_eq_left (by omega)
    simp only [hmax, hround] at hformula
    rw [hformula, if_pos trivial, if_neg (not_lt.mpr hm.greatest), hpower]

/-! ## What is read is a number -/

theorem le_roundHalfEven {n d k : Nat} (hd : 0 < d) (h : k * d ≤ n) : k ≤ roundHalfEven n d := by
  have hk : k ≤ n / d := (Nat.le_div_iff_mul_le hd).mpr h
  rw [roundHalfEven]
  split_ifs <;> omega

theorem roundHalfEven_le {n d k : Nat} (hd : 0 < d) (h : n < k * d) : roundHalfEven n d ≤ k := by
  have hk : n / d < k := (Nat.div_lt_iff_lt_mul hd).mpr h
  rw [roundHalfEven]
  split_ifs <;> omega

theorem le_roundHalfEven_scaled {num den k : Nat} {e : Int} (hden : 0 < den) (h : (k : ℚ) * 2 ^ e ≤ num / den) :
    k ≤ roundHalfEven (scaled num den e).1 (scaled num den e).2 := by
  have hscaled : (0 : ℚ) < (scaled num den e).2 := by exact_mod_cast scaled_pos hden e
  rw [← le_div_iff₀ (two_zpow_pos e), ← scaled_eq hden e, le_div_iff₀ hscaled] at h
  exact le_roundHalfEven (scaled_pos hden e) (by exact_mod_cast h)

theorem roundHalfEven_scaled_le {num den k : Nat} {e : Int} (hden : 0 < den) (h : (num : ℚ) / den < k * 2 ^ e) :
    roundHalfEven (scaled num den e).1 (scaled num den e).2 ≤ k := by
  have hscaled : (0 : ℚ) < (scaled num den e).2 := by exact_mod_cast scaled_pos hden e
  rw [← div_lt_iff₀ (two_zpow_pos e), ← scaled_eq hden e, div_lt_iff₀ hscaled] at h
  exact roundHalfEven_le (scaled_pos hden e) (by exact_mod_cast h)

/-- A finite number has a mantissa and an exponent as numbers have them. -/
def WellFormed (x : Binary64) : Prop := ∀ negative m e, x = finite negative m e → Normal m e

theorem wellFormed_finite {negative : Bool} {m : Nat} {e : Int} (h : Normal m e) :
    WellFormed (finite negative m e) := by
  rintro _ _ _ ⟨⟩
  exact h

theorem wellFormed_infinite (negative : Bool) : WellFormed (infinite negative) := by
  rintro _ _ _ ⟨⟩

theorem wellFormed_zero (negative : Bool) : WellFormed (zero negative) :=
  wellFormed_finite ⟨by decide, le_rfl, by decide, .inr rfl⟩

theorem wellFormed_ofRatio (negative : Bool) {num den : Nat} (hnum : 0 < num) (hden : 0 < den) :
    WellFormed (ofRatio negative num den) := by
  obtain ⟨hexact, hexact'⟩ := exactExponent_spec hnum hden
  have hformula := ofRatio_eq_ite negative num den
  generalize exactExponent num den = E at hexact hexact' hformula
  set e := max E minExponent with he
  have hmono : (2 : ℚ) ^ E ≤ 2 ^ e := zpow_le_zpow_right₀ one_le_two (le_max_left _ _)
  have hle : roundHalfEven (scaled num den e).1 (scaled num den e).2 ≤ 2 ^ 53 := by
    refine roundHalfEven_scaled_le hden ?_
    push_cast
    linarith
  have hfull : 2 ^ 52 ≤ roundHalfEven (scaled num den e).1 (scaled num den e).2 ∨ e = minExponent := by
    rcases le_or_gt minExponent E with hE | hE
    · refine .inl (le_roundHalfEven_scaled hden ?_)
      rw [he, max_eq_left hE]
      exact_mod_cast hexact
    · exact .inr (max_eq_right hE.le)
  have hleast : minExponent ≤ e := le_max_right _ _
  simp only at hformula
  rw [hformula]
  split_ifs with hcarry hbig hbig
  · exact wellFormed_infinite negative
  · exact wellFormed_finite ⟨by decide, by omega, not_lt.mp hbig, .inl le_rfl⟩
  · exact wellFormed_infinite negative
  · exact wellFormed_finite ⟨lt_of_le_of_ne hle hcarry, hleast, not_lt.mp hbig, hfull⟩

/-! ## Decimal numerals -/

theorem ten_zpow_pos (e : Int) : (0 : ℚ) < 10 ^ e := zpow_pos (by norm_num) e

theorem digitCount_pos (n : Nat) : 0 < digitCount n := Nat.length_toDigits_pos

theorem lt_pow_digitCount (n : Nat) : n < 10 ^ digitCount n :=
  (Nat.length_toDigits_le_iff (by decide) (digitCount_pos n)).mp le_rfl

theorem pow_digitCount_le {n : Nat} (h : 0 < n) : 10 ^ digitCount n ≤ 10 * n := by
  obtain ⟨k, hk⟩ : ∃ k, digitCount n = k + 1 := ⟨digitCount n - 1, by have := digitCount_pos n; omega⟩
  have hle : 10 ^ k ≤ n := by
    rcases Nat.eq_zero_or_pos k with rfl | hpos
    · exact h
    · by_contra hlt
      have := (Nat.length_toDigits_le_iff (b := 10) (by decide) hpos).mpr (not_le.mp hlt)
      rw [digitCount] at hk
      omega
  rw [hk, pow_succ, mul_comm]
  exact Nat.mul_le_mul_left 10 hle

theorem lt_zpow_magnitude (digits : Nat) (exponent : Int) :
    (digits : ℚ) * 10 ^ exponent < 10 ^ (exponent + digitCount digits) := by
  have hlt : (digits : ℚ) < 10 ^ digitCount digits := by exact_mod_cast lt_pow_digitCount digits
  rw [zpow_add₀ (by norm_num), zpow_natCast, mul_comm]
  exact mul_lt_mul_of_pos_left hlt (ten_zpow_pos exponent)

theorem zpow_magnitude_le {digits : Nat} (h : 0 < digits) (exponent : Int) :
    (10 : ℚ) ^ (exponent + digitCount digits) ≤ 10 * (digits * 10 ^ exponent) := by
  have hle : (10 : ℚ) ^ digitCount digits ≤ 10 * digits := by exact_mod_cast pow_digitCount_le h
  rw [zpow_add₀ (by norm_num), zpow_natCast]
  have := mul_le_mul_of_nonneg_left hle (ten_zpow_pos exponent).le
  linarith

theorem ofDecimal_of_magnitude {negative : Bool} {digits : Nat} {exponent : Int} (hdigits : digits ≠ 0)
    (hbig : ¬310 < exponent + digitCount digits) (hsmall : ¬exponent + digitCount digits < -330) :
    ∃ num den : Nat, 0 < num ∧ 0 < den ∧ (num : ℚ) / den = digits * 10 ^ exponent ∧
      ofDecimal negative digits exponent = ofRatio negative num den := by
  rw [ofDecimal, if_neg hdigits]
  simp only [if_neg hbig, if_neg hsmall]
  split_ifs with hexponent
  · obtain ⟨n, rfl⟩ := Int.eq_ofNat_of_zero_le hexponent
    refine ⟨digits * 10 ^ n, 1, by positivity, one_pos, ?_, rfl⟩
    push_cast
    rw [zpow_natCast, div_one]
  · obtain ⟨n, hn⟩ := Int.eq_ofNat_of_zero_le (show 0 ≤ -exponent by omega)
    obtain rfl : exponent = -(n : Int) := by omega
    rw [neg_neg, Int.toNat_natCast]
    refine ⟨digits, 10 ^ n, by positivity, by positivity, ?_, rfl⟩
    push_cast
    rw [zpow_neg, zpow_natCast, div_eq_mul_inv]

theorem Rounds.lt_ten_zpow {m : Nat} {e : Int} {v : ℚ} (hm : Normal m e) (h : Rounds m e v) : v < 10 ^ (309 : Int) := by
  have hpow : (2 : ℚ) ^ e ≤ 2 ^ (971 : Int) := zpow_le_zpow_right₀ one_le_two hm.greatest
  have hcast : (m : ℚ) + 1 ≤ 2 ^ 53 := by exact_mod_cast hm.mantissa
  have hlimit : (2 : ℚ) ^ 53 * 2 ^ (971 : Int) < 10 ^ (309 : Int) := by
    have hlimit' : 2 ^ 53 * 2 ^ 971 < 10 ^ 309 := by decide +kernel
    exact_mod_cast hlimit'
  calc v ≤ (m + 1 / 2) * 2 ^ e := h.high
    _ ≤ 2 ^ 53 * 2 ^ (971 : Int) := mul_le_mul (by linarith) hpow (two_zpow_pos e).le (by positivity)
    _ < 10 ^ (309 : Int) := hlimit

theorem Rounds.ten_zpow_lt {m : Nat} {e : Int} {v : ℚ} (hm : Normal m e) (hpos : 0 < m) (h : Rounds m e v) :
    10 ^ (-324 : Int) < v := by
  have hpow : (2 : ℚ) ^ (-1074 : Int) ≤ 2 ^ e := zpow_le_zpow_right₀ one_le_two hm.least
  have hcast : (1 : ℚ) ≤ m := by exact_mod_cast hpos
  have hlimit : (10 : ℚ) ^ (-324 : Int) < 1 / 2 * 2 ^ (-1074 : Int) := by
    have hlimit' : 2 * 2 ^ 1074 < 10 ^ 324 := by decide +kernel
    rw [zpow_neg, zpow_neg, one_div, ← mul_inv, inv_lt_inv₀ (ten_zpow_pos _) (mul_pos two_pos (two_zpow_pos _))]
    exact_mod_cast hlimit'
  have hbelow := below_le m e
  calc (10 : ℚ) ^ (-324 : Int) < 1 / 2 * 2 ^ (-1074 : Int) := hlimit
    _ ≤ (m - below m e) * 2 ^ e := mul_le_mul (by linarith) hpow (two_zpow_pos _).le (by linarith)
    _ ≤ v := h.low

/-- **A numeral in the interval of a number is read as the number.** -/
theorem ofDecimal_eq {negative : Bool} {digits m : Nat} {e exponent : Int} (hm : Normal m e) (hpos : 0 < m)
    (h : Rounds m e (digits * 10 ^ exponent)) : ofDecimal negative digits exponent = finite negative m e := by
  have hsmall' := h.ten_zpow_lt hm hpos
  have hbig' := h.lt_ten_zpow hm
  have hdigits : 0 < digits := by
    rcases Nat.eq_zero_or_pos digits with rfl | hdigits
    · rw [Nat.cast_zero, zero_mul] at hsmall'
      exact absurd hsmall' (ten_zpow_pos _).le.not_gt
    · exact hdigits
  have hbig : ¬310 < exponent + digitCount digits := by
    intro hlt
    have hle := zpow_magnitude_le hdigits exponent
    have hmono : (10 : ℚ) ^ (310 : Int) ≤ 10 ^ (exponent + digitCount digits) :=
      zpow_le_zpow_right₀ (by norm_num) hlt.le
    rw [show (310 : Int) = 1 + 309 from rfl, zpow_one_add₀ (by norm_num)] at hmono
    linarith
  have hsmall : ¬exponent + digitCount digits < -330 := by
    intro hlt
    have hlt' := lt_zpow_magnitude digits exponent
    have hmono : (10 : ℚ) ^ (exponent + digitCount digits) ≤ 10 ^ (-324 : Int) :=
      zpow_le_zpow_right₀ (by norm_num) (by omega)
    linarith
  obtain ⟨num, den, hnum, hden, hvalue, hread⟩ := ofDecimal_of_magnitude hdigits.ne' hbig hsmall
  rw [hread]
  exact ofRatio_eq hnum hden hm (hvalue ▸ h)

theorem wellFormed_ofDecimal (negative : Bool) (digits : Nat) (exponent : Int) :
    WellFormed (ofDecimal negative digits exponent) := by
  by_cases hdigits : digits = 0
  · rw [ofDecimal, if_pos hdigits]
    exact wellFormed_zero negative
  by_cases hbig : 310 < exponent + digitCount digits
  · rw [ofDecimal, if_neg hdigits]
    simp only [if_pos hbig]
    exact wellFormed_infinite negative
  by_cases hsmall : exponent + digitCount digits < -330
  · rw [ofDecimal, if_neg hdigits]
    simp only [if_neg hbig, if_pos hsmall]
    exact wellFormed_zero negative
  obtain ⟨num, den, hnum, hden, -, hread⟩ := ofDecimal_of_magnitude hdigits hbig hsmall
  rw [hread]
  exact wellFormed_ofRatio negative hnum hden

theorem wellFormed_readUnsigned {negative : Bool} {cs : List Char} {x : Binary64}
    (h : readUnsigned negative cs = some x) : WellFormed x := by
  rw [readUnsigned] at h
  split at h
  split_ifs at h
  obtain ⟨exponent, -, rfl⟩ := Option.map_eq_some_iff.mp h
  exact wellFormed_ofDecimal _ _ _

/-- **What is read from a numeral is a number.** -/
theorem wellFormed_read {cs : List Char} {x : Binary64} (h : read cs = some x) : WellFormed x := by
  rw [read.eq_def] at h
  split at h <;> exact wellFormed_readUnsigned h

end ChartValues.Decimal.Binary64
