import ChartValues.Decimal.Shortest
import ChartValues.Proofs.Decimal.Nearest
import ChartValues.Proofs.Text.Run

/-!
# Shortest decimal texts read back

The digits that `Digits.shortest` finds lie in the interval of the number (`Digits.rounds_shortest`): a grid point
is taken only if it does, and the grid of seventeen digits is always fine enough, since its points are closer
together than the ends of the interval. Both layouts write digits so that reading them gives a numeral of the
same value, so **the text of a finite number is read as the number** (`Layout.readUnsigned_shortest`).
-/

namespace ChartValues.Decimal

open Binary64

namespace Digits

def value (d : Digits) : ℚ := d.digits * 10 ^ d.exponent

theorem value_strip (fuel : Nat) (d : Digits) : (strip fuel d).value = d.value := by
  induction fuel generalizing d with
  | zero => rw [strip]
  | succ fuel ih =>
    rw [strip]
    split_ifs with h
    · have hdigits : ((d.digits / 10 : Nat) : ℚ) * 10 = d.digits := by
        exact_mod_cast Nat.div_mul_cancel (Nat.dvd_of_mod_eq_zero h.2)
      rw [ih, value, value, zpow_add_one₀ (by norm_num), ← hdigits]
      ring
    · rfl

/-! ## Grids -/

/-- A value lies between two ends, strictly unless the interval is closed. -/
def Between {α : Type} [Preorder α] (closed : Bool) (low high v : α) : Prop :=
  (low ≤ v ∧ v ≤ high) ∧ (closed = false → low < v ∧ v < high)

theorem between_iff {closed : Bool} {low high v : Nat} :
    (if closed then low ≤ v && v ≤ high else low < v && v < high : Bool) = true ↔ Between closed low high v := by
  cases closed
  · simp [Between]
    omega
  · simp [Between]

theorem onGrid_between {num low high den : Nat} {closed : Bool} {exponent : Int} {d : Digits}
    (h : onGrid num low high den closed exponent = some d) : d.exponent = exponent ∧
      Between closed (low * 10 ^ (-exponent).toNat) (high * 10 ^ (-exponent).toNat)
        (d.digits * (den * 10 ^ exponent.toNat)) := by
  rw [onGrid] at h
  simp only [Nat.pow_eq] at h
  split at h
  · rename_i hq hq'
    rw [between_iff] at hq hq'
    split_ifs at h with h₁ h₂ h₃ <;> obtain rfl := Option.some.inj h
    · exact ⟨rfl, hq⟩
    · exact ⟨rfl, hq'⟩
    · exact ⟨rfl, hq⟩
    · exact ⟨rfl, hq'⟩
  · rename_i hq _
    obtain rfl := Option.some.inj h
    exact ⟨rfl, between_iff.mp hq⟩
  · rename_i _ hq'
    obtain rfl := Option.some.inj h
    exact ⟨rfl, between_iff.mp hq'⟩
  · simp at h

theorem zpow_eq_div {b : ℚ} (hb : b ≠ 0) (n : Int) : b ^ n = b ^ n.toNat / b ^ (-n).toNat := by
  rw [← zpow_natCast, ← zpow_natCast, ← zpow_sub₀ hb]
  congr 1
  omega

theorem onGrid_isSome {num low high den : Nat} {exponent : Int} (hden : 0 < den) (hlow : low ≤ num)
    (hhigh : num < high) (hwide : (low : ℚ) / den + 10 ^ exponent < high / den) (closed : Bool) :
    (onGrid num low high den closed exponent).isSome := by
  have hwide' : low * 10 ^ (-exponent).toNat + den * 10 ^ exponent.toNat < high * 10 ^ (-exponent).toNat := by
    have hdenq : (0 : ℚ) < den := by exact_mod_cast hden
    rw [zpow_eq_div (by norm_num), div_add_div _ _ hdenq.ne' (by positivity),
      div_lt_div_iff₀ (by positivity) hdenq] at hwide
    have hscaled : ((low : ℚ) * 10 ^ (-exponent).toNat + den * 10 ^ exponent.toNat) * den <
        high * 10 ^ (-exponent).toNat * den := by linarith
    exact_mod_cast lt_of_mul_lt_mul_right hscaled hdenq.le
  have hlow' : low * 10 ^ (-exponent).toNat ≤ num * 10 ^ (-exponent).toNat := Nat.mul_le_mul_right _ hlow
  have hhigh' : num * 10 ^ (-exponent).toNat < high * 10 ^ (-exponent).toNat :=
    Nat.mul_lt_mul_of_pos_right hhigh (by positivity)
  have hden' : 0 < den * 10 ^ exponent.toNat := by positivity
  rw [onGrid]
  simp only [Nat.pow_eq]
  clear hwide
  generalize num * 10 ^ (-exponent).toNat = num' at *
  generalize low * 10 ^ (-exponent).toNat = low' at *
  generalize high * 10 ^ (-exponent).toNat = high' at *
  generalize den * 10 ^ exponent.toNat = den' at *
  have hbelow : num' / den' * den' ≤ num' := Nat.div_mul_le_self num' den'
  have habove : num' < num' / den' * den' + den' := Nat.lt_div_mul_add hden'
  have hsucc : (num' / den' + 1) * den' = num' / den' * den' + den' := Nat.succ_mul _ _
  split
  · split_ifs <;> rfl
  · rfl
  · rfl
  · -- Both points would lie outside, so the interval would be no wider than the grid.
    rename_i hq hq'
    exfalso
    cases closed <;> simp at hq hq' <;> omega

section units
variable {a b den : Nat} {exponent : Int} (hden : 0 < den)
include hden

theorem scaled_le_iff : a * 10 ^ (-exponent).toNat ≤ b * (den * 10 ^ exponent.toNat) ↔
    (a : ℚ) / den ≤ b * 10 ^ exponent := by
  have hden' : (0 : ℚ) < den := by exact_mod_cast hden
  rw [zpow_eq_div (by norm_num), ← mul_div_assoc, div_le_div_iff₀ hden' (by positivity)]
  constructor <;> intro h
  · have h' : (a : ℚ) * 10 ^ (-exponent).toNat ≤ b * (den * 10 ^ exponent.toNat) := by exact_mod_cast h
    linarith
  · have h' : (a : ℚ) * 10 ^ (-exponent).toNat ≤ b * (den * 10 ^ exponent.toNat) := by linarith
    exact_mod_cast h'

theorem le_scaled_iff : b * (den * 10 ^ exponent.toNat) ≤ a * 10 ^ (-exponent).toNat ↔
    b * 10 ^ exponent ≤ (a : ℚ) / den := by
  have hden' : (0 : ℚ) < den := by exact_mod_cast hden
  rw [zpow_eq_div (by norm_num), ← mul_div_assoc, div_le_div_iff₀ (by positivity) hden']
  constructor <;> intro h
  · have h' : (b : ℚ) * (den * 10 ^ exponent.toNat) ≤ a * 10 ^ (-exponent).toNat := by exact_mod_cast h
    linarith
  · have h' : (b : ℚ) * (den * 10 ^ exponent.toNat) ≤ a * 10 ^ (-exponent).toNat := by linarith
    exact_mod_cast h'

end units

theorem onGrid_value {num low high den : Nat} {closed : Bool} {exponent : Int} {d : Digits} (hden : 0 < den)
    (h : onGrid num low high den closed exponent = some d) :
    Between closed ((low : ℚ) / den) (high / den) d.value := by
  obtain ⟨rfl, ⟨hlow, hhigh⟩, hstrict⟩ := onGrid_between h
  refine ⟨⟨(scaled_le_iff hden).mp hlow, (le_scaled_iff hden).mp hhigh⟩, fun hclosed => ?_⟩
  obtain ⟨hlow', hhigh'⟩ := hstrict hclosed
  exact ⟨not_le.mp fun hle => hlow'.not_ge ((le_scaled_iff hden).mpr hle),
    not_le.mp fun hle => hhigh'.not_ge ((scaled_le_iff hden).mpr hle)⟩

/-! ## Seventeen digits suffice -/

/-- `k` quarters of a unit in the last place, over `quarterDen`. -/
def quarters (k : Nat) (e : Int) : Nat := k * 2 ^ (e - 2).toNat

def quarterDen (e : Int) : Nat := 2 ^ (-(e - 2)).toNat

/-- How far below a number its interval reaches, in quarters. -/
def gap (m : Nat) (e : Int) : Nat := if m = 2 ^ 52 ∧ minExponent < e then 1 else 2

theorem quarterDen_pos (e : Int) : 0 < quarterDen e := by
  rw [quarterDen]
  positivity

theorem quarters_div (k : Nat) (e : Int) : (quarters k e : ℚ) / quarterDen e = k / 4 * 2 ^ e := by
  have hsplit : (2 : ℚ) ^ e = 4 * 2 ^ (e - 2) := by
    rw [zpow_sub₀ two_ne_zero]
    norm_num
    ring
  rw [hsplit, zpow_eq_div two_ne_zero (e - 2), quarters, quarterDen]
  push_cast
  ring

theorem gap_eq (m : Nat) (e : Int) : (gap m e : ℚ) = 4 * below m e := by
  rw [gap, below]
  split_ifs <;> norm_num

theorem quarters_sub_gap {m : Nat} (hpos : 0 < m) (e : Int) :
    (quarters (4 * m - gap m e) e : ℚ) / quarterDen e = (m - below m e) * 2 ^ e := by
  have hgap : gap m e ≤ 4 * m := by
    rw [gap]
    split_ifs <;> omega
  rw [quarters_div, Nat.cast_sub hgap, gap_eq]
  push_cast
  ring

theorem quarters_add_two (m : Nat) (e : Int) :
    (quarters (4 * m + 2) e : ℚ) / quarterDen e = (m + 1 / 2) * 2 ^ e := by
  rw [quarters_div]
  push_cast
  ring

/-- The position of the first digit of a value, found by counting the digits of a multiple. -/
theorem ten_zpow_digitCount_le {num den k : Nat} {magnitude : Int} (hden : 0 < den) (h : den ≤ num * Nat.pow 10 k)
    (hmagnitude : magnitude + (k + 1) = digitCount (num * Nat.pow 10 k / den)) :
    (10 : ℚ) ^ magnitude ≤ num / den := by
  rw [Nat.pow_eq] at h hmagnitude
  have hden' : (0 : ℚ) < den := by exact_mod_cast hden
  have hcount : (10 : ℚ) ^ digitCount (num * 10 ^ k / den) ≤ 10 * (num * 10 ^ k / den : Nat) := by
    exact_mod_cast pow_digitCount_le (Nat.div_pos h hden)
  have hfloor : ((num * 10 ^ k / den : Nat) : ℚ) * den ≤ num * 10 ^ k := by
    exact_mod_cast Nat.div_mul_le_self (num * 10 ^ k) den
  rw [← zpow_natCast, ← hmagnitude, zpow_add₀ (by norm_num), zpow_add_one₀ (by norm_num), zpow_natCast] at hcount
  rw [le_div_iff₀ hden']
  have hten : (0 : ℚ) < 10 * 10 ^ k := by positivity
  have hscaled : (10 : ℚ) ^ magnitude * den * (10 * 10 ^ k) ≤ num * (10 * 10 ^ k) := by
    have := mul_le_mul_of_nonneg_right hcount hden'.le
    linarith
  exact le_of_mul_le_mul_right hscaled hten

theorem ten_zpow_lt_width {m : Nat} {e magnitude : Int} (hm : Normal m e)
    (h : (10 : ℚ) ^ magnitude ≤ m * 2 ^ e) : (10 : ℚ) ^ (magnitude - 16) < (below m e + 1 / 2) * 2 ^ e := by
  have hpos := two_zpow_pos e
  have hmantissa : (m : ℚ) < (below m e + 1 / 2) * 10 ^ 16 := by
    rw [below]
    split_ifs with hpower
    · rw [hpower.1]
      norm_num
    · have hlt : (m : ℚ) < 2 ^ 53 := by exact_mod_cast hm.mantissa
      norm_num at hlt ⊢
      linarith
  rw [zpow_sub₀ (by norm_num), div_lt_iff₀ (ten_zpow_pos _)]
  have hscaled := mul_lt_mul_of_pos_right hmantissa hpos
  have hten : (10 : ℚ) ^ (16 : Int) = 10 ^ 16 := zpow_natCast 10 16
  rw [hten]
  linarith

theorem quarters_value (m : Nat) (e : Int) : (quarters (4 * m) e : ℚ) / quarterDen e = m * 2 ^ e := by
  rw [quarters_div]
  push_cast
  ring

theorem quarterDen_le {m : Nat} {e : Int} (hm : Normal m e) (hpos : 0 < m) :
    quarterDen e ≤ quarters (4 * m) e * Nat.pow 10 400 := by
  have hexponent : (-(e - 2)).toNat ≤ 1076 := by
    have hleast : -1074 ≤ e := hm.least
    omega
  have hlimit : 2 ^ 1076 ≤ Nat.pow 10 400 := by decide +kernel
  exact ((pow_le_pow_right₀ one_le_two hexponent).trans hlimit).trans
    (Nat.le_mul_of_pos_left _ (Nat.mul_pos (by omega) (by positivity)))

theorem onGrid_finest {m : Nat} {e magnitude : Int} (hm : Normal m e) (hpos : 0 < m)
    (hfirst : (10 : ℚ) ^ magnitude ≤ m * 2 ^ e) :
    (onGrid (quarters (4 * m) e) (quarters (4 * m - gap m e) e) (quarters (4 * m + 2) e) (quarterDen e)
      (m % 2 == 0) (magnitude - 16)).isSome := by
  have hwide : (quarters (4 * m - gap m e) e : ℚ) / quarterDen e + 10 ^ (magnitude - 16) <
      quarters (4 * m + 2) e / quarterDen e := by
    rw [quarters_sub_gap hpos, quarters_add_two]
    have hwidth := ten_zpow_lt_width hm hfirst
    linarith
  exact onGrid_isSome (quarterDen_pos e) (Nat.mul_le_mul_right _ (Nat.sub_le _ _))
    (Nat.mul_lt_mul_of_pos_right (by omega) (by positivity)) hwide _

theorem exists_onGrid {m : Nat} {e : Int} (hm : Normal m e) (hpos : 0 < m) : ∃ d exponent,
    shortest m e = strip 20 d ∧
      onGrid (quarters (4 * m) e) (quarters (4 * m - gap m e) e) (quarters (4 * m + 2) e) (quarterDen e)
        (m % 2 == 0) exponent = some d := by
  set magnitude : Int := (digitCount (quarters (4 * m) e * Nat.pow 10 400 / quarterDen e) : Int) - 401
  have hfirst : (10 : ℚ) ^ magnitude ≤ m * 2 ^ e :=
    quarters_value m e ▸ ten_zpow_digitCount_le (quarterDen_pos e) (quarterDen_le hm hpos) (Int.sub_add_cancel _ _)
  set grids : List Int := (List.range 17).map fun (n : Nat) => magnitude - (n : Int)
  obtain ⟨d, hfound⟩ : ∃ d, grids.findSome? (onGrid (quarters (4 * m) e) (quarters (4 * m - gap m e) e)
      (quarters (4 * m + 2) e) (quarterDen e) (m % 2 == 0)) = some d := by
    rw [← Option.isSome_iff_exists, List.findSome?_isSome_iff]
    exact ⟨magnitude - 16, List.mem_map.mpr ⟨16, by decide, rfl⟩, onGrid_finest hm hpos hfirst⟩
  obtain ⟨exponent, -, hgrid⟩ := List.exists_of_findSome?_eq_some hfound
  refine ⟨d, exponent, ?_, hgrid⟩
  rw [shortest, if_neg hpos.ne']
  show strip 20 ((grids.findSome? (onGrid (quarters (4 * m) e) (quarters (4 * m - gap m e) e)
    (quarters (4 * m + 2) e) (quarterDen e) (m % 2 == 0))).getD _) = strip 20 d
  rw [hfound, Option.getD_some]

/-- **The shortest digits of a number lie in its interval.** -/
theorem rounds_shortest {m : Nat} {e : Int} (hm : Normal m e) (hpos : 0 < m) : Rounds m e (shortest m e).value := by
  obtain ⟨d, exponent, hshortest, hgrid⟩ := exists_onGrid hm hpos
  obtain ⟨⟨hlow, hhigh⟩, hstrict⟩ := onGrid_value (quarterDen_pos e) hgrid
  rw [quarters_sub_gap hpos] at hlow hstrict
  rw [quarters_add_two] at hhigh hstrict
  rw [hshortest]
  refine ⟨?_, ?_, fun hodd => ?_⟩ <;> rw [value_strip]
  · exact hlow
  · exact hhigh
  · exact hstrict (by simp [hodd])

end Digits

/-! ## Reading numerals -/

namespace Binary64

theorem digitsValue_eq (cs : List Char) : digitsValue cs = Nat.ofDigitChars 10 cs 0 := by
  simp only [digitsValue, Nat.ofDigitChars_eq_foldl, Nat.mul_comm]

theorem digitsValue_append (cs ds : List Char) :
    digitsValue (cs ++ ds) = digitsValue cs * 10 ^ ds.length + digitsValue ds := by
  simp only [digitsValue_eq]
  rw [Nat.ofDigitChars_append, Nat.ofDigitChars_eq_ofDigitChars_zero, Nat.mul_comm]

theorem digitsValue_toDigits (n : Nat) : digitsValue (Nat.toDigits 10 n) = n := by
  rw [digitsValue_eq, Nat.ofDigitChars_ten_toDigits]

theorem digitsValue_zeros (n : Nat) : digitsValue (Layout.zeros n) = 0 := by
  rw [digitsValue_eq, Layout.zeros, Nat.ofDigitChars_replicate_zero, Nat.mul_zero]

section readUnsigned
variable {negative : Bool} {whole fraction rest : List Char} {exponent : Int}

theorem readUnsigned_point (hwhole : ∀ c ∈ whole, c.isDigit = true) (hne : whole ≠ [])
    (hfraction : ∀ c ∈ fraction, c.isDigit = true) (hrest : ∀ c, rest.head? = some c → c.isDigit = false)
    (hexponent : readExponent rest = some exponent) :
    readUnsigned negative (whole ++ '.' :: (fraction ++ rest)) =
      some (ofDecimal negative (digitsValue (whole ++ fraction)) (exponent - fraction.length)) := by
  have hstop : ∀ c, ('.' :: (fraction ++ rest)).head? = some c → c.isDigit = false := by
    rintro _ ⟨⟩
    rfl
  have hpoint := Text.takeWhile_run hwhole hstop
  have hdigits := Text.takeWhile_run hfraction hrest
  rw [readUnsigned, hpoint.1, hpoint.2]
  simp [hdigits.1, hdigits.2, hexponent, hne]

theorem readUnsigned_fraction (hwhole : ∀ c ∈ whole, c.isDigit = true) (hne : whole ≠ [])
    (hfraction : ∀ c ∈ fraction, c.isDigit = true) : readUnsigned negative (whole ++ '.' :: fraction) =
      some (ofDecimal negative (digitsValue (whole ++ fraction)) (-fraction.length)) := by
  have hread : readUnsigned negative (whole ++ '.' :: (fraction ++ [])) =
      some (ofDecimal negative (digitsValue (whole ++ fraction)) (0 - fraction.length)) :=
    readUnsigned_point hwhole hne hfraction (by simp) rfl
  rwa [List.append_nil, zero_sub] at hread

theorem readUnsigned_whole (hwhole : ∀ c ∈ whole, c.isDigit = true) (hne : whole ≠ [])
    (hrest : ∀ c, rest.head? = some c → c.isDigit = false ∧ c ≠ '.') (hexponent : readExponent rest = some exponent) :
    readUnsigned negative (whole ++ rest) = some (ofDecimal negative (digitsValue whole) exponent) := by
  have hdigits := Text.takeWhile_run hwhole fun c hc => (hrest c hc).1
  rw [readUnsigned, hdigits.1, hdigits.2]
  cases rest with
  | nil => simp [hexponent, hne]
  | cons c rest => simp [hexponent, hne, (hrest c rfl).2]

end readUnsigned

end Binary64

namespace Layout

theorem isDigit_toDigits (n : Nat) : ∀ c ∈ Nat.toDigits 10 n, c.isDigit = true := fun _ hc =>
  Nat.isDigit_of_mem_toDigits (by decide) le_rfl hc

theorem isDigit_zeros (n : Nat) : ∀ c ∈ zeros n, c.isDigit = true := fun c hc => by
  rw [List.eq_of_mem_replicate hc]
  rfl

theorem isDigit_ne {c d : Char} (hc : c.isDigit = true) (hd : d.isDigit = false) : c ≠ d := by
  rintro rfl
  rw [hc] at hd
  exact Bool.noConfusion hd

theorem readExponent_sign {ds : List Char} (hds : ∀ c ∈ ds, c.isDigit = true) (hne : ds ≠ []) :
    readExponent ('e' :: '-' :: ds) = some (-(digitsValue ds : Int)) ∧
      readExponent ('e' :: '+' :: ds) = some (digitsValue ds : Int) ∧
      readExponent ('e' :: ds) = some (digitsValue ds : Int) := by
  have hall : ds.all Char.isDigit = true := List.all_eq_true.mpr hds
  refine ⟨by simp [readExponent, hall, hne], by simp [readExponent, hall, hne], ?_⟩
  obtain ⟨c, ds, rfl⟩ := List.exists_cons_of_ne_nil hne
  have hc := hds c List.mem_cons_self
  simp [readExponent, hall, isDigit_ne hc (d := '-') rfl, isDigit_ne hc (d := '+') rfl]

theorem readExponent_exponent (layout : Layout) (e : Int) : readExponent (layout.exponent e) = some e := by
  set ds := zeros (layout.width - (Nat.toDigits 10 e.natAbs).length) ++ Nat.toDigits 10 e.natAbs with hds
  have hvalue : digitsValue ds = e.natAbs := by
    rw [hds, digitsValue_append, digitsValue_zeros, digitsValue_toDigits, Nat.zero_mul, Nat.zero_add]
  have hdigits : ∀ c ∈ ds, c.isDigit = true := fun c hc =>
    (List.mem_append.mp hc).elim (isDigit_zeros _ c) (isDigit_toDigits _ c)
  obtain ⟨hminus, hplus, hnone⟩ := readExponent_sign hdigits (by simp [hds, Nat.toDigits_ne_nil])
  rw [hvalue] at hminus hplus hnone
  rw [exponent]
  simp only [List.cons_append, List.append_assoc, ← hds]
  split_ifs with hneg hsign
  · rw [List.singleton_append, hminus]
    congr 1
    omega
  · rw [List.singleton_append, hplus]
    congr 1
    omega
  · rw [List.nil_append, hnone]
    congr 1
    omega

theorem head?_exponent (layout : Layout) (e : Int) :
    ∀ c, (layout.exponent e).head? = some c → c.isDigit = false ∧ c ≠ '.' := by
  rintro _ ⟨⟩
  exact ⟨rfl, by decide⟩

/-! ## Laid-out digits -/

/-- A text is a numeral of a value: digits with a point among them, with an exponent behind them, or with both. -/
inductive Writes (layout : Layout) (value : ℚ) : List Char → Prop where
  | point {whole fraction : List Char} (hwhole : ∀ c ∈ whole, c.isDigit = true) (hne : whole ≠ [])
      (hfraction : ∀ c ∈ fraction, c.isDigit = true)
      (hvalue : (digitsValue (whole ++ fraction) : ℚ) * 10 ^ (-fraction.length : Int) = value) :
      Writes layout value (whole ++ '.' :: fraction)
  | exponent {whole : List Char} {e : Int} (hwhole : ∀ c ∈ whole, c.isDigit = true) (hne : whole ≠ [])
      (hvalue : (digitsValue whole : ℚ) * 10 ^ e = value) : Writes layout value (whole ++ layout.exponent e)
  | both {whole fraction : List Char} {e : Int} (hwhole : ∀ c ∈ whole, c.isDigit = true) (hne : whole ≠ [])
      (hfraction : ∀ c ∈ fraction, c.isDigit = true)
      (hvalue : (digitsValue (whole ++ fraction) : ℚ) * 10 ^ (e - fraction.length) = value) :
      Writes layout value (whole ++ '.' :: (fraction ++ layout.exponent e))

variable {layout : Layout} {d : Digits} {negative : Bool} {ds : List Char}

theorem writes_zero : Writes layout 0 ['0', '.', '0'] := by
  show Writes layout 0 (zeros 1 ++ '.' :: zeros 1)
  refine .point (isDigit_zeros 1) (List.cons_ne_nil _ _) (isDigit_zeros 1) ?_
  rw [digitsValue_append, digitsValue_zeros, Nat.zero_mul, Nat.zero_add, Nat.cast_zero, zero_mul]

theorem writes_whole (hds : ∀ c ∈ ds, c.isDigit = true) (hne : ds ≠ []) (k : Nat) :
    Writes layout (digitsValue ds * 10 ^ (k : Int)) (ds ++ zeros k ++ ['.', '0']) := by
  show Writes layout _ (ds ++ zeros k ++ '.' :: zeros 1)
  refine .point (fun c hc => ?_) (by simp [hne]) (isDigit_zeros 1) ?_
  · exact (List.mem_append.mp hc).elim (hds c) (isDigit_zeros k c)
  · rw [digitsValue_append, digitsValue_append, digitsValue_zeros, digitsValue_zeros]
    simp only [zeros, List.length_replicate]
    push_cast
    rw [zpow_natCast, zpow_neg_one]
    ring

theorem writes_split (hds : ∀ c ∈ ds, c.isDigit = true) {k : Nat} (hpos : 0 < k) (hle : k ≤ ds.length) :
    Writes layout (digitsValue ds * 10 ^ ((k : Int) - ds.length)) (ds.take k ++ '.' :: ds.drop k) := by
  refine .point (fun c hc => hds c (List.mem_of_mem_take hc)) ?_ (fun c hc => hds c (List.mem_of_mem_drop hc)) ?_
  · rw [Ne, List.take_eq_nil_iff, ← List.length_eq_zero_iff]
    omega
  · rw [List.take_append_drop, List.length_drop]
    congr 2
    omega

theorem writes_fraction (hds : ∀ c ∈ ds, c.isDigit = true) (k : Nat) :
    Writes layout (digitsValue ds * 10 ^ (-(k + ds.length : Int))) ('0' :: '.' :: zeros k ++ ds) := by
  show Writes layout _ (zeros 1 ++ '.' :: (zeros k ++ ds))
  refine .point (isDigit_zeros 1) (List.cons_ne_nil _ _) (fun c hc => ?_) ?_
  · exact (List.mem_append.mp hc).elim (isDigit_zeros k c) (hds c)
  · rw [digitsValue_append, digitsValue_append, digitsValue_zeros, digitsValue_zeros, Nat.zero_mul, Nat.zero_add,
      Nat.zero_mul, Nat.zero_add, List.length_append, zeros, List.length_replicate, Nat.cast_add]

theorem writes_first {first : Char} {rest : List Char} (hds : ∀ c ∈ first :: rest, c.isDigit = true) (e : Int) :
    Writes layout (digitsValue (first :: rest) * 10 ^ (e - rest.length))
      (first :: '.' :: rest ++ layout.exponent e) := by
  rw [← List.singleton_append, List.forall_mem_append] at hds
  exact .both hds.1 (List.cons_ne_nil _ _) hds.2 rfl

/-- **Digits are written as a numeral of their value.** -/
theorem writes_digits (layout : Layout) (d : Digits) : Writes layout d.value (layout.digits d) := by
  obtain ⟨n, e⟩ := d
  have hds := isDigit_toDigits n
  have hne : Nat.toDigits 10 n ≠ [] := Nat.toDigits_ne_nil
  have hvalue := digitsValue_toDigits n
  rw [digits, Digits.value]
  dsimp only
  generalize Nat.toDigits 10 n = ds at *
  subst hvalue
  split_ifs with hzero hwhole hpoint hzeros
  · rw [hzero, Nat.cast_zero, zero_mul]
    exact writes_zero
  · obtain ⟨k, rfl⟩ := Int.eq_ofNat_of_zero_le hwhole.1
    exact writes_whole hds hne k
  · have hexponent : ((ds.length + e).toNat : Int) - ds.length = e := by omega
    have hwrites : Writes layout _ _ := writes_split hds (k := (ds.length + e).toNat) (by omega) (by omega)
    rwa [hexponent] at hwrites
  · have hexponent : -(((-(ds.length + e)).toNat : Int) + ds.length) = e := by omega
    have hwrites : Writes layout _ _ := writes_fraction hds (-(ds.length + e)).toNat
    rwa [hexponent] at hwrites
  · match ds, hne with
    | [only], hne =>
      refine .exponent hds hne ?_
      rw [List.length_singleton, Nat.cast_one, add_sub_cancel_left]
    | first :: second :: rest, _ =>
      have hwrites : Writes layout _ _ := writes_first hds ((first :: second :: rest).length + e - 1)
      have hexponent : ((first :: second :: rest).length + e - 1 - (second :: rest).length : Int) = e := by
        push_cast [List.length_cons]
        omega
      rwa [hexponent] at hwrites

theorem readUnsigned_of_writes {value : ℚ} {cs : List Char} (h : Writes layout value cs) : ∃ n e,
    readUnsigned negative cs = some (ofDecimal negative n e) ∧ (n : ℚ) * 10 ^ e = value := by
  cases h with
  | point hwhole hne hfraction hvalue => exact ⟨_, _, readUnsigned_fraction hwhole hne hfraction, hvalue⟩
  | exponent hwhole hne hvalue =>
    exact ⟨_, _, readUnsigned_whole hwhole hne (head?_exponent layout _) (readExponent_exponent layout _), hvalue⟩
  | both hwhole hne hfraction hvalue =>
    refine ⟨_, _, readUnsigned_point hwhole hne hfraction (fun c hc => ?_) (readExponent_exponent layout _), hvalue⟩
    exact (head?_exponent layout _ c hc).1

/-- **The digits of a number are read as the number.** -/
theorem readUnsigned_shortest (layout : Layout) {m : Nat} {e : Int} (hm : Normal m e) (negative : Bool) :
    readUnsigned negative (layout.digits (Digits.shortest m e)) = some (.finite negative m e) := by
  rcases Nat.eq_zero_or_pos m with rfl | hpos
  · obtain rfl : e = minExponent := hm.full.resolve_left (by decide)
    rfl
  · have hrounds := Digits.rounds_shortest hm hpos
    obtain ⟨n, x, hread, hvalue⟩ := readUnsigned_of_writes (layout.writes_digits (Digits.shortest m e))
    rw [hread, ofDecimal_eq hm hpos (hvalue ▸ hrounds)]

/-! ## The characters of numerals -/

def isNumeralChar (c : Char) : Bool := c.isDigit || c == '.' || c == 'e' || c == '-' || c == '+'

/-- The characters of a numeral that is no integer, without its sign. -/
structure Numeral (cs : List Char) : Prop where
  head : ∃ c rest, cs = c :: rest ∧ c.isDigit = true
  chars : ∀ c ∈ cs, isNumeralChar c = true
  mark : '.' ∈ cs ∨ 'e' ∈ cs

theorem isNumeralChar_of_isDigit {c : Char} (h : c.isDigit = true) : isNumeralChar c = true := by
  simp [isNumeralChar, h]

theorem isNumeralChar_exponent (layout : Layout) (e : Int) : ∀ c ∈ layout.exponent e, isNumeralChar c = true := by
  intro c hc
  rw [exponent] at hc
  simp only [List.cons_append, List.append_assoc, List.mem_cons, List.mem_append] at hc
  rcases hc with rfl | hc | hc | hc
  · rfl
  · split_ifs at hc <;> simp at hc <;> subst hc <;> rfl
  · exact isNumeralChar_of_isDigit (isDigit_zeros _ c hc)
  · exact isNumeralChar_of_isDigit (isDigit_toDigits _ c hc)

theorem numeral_append {whole rest : List Char} (hwhole : ∀ c ∈ whole, c.isDigit = true) (hne : whole ≠ [])
    (hrest : ∀ c ∈ rest, isNumeralChar c = true) (hmark : '.' ∈ rest ∨ 'e' ∈ rest) : Numeral (whole ++ rest) where
  head := by
    obtain ⟨c, cs, rfl⟩ := List.exists_cons_of_ne_nil hne
    exact ⟨c, cs ++ rest, rfl, hwhole c List.mem_cons_self⟩
  chars c hc := (List.mem_append.mp hc).elim (fun h => isNumeralChar_of_isDigit (hwhole c h)) (hrest c)
  mark := hmark.imp (List.mem_append_right _) (List.mem_append_right _)

theorem isNumeralChar_point {fraction rest : List Char} (hfraction : ∀ c ∈ fraction, c.isDigit = true)
    (hrest : ∀ c ∈ rest, isNumeralChar c = true) : ∀ c ∈ '.' :: (fraction ++ rest), isNumeralChar c = true := by
  intro c hc
  rw [List.mem_cons, List.mem_append] at hc
  rcases hc with rfl | hc | hc
  · rfl
  · exact isNumeralChar_of_isDigit (hfraction c hc)
  · exact hrest c hc

theorem numeral_of_writes {value : ℚ} {cs : List Char} (h : Writes layout value cs) : Numeral cs := by
  cases h with
  | @point whole fraction hwhole hne hfraction _ =>
    have hpoint : ∀ c ∈ '.' :: (fraction ++ []), isNumeralChar c = true := isNumeralChar_point hfraction (by simp)
    rw [List.append_nil] at hpoint
    exact numeral_append hwhole hne hpoint (.inl List.mem_cons_self)
  | exponent hwhole hne _ =>
    exact numeral_append hwhole hne (isNumeralChar_exponent layout _) (.inr List.mem_cons_self)
  | both hwhole hne hfraction _ =>
    exact numeral_append hwhole hne (isNumeralChar_point hfraction (isNumeralChar_exponent layout _))
      (.inl List.mem_cons_self)

theorem numeral_digits (layout : Layout) (d : Digits) : Numeral (layout.digits d) :=
  numeral_of_writes (layout.writes_digits d)

end Layout

end ChartValues.Decimal
