import Mathlib.Data.String.Basic
import ChartValues.Proofs.Tree.Flatten

/-!
# The text of a sort key

A sort key is written as a digit for its rank and a numeral that is filled with zeros to six digits. Numerals of
one length are ordered as texts like their numbers (`lt_iff_of_length_eq`); of two lengths, the longer one counts
only with as many digits as the shorter one has (`lt_iff_of_length_le`). Numbers of up to six digits have one
length, so their order is kept. Beyond, `text_lt_iff_lt_iff` says exactly for which keys the texts are ordered
like the keys: the smaller number, moved to the length of the larger one, must not exceed it (`Aligned`).
-/

namespace ChartValues

/-! ## The order of numerals -/

namespace Numeral

variable {cs ds : List Char}

theorem ofDigitChars_cons (c : Char) (cs : List Char) :
    Nat.ofDigitChars 10 (c :: cs) 0 = 10 ^ cs.length * (c.toNat - 48) + Nat.ofDigitChars 10 cs 0 := by
  rw [Nat.ofDigitChars_cons, Nat.ofDigitChars_eq_ofDigitChars_zero, Nat.mul_zero, Nat.zero_add]
  rfl

theorem toNat_of_isDigit {c : Char} (h : c.isDigit = true) : 48 ≤ c.toNat ∧ c.toNat ≤ 57 := by
  rw [Char.isDigit, Bool.and_eq_true, decide_eq_true_eq, decide_eq_true_eq] at h
  exact h

theorem ofDigitChars_lt (h : ∀ c ∈ cs, c.isDigit = true) : Nat.ofDigitChars 10 cs 0 < 10 ^ cs.length := by
  induction cs with
  | nil => simp
  | cons c cs ih =>
    have hc := toNat_of_isDigit (h c List.mem_cons_self)
    have hcs := ih fun d hd => h d (List.mem_cons_of_mem _ hd)
    have hdigit : 10 ^ cs.length * (c.toNat - 48) ≤ 10 ^ cs.length * 9 := Nat.mul_le_mul_left _ (by omega)
    rw [ofDigitChars_cons, List.length_cons, Nat.pow_succ]
    omega

theorem lt_iff_of_length_eq (hcs : ∀ c ∈ cs, c.isDigit = true) (hds : ∀ d ∈ ds, d.isDigit = true)
    (hlength : cs.length = ds.length) : cs < ds ↔ Nat.ofDigitChars 10 cs 0 < Nat.ofDigitChars 10 ds 0 := by
  induction cs generalizing ds with
  | nil =>
    obtain rfl := List.length_eq_zero_iff.mp hlength.symm
    simp
  | cons c cs ih =>
    obtain ⟨d, ds, rfl⟩ := List.exists_cons_of_length_pos (l := ds) (by rw [← hlength]; simp)
    have hlength : cs.length = ds.length := by simpa using hlength
    have hcs' : ∀ c ∈ cs, c.isDigit = true := fun c hc => hcs c (List.mem_cons_of_mem _ hc)
    have hds' : ∀ d ∈ ds, d.isDigit = true := fun d hd => hds d (List.mem_cons_of_mem _ hd)
    have hc := toNat_of_isDigit (hcs c List.mem_cons_self)
    have hd := toNat_of_isDigit (hds d List.mem_cons_self)
    have hlow := ofDigitChars_lt hcs'
    have hlow' := ofDigitChars_lt hds'
    have hless : c < d ↔ c.toNat < d.toNat := Iff.rfl
    have heq : c = d ↔ c.toNat = d.toNat := Char.toNat_inj.symm
    rw [List.cons_lt_cons_iff, ih hcs' hds' hlength, ofDigitChars_cons, ofDigitChars_cons, hless, heq,
      hlength]
    rw [hlength] at hlow
    -- the first digits decide unless they are the same
    rcases Nat.lt_trichotomy c.toNat d.toNat with h | h | h
    · have hstep : 10 ^ ds.length * (c.toNat - 48 + 1) ≤ 10 ^ ds.length * (d.toNat - 48) :=
        Nat.mul_le_mul_left _ (by omega)
      rw [Nat.mul_add] at hstep
      omega
    · rw [h]
      omega
    · have hstep : 10 ^ ds.length * (d.toNat - 48 + 1) ≤ 10 ^ ds.length * (c.toNat - 48) :=
        Nat.mul_le_mul_left _ (by omega)
      rw [Nat.mul_add] at hstep
      omega

theorem lt_iff_take_lt (hlength : ds.length ≤ cs.length) : cs < ds ↔ cs.take ds.length < ds := by
  induction ds generalizing cs with
  | nil => simp
  | cons d ds ih =>
    obtain ⟨c, cs, rfl⟩ := List.exists_cons_of_length_pos (l := cs) (by simp at hlength; omega)
    rw [List.length_cons, List.take_succ_cons, List.cons_lt_cons_iff, List.cons_lt_cons_iff,
      ih (by simpa using hlength)]

theorem ofDigitChars_take (hcs : ∀ c ∈ cs, c.isDigit = true) (k : Nat) :
    Nat.ofDigitChars 10 (cs.take k) 0 = Nat.ofDigitChars 10 cs 0 / 10 ^ (cs.length - k) := by
  have hrest : Nat.ofDigitChars 10 (cs.drop k) 0 < 10 ^ (cs.length - k) := by
    rw [← List.length_drop]
    exact ofDigitChars_lt fun c hc => hcs c (List.mem_of_mem_drop hc)
  conv_rhs => rw [← List.take_append_drop k cs]
  rw [Nat.ofDigitChars_append, Nat.ofDigitChars_eq_ofDigitChars_zero (l := cs.drop k), List.length_drop,
    List.take_append_drop, Nat.mul_add_div (Nat.pow_pos (by decide)), Nat.div_eq_of_lt hrest, Nat.add_zero]

theorem lt_iff_of_length_le (hcs : ∀ c ∈ cs, c.isDigit = true) (hds : ∀ d ∈ ds, d.isDigit = true)
    (hlength : ds.length ≤ cs.length) :
    cs < ds ↔ Nat.ofDigitChars 10 cs 0 / 10 ^ (cs.length - ds.length) < Nat.ofDigitChars 10 ds 0 := by
  rw [lt_iff_take_lt hlength, ← ofDigitChars_take hcs]
  exact lt_iff_of_length_eq (fun c hc => hcs c (List.mem_of_mem_take hc)) hds (by rw [List.length_take]; omega)

end Numeral

/-! ## Numbers of six digits and more -/

namespace SortKey

variable {a b : SortKey} {m n : Nat}

/-- The number of digits that a number takes in the text of a key. -/
def width (n : Nat) : Nat := max 6 (Nat.toDigits 10 n).length

theorem toList_sixDigits (n : Nat) :
    (sixDigits n).toList = List.replicate (6 - (Nat.toDigits 10 n).length) '0' ++ Nat.toDigits 10 n := by
  simp [sixDigits, ← String.length_toList]

theorem length_sixDigits (n : Nat) : (sixDigits n).toList.length = width n := by
  rw [toList_sixDigits, List.length_append, List.length_replicate, width]
  omega

theorem isDigit_sixDigits (n : Nat) : ∀ c ∈ (sixDigits n).toList, c.isDigit = true := by
  intro c hc
  rw [toList_sixDigits, List.mem_append] at hc
  rcases hc with hc | hc
  · rw [List.eq_of_mem_replicate hc]
    rfl
  · exact Nat.isDigit_of_mem_toDigits (by decide) (by decide) hc

theorem ofDigitChars_sixDigits (n : Nat) : Nat.ofDigitChars 10 (sixDigits n).toList 0 = n := by
  rw [toList_sixDigits, Nat.ofDigitChars_append, Nat.ofDigitChars_replicate_zero, Nat.mul_zero,
    Nat.ofDigitChars_ten_toDigits]

theorem sixDigits_injective : Function.Injective sixDigits := by
  intro m n h
  rw [← ofDigitChars_sixDigits m, h, ofDigitChars_sixDigits]

theorem width_le_iff {k : Nat} (hk : 6 ≤ k) : width n ≤ k ↔ n < 10 ^ k := by
  rw [width, ← Nat.length_toDigits_le_iff (by decide) (by omega)]
  omega

theorem width_mono (h : m ≤ n) : width m ≤ width n := by
  have hsix : 6 ≤ width n := Nat.le_max_left _ _
  have hn : n < 10 ^ width n := (width_le_iff hsix).mp (Nat.le_refl _)
  exact (width_le_iff hsix).mpr (Nat.lt_of_le_of_lt h hn)

theorem width_of_lt (h : n < 1000000) : width n = 6 :=
  Nat.le_antisymm ((width_le_iff (Nat.le_refl 6)).mpr h) (Nat.le_max_left _ _)

theorem sixDigits_lt_iff (hwidth : width m ≤ width n) :
    sixDigits n < sixDigits m ↔ n / 10 ^ (width n - width m) < m := by
  rw [← length_sixDigits, ← length_sixDigits] at hwidth
  rw [String.lt_iff_toList_lt, Numeral.lt_iff_of_length_le (isDigit_sixDigits n) (isDigit_sixDigits m) hwidth,
    ofDigitChars_sixDigits, ofDigitChars_sixDigits, length_sixDigits, length_sixDigits]

theorem sixDigits_lt_iff_not_lt (h : m ≠ n) : sixDigits m < sixDigits n ↔ ¬ sixDigits n < sixDigits m :=
  ⟨fun hlt => lt_asymm hlt, fun hnot => lt_of_le_of_ne (not_lt.mp hnot) fun heq => h (sixDigits_injective heq)⟩

/-- The texts of two numbers are in order if and only if the smaller one, filled with zeros behind it to the length
of the larger one, does not exceed it. -/
theorem sixDigits_lt_of_lt_iff (h : m < n) :
    sixDigits m < sixDigits n ↔ m * 10 ^ (width n - width m) ≤ n := by
  rw [sixDigits_lt_iff_not_lt (Nat.ne_of_lt h), sixDigits_lt_iff (width_mono (Nat.le_of_lt h)), Nat.not_lt,
    Nat.le_div_iff_mul_le (Nat.pow_pos (by decide))]

/-! ## Keys -/

/-- Of two keys of one rank, the smaller number, filled with zeros behind it to the length of the larger one, does not
exceed it. -/
def Aligned (a b : SortKey) : Prop :=
  a.rank = b.rank → min a.sequence b.sequence *
    10 ^ (width (max a.sequence b.sequence) - width (min a.sequence b.sequence)) ≤ max a.sequence b.sequence

instance (a b : SortKey) : Decidable (a.Aligned b) := inferInstanceAs (Decidable (_ → _))

theorem aligned_of_lt (ha : a.sequence < 1000000) (hb : b.sequence < 1000000) : a.Aligned b := by
  intro _
  rw [width_of_lt (by omega), width_of_lt (by omega), Nat.sub_self, Nat.pow_zero]
  omega

theorem toList_text (ha : a.rank ≤ 1) :
    a.text.toList = Nat.digitChar a.rank :: (sixDigits a.sequence).toList := by
  rw [text, String.toList_append, Nat.toString_eq_repr, Nat.toList_repr, Nat.toDigits_of_lt_base (by omega)]
  rfl

theorem digitChar_eq_iff (hm : m < 10) (hn : n < 10) : Nat.digitChar m = Nat.digitChar n ↔ m = n := by
  rw [← Char.toNat_inj, Nat.toNat_digitChar_of_lt_ten hm, Nat.toNat_digitChar_of_lt_ten hn]
  omega

theorem digitChar_lt_iff (hm : m < 10) (hn : n < 10) : Nat.digitChar m < Nat.digitChar n ↔ m < n := by
  show (Nat.digitChar m).toNat < (Nat.digitChar n).toNat ↔ m < n
  rw [Nat.toNat_digitChar_of_lt_ten hm, Nat.toNat_digitChar_of_lt_ten hn]
  omega

theorem text_lt_iff (ha : a.rank ≤ 1) (hb : b.rank ≤ 1) :
    a.text < b.text ↔
      a.rank < b.rank ∨ a.rank = b.rank ∧ sixDigits a.sequence < sixDigits b.sequence := by
  rw [String.lt_iff_toList_lt, toList_text ha, toList_text hb, List.cons_lt_cons_iff,
    digitChar_lt_iff (by omega) (by omega), digitChar_eq_iff (by omega) (by omega)]
  rfl

theorem eq_of_text_eq (ha : a.rank ≤ 1) (hb : b.rank ≤ 1) (h : a.text = b.text) : a = b := by
  have hchars := congrArg String.toList h
  rw [toList_text ha, toList_text hb, List.cons.injEq, digitChar_eq_iff (by omega) (by omega)] at hchars
  have hsequence := sixDigits_injective (String.toList_injective hchars.2)
  cases a
  cases b
  obtain rfl := hchars.1
  obtain rfl := hsequence
  rfl

theorem text_lt_iff_lt_iff (ha : a.rank ≤ 1) (hb : b.rank ≤ 1) :
    (a.text < b.text ↔ a < b) ↔ a.Aligned b := by
  rw [text_lt_iff ha hb, lt_iff, Aligned]
  by_cases hrank : a.rank = b.rank
  · simp only [hrank, Nat.lt_irrefl, false_or, true_and, true_imp_iff]
    rcases Nat.lt_trichotomy a.sequence b.sequence with h | h | h
    · rw [Nat.min_eq_left (Nat.le_of_lt h), Nat.max_eq_right (Nat.le_of_lt h), ← sixDigits_lt_of_lt_iff h]
      exact iff_true_right h
    · simp [h]
    · rw [Nat.min_eq_right (Nat.le_of_lt h), Nat.max_eq_left (Nat.le_of_lt h), ← sixDigits_lt_of_lt_iff h,
        sixDigits_lt_iff_not_lt (Nat.ne_of_lt h)]
      exact iff_false_right (Nat.lt_asymm h)
  · simp [hrank]

end SortKey

end ChartValues
