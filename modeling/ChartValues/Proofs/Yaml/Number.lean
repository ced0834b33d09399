import ChartValues.Proofs.Decimal.Shortest
import ChartValues.Proofs.Yaml.ScalarText
import ChartValues.Yaml.Value

/-!
# Numbers as plain scalars

A number is readable if it is in the range of what a plain scalar can stand for. **The text of a readable number,
as a scalar or in JSON, is a plain scalar that stands for it** (`Scalar.ofPlain_text`, `Scalar.ofPlain_jsonNumber`),
and every number that a scalar stands for is readable (`Scalar.readable_of_ofPlain`).
-/

namespace ChartValues.Yaml

open ChartValues.Decimal

/-- The number is one that scalars stand for. -/
def Number.Readable : Number → Prop
  | integer n => -2 ^ 63 ≤ n ∧ n < 2 ^ 64
  | float x => x.WellFormed

namespace Scalar

/-! ## Texts that start like numbers -/

/-- The text starts with a digit or a minus. -/
def startsNumber : List Char → Bool
  | [] => false
  | c :: _ => c.isDigit || c == '-'

theorem ne_of_startsNumber {s w : String} (hs : startsNumber s.toList = true) (hw : startsNumber w.toList = false) :
    s ≠ w := by
  rintro rfl
  rw [hs] at hw
  exact Bool.noConfusion hw

section startsNumber
variable {s : String} (hs : startsNumber s.toList = true)
include hs

theorem special_of_startsNumber : (s.isEmpty || isNull s) = false ∧ boolean? s = none := by
  have hempty : s.isEmpty = false := by
    rw [← Bool.not_eq_true, String.isEmpty_iff]
    rintro rfl
    simp [startsNumber] at hs
  constructor
  · simp [hempty, isNull, ne_of_startsNumber hs (w := "null") rfl, ne_of_startsNumber hs (w := "Null") rfl,
      ne_of_startsNumber hs (w := "NULL") rfl, ne_of_startsNumber hs (w := "~") rfl]
  · simp [boolean?, ne_of_startsNumber hs (w := "true") rfl, ne_of_startsNumber hs (w := "True") rfl,
      ne_of_startsNumber hs (w := "TRUE") rfl, ne_of_startsNumber hs (w := "false") rfl,
      ne_of_startsNumber hs (w := "False") rfl, ne_of_startsNumber hs (w := "FALSE") rfl]

theorem ofPlain_of_readInteger {n : Int} (h : readInteger s.toList = .number n) :
    ofPlain s = some (number (.integer n)) := by
  obtain ⟨hnull, hboolean⟩ := special_of_startsNumber hs
  simp [ofPlain, hnull, hboolean, h]

theorem ofPlain_of_float {x : Binary64} (hinteger : readInteger s.toList = .absent)
    (hpadded : isZeroPadded s.toList = false) (h : float? s = some x) : ofPlain s = some (number (.float x)) := by
  obtain ⟨hnull, hboolean⟩ := special_of_startsNumber hs
  simp [ofPlain, hnull, hboolean, hinteger, hpadded, h]

end startsNumber

/-! ## Digits -/

theorem hexValue?_of_isDigit {c : Char} (h : c.isDigit = true) :
    hexValue? c = some (c.toNat - '0'.toNat) ∧ c.toNat - '0'.toNat < 10 := by
  rw [Char.isDigit_iff_toNat] at h
  have hrange : '0' ≤ c ∧ c ≤ '9' := by
    simp only [Char.le_def, UInt32.le_iff_toNat_le]
    exact h
  refine ⟨by rw [hexValue?, if_pos hrange], ?_⟩
  have hle : c.toNat ≤ 57 := h.2
  show c.toNat - 48 < 10
  omega

def digitStep (base n : Nat) (c : Char) : Option Nat := do
  let d ← hexValue? c
  if d < base then some (n * base + d) else none

theorem digits?_eq {base : Nat} {cs : List Char} (hne : cs ≠ []) : digits? base cs = cs.foldlM (digitStep base) 0 := by
  rw [digits?, if_neg (by simpa using hne)]
  rfl

theorem digits?_of_isDigit {cs : List Char} (hne : cs ≠ []) (hcs : ∀ c ∈ cs, c.isDigit = true) :
    digits? 10 cs = some (Binary64.digitsValue cs) := by
  have hfold : ∀ n, cs.foldlM (digitStep 10) n =
      some (cs.foldl (fun n c => n * 10 + (c.toNat - '0'.toNat)) n) := by
    clear hne
    induction cs with
    | nil => exact fun n => rfl
    | cons c cs ih =>
      intro n
      obtain ⟨hvalue, hlt⟩ := hexValue?_of_isDigit (hcs c List.mem_cons_self)
      have hstep : digitStep 10 n c = some (n * 10 + (c.toNat - '0'.toNat)) := by
        simp only [digitStep, hvalue, Option.bind_eq_bind, Option.bind_some, if_pos hlt]
      rw [List.foldlM_cons, hstep, Option.bind_eq_bind, Option.bind_some,
        ih fun d hd => hcs d (List.mem_cons_of_mem _ hd)]
      rfl
  rw [digits?_eq hne, hfold]
  rfl

theorem digits?_eq_none {cs : List Char} {c : Char} (hc : c ∈ cs) (hstep : ∀ n, digitStep 10 n c = none) :
    digits? 10 cs = none := by
  have hfold : ∀ n, cs.foldlM (digitStep 10) n = none := by
    induction cs with
    | nil => simp at hc
    | cons d cs ih =>
      intro n
      rw [List.foldlM_cons, Option.bind_eq_bind, Option.bind_eq_none_iff]
      intro m hm
      rcases List.mem_cons.mp hc with rfl | hc
      · rw [hstep] at hm
        simp at hm
      · exact ih hc m
  rw [digits?_eq (List.ne_nil_of_mem hc), hfold]

/-! ## Integers -/

theorem exists_toDigits {n : Nat} (h : 0 < n) : ∃ c rest, Nat.toDigits 10 n = c :: rest ∧ c ≠ '0' := by
  have hdigit : ∀ n < 10, 0 < n → Nat.digitChar n ≠ '0' := by decide
  induction n using Nat.strongRecOn with
  | ind n ih =>
    rcases Nat.lt_or_ge n 10 with hlt | hge
    · exact ⟨n.digitChar, [], Nat.toDigits_of_lt_base hlt, hdigit n hlt h⟩
    · obtain ⟨c, rest, hdigits, hc⟩ := ih (n / 10) (Nat.div_lt_self h (by decide)) (Nat.div_pos hge (by decide))
      exact ⟨c, rest ++ [(n % 10).digitChar], by rw [Nat.toDigits_of_base_le (by decide) hge, hdigits]; rfl, hc⟩

theorem isZeroPadded_toDigits (n : Nat) : isZeroPadded (Nat.toDigits 10 n) = false := by
  rcases Nat.eq_zero_or_pos n with rfl | hpos
  · rfl
  · obtain ⟨c, rest, hdigits, hc⟩ := exists_toDigits hpos
    have hdigit : c.isDigit = true := Layout.isDigit_toDigits n c (by simp [hdigits])
    have hminus := Layout.isDigit_ne hdigit (d := '-') rfl
    have hplus := Layout.isDigit_ne hdigit (d := '+') rfl
    have hunsigned : unsigned (c :: rest) = c :: rest := by simp [unsigned, hminus, hplus]
    rw [hdigits, isZeroPadded, hunsigned]
    split
    · rename_i heq
      exact absurd (List.cons.inj heq).1 hc
    · rfl

theorem magnitude?_toDigits (n : Nat) : magnitude? (Nat.toDigits 10 n) = some n := by
  have hdigits := digits?_of_isDigit Nat.toDigits_ne_nil (Layout.isDigit_toDigits n)
  have hpadded := isZeroPadded_toDigits n
  have hchars := Layout.isDigit_toDigits n
  rw [Binary64.digitsValue_toDigits] at hdigits
  rw [magnitude?.eq_def]
  generalize Nat.toDigits 10 n = ds at *
  split
  · exact absurd (hchars 'x' (by simp)) (by decide)
  · exact absurd (hchars 'o' (by simp)) (by decide)
  · exact absurd (hchars 'b' (by simp)) (by decide)
  · rw [hpadded, hdigits]
    rfl

theorem toList_toString (n : Int) :
    (toString n).toList = (if n < 0 then ['-'] else []) ++ Nat.toDigits 10 n.natAbs := by
  have hnat (m : Nat) : (toString m).toList = Nat.toDigits 10 m := by
    rw [Nat.toString_eq_ofList_toDigits, String.toList_ofList]
  cases n with
  | ofNat n =>
    rw [if_neg (show ¬Int.ofNat n < 0 from Int.not_lt.mpr (Int.natCast_nonneg n))]
    exact hnat n
  | negSucc n =>
    rw [if_pos (Int.negSucc_lt_zero n), show toString (Int.negSucc n) = "-" ++ toString (n + 1) from rfl,
      String.toList_append, hnat]
    rfl

theorem integer?_toString (n : Int) : integer? (toString n).toList = some n := by
  have hmagnitude := magnitude?_toDigits n.natAbs
  have hchars := Layout.isDigit_toDigits n.natAbs
  rw [toList_toString]
  split_ifs with hneg
  · rw [List.singleton_append, integer?, hmagnitude, Option.map_some]
    congr 1
    omega
  · obtain ⟨c, ds, hds⟩ := List.exists_cons_of_ne_nil (Nat.toDigits_ne_nil (n := n.natAbs) (b := 10))
    rw [hds] at hmagnitude hchars
    have hc := hchars c List.mem_cons_self
    have hminus := Layout.isDigit_ne hc (d := '-') rfl
    have hplus := Layout.isDigit_ne hc (d := '+') rfl
    rw [hds, List.nil_append]
    simp [integer?, hmagnitude, hminus, hplus]
    omega

theorem startsNumber_toString (n : Int) : startsNumber (toString n).toList = true := by
  rw [toList_toString]
  split_ifs
  · rfl
  · obtain ⟨c, ds, hds⟩ := List.exists_cons_of_ne_nil (Nat.toDigits_ne_nil (n := n.natAbs) (b := 10))
    have hc : c.isDigit = true := Layout.isDigit_toDigits n.natAbs c (by simp [hds])
    simp [hds, startsNumber, hc]

theorem ofPlain_toString {n : Int} (h : (Number.integer n).Readable) :
    ofPlain (toString n) = some (number (.integer n)) := by
  apply ofPlain_of_readInteger (startsNumber_toString n)
  rw [readInteger, integer?_toString]
  exact if_pos h

/-! ## Floating-point numbers -/

theorem magnitude?_numeral {cs : List Char} (h : Layout.Numeral cs) : magnitude? cs = none := by
  have hdigits : digits? 10 cs = none := by
    rcases h.mark with hmark | hmark
    · exact digits?_eq_none hmark fun n => rfl
    · exact digits?_eq_none hmark fun n => rfl
  rw [magnitude?.eq_def]
  split
  · exact absurd (h.chars 'x' (by simp)) (by decide)
  · exact absurd (h.chars 'o' (by simp)) (by decide)
  · exact absurd (h.chars 'b' (by simp)) (by decide)
  · rw [hdigits, ite_self]

theorem isZeroPadded_of_numeral {cs : List Char} (h : Layout.Numeral cs) (negative : Bool) :
    isZeroPadded ((if negative then ['-'] else []) ++ cs) = false := by
  obtain ⟨c, rest, rfl, hc⟩ := h.head
  have hunsigned : unsigned ((if negative then ['-'] else []) ++ c :: rest) = c :: rest := by
    cases negative
    · have hminus := Layout.isDigit_ne hc (d := '-') rfl
      have hplus := Layout.isDigit_ne hc (d := '+') rfl
      simp [unsigned, hminus, hplus]
    · rfl
  rw [isZeroPadded, hunsigned]
  split
  · rename_i d more heq
    obtain ⟨rfl, rfl⟩ := List.cons.inj heq
    rw [List.all_eq_false]
    rcases h.mark with hmark | hmark
    · exact ⟨'.', by simpa using hmark, by decide⟩
    · exact ⟨'e', by simpa using hmark, by decide⟩
  · rfl

section finite
variable {layout : Layout} {negative : Bool} {m : Nat} {e : Int}

theorem toList_finite : (layout.finite negative m e).toList =
    (if negative then ['-'] else []) ++ layout.digits (Digits.shortest m e) := by
  rw [Layout.finite, String.toList_ofList]

theorem startsNumber_finite : startsNumber (layout.finite negative m e).toList = true := by
  obtain ⟨c, rest, hdigits, hc⟩ := (layout.numeral_digits (Digits.shortest m e)).head
  cases negative
  · simp [toList_finite, hdigits, startsNumber, hc]
  · simp [toList_finite, startsNumber]

theorem readInteger_finite : readInteger (layout.finite negative m e).toList = .absent := by
  have hnumeral := layout.numeral_digits (Digits.shortest m e)
  have hmagnitude := magnitude?_numeral hnumeral
  obtain ⟨c, rest, hdigits, hc⟩ := hnumeral.head
  have hinteger : integer? (layout.finite negative m e).toList = none := by
    cases negative
    · have hminus := Layout.isDigit_ne hc (d := '-') rfl
      have hplus := Layout.isDigit_ne hc (d := '+') rfl
      rw [hdigits] at hmagnitude
      simp [toList_finite, hdigits, integer?, hminus, hplus, hmagnitude]
    · simp [toList_finite, integer?, hmagnitude]
  rw [readInteger, hinteger]

theorem read_finite (hm : Binary64.Normal m e) :
    Binary64.read (layout.finite negative m e).toList = some (.finite negative m e) := by
  have hread := layout.readUnsigned_shortest hm negative
  rw [toList_finite]
  cases negative
  · obtain ⟨c, rest, hdigits, hc⟩ := (layout.numeral_digits (Digits.shortest m e)).head
    have hminus := Layout.isDigit_ne hc (d := '-') rfl
    have hplus := Layout.isDigit_ne hc (d := '+') rfl
    rw [hdigits] at hread
    simp [hdigits, Binary64.read, hminus, hplus, hread]
  · exact hread

/-- The text has a digit behind its sign, so it is none of the words with a point there. -/
theorem finite_ne {w : String} (hw : w.toList.take 2 = ['-', '.']) : layout.finite negative m e ≠ w := by
  obtain ⟨c, rest, hdigits, hc⟩ := (layout.numeral_digits (Digits.shortest m e)).head
  rintro rfl
  rw [toList_finite, hdigits] at hw
  cases negative
  · simp [Layout.isDigit_ne hc (d := '-') rfl] at hw
  · simp [Layout.isDigit_ne hc (d := '.') rfl] at hw

theorem float?_finite (hm : Binary64.Normal m e) :
    float? (layout.finite negative m e) = some (.finite negative m e) := by
  have hstarts : startsNumber (layout.finite negative m e).toList = true := startsNumber_finite
  have hread : Binary64.read (layout.finite negative m e).toList = some (.finite negative m e) := read_finite hm
  obtain ⟨c, rest, hcs⟩ : ∃ c rest, (layout.finite negative m e).toList = c :: rest :=
    List.exists_cons_of_ne_nil fun hnil => by simp [hnil, startsNumber] at hstarts
  have hplus : c ≠ '+' := by
    rintro rfl
    simp [hcs, startsNumber] at hstarts
  have htext : String.ofList (c :: rest) = layout.finite negative m e := by rw [← hcs, String.ofList_toList]
  have hpositive : float? (layout.finite negative m e) =
      (Binary64.read (layout.finite negative m e).toList).filter Binary64.isFinite := by
    simp [float?, hcs, hplus, htext, ne_of_startsNumber hstarts (w := ".inf") rfl,
      ne_of_startsNumber hstarts (w := ".Inf") rfl, ne_of_startsNumber hstarts (w := ".INF") rfl,
      ne_of_startsNumber hstarts (w := ".nan") rfl, ne_of_startsNumber hstarts (w := ".NaN") rfl,
      ne_of_startsNumber hstarts (w := ".NAN") rfl, finite_ne (w := "-.inf") rfl, finite_ne (w := "-.Inf") rfl,
      finite_ne (w := "-.INF") rfl]
  rw [hpositive, hread]
  rfl

theorem ofPlain_finite (hm : Binary64.Normal m e) :
    ofPlain (layout.finite negative m e) = some (number (.float (.finite negative m e))) := by
  refine ofPlain_of_float startsNumber_finite readInteger_finite ?_ (float?_finite hm)
  rw [toList_finite]
  exact isZeroPadded_of_numeral (layout.numeral_digits _) negative

end finite

/-! ## Both texts of a number -/

variable {n : Number}

/-- **The text of a number stands for the number.** -/
theorem ofPlain_text (h : n.Readable) : ofPlain n.text = some (number n) := by
  match n with
  | .integer n => exact ofPlain_toString h
  | .float (.finite negative m e) => exact ofPlain_finite (h negative m e rfl)
  | .float (.infinite true) => decide
  | .float (.infinite false) => decide
  | .float .nan => decide

/-- **So does its JSON text, unless that is null.** -/
theorem ofPlain_jsonNumber (h : n.Readable) : ofPlain (Value.jsonNumber n) = some (number n) ∨
    ofPlain (Value.jsonNumber n) = some null ∧ Value.jsonNumber n = "null" := by
  match n with
  | .integer n => exact .inl (ofPlain_toString h)
  | .float (.finite negative m e) => exact .inl (ofPlain_finite (h negative m e rfl))
  | .float (.infinite _) => exact .inr ⟨rfl, rfl⟩
  | .float .nan => exact .inr ⟨rfl, rfl⟩

theorem isWordChar_of_isDigit {c : Char} (h : c.isDigit = true) : isWordChar c = true := by
  simp [isWordChar, Char.isAlphanum, h]

theorem isWordChar_of_isNumeralChar {c : Char} (h : Layout.isNumeralChar c = true) : isWordChar c = true := by
  simp only [Layout.isNumeralChar, Bool.or_eq_true, beq_iff_eq] at h
  rcases h with (((h | rfl) | rfl) | rfl) | rfl
  · exact isWordChar_of_isDigit h
  all_goals rfl

theorem word_of_digit {cs : List Char} {negative : Bool} (hhead : ∃ c rest, cs = c :: rest ∧ c.isDigit = true)
    (hcs : ∀ c ∈ cs, isWordChar c = true) : Word ((if negative then ['-'] else []) ++ cs) := by
  obtain ⟨c, rest, rfl, hc⟩ := hhead
  refine ⟨by simp, fun d hd => ?_, ?_⟩
  · rcases List.mem_append.mp hd with hd | hd
    · cases negative
      · simp at hd
      · obtain rfl := List.mem_singleton.mp hd
        rfl
    · exact hcs d hd
  · cases negative
    · simp [Layout.isDigit_ne hc (d := '-') rfl]
    · simp

theorem word_toString (n : Int) : Word (toString n).toList := by
  obtain ⟨c, ds, hds⟩ := List.exists_cons_of_ne_nil (Nat.toDigits_ne_nil (n := n.natAbs) (b := 10))
  have hchars := Layout.isDigit_toDigits n.natAbs
  have hword : Word ((if decide (n < 0) = true then ['-'] else []) ++ Nat.toDigits 10 n.natAbs) :=
    word_of_digit ⟨c, ds, hds, hchars c (by simp [hds])⟩ fun d hd => isWordChar_of_isDigit (hchars d hd)
  rw [toList_toString]
  simpa using hword

theorem word_finite (layout : Layout) (negative : Bool) (m : Nat) (e : Int) :
    Word (layout.finite negative m e).toList := by
  have hnumeral := layout.numeral_digits (Digits.shortest m e)
  rw [toList_finite]
  exact word_of_digit hnumeral.head fun c hc => isWordChar_of_isNumeralChar (hnumeral.chars c hc)

theorem word_text (n : Number) : Word n.text.toList := by
  match n with
  | .integer n => exact word_toString n
  | .float (.finite negative m e) => exact word_finite _ negative m e
  | .float (.infinite true) => decide
  | .float (.infinite false) => decide
  | .float .nan => decide

theorem word_jsonNumber (n : Number) : Word (Value.jsonNumber n).toList := by
  match n with
  | .integer n => exact word_toString n
  | .float (.finite negative m e) => exact word_finite _ negative m e
  | .float (.infinite _) => exact word_iff.mpr ⟨by decide +revert, by decide +revert, by decide +revert⟩
  | .float .nan => decide

/-! ## What is read -/

theorem wellFormed_float? {s : String} {x : Binary64} (h : float? s = some x) : x.WellFormed := by
  rw [float?] at h
  obtain ⟨rest, -, h⟩ := Option.bind_eq_some_iff.mp h
  dsimp only at h
  split_ifs at h
  · obtain rfl := Option.some.inj h
    exact Binary64.wellFormed_infinite _
  · obtain rfl := Option.some.inj h
    exact Binary64.wellFormed_infinite _
  · obtain rfl := Option.some.inj h
    rintro _ _ _ ⟨⟩
  · exact Binary64.wellFormed_read (Option.filter_eq_some_iff.mp h).1

theorem readable_of_readInteger {cs : List Char} {n : Int} (h : readInteger cs = .number n) :
    (Number.integer n).Readable := by
  rw [readInteger] at h
  split at h
  · simp at h
  · split_ifs at h with hrange
    obtain rfl := IntegerReading.number.inj h
    exact hrange

/-- **Every number that a plain scalar stands for is readable.** -/
theorem readable_of_ofPlain {s : String} (h : ofPlain s = some (number n)) : n.Readable := by
  rw [ofPlain] at h
  split at h
  · simp at h
  split at h
  · simp at h
  split at h
  · rename_i hread
    obtain rfl := Scalar.number.inj (Option.some.inj h)
    exact readable_of_readInteger hread
  · simp at h
  split at h
  · simp at h
  split at h
  · rename_i hread
    obtain rfl := Scalar.number.inj (Option.some.inj h)
    exact wellFormed_float? hread
  · simp at h

theorem readable_of_ofTagged {tag s : String} (h : ofTagged tag s = some (number n)) : n.Readable := by
  rw [ofTagged] at h
  split_ifs at h
  · obtain ⟨b, -, hb⟩ := Option.map_eq_some_iff.mp h
    simp at hb
  · split at h
    · rename_i hread
      obtain rfl := Scalar.number.inj (Option.some.inj h)
      exact readable_of_readInteger hread
    · simp at h
  · obtain ⟨x, hread, hx⟩ := Option.map_eq_some_iff.mp h
    obtain rfl := Scalar.number.inj hx
    exact wellFormed_float? hread
  · simp at h
  · simp at h

end Scalar

end ChartValues.Yaml
