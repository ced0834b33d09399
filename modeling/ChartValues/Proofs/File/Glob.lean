import ChartValues.File.Glob
import ChartValues.Proofs.Text.Run
import Mathlib.Data.List.Infix

/-!
# What patterns match

`Glob.Matches` says part by part what a pattern matches; the matcher, which tries every way to go on behind a run,
finds a match exactly if there is one (`accepts_iff`). A pattern that is written as a star and a text without
special characters (`ofString_endingIn`) matches the texts that end in that text (`accepts_endingIn_iff`).
-/

namespace ChartValues.Glob

/-! ## Matching -/

/-- The parts match a text: each takes, one after another, what it stands for. -/
inductive Matches : List Part → List Char → Prop where
  | nil : Matches [] []
  | one {part parts c cs} (htakes : Part.takes part c = true) (h : Matches parts cs) : Matches (part :: parts) (c :: cs)
  | anyRun {parts rest} (run : List Char) (h : Matches parts rest) : Matches (.anyRun :: parts) (run ++ rest)
  | noComponents {parts cs} (h : Matches parts cs) : Matches (.anyComponents :: parts) cs
  | someComponents {parts rest} (run : List Char) (h : Matches parts rest) :
      Matches (.anyComponents :: parts) (run ++ '/' :: rest)
  | allComponents {parts} (cs : List Char) (h : Matches parts []) : Matches (.anyComponents :: parts) cs

variable {part : Part} {parts : List Part} {c : Char} {cs rest : List Char} {text name : String}

theorem mem_suffixes : rest ∈ suffixes cs ↔ rest <:+ cs := by
  have htails : suffixes cs = cs.tails := by
    induction cs with
    | nil => rfl
    | cons c cs ih => rw [suffixes, ih, List.tails]
  rw [htails, List.mem_tails]

theorem mem_afterComponents : rest ∈ afterComponents cs ↔ rest = [] ∨ ∃ run, cs = run ++ '/' :: rest := by
  induction cs with
  | nil => simp [afterComponents]
  | cons c cs ih =>
    have hcons : rest ∈ afterComponents (c :: cs) ↔ (c = '/' ∧ rest = cs) ∨ rest ∈ afterComponents cs := by
      rw [afterComponents]
      by_cases hc : c = '/' <;> simp [hc]
    rw [hcons, ih]
    constructor
    · rintro (⟨rfl, rfl⟩ | hnil | ⟨run, rfl⟩)
      · exact .inr ⟨[], rfl⟩
      · exact .inl hnil
      · exact .inr ⟨c :: run, rfl⟩
    · rintro (hnil | ⟨run, heq⟩)
      · exact .inr (.inl hnil)
      · cases run with
        | nil =>
          obtain ⟨rfl, rfl⟩ := List.cons.inj heq
          exact .inl ⟨rfl, rfl⟩
        | cons d run => exact .inr (.inr ⟨run, (List.cons.inj heq).2⟩)

theorem matches_anyRun_iff : Matches (.anyRun :: parts) cs ↔ ∃ rest, rest <:+ cs ∧ Matches parts rest := by
  constructor
  · intro h
    cases h with
    | one htakes _ => cases htakes
    | anyRun run h => exact ⟨_, List.suffix_append _ _, h⟩
  · rintro ⟨rest, ⟨run, rfl⟩, h⟩
    exact .anyRun run h

theorem matches_anyComponents_iff : Matches (.anyComponents :: parts) cs ↔
    ∃ rest ∈ cs :: afterComponents cs, Matches parts rest := by
  simp only [List.mem_cons, mem_afterComponents]
  constructor
  · intro h
    cases h with
    | one htakes _ => cases htakes
    | noComponents h => exact ⟨cs, .inl rfl, h⟩
    | someComponents run h => exact ⟨_, .inr (.inr ⟨run, rfl⟩), h⟩
    | allComponents cs h => exact ⟨[], .inr (.inl rfl), h⟩
  · rintro ⟨rest, rfl | rfl | ⟨run, rfl⟩, h⟩
    · exact .noComponents h
    · exact .allComponents cs h
    · exact .someComponents run h

theorem matches_one_iff (hrun : part ≠ .anyRun) (hcomponents : part ≠ .anyComponents) :
    Matches (part :: parts) cs ↔ ∃ c rest, cs = c :: rest ∧ part.takes c = true ∧ Matches parts rest := by
  constructor
  · intro h
    cases h with
    | one htakes h => exact ⟨_, _, rfl, htakes, h⟩
    | anyRun => exact absurd rfl hrun
    | noComponents | someComponents | allComponents => exact absurd rfl hcomponents
  · rintro ⟨c, rest, rfl, htakes, h⟩
    exact .one htakes h

theorem matchParts_iff : matchParts parts cs = true ↔ Matches parts cs := by
  induction parts generalizing cs with
  | nil =>
    rw [matchParts, List.isEmpty_iff]
    refine ⟨?_, fun h => by cases h; rfl⟩
    rintro rfl
    exact .nil
  | cons part parts ih =>
    by_cases hrun : part = .anyRun
    · simp only [hrun, matchParts, List.any_eq_true, ih, mem_suffixes, matches_anyRun_iff]
    by_cases hcomponents : part = .anyComponents
    · simp only [hcomponents, matchParts, List.any_eq_true, ih, matches_anyComponents_iff]
    rw [matches_one_iff hrun hcomponents]
    cases cs with
    | nil => simp [matchParts]
    | cons c cs => simp [matchParts, ih]

/-- **A pattern accepts the texts that its parts match.** -/
theorem accepts_iff (g : Glob) (name : String) : g.accepts name = true ↔ Matches g.parts name.toList := matchParts_iff

/-! ## A star and a text -/

/-- The pattern of the texts that end in `text`. -/
def endingIn (text : String) : Glob := ⟨.anyRun :: text.toList.map .char⟩

theorem matches_chars_iff {text : List Char} : Matches (text.map .char) cs ↔ cs = text := by
  induction text generalizing cs with
  | nil =>
    refine ⟨fun h => by cases h; rfl, ?_⟩
    rintro rfl
    exact .nil
  | cons c text ih =>
    rw [List.map_cons, matches_one_iff (by simp) (by simp)]
    simp only [ih, Part.takes, beq_iff_eq]
    constructor
    · rintro ⟨_, _, rfl, rfl, rfl⟩
      rfl
    · rintro rfl
      exact ⟨c, text, rfl, rfl, rfl⟩

/-- **A star and a text match what ends in the text.** -/
theorem accepts_endingIn_iff : (endingIn text).accepts name = true ↔ text.toList <:+ name.toList := by
  rw [accepts_iff, endingIn, matches_anyRun_iff]
  simp only [matches_chars_iff, exists_eq_right]

/-- The text has no character with a meaning of its own in patterns. -/
def Plain (cs : List Char) : Prop := ∀ c ∈ cs, c ≠ '?' ∧ c ≠ '*' ∧ c ≠ '['

theorem read_plain (h : Plain cs) {fuel : Nat} (hfuel : cs.length < fuel) (position : Nat) (previous : Option Char)
    (before : List Part) : read fuel position previous before cs = .ok (before.reverse ++ cs.map .char) := by
  induction cs generalizing fuel position previous before with
  | nil =>
    obtain ⟨fuel, rfl⟩ := Nat.exists_eq_succ_of_ne_zero (by omega : fuel ≠ 0)
    simp [read]
  | cons c cs ih =>
    obtain ⟨fuel, rfl⟩ := Nat.exists_eq_succ_of_ne_zero (by omega : fuel ≠ 0)
    obtain ⟨hquestion, hstar, hbracket⟩ := h c List.mem_cons_self
    have hlength : cs.length < fuel := by
      rw [List.length_cons] at hfuel
      omega
    rw [read, if_neg hquestion, if_neg hstar, if_neg hbracket,
      ih (fun d hd => h d (List.mem_cons_of_mem _ hd)) hlength]
    simp

theorem ofString_endingIn (h : Plain text.toList) : ofString ("*" ++ text) = .ok (endingIn text) := by
  have hhead : ∀ ch, text.toList.head? = some ch → (ch == '*') = false := fun ch hch =>
    beq_eq_false_iff_ne.mpr (h ch (List.mem_of_mem_head? hch)).2.1
  have hstar : ∀ ch ∈ ['*'], (ch == '*') = true := by simp
  obtain ⟨hstars, hrest⟩ := Text.takeWhile_run hstar hhead
  have hlist : ("*" ++ text).toList = '*' :: text.toList := by simp
  have hlength : ("*" ++ text).length = text.toList.length + 1 := by
    rw [← String.length_toList, hlist, List.length_cons]
  rw [List.singleton_append] at hstars hrest
  rw [ofString, hlist, hlength, read, if_neg (by decide), if_pos rfl]
  simp only [hstars, hrest]
  rw [if_neg (by simp), if_neg (by simp), read_plain h (Nat.lt_succ_self _)]
  rfl

end ChartValues.Glob
