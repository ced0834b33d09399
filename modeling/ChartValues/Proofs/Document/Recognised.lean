import ChartValues.Proofs.Document.Reference
import ChartValues.Proofs.Document.TopKey

/-!
# What a scan reads from a line

A scan takes two things from a line: the reference of its annotation, and the key at its start. The key is the longest
text that the line starts with as a key (`topLevelKey_eq_some_iff`), and so ends before the last colon of the line's
first word (`longestKey_iff`). `chartRef_and_topLevelKey_iff` says what is read from any line.
-/

namespace ChartValues.Line

open Text

/-- The line starts with `key`, which is neither empty nor has a blank, and a colon. -/
structure StartsWithKey (text key : String) : Prop where
  ne_empty : key ≠ ""
  noBlank : ∀ c ∈ key.toList, isBlank c = false
  starts : key.toList ++ [':'] <+: text.toList

/-- No longer text than `key` stands before a colon like this. -/
structure LongestKey (text key : String) : Prop extends StartsWithKey text key where
  longest : ∀ key', StartsWithKey text key' → key'.length ≤ key.length

variable {text key : String}

/-! ## Keys in the first word -/

theorem startsWithKey_iff : StartsWithKey text key ↔ key ≠ "" ∧ key.toList ++ [':'] <+: firstWord text := by
  constructor
  · rintro ⟨hne, hblank, rest, hrest⟩
    refine ⟨hne, rest.takeWhile fun c => !isBlank c, ?_⟩
    have hrun : ∀ c ∈ key.toList ++ [':'], (!isBlank c) = true := by
      intro c hc
      rcases List.mem_append.mp hc with hc | hc
      · rw [hblank c hc]
        rfl
      · rw [List.mem_singleton.mp hc]
        rfl
    rw [firstWord, ← hrest, List.takeWhile_append_of_pos hrun]
  · rintro ⟨hne, hstarts⟩
    refine ⟨hne, fun c hc => ?_, hstarts.trans (List.takeWhile_prefix _)⟩
    exact isBlank_of_mem_firstWord (hstarts.subset (List.mem_append_left _ hc))

theorem longestKey_iff :
    LongestKey text key ↔ key ≠ "" ∧ ∃ rest, firstWord text = key.toList ++ ':' :: rest ∧ ':' ∉ rest := by
  constructor
  · rintro ⟨hkey, hlongest⟩
    obtain ⟨hne, rest, hrest⟩ := startsWithKey_iff.mp hkey
    rw [List.append_assoc, List.singleton_append] at hrest
    refine ⟨hne, rest, hrest.symm, fun hcolon => ?_⟩
    -- up to a later colon there is a longer key
    obtain ⟨before, after, rfl⟩ := List.append_of_mem hcolon
    have hlonger : StartsWithKey text (key ++ ":" ++ String.ofList before) :=
      startsWithKey_iff.mpr ⟨by simp, after, by simp [← hrest]⟩
    have hle := hlongest _ hlonger
    rw [String.length_append, String.length_append] at hle
    have hone : ":".length = 1 := rfl
    omega
  · rintro ⟨hne, rest, hrest, hcolon⟩
    refine ⟨startsWithKey_iff.mpr ⟨hne, rest, by simp [hrest]⟩, fun key' hkey' => ?_⟩
    obtain ⟨-, more, hmore⟩ := startsWithKey_iff.mp hkey'
    rw [hrest, List.append_assoc, List.singleton_append] at hmore
    rw [← String.length_toList, ← String.length_toList]
    rcases List.append_eq_append_iff.mp hmore with ⟨run, hkey, -⟩ | ⟨run, hkey, htail⟩
    · rw [hkey, List.length_append]
      omega
    · cases run with
      | nil => simp [hkey]
      | cons c run => exact absurd (by simp [(List.cons.inj htail).2]) hcolon

/-- **A line that is no comment has the longest key it starts with.** -/
theorem topLevelKey_eq_some_iff :
    topLevelKey text = some key ↔ text.toList.head? ≠ some '#' ∧ LongestKey text key := by
  rw [longestKey_iff, ← beforeLastColon_eq_some_iff, topLevelKey, topLevelKeyChars, ← firstWord]
  by_cases hhash : text.toList.head? = some '#'
  · simp [hhash]
  rw [if_neg hhash]
  rcases hlast : beforeLastColon (firstWord text) with _ | (_ | ⟨c, cs⟩)
  · simp
  · simp
  · rw [Option.map_some, Option.some.injEq, Option.some.injEq]
    constructor
    · rintro rfl
      exact ⟨hhash, by simp, String.toList_ofList.symm⟩
    · rintro ⟨-, -, hkey⟩
      rw [hkey, String.ofList_toList]

example : topLevelKey "a::b c:" = some "a:" ∧ topLevelKey ":" = none := by decide +kernel

/-- **What a scan reads from a line.** The reference is that of the first `#` with blanks, an `@` and a run of reference
characters behind it; the key is the longest one that the line starts with, unless the line is a comment. -/
theorem chartRef_and_topLevelKey_iff (text : String) :
    (∀ ref, chartRef text = some ref ↔ FirstReference text.toList ref.toList) ∧
    (∀ key, topLevelKey text = some key ↔ text.toList.head? ≠ some '#' ∧ LongestKey text key) ∧
    ∀ key, LongestKey text key ↔ key ≠ "" ∧ ∃ rest, firstWord text = key.toList ++ ':' :: rest ∧ ':' ∉ rest :=
  ⟨fun _ => chartRef_eq_some_iff, fun _ => topLevelKey_eq_some_iff, fun _ => longestKey_iff⟩

end ChartValues.Line
