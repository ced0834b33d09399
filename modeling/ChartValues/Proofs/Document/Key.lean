import ChartValues.Document.Line

/-!
# The key of a line

`Line.key` and `Line.bareKey` as statements about the text: a line has a key if it reads blanks, a
non-empty run without a colon, and a colon (`key_eq_some_iff`); a text being typed is a key if it has no
colon and is neither blank nor a comment (`bareKey_eq_some_iff`).
-/

namespace ChartValues

namespace Text

theorem trim_append_of_blank {blanks : List Char} (h : ∀ c ∈ blanks, isBlank c = true)
    (cs : List Char) : trim (blanks ++ cs) = trim cs := by
  rw [trim, trimStart, List.dropWhile_append_of_pos h]
  rfl

end Text

namespace Line

open ChartValues.Text

/-- The text reads blanks, a non-empty run without a colon, and a colon; `key` is the run without the
blanks at its ends. -/
def HasKey (text key : String) : Prop :=
  ∃ blanks run rest, text.toList = blanks ++ run ++ ':' :: rest ∧
    (∀ c ∈ blanks, isBlank c = true) ∧ run ≠ [] ∧ ':' ∉ run ∧ key = String.ofList (trim run)

theorem beforeColon_eq_some_iff {cs before : List Char} :
    beforeColon cs = some before ↔ ':' ∉ before ∧ ∃ rest, cs = before ++ ':' :: rest := by
  induction cs generalizing before with
  | nil => simp [beforeColon]
  | cons c cs ih =>
    rw [beforeColon]
    by_cases hc : c = ':'
    · subst hc
      cases before with
      | nil => simp
      | cons b before =>
        simp only [if_true, Option.some.injEq, reduceCtorEq, false_iff, not_and, not_exists]
        intro hcolon rest heq
        exact hcolon (List.mem_cons.mpr (Or.inl (List.cons.inj heq).1))
    · rw [if_neg hc, Option.map_eq_some_iff]
      constructor
      · rintro ⟨tail, htail, rfl⟩
        obtain ⟨hcolon, rest, rfl⟩ := ih.mp htail
        exact ⟨by simp [hcolon, Ne.symm hc], rest, rfl⟩
      · rintro ⟨hcolon, rest, heq⟩
        cases before with
        | nil => exact absurd (List.cons.inj heq).1 hc
        | cons b tail =>
          obtain ⟨rfl, rfl⟩ := List.cons.inj heq
          exact ⟨tail, ih.mpr ⟨fun h => hcolon (List.mem_cons_of_mem _ h), rest, rfl⟩, rfl⟩

theorem key_eq_some_iff {text key : String} : Line.key text = some key ↔ HasKey text key := by
  constructor
  · intro h
    rw [Line.key] at h
    split at h
    · rename_i c cs hbefore
      obtain ⟨hcolon, rest, htext⟩ := beforeColon_eq_some_iff.mp hbefore
      exact ⟨[], c :: cs, rest, htext, by simp, by simp, hcolon, (Option.some.inj h).symm⟩
    · simp at h
  · rintro ⟨blanks, run, rest, htext, hblanks, hrun, hcolon, rfl⟩
    have hnot : ':' ∉ blanks := fun h => absurd (hblanks ':' h) (by decide)
    have hbefore : beforeColon text.toList = some (blanks ++ run) :=
      beforeColon_eq_some_iff.mpr ⟨by simp [hnot, hcolon], rest, htext⟩
    obtain ⟨c, cs, hcons⟩ := List.exists_cons_of_ne_nil (l := blanks ++ run) (by simp [hrun])
    rw [Line.key, hbefore, hcons]
    simp only [← hcons, trim_append_of_blank hblanks]

theorem HasKey.unique {text key key' : String} (h : HasKey text key) (h' : HasKey text key') :
    key = key' :=
  Option.some.inj ((key_eq_some_iff.mpr h).symm.trans (key_eq_some_iff.mpr h'))

theorem bareKey_eq_some_iff {text key : String} :
    Line.bareKey text = some key ↔
      ':' ∉ text.toList ∧ key = trimmed text ∧ key ≠ "" ∧ key.toList.head? ≠ some '#' := by
  rw [Line.bareKey, trimmed]
  by_cases hcolon : ':' ∈ text.toList
  · simp [hcolon]
  · rw [if_neg (by simpa using hcolon)]
    cases htrim : trim text.toList with
    | nil =>
      simp only [reduceCtorEq, false_iff, not_and]
      rintro - rfl hne
      exact absurd rfl hne
    | cons c cs =>
      by_cases hc : c = '#'
      · simp only [hc, if_true, reduceCtorEq, false_iff, not_and]
        rintro - rfl - hhash
        simp at hhash
      · simp only [hc, if_false, Option.some.injEq, hcolon, not_false_eq_true, true_and]
        constructor
        · rintro rfl
          refine ⟨rfl, fun h => ?_, by simp [hc]⟩
          simpa using congrArg String.toList h
        · rintro ⟨rfl, -, -⟩
          rfl

end Line

end ChartValues
