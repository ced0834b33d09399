import Mathlib.Data.List.TakeWhile
import ChartValues.Proofs.Document.Pieces

/-!
# A source in two parts

Where a source is cut behind a line feed, its lines are those of the first part and then those of the second
(`textsOf_append`), and the first part has as many lines as line feeds (`length_textsOf`). Any other place in a
source lies inside a line: behind `before`, the cursor is on the line after the whole lines of `before`, and its
column counts what follows them (`Position.behind`). A line starts with the characters at which it starts in the
source (`headD_textsOf_prefix`).
-/

namespace ChartValues

/-- The texts of the lines of a source. -/
def textsOf (source : List Char) : List String := (Line.split 0 [] source).map Line.text

/-- The source is empty or ends with a line feed. -/
def WholeLines (source : List Char) : Prop := source = [] ∨ source.getLast? = some '\n'

/-- The position behind the characters `before`. -/
def Position.behind (before : List Char) : Position where
  line := before.count '\n' + 1
  column := (before.reverse.takeWhile (· != '\n')).length

theorem Document.texts_eq (d : Document) : d.texts = textsOf d.source.toList := rfl

variable {before after : List Char}

/-! ## Whole lines -/

theorem map_text_split (cs : List Char) : ∀ (start start' : Nat) (reversed : List Char),
    (Line.split start reversed cs).map Line.text = (Line.split start' reversed cs).map Line.text := by
  induction cs with
  | nil =>
    intro start start' reversed
    rw [Line.split, Line.split]
    split <;> rfl
  | cons c cs ih =>
    intro start start' reversed
    rw [Line.split, Line.split]
    split
    · rw [List.map_cons, List.map_cons, ih _ (start' + Line.byteLength reversed + 1)]
      rfl
    · exact ih _ _ _

theorem map_text_split_append (hlast : before.getLast? = some '\n') (start : Nat) (reversed : List Char) :
    (Line.split start reversed (before ++ after)).map Line.text =
      (Line.split start reversed before).map Line.text ++ textsOf after := by
  induction before generalizing start reversed with
  | nil => simp at hlast
  | cons c cs ih =>
    rw [List.cons_append, Line.split, Line.split]
    by_cases hc : c = '\n'
    · rw [if_pos hc, if_pos hc, List.map_cons, List.map_cons, List.cons_append]
      cases hcs : cs with
      | nil =>
        rw [List.nil_append, map_text_split after _ 0]
        rfl
      | cons b bs => rw [← hcs, ih (by rwa [hcs, List.getLast?_cons_cons, ← hcs] at hlast)]
    · rw [if_neg hc, if_neg hc]
      cases hcs : cs with
      | nil => exact absurd (by simpa [hcs] using hlast) hc
      | cons b bs => rw [← hcs, ih (by rwa [hcs, List.getLast?_cons_cons, ← hcs] at hlast)]

theorem textsOf_append (h : WholeLines before) : textsOf (before ++ after) = textsOf before ++ textsOf after := by
  rcases h with rfl | hlast
  · rfl
  · exact map_text_split_append hlast 0 []

theorem length_textsOf (h : WholeLines before) : (textsOf before).length = before.count '\n' := by
  have hcut := Line.cut_split before 0 [] (by simp)
  have hrest : ¬ (before ≠ [] ∧ before.getLast? ≠ some '\n') := by
    rintro ⟨hne, hlast⟩
    exact h.elim hne hlast
  rw [textsOf, List.length_map, hcut.length_eq]
  exact (congrArg _ (if_neg hrest)).trans (Nat.add_zero _)

/-! ## Inside a line -/

theorem headD_textsOf_prefix (source : List Char) : ((textsOf source).headD "").toList <+: source := by
  have hcut := Line.cut_split source 0 [] (by simp)
  rw [List.reverse_nil, List.nil_append] at hcut
  rw [textsOf]
  generalize Line.split 0 [] source = lines at hcut
  cases hcut with
  | empty => exact List.nil_prefix
  | rest _ hne hcs => simp [Line.ofChars]
  | feed _ hcs hreturn hrest => simp [Line.ofChars]
  | returnFeed _ hcs hrest => simp [Line.ofChars]

theorem exists_wholeLines (before : List Char) : ∃ whole rest, before = whole ++ rest ∧ WholeLines whole ∧
    Position.behind before = ⟨whole.count '\n' + 1, rest.length⟩ := by
  have hparts := List.takeWhile_append_dropWhile (p := (· != '\n')) (l := before.reverse)
  have hbefore : before = (before.reverse.dropWhile (· != '\n')).reverse ++
      (before.reverse.takeWhile (· != '\n')).reverse := by
    rw [← List.reverse_append, hparts, List.reverse_reverse]
  have hrest : (before.reverse.takeWhile (· != '\n')).reverse.count '\n' = 0 := by
    rw [List.count_eq_zero, List.mem_reverse]
    intro hmem
    simpa using List.mem_takeWhile_imp hmem
  refine ⟨_, _, hbefore, ?_, ?_⟩
  · cases hwhole : before.reverse.dropWhile (· != '\n') with
    | nil => exact Or.inl rfl
    | cons c cs =>
      have hc := List.head?_dropWhile_not (· != '\n') before.reverse
      rw [hwhole] at hc
      refine Or.inr ?_
      rw [List.getLast?_reverse, List.head?_cons]
      simpa using hc
  · have hcount := congrArg (List.count '\n') hbefore
    rw [List.count_append, hrest, Nat.add_zero] at hcount
    rw [Position.behind, hcount, List.length_reverse]

end ChartValues
