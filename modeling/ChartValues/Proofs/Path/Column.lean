import ChartValues.Proofs.Path.Enclosing

/-!
# Moving the cursor along its line

The column of a cursor matters to the keys above it only through the depth from which the walk upwards starts,
and this is the column itself until the line's first character that is no blank (`indentation_typed`). A walk
from a smaller depth takes and passes by other lines on its way, but a line encloses the shallower cursor if and
only if it encloses the deeper one and is indented less than the shallower one (`encloses_iff_of_le`). Enclosing
lines are indented more and more, so these are the outermost ones (`pathAt_mono_column`).
-/

namespace ChartValues

theorem Line.indentation_take (text : String) (n : Nat) :
    indentation (String.ofList (text.toList.take n)) = min n (indentation text) := by
  rw [indentation, indentation, String.toList_ofList]
  induction n generalizing text with
  | zero => simp
  | succ n ih =>
    cases hcs : text.toList with
    | nil => simp
    | cons c cs =>
      have hrest := ih (String.ofList cs)
      rw [String.toList_ofList] at hrest
      by_cases hc : Text.isBlank c = true
      · rw [List.take_succ_cons, List.takeWhile_cons_of_pos hc, List.takeWhile_cons_of_pos hc,
          List.length_cons, List.length_cons, hrest]
        omega
      · rw [List.take_succ_cons, List.takeWhile_cons_of_neg hc, List.takeWhile_cons_of_neg hc,
          List.length_nil, Nat.min_zero]

namespace Document

/-- The position lies in the document: its line is one of the document or the one just past the last, and its
column is not behind the end of the line. -/
structure InRange (d : Document) (p : Position) : Prop where
  line_pos : 1 ≤ p.line
  line_le : p.line ≤ d.lineCount + 1
  column_le : p.column ≤ (d.lineText p.line).length

variable {d : Document} {p : Position} {line low high j : Nat}

theorem prefixAt_of_inRange (h : d.InRange p) : d.prefixAt p = .ok (d.typed p) := by
  obtain ⟨hpos, hline, hcolumn⟩ := h
  rw [prefixAt_eq, if_neg (by omega), if_neg (by omega)]

theorem pathAt_of_inRange (h : d.InRange p) :
    d.pathAt p = .ok (CursorPath.enclosing (d.typed p) (d.upFrom (p.line - 1))) := by
  rw [pathAt, prefixAt_of_inRange h, above_eq_upFrom]
  rfl

theorem inRange_of_pathAt {path : CursorPath} (h : d.pathAt p = .ok path) : d.InRange p := by
  rw [pathAt_eq] at h
  split_ifs at h with hline hcolumn
  exact ⟨by omega, by omega, by omega⟩

theorem indentation_typed (d : Document) (p : Position) :
    Line.indentation (d.typed p) = min p.column (d.indentAt p.line) :=
  Line.indentation_take _ _

/-! ## Two depths -/

theorem encloses_iff_of_le (h : low ≤ high) :
    d.Encloses line low j ↔ d.Encloses line high j ∧ d.indentAt j < low := by
  constructor
  · rintro ⟨habove, hkey, hdepth, hbetween⟩
    exact ⟨⟨habove, hkey, by omega, hbetween⟩, hdepth⟩
  · rintro ⟨⟨habove, hkey, -, hbetween⟩, hdepth⟩
    exact ⟨habove, hkey, hdepth, hbetween⟩

theorem Deepens.filter_prefix {lines : List Nat} (h : d.Deepens lines) (low : Nat) :
    lines.filter (fun j => d.indentAt j < low) <+: lines := by
  induction lines with
  | nil => exact List.prefix_refl _
  | cons i lines ih =>
    obtain ⟨hfirst, hrest⟩ := List.pairwise_cons.mp h
    by_cases hi : d.indentAt i < low
    · rw [List.filter_cons_of_pos (by simpa using hi)]
      exact (List.prefix_cons_inj i).mpr (ih hrest)
    · have hnone : (i :: lines).filter (fun j => d.indentAt j < low) = [] := by
        rw [List.filter_eq_nil_iff]
        intro j hj
        rcases List.mem_cons.mp hj with rfl | hj
        · simpa using hi
        · have := (hfirst j hj).2
          simp only [decide_eq_true_eq]
          omega
      rw [hnone]
      exact List.nil_prefix

theorem prefix_of_carriesKey {lines lines' : List Nat} {keys keys' : List String}
    (hlines : lines <+: lines') (h : List.Forall₂ d.CarriesKey lines keys)
    (h' : List.Forall₂ d.CarriesKey lines' keys') : keys <+: keys' := by
  obtain ⟨rest, rfl⟩ := hlines
  induction h generalizing keys' with
  | nil => exact List.nil_prefix
  | cons hkey hkeys ih =>
    cases h' with
    | cons hkey' hkeys' =>
      obtain rfl := hkey.unique hkey'
      exact (List.prefix_cons_inj _).mpr (ih hkeys')

/-! ## Two columns -/

/-- **Moving the cursor right only deepens the path.** At two columns of one line there are paths, and the keys
at the first column are the outermost of the keys at the second: those of the enclosing lines that are indented
less than the first column. From the indentation of the line on, the keys stay the same. -/
theorem pathAt_mono_column (d : Document) {line c₁ c₂ : Nat} (hpos : 1 ≤ line) (hline : line ≤ d.lineCount + 1)
    (hle : c₁ ≤ c₂) (hlength : c₂ ≤ (d.lineText line).length) :
    ∃ path₁ path₂, d.pathAt ⟨line, c₁⟩ = .ok path₁ ∧ d.pathAt ⟨line, c₂⟩ = .ok path₂ ∧
      path₁.segments <+: path₂.segments ∧
      (d.indentAt line ≤ c₁ → path₁.segments = path₂.segments) ∧
      ∃ lines, (∀ j, j ∈ lines ↔ d.Encloses line (min c₂ (d.indentAt line)) j) ∧
        List.Forall₂ d.CarriesKey lines path₂.segments ∧
        List.Forall₂ d.CarriesKey (lines.filter fun j => d.indentAt j < c₁) path₁.segments := by
  have hrange₁ : d.InRange ⟨line, c₁⟩ := ⟨hpos, hline, Nat.le_trans hle hlength⟩
  have hrange₂ : d.InRange ⟨line, c₂⟩ := ⟨hpos, hline, hlength⟩
  obtain ⟨lines₁, hdeepens₁, -, hmem₁, hkeys₁⟩ :=
    (d.isPathAt_enclosing ⟨line, c₁⟩ (Nat.ne_of_gt hpos) hline).segments
  obtain ⟨lines₂, hdeepens₂, -, hmem₂, hkeys₂⟩ :=
    (d.isPathAt_enclosing ⟨line, c₂⟩ (Nat.ne_of_gt hpos) hline).segments
  simp only [indentation_typed] at hmem₁ hmem₂
  have hsome : d.Deepens (lines₂.filter fun j => d.indentAt j < c₁) := List.Pairwise.filter _ hdeepens₂
  -- an enclosing line is indented less than the cursor's line, so only the column counts
  obtain rfl : lines₁ = lines₂.filter fun j => d.indentAt j < c₁ := by
    refine Deepens.eq_of_mem_iff hdeepens₁ hsome fun j => ?_
    have hdepth : min c₁ (d.indentAt line) ≤ min c₂ (d.indentAt line) := by omega
    rw [hmem₁, List.mem_filter, hmem₂, decide_eq_true_eq, encloses_iff_of_le hdepth]
    refine and_congr_right fun hj => ?_
    have := hj.lt_depth
    omega
  have hprefix := prefix_of_carriesKey (Deepens.filter_prefix hdeepens₂ c₁) hkeys₁ hkeys₂
  refine ⟨_, _, pathAt_of_inRange hrange₁, pathAt_of_inRange hrange₂, hprefix, fun hindent => ?_,
    lines₂, hmem₂, hkeys₂, hkeys₁⟩
  have hall : (lines₂.filter fun j => d.indentAt j < c₁) = lines₂ := by
    rw [List.filter_eq_self]
    intro j hj
    have := ((hmem₂ j).mp hj).lt_depth
    simp only [decide_eq_true_eq]
    omega
  rw [hall] at hkeys₁
  exact hprefix.eq_of_length (hkeys₁.length_eq.symm.trans hkeys₂.length_eq)

/-- Behind lines that are indented by none, four, two and five, a line that is indented by six has the keys of
the first, the third and the fourth, of which the cursor at column three has two. -/
theorem pathAt_mono_column_uneven :
    let d : Document := ⟨"values.yaml", "a:\n    b:\n  c:\n     d:\n      e"⟩
    1 ≤ 5 ∧ 5 ≤ d.lineCount + 1 ∧ 3 ≤ 7 ∧ 7 ≤ (d.lineText 5).length ∧
      ∃ path₁ path₂, d.pathAt ⟨5, 3⟩ = .ok path₁ ∧ d.pathAt ⟨5, 7⟩ = .ok path₂ ∧
        path₁.segments <+: path₂.segments ∧ path₁.segments = ["a", "c"] ∧
        path₂.segments = ["a", "c", "d"] := by
  intro d
  have hpos : 1 ≤ 5 := by decide
  have hline : 5 ≤ d.lineCount + 1 := by decide
  have hle : 3 ≤ 7 := by decide
  have hlength : 7 ≤ (d.lineText 5).length := by decide
  obtain ⟨path₁, path₂, hpath₁, hpath₂, hprefix, -, -⟩ := pathAt_mono_column d hpos hline hle hlength
  have hkeys₁ : d.pathAt ⟨5, 3⟩ = .ok ⟨["a", "c"], none⟩ := by decide
  have hkeys₂ : d.pathAt ⟨5, 7⟩ = .ok ⟨["a", "c", "d"], some "e"⟩ := by decide
  refine ⟨hpos, hline, hle, hlength, path₁, path₂, hpath₁, hpath₂, hprefix, ?_, ?_⟩
  · rw [Except.ok.inj (hpath₁.symm.trans hkeys₁)]
  · rw [Except.ok.inj (hpath₂.symm.trans hkeys₂)]

end Document

end ChartValues
