import ChartValues.Proofs.Document.Parts
import ChartValues.Proofs.Path.Column

/-!
# What the path at a cursor depends on

The path is found from two things: what stands before the cursor on its line, and the lines above that are
neither blank nor comments (`pathAt_congr`). The walk passes the other lines by at any depth (`climb_filter`), so
they may come and go, and nothing is read behind the cursor. `pathAt_dependence` states this for two unrelated
documents, and for two ways of editing a source: entering or deleting blank and comment lines above the cursor,
and replacing whatever follows it.
-/

namespace ChartValues

theorem CursorPath.climb_filter (depth : Nat) (above : List String) :
    climb depth (above.filter fun text => !Line.isBlankOrComment text) = climb depth above := by
  induction above generalizing depth with
  | nil => rfl
  | cons text above ih =>
    by_cases hblank : Line.isBlankOrComment text = true
    · rw [List.filter_cons_of_neg (by simp [hblank]), climb_of_skip (Or.inl hblank), ih]
    · rw [List.filter_cons_of_pos (by simp [hblank]), climb, climb, ih]
      simp only [ih]

namespace Document

/-- The lines strictly above a position that are neither blank nor comments, in order. -/
def keyLinesAbove (d : Document) (p : Position) : List String :=
  (d.texts.take (p.line - 1)).filter fun text => !Line.isBlankOrComment text

variable {d d' : Document} {p p' : Position} {before inserted after after' : List Char}

theorem pathAt_eq_keyLinesAbove (h : d.InRange p) :
    d.pathAt p = .ok (CursorPath.enclosing (d.typed p) (d.keyLinesAbove p).reverse) := by
  have habove : ∀ depth, CursorPath.climb depth (d.upFrom (p.line - 1)) =
      CursorPath.climb depth (d.keyLinesAbove p).reverse := by
    intro depth
    rw [← CursorPath.climb_filter, upFrom_eq_take, List.filter_reverse]
    rfl
  rw [pathAt_of_inRange h, CursorPath.enclosing_eq, CursorPath.enclosing_eq, habove]

theorem pathAt_congr (h : d.InRange p) (h' : d'.InRange p') (htyped : d.typed p = d'.typed p')
    (habove : d.keyLinesAbove p = d'.keyLinesAbove p') :
    ∃ path, d.pathAt p = .ok path ∧ d'.pathAt p' = .ok path :=
  ⟨_, pathAt_eq_keyLinesAbove h, by rw [pathAt_eq_keyLinesAbove h', htyped, habove]⟩

theorem lineText_succ (d : Document) (n : Nat) : d.lineText (n + 1) = d.texts[n]?.getD "" := by
  rw [lineText, line?_succ_eq]

theorem lineCount_eq (d : Document) : d.lineCount = d.texts.length := by
  rw [texts, List.length_map]
  rfl

/-! ## Lines above the cursor -/

section insertion
variable {top middle bottom : List String} (htexts : d.texts = top ++ bottom)
  (htexts' : d'.texts = top ++ (middle ++ bottom))
include htexts htexts'

theorem lineText_insertion {line : Nat} (hline : top.length < line) :
    d'.lineText (line + middle.length) = d.lineText line := by
  obtain ⟨n, rfl⟩ : ∃ n, line = n + 1 := ⟨line - 1, by omega⟩
  rw [Nat.add_right_comm, lineText_succ, lineText_succ, htexts, htexts',
    List.getElem?_append_right (by omega), List.getElem?_append_right (by omega),
    List.getElem?_append_right (by omega)]
  congr 2
  omega

theorem inRange_insertion (hline : top.length < p.line) :
    d'.InRange ⟨p.line + middle.length, p.column⟩ ↔ d.InRange p := by
  have hcount : d'.lineCount = d.lineCount + middle.length := by
    simp only [lineCount_eq, htexts, htexts', List.length_append]
    omega
  have htext := lineText_insertion htexts htexts' hline
  constructor
  · rintro ⟨-, hle, hcolumn⟩
    rw [htext] at hcolumn
    exact ⟨by omega, by simp only [hcount] at hle; omega, hcolumn⟩
  · rintro ⟨hpos, hle, hcolumn⟩
    refine ⟨by simp only; omega, by simp only [hcount]; omega, ?_⟩
    simp only
    rwa [htext]

theorem keyLinesAbove_insertion (hline : top.length < p.line)
    (hmiddle : ∀ text ∈ middle, Line.isBlankOrComment text = true) :
    d'.keyLinesAbove ⟨p.line + middle.length, p.column⟩ = d.keyLinesAbove p := by
  have htake : d.texts.take (p.line - 1) = top ++ bottom.take (p.line - 1 - top.length) := by
    rw [htexts, List.take_append, List.take_of_length_le (by omega)]
  have htake' : d'.texts.take (p.line + middle.length - 1) =
      top ++ (middle ++ bottom.take (p.line - 1 - top.length)) := by
    have hbottom : p.line + middle.length - 1 - top.length - middle.length = p.line - 1 - top.length := by omega
    rw [htexts', List.take_append, List.take_of_length_le (by omega), List.take_append,
      List.take_of_length_le (by omega), hbottom]
  have hnone : (middle.filter fun text => !Line.isBlankOrComment text) = [] := by
    rw [List.filter_eq_nil_iff]
    intro text htext
    simp [hmiddle text htext]
  simp only [keyLinesAbove, htake, htake', List.filter_append, hnone, List.nil_append]

theorem pathAt_insertion (hline : top.length < p.line)
    (hmiddle : ∀ text ∈ middle, Line.isBlankOrComment text = true) (path : CursorPath) :
    d.pathAt p = .ok path ↔ d'.pathAt ⟨p.line + middle.length, p.column⟩ = .ok path := by
  have hrange := inRange_insertion htexts htexts' hline
  have htyped : d.typed p = d'.typed ⟨p.line + middle.length, p.column⟩ := by
    rw [typed, typed, lineText_insertion htexts htexts' hline]
  have habove := (keyLinesAbove_insertion htexts htexts' hline hmiddle).symm
  constructor
  · intro hpath
    have h := inRange_of_pathAt hpath
    obtain ⟨path', hd, hd'⟩ := pathAt_congr h (hrange.mpr h) htyped habove
    rw [hd', ← hd, hpath]
  · intro hpath
    have h := inRange_of_pathAt hpath
    obtain ⟨path', hd, hd'⟩ := pathAt_congr (hrange.mp h) h htyped habove
    rw [hd, ← hd', hpath]

end insertion

/-! ## What follows the cursor -/

theorem above_of_wholeLines {whole rest : List Char} (hwhole : WholeLines whole)
    (hsource : d.source.toList = whole ++ (rest ++ after)) (h : d.InRange ⟨whole.count '\n' + 1, rest.length⟩) :
    d.texts.take (whole.count '\n') = textsOf whole ∧
      d.typed ⟨whole.count '\n' + 1, rest.length⟩ = String.ofList rest := by
  have htexts : d.texts = textsOf whole ++ textsOf (rest ++ after) := by
    rw [texts_eq, hsource, textsOf_append hwhole]
  have hlength := length_textsOf hwhole
  have htext : d.lineText (whole.count '\n' + 1) = (textsOf (rest ++ after)).headD "" := by
    rw [lineText_succ, htexts, List.getElem?_append_right (by omega), hlength, Nat.sub_self,
      ← List.head?_eq_getElem?, List.headD_eq_head?_getD]
  constructor
  · rw [htexts, ← hlength, List.take_left]
  · have hcolumn : rest.length ≤ ((textsOf (rest ++ after)).headD "").length := htext ▸ h.column_le
    rw [← String.length_toList] at hcolumn
    -- the line and `rest` are both beginnings of what follows the whole lines
    obtain ⟨ending, hprefix⟩ := headD_textsOf_prefix (rest ++ after)
    have htake := congrArg (List.take rest.length) hprefix
    rw [List.take_append_of_le_length hcolumn, List.take_left] at htake
    rw [typed, htext, htake]

theorem pathAt_behind (hsource : d.source.toList = before ++ after)
    (hsource' : d'.source.toList = before ++ after') (h : d.InRange (Position.behind before))
    (h' : d'.InRange (Position.behind before)) :
    ∃ path, d.pathAt (Position.behind before) = .ok path ∧ d'.pathAt (Position.behind before) = .ok path := by
  obtain ⟨whole, rest, rfl, hwhole, hbehind⟩ := exists_wholeLines before
  rw [hbehind] at h h' ⊢
  rw [List.append_assoc] at hsource hsource'
  obtain ⟨habove, htyped⟩ := above_of_wholeLines hwhole hsource h
  obtain ⟨habove', htyped'⟩ := above_of_wholeLines hwhole hsource' h'
  refine pathAt_congr h h' (htyped.trans htyped'.symm) ?_
  rw [keyLinesAbove, keyLinesAbove, Nat.add_sub_cancel, habove, habove']

/-! ## The main statement -/

/-- **The path depends only on the text before the cursor and the key lines above.** Two cursors that agree in
these have one path. Hence entering or deleting whole lines above the cursor that are all blank or comments leaves
the path as it is, and so does replacing whatever follows the cursor. -/
theorem pathAt_dependence :
    (∀ (d d' : Document) (p p' : Position), d.InRange p → d'.InRange p' → d.typed p = d'.typed p' →
      d.keyLinesAbove p = d'.keyLinesAbove p' → ∃ path, d.pathAt p = .ok path ∧ d'.pathAt p' = .ok path) ∧
    (∀ (d d' : Document) (p : Position) (before inserted after : List Char),
      d.source.toList = before ++ after → d'.source.toList = before ++ (inserted ++ after) →
      WholeLines before → WholeLines inserted → before.count '\n' < p.line →
      (∀ text ∈ textsOf inserted, Line.isBlankOrComment text = true) →
      ∀ path, d.pathAt p = .ok path ↔ d'.pathAt ⟨p.line + inserted.count '\n', p.column⟩ = .ok path) ∧
    ∀ (d d' : Document) (before after after' : List Char), d.source.toList = before ++ after →
      d'.source.toList = before ++ after' → d.InRange (Position.behind before) →
      d'.InRange (Position.behind before) →
      ∃ path, d.pathAt (Position.behind before) = .ok path ∧ d'.pathAt (Position.behind before) = .ok path := by
  refine ⟨fun d d' p p' => pathAt_congr, ?_, fun d d' before after after' => pathAt_behind⟩
  intro d d' p before inserted after hsource hsource' hbefore hinserted hline hblank path
  have htexts : d.texts = textsOf before ++ textsOf after := by
    rw [texts_eq, hsource, textsOf_append hbefore]
  have htexts' : d'.texts = textsOf before ++ (textsOf inserted ++ textsOf after) := by
    rw [texts_eq, hsource', textsOf_append hbefore, textsOf_append hinserted]
  rw [← length_textsOf hbefore] at hline
  rw [← length_textsOf hinserted]
  exact pathAt_insertion htexts htexts' hline hblank path

/-- A blank line and a comment above the cursor, and another rest of its line and of the source, leave the path
`a.b` with the key `c` being typed. -/
theorem pathAt_dependence_comments :
    let d : Document := ⟨"values.yaml", "a:\n  b:\n    c"⟩
    let d' : Document := ⟨"values.yaml", "a:\n\n# y\n  b:\n    c"⟩
    let d'' : Document := ⟨"values.yaml", "a:\n  b:\n    cd: 1\r\nz:\n"⟩
    let path : CursorPath := ⟨["a", "b"], some "c"⟩
    d.InRange ⟨3, 5⟩ ∧ d'.InRange ⟨5, 5⟩ ∧ d.typed ⟨3, 5⟩ = d'.typed ⟨5, 5⟩ ∧
      d.keyLinesAbove ⟨3, 5⟩ = d'.keyLinesAbove ⟨5, 5⟩ ∧ d''.InRange ⟨3, 5⟩ ∧
      d.pathAt ⟨3, 5⟩ = .ok path ∧ d'.pathAt ⟨5, 5⟩ = .ok path ∧ d''.pathAt ⟨3, 5⟩ = .ok path := by
  intro d d' d'' path
  obtain ⟨hcongr, hinsertion, hbehind⟩ := pathAt_dependence
  have h : d.InRange ⟨3, 5⟩ := ⟨by decide, by decide, by decide⟩
  have h' : d'.InRange ⟨5, 5⟩ := ⟨by decide, by decide, by decide⟩
  have h'' : d''.InRange ⟨3, 5⟩ := ⟨by decide, by decide, by decide⟩
  have htyped : d.typed ⟨3, 5⟩ = d'.typed ⟨5, 5⟩ := by decide +kernel
  have habove : d.keyLinesAbove ⟨3, 5⟩ = d'.keyLinesAbove ⟨5, 5⟩ := by decide
  have hpath : d.pathAt ⟨3, 5⟩ = .ok path := by decide
  have hpath' : d'.pathAt ⟨5, 5⟩ = .ok path :=
    (hinsertion d d' ⟨3, 5⟩ "a:\n".toList "\n# y\n".toList "  b:\n    c".toList (by decide) (by decide)
      (Or.inr (by decide)) (Or.inr (by decide)) (by decide) (by decide) path).mp hpath
  obtain ⟨_, hsame, hsame'⟩ := hcongr d d' ⟨3, 5⟩ ⟨5, 5⟩ h h' htyped habove
  obtain ⟨_, hd, hd''⟩ := hbehind d d'' "a:\n  b:\n    c".toList [] "d: 1\r\nz:\n".toList (by decide) (by decide) h h''
  obtain rfl : path = _ := Except.ok.inj (hpath.symm.trans hd)
  exact ⟨h, h', htyped, habove, h'', hpath, by rw [hsame', ← hsame, hpath], hd''⟩

end Document

end ChartValues
