import ChartValues.Proofs.Document.Reference
import ChartValues.Proofs.Markdown.Fence
import ChartValues.Proofs.Markdown.Heading

/-!
# Documents as a terminal shows them

A document is a heading with a reference, a path and some words, an empty line, and lines of code between fences. A
terminal shows the heading as its reading leaves it and the lines up to the first one that ends the code, each behind
four blanks (`toTerminalText_document`). White space at the end is dropped, which leaves what stands before a text that
is not blank (`Text.trimEnd_append`).
-/

namespace ChartValues

/-! ## Blanks at the end -/

namespace Text

theorem trimEnd_append_blank (cs : List Char) {c : Char} (hc : isBlank c = true) :
    trimEnd (cs ++ [c]) = trimEnd cs := by
  rw [trimEnd, List.reverse_append, List.reverse_singleton, List.singleton_append, List.dropWhile_cons_of_pos hc,
    trimEnd]

theorem trimEnd_append (before : List Char) {cs : List Char} (hcs : ∃ c ∈ cs, isBlank c = false) :
    trimEnd (before ++ cs) = before ++ trimEnd cs := by
  have hne : (cs.reverse.dropWhile isBlank).isEmpty = false := by
    obtain ⟨c, hmem, hc⟩ := hcs
    rw [List.isEmpty_eq_false_iff, Ne, List.dropWhile_eq_nil_iff]
    exact fun hall => Bool.eq_false_iff.mp hc (hall c (List.mem_reverse.mpr hmem))
  rw [trimEnd, List.reverse_append, List.dropWhile_append, hne, if_neg Bool.false_ne_true, List.reverse_append,
    List.reverse_reverse, trimEnd]

end Text

namespace Markdown

/-! ## Lines -/

/-- The lines of a text that ends its last one. -/
def linesOf (text : String) : List (List Char) := (text.toList.splitOn '\n').dropLast

theorem joined_eq_intercalate {ls : List (List Char)} (hne : ls ≠ []) :
    joined ls = ['\n'].intercalate ls ++ ['\n'] := by
  induction ls with
  | nil => exact absurd rfl hne
  | cons l ls ih =>
    cases ls with
    | nil => simp [joined]
    | cons l' ls =>
      rw [List.intercalate_cons_cons, List.append_assoc, ← ih (List.cons_ne_nil _ _), List.append_assoc]
      exact List.append_assoc _ _ _

theorem not_mem_of_mem_splitOn {cs l : List Char} (hl : l ∈ cs.splitOn '\n') : '\n' ∉ l := by
  induction cs generalizing l with
  | nil =>
    obtain rfl := List.mem_singleton.mp hl
    exact List.not_mem_nil
  | cons c cs ih =>
    rw [List.splitOn_cons_eq_if_modifyHead] at hl
    split at hl
    · rcases List.mem_cons.mp hl with rfl | hl
      · exact List.not_mem_nil
      · exact ih hl
    · rename_i hc
      obtain ⟨run, runs, hruns⟩ := List.exists_cons_of_ne_nil (List.splitOn_ne_nil '\n' cs)
      rw [hruns] at hl ih
      rcases List.mem_cons.mp hl with rfl | hl
      · have hne : '\n' ≠ c := fun h => hc (beq_iff_eq.mpr h.symm)
        exact List.not_mem_cons_of_ne_of_not_mem hne (ih List.mem_cons_self)
      · exact ih (List.mem_cons_of_mem _ hl)

theorem linesOf_eq_splitOn {text : String} {cs : List Char} (htext : text.toList = cs ++ ['\n']) :
    linesOf text = cs.splitOn '\n' := by
  rw [linesOf, htext, List.splitOn_append_cons_self, List.splitOn_nil, List.dropLast_concat]

/-- **A text that ends its last line is its lines, joined.** -/
theorem joined_linesOf {text : String} {cs : List Char} (htext : text.toList = cs ++ ['\n']) :
    joined (linesOf text) = text.toList := by
  rw [linesOf_eq_splitOn htext, joined_eq_intercalate (List.splitOn_ne_nil _ _), List.intercalate_splitOn, htext]

theorem oneLine_of_mem_linesOf {text : String} {cs : List Char} (htext : text.toList = cs ++ ['\n'])
    (hreturn : '\r' ∉ text.toList) : ∀ l ∈ linesOf text, OneLine l := by
  refine fun l hl => ⟨not_mem_of_mem_splitOn (List.dropLast_subset _ hl), fun hmem => hreturn ?_⟩
  rw [← joined_linesOf htext]
  exact List.mem_flatMap.mpr ⟨l, hl, List.mem_append_left _ hmem⟩

/-! ## Headings -/

theorem isBlank_of_isSpace {c : Char} (hc : isSpace c = true) : Text.isBlank c = true := by
  simp only [isSpace, Bool.or_eq_true, beq_iff_eq] at hc
  rcases hc with ((rfl | rfl) | hc) | hc
  · rfl
  · rfl
  · simp [Text.isBlank, hc]
  · simp [Text.isBlank, hc]

theorem isReference_of_chartRef {text ref : String} (h : Line.chartRef text = some ref) : IsReference ref.toList := by
  obtain ⟨hne, hchars⟩ := Line.of_chartRef_eq_some h
  have hblank : ∀ c ∈ ref.toList, Text.isBlank c = false := fun c hc => Line.isBlank_of_isRefChar (hchars c hc)
  refine ⟨hne, fun c hc => ?_, hblank⟩
  have hmarks : "\\\x60<&*_![]\n\x00".toList.all (fun d => d == '_' || !Line.isRefChar d) = true := by decide
  by_cases hmark : c ∈ "\\\x60<&*_![]\n\x00".toList
  · exact .inr (by simpa [hchars c hc] using List.all_eq_true.mp hmarks c hmark)
  · refine .inl ?_
    have hspace : isSpace c = false := Bool.eq_false_iff.mpr fun hspace =>
      Bool.eq_false_iff.mp (hblank c hc) (isBlank_of_isSpace hspace)
    rw [isPlain, hspace, Bool.not_false, Bool.and_true, Bool.not_eq_true', ← Bool.not_eq_true, List.contains_iff_mem]
    exact hmark

/-- What stands behind the path in a heading, on one line and without a blank at its end. -/
structure IsTailText (tail : List Char) : Prop where
  words : IsTail tail
  oneLine : OneLine tail
  last : tail.getLast?.all (!isSpace ·) = true

theorem isStrongLine_headingChars {ref dotted tail : List Char} (href : IsReference ref) (htail : IsTailText tail) :
    IsStrongLine (headingChars ref dotted tail) where
  start := by
    obtain ⟨c, cs, rfl⟩ := List.exists_cons_of_ne_nil href.ne_nil
    refine ⟨c, _, rfl, ?_, ?_⟩
    · rcases href.chars c List.mem_cons_self with hc | rfl
      · exact ne_of_isPlain hc (by decide)
      · decide
    · refine Bool.eq_false_iff.mpr fun hspace => ?_
      exact Bool.eq_false_iff.mp (href.noBlank c List.mem_cons_self) (isBlank_of_isSpace hspace)
  last := by
    have hsplit : headingChars ref dotted tail =
        ('*' :: '*' :: (ref ++ '*' :: '*' :: ' ' :: '\x60' :: dotted) ++ ['\x60']) ++ tail := by
      simp [headingChars]
    rw [hsplit, List.getLast?_append, List.getLast?_concat]
    have hlast := htail.last
    cases htext : tail.getLast? with
    | none => rfl
    | some c => rwa [htext] at hlast

theorem IsReference.oneLine {ref : List Char} (h : IsReference ref) : OneLine ref where
  noFeed hfeed := absurd (h.noBlank _ hfeed) (by decide)
  noReturn hreturn := absurd (h.noBlank _ hreturn) (by decide)

theorem oneLine_headingChars {ref dotted tail : List Char} (href : IsReference ref) (hdotted : OneLine dotted)
    (htail : IsTailText tail) : OneLine (headingChars ref dotted tail) := by
  simp only [headingChars, oneLine_cons_iff, oneLine_append_iff, href.oneLine, hdotted, htail.oneLine, and_true]
  decide

theorem oneLine_shownHeading {ref dotted tail : List Char} (href : IsReference ref) (hdotted : OneLine dotted)
    (htail : IsTailText tail) : OneLine (shownHeading ref dotted tail) := by
  simp only [shownHeading, oneLine_cons_iff, oneLine_append_iff, href.oneLine, hdotted, htail.oneLine, and_true]
  decide

/-! ## Documents -/

/-- Lines, each behind four blanks. -/
def indented (ls : List (List Char)) : List Char := ls.flatMap fun l => [' ', ' ', ' ', ' '] ++ l ++ ['\n']

theorem mem_indented {ls : List (List Char)} {c : Char} (hc : c ∈ joined ls) : c ∈ indented ls := by
  obtain ⟨l, hl, hc⟩ := List.mem_flatMap.mp hc
  refine List.mem_flatMap.mpr ⟨l, hl, ?_⟩
  rw [List.append_assoc]
  exact List.mem_append_right _ hc

theorem exists_first_endsCode {ls : List (List Char)} (h : ∃ l ∈ ls, EndsCode l) :
    ∃ before stop rest, ls = before ++ stop :: rest ∧ (∀ l ∈ before, ¬EndsCode l) ∧ EndsCode stop := by
  obtain ⟨before, rest, rfl, hbefore, hrest⟩ := Text.exists_run (!endsCode ·) ls
  have hbefore : ∀ l ∈ before, ¬EndsCode l := fun l hl => by
    simpa [← endsCode_iff] using hbefore l hl
  cases rest with
  | nil =>
    obtain ⟨l, hl, hends⟩ := h
    rw [List.append_nil] at hl
    exact absurd hends (hbefore l hl)
  | cons stop rest => exact ⟨before, stop, rest, rfl, hbefore, by simpa [← endsCode_iff] using hrest stop rfl⟩

theorem EndsCode.backtick_mem {l : List Char} (h : EndsCode l) : '\x60' ∈ l := by
  obtain ⟨blanks, ticks, after, rfl, -, hticks, -⟩ := h
  have hmem : '\x60' ∈ List.replicate ticks '\x60' := List.mem_replicate.mpr ⟨by omega, rfl⟩
  exact List.mem_append_right _ (List.mem_append_left _ hmem)

theorem trimEnd_indented (ls rest : List (List Char)) {stop : List Char} (hstop : EndsCode stop) :
    (∃ c ∈ indented (ls ++ stop :: rest), Text.isBlank c = false) ∧
      ∃ more, Text.trimEnd (indented (ls ++ stop :: rest)) = indented ls ++ ' ' :: more := by
  have hsplit : indented (ls ++ stop :: rest) =
      indented ls ++ ' ' :: ([' ', ' ', ' '] ++ stop ++ '\n' :: indented rest) := by simp [indented]
  have hsome : ∃ c ∈ [' ', ' ', ' '] ++ stop ++ '\n' :: indented rest, Text.isBlank c = false :=
    ⟨'\x60', by simp [hstop.backtick_mem], by decide⟩
  rw [hsplit]
  generalize [' ', ' ', ' '] ++ stop ++ '\n' :: indented rest = more at hsome
  refine ⟨?_, Text.trimEnd more, ?_⟩
  · obtain ⟨c, hc, hblank⟩ := hsome
    exact ⟨c, by simp [hc], hblank⟩
  · rw [List.append_cons, Text.trimEnd_append _ hsome, List.append_assoc, List.singleton_append]

theorem toTerminalText_document {l stop : List Char} {ls rest : List (List Char)} (h : IsStrongLine l) (hl : OneLine l)
    (hlines : ∀ l ∈ ls ++ stop :: rest, OneLine l) (hls : ∀ l ∈ ls, ¬EndsCode l) (hstop : EndsCode stop) :
    ∃ defined behind, (toTerminalText (String.ofList (documentChars l (ls ++ stop :: rest)))).toList =
      Text.trimEnd ((spans defined l).flatMap Span.chars ++ '\n' :: '\n' :: (indented ls ++ '\n' :: behind)) ∧
        (rest = [] → behind = []) := by
  obtain ⟨more, hblocks, hmore⟩ := exists_blocks_document h hl hlines hls hstop
  rw [toTerminalText, String.toList_ofList]
  dsimp only
  generalize (blocks (documentChars l (ls ++ stop :: rest))).2 = labels
  refine ⟨(labels.contains ·), charsOf (labels.contains ·) false more, ?_, fun hrest => by rw [hmore hrest, charsOf]⟩
  rw [hblocks, Text.trimmedEnd, String.toList_ofList, String.toList_ofList, charsOf, charsOf, charsIn, charsIn]
  simp [indented]

theorem eq_of_append_feed {cs ds more more' : List Char} (hcs : '\n' ∉ cs) (hlength : ds.length ≤ cs.length)
    (h : cs ++ '\n' :: more = ds ++ '\n' :: more') : cs = ds ∧ more = more' := by
  rcases List.append_eq_append_iff.mp h with ⟨rest, rfl, hrest⟩ | ⟨rest, rfl, hrest⟩
  · cases rest with
    | nil => exact ⟨(List.append_nil cs).symm, (List.cons.inj hrest).2⟩
    | cons c rest =>
      rw [List.length_append, List.length_cons] at hlength
      omega
  · cases rest with
    | nil => exact ⟨List.append_nil ds, (List.cons.inj hrest).2.symm⟩
    | cons c rest =>
      obtain rfl := (List.cons.inj hrest).1
      exact absurd (List.mem_append_right _ List.mem_cons_self) hcs

end Markdown

end ChartValues
