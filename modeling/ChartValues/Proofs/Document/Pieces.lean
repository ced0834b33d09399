import ChartValues.Proofs.Document.Slice

/-!
# A source in pieces

Each line of a document with what ends it is a piece of the source. The pieces in order are the whole source, and each
span counts the bytes before its line and of it (`Line.Cut.exists_pieces`). It follows where lines lie
(`Document.marks_of_mem_lines`), that one line is over before the next one starts, and how many there are:
`Document.lines_pieces` has all of this. The induction is on `Line.Cut`, which tells how a text falls into lines.
-/

namespace ChartValues

namespace Line

/-- What ends a line; only the last line of a source can have none. -/
inductive Ending where
  | missing
  | feed
  | returnFeed
  deriving DecidableEq, Repr

def Ending.chars : Ending → List Char
  | missing => []
  | feed => ['\n']
  | returnFeed => ['\r', '\n']

/-- A line and what ends it. -/
structure Piece where
  line : Line
  ending : Ending
  deriving DecidableEq, Repr

def Piece.chars (p : Piece) : List Char := p.line.text.toList ++ p.ending.chars

/-- The piece `p` stands behind the pieces `before` and in front of `behind` in a text that starts at byte
`start`. -/
structure Piece.Stands (start : Nat) (before behind : List Piece) (p : Piece) : Prop where
  start : p.line.span.start = start + byteLength (before.flatMap Piece.chars)
  stop : p.line.span.stop = p.line.span.start + byteLength p.line.text.toList
  noFeed : '\n' ∉ p.line.text.toList
  noReturn : p.ending = .feed → p.line.text.toList.getLast? ≠ some '\r'
  last : p.ending = .missing → behind = [] ∧ p.line.text ≠ ""

/-- A text that starts at byte `start` is the given pieces, one behind the other. -/
structure Pieces (start : Nat) (text : List Char) (pieces : List Piece) : Prop where
  text : text = pieces.flatMap Piece.chars
  stands : ∀ before p behind, pieces = before ++ p :: behind → p.Stands start before behind

variable {start : Nat} {text : List Char} {lines : List Line} {pieces : List Piece}

/-! ## Lines and their ends -/

theorem stands_ofChars (start : Nat) {cs : List Char} {ending : Ending} {behind : List Piece} (hcs : '\n' ∉ cs)
    (hreturn : ending = .feed → cs.getLast? ≠ some '\r')
    (hlast : ending = .missing → behind = [] ∧ cs ≠ []) :
    Piece.Stands start [] behind ⟨ofChars start cs, ending⟩ where
  start := rfl
  stop := by simp [ofChars]
  noFeed := by simpa [ofChars] using hcs
  noReturn := by simpa [ofChars] using hreturn
  last := by simpa [ofChars] using hlast

theorem Piece.Stands.behind_first {first p : Piece} {before behind : List Piece}
    (h : p.Stands (start + byteLength first.chars) before behind) : p.Stands start (first :: before) behind where
  start := by
    rw [h.start, List.flatMap_cons, byteLength_append, Nat.add_assoc]
  stop := h.stop
  noFeed := h.noFeed
  noReturn := h.noReturn
  last := h.last

theorem Pieces.cons {first : Piece} (hfirst : first.Stands start [] pieces)
    (h : Pieces (start + byteLength first.chars) text pieces) :
    Pieces start (first.chars ++ text) (first :: pieces) where
  text := by rw [List.flatMap_cons, ← h.text]
  stands before p behind hpieces := by
    cases before with
    | nil =>
      obtain ⟨rfl, rfl⟩ := List.cons.inj hpieces
      exact hfirst
    | cons q before =>
      obtain ⟨rfl, hrest⟩ := List.cons.inj hpieces
      exact (h.stands before p behind hrest).behind_first

theorem Pieces.ended {cs : List Char} (ending : Ending) (hcs : '\n' ∉ cs)
    (hreturn : ending = .feed → cs.getLast? ≠ some '\r') (hending : ending ≠ .missing)
    (h : Pieces (start + byteLength cs + byteLength ending.chars) text pieces) :
    Pieces start (cs ++ (ending.chars ++ text)) (⟨ofChars start cs, ending⟩ :: pieces) := by
  have hchars : (Piece.mk (ofChars start cs) ending).chars = cs ++ ending.chars := by
    simp [Piece.chars, ofChars]
  rw [← List.append_assoc, ← hchars]
  refine Pieces.cons (stands_ofChars start hcs hreturn fun hmissing => absurd hmissing hending) ?_
  rwa [hchars, byteLength_append, ← Nat.add_assoc]

theorem Cut.exists_pieces (h : Cut start text lines) :
    ∃ pieces, pieces.map Piece.line = lines ∧ Pieces start text pieces := by
  induction h with
  | empty start => exact ⟨[], rfl, rfl, by simp⟩
  | @rest start cs hne hcs =>
    have hnil : Pieces (start + byteLength (Piece.chars ⟨ofChars start cs, .missing⟩)) [] [] := ⟨rfl, by simp⟩
    have hpieces := hnil.cons (stands_ofChars start hcs (by simp) fun _ => ⟨rfl, hne⟩)
    refine ⟨[⟨ofChars start cs, .missing⟩], rfl, ?_⟩
    simpa [Piece.chars, ofChars, Ending.chars] using hpieces
  | feed start hcs hreturn h ih =>
    obtain ⟨pieces, rfl, hpieces⟩ := ih
    exact ⟨_, rfl, Pieces.ended .feed hcs (fun _ => hreturn) (by simp) hpieces⟩
  | returnFeed start hcs h ih =>
    obtain ⟨pieces, rfl, hpieces⟩ := ih
    exact ⟨_, rfl, Pieces.ended .returnFeed hcs (by simp) (by simp) hpieces⟩

/-! ## Order and number of lines -/

theorem Cut.le_start (h : Cut start text lines) : ∀ line ∈ lines, start ≤ line.span.start := by
  intro line hline
  obtain ⟨before, after, hlies⟩ := h.liesIn line hline
  rw [hlies.start]
  exact Nat.le_add_right _ _

theorem Cut.pairwise (h : Cut start text lines) : lines.Pairwise fun a b => a.span.stop < b.span.start := by
  induction h with
  | empty start => exact List.Pairwise.nil
  | rest start hne hcs => exact List.pairwise_singleton _ _
  | @feed start cs text lines hcs hreturn h ih =>
    refine List.pairwise_cons.mpr ⟨fun line hline => ?_, ih⟩
    have hstart := h.le_start line hline
    show start + byteLength cs < line.span.start
    omega
  | @returnFeed start cs text lines hcs h ih =>
    refine List.pairwise_cons.mpr ⟨fun line hline => ?_, ih⟩
    have hstart := h.le_start line hline
    show start + byteLength cs < line.span.start
    omega

/-- The number of line feeds, and one more if something follows the last of them. -/
def countLines (text : List Char) : Nat :=
  text.count '\n' + if text ≠ [] ∧ text.getLast? ≠ some '\n' then 1 else 0

theorem countLines_of_noFeed {cs : List Char} (hne : cs ≠ []) (hcs : '\n' ∉ cs) : countLines cs = 1 := by
  have hlast : cs.getLast? ≠ some '\n' := fun h => hcs (List.mem_of_getLast? h)
  rw [countLines, if_pos ⟨hne, hlast⟩, List.count_eq_zero_of_not_mem hcs]

theorem countLines_append_feed {cs : List Char} (hcs : '\n' ∉ cs) (text : List Char) :
    countLines (cs ++ '\n' :: text) = countLines text + 1 := by
  have hcount : (cs ++ '\n' :: text).count '\n' = text.count '\n' + 1 := by
    rw [List.count_append, List.count_eq_zero_of_not_mem hcs, List.count_cons_self, Nat.zero_add]
  have hlast : (cs ++ '\n' :: text ≠ [] ∧ (cs ++ '\n' :: text).getLast? ≠ some '\n') ↔
      text ≠ [] ∧ text.getLast? ≠ some '\n' := by
    cases text with
    | nil => simp
    | cons c text => simp [List.getLast?_append]
  rw [countLines, countLines, hcount, if_congr hlast rfl rfl]
  omega

theorem Cut.length_eq (h : Cut start text lines) : lines.length = countLines text := by
  induction h with
  | empty start => rfl
  | rest start hne hcs => rw [countLines_of_noFeed hne hcs, List.length_singleton]
  | feed start hcs hreturn h ih => rw [countLines_append_feed hcs, List.length_cons, ih]
  | @returnFeed start cs text lines hcs h ih =>
    have hreturn : '\n' ∉ cs ++ ['\r'] := by simpa using hcs
    rw [List.append_cons, countLines_append_feed hreturn, List.length_cons, ih]

end Line

/-! ## Lines in bytes -/

/-- The bytes `span` of `source` start and end between two characters, and they are `text`. -/
def Marks (source : String) (span : Span) (text : String) : Prop :=
  ∃ start stop : source.Pos, start.offset.byteIdx = span.start ∧ stop.offset.byteIdx = span.stop ∧
    start ≤ stop ∧ source.extract start stop = text

theorem marks_append (before text behind : String) :
    Marks (before ++ text ++ behind) ⟨before.utf8ByteSize, before.utf8ByteSize + text.utf8ByteSize⟩ text := by
  have hstart : before.rawEndPos.IsValid (before ++ text ++ behind) :=
    String.Pos.Raw.isValid_iff_exists_append.mpr ⟨before, text ++ behind, String.append_assoc, rfl⟩
  have hstop : (before ++ text).rawEndPos.IsValid (before ++ text ++ behind) :=
    String.Pos.Raw.isValid_iff_exists_append.mpr ⟨before ++ text, behind, rfl, rfl⟩
  refine ⟨⟨_, hstart⟩, ⟨_, hstop⟩, rfl, by simp, ?_, ?_⟩
  · simp [String.Pos.le_iff, String.Pos.Raw.le_iff]
  · rw [← String.toByteArray_inj, String.toByteArray_extract]
    show (before ++ text ++ behind).toByteArray.extract before.utf8ByteSize (before ++ text).utf8ByteSize =
      text.toByteArray
    rw [String.append_assoc, String.toByteArray_append, String.toByteArray_append, String.utf8ByteSize_append,
      ← String.size_toByteArray, ← String.size_toByteArray]
    -- the bytes of `before` go first, and `text` is the front of the rest
    have hfront := ByteArray.extract_append_eq_left (b := behind.toByteArray) (rfl : text.toByteArray.size = _)
    have hrest := ByteArray.extract_append_size_add (a := before.toByteArray)
      (b := text.toByteArray ++ behind.toByteArray) (i := 0) (j := text.toByteArray.size)
    rw [Nat.add_zero] at hrest
    rw [hrest, hfront]

namespace Document

theorem cut_source (d : Document) : Line.Cut 0 d.source.toList d.lines := Line.cut_split d.source.toList 0 [] (by simp)

theorem marks_of_mem_lines {d : Document} {line : Line} (h : line ∈ d.lines) :
    Marks d.source line.span line.text := by
  obtain ⟨before, after, hlies⟩ := liesIn_source h
  have hsource : d.source = String.ofList before ++ line.text ++ String.ofList after := by
    rw [← String.toList_inj, hlies.text]
    simp
  have hspan : line.span = ⟨(String.ofList before).utf8ByteSize,
      (String.ofList before).utf8ByteSize + line.text.utf8ByteSize⟩ := by
    have hstart : line.span.start = (String.ofList before).utf8ByteSize := by
      rw [hlies.start, Nat.zero_add, Line.byteLength_eq_utf8Len, String.utf8ByteSize_ofList]
    have hstop : line.span.stop = line.span.start + line.text.utf8ByteSize := by
      rw [hlies.stop, Line.byteLength_eq_utf8Len, String.utf8Len_toList]
    rw [← hstart, ← hstop]
  rw [hsource, hspan]
  exact marks_append _ _ _

/-- **The line structure of a document.** The lines with their ends are the source in pieces: each end is a line feed, or
a carriage return and a line feed, and only a last line that is not empty can have none; no line holds a line feed, and
one that a bare line feed ends does not end in a carriage return. Spans come one after the other without touching, there
is one line for each line feed and one for a rest behind the last of them, and each line is what its span marks in the
source. -/
theorem lines_pieces (d : Document) :
    (∃ pieces, pieces.map Line.Piece.line = d.lines ∧ Line.Pieces 0 d.source.toList pieces) ∧
    (d.lines.Pairwise fun a b => a.span.stop < b.span.start) ∧
    d.lineCount = Line.countLines d.source.toList ∧
    ∀ n, 1 ≤ n ∧ n ≤ d.lineCount ↔
      ∃ span text, d.span? n = some span ∧ d.line? n = some text ∧ Marks d.source span text := by
  refine ⟨d.cut_source.exists_pieces, d.cut_source.pairwise, d.cut_source.length_eq, fun n => ?_⟩
  constructor
  · rintro ⟨hn, hle⟩
    obtain ⟨k, rfl⟩ : ∃ k, n = k + 1 := ⟨n - 1, by omega⟩
    have hline : nth? d.lines (k + 1) = some d.lines[k] := List.getElem?_eq_getElem (by exact hle)
    refine ⟨_, _, ?_, ?_, marks_of_mem_lines (List.getElem_mem (by exact hle))⟩
    · rw [span?, hline, Option.map_some]
    · rw [line?, hline, Option.map_some]
  · rintro ⟨span, text, -, htext, -⟩
    exact bounds_of_line? htext

/-- Both kinds of ends, an empty line, a carriage return that stays, and a rest without an end. -/
example : (Document.mk "values.yaml" "é:\r\n\n\r\r\nb").lines =
    [⟨"é:", ⟨0, 3⟩⟩, ⟨"", ⟨5, 5⟩⟩, ⟨"\r", ⟨6, 7⟩⟩, ⟨"b", ⟨9, 10⟩⟩] := by decide +kernel

end Document

end ChartValues
