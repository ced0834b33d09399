import ChartValues.Proofs.Markdown.Builder
import ChartValues.Proofs.Text.Run

/-!
# A heading with a block of code

A text of one line, an empty one and a fenced block of code starts with two blocks, the line as a paragraph and the
lines of the code as they are (`exists_blocks_document`), as long as the first line opens no other block. **Code ends at
the first line of at most three blanks, at least three backticks and white space behind them** (`endsCode_iff`).
-/

namespace ChartValues.Markdown

/-! ## The end of code -/

/-- Whether a line ends the code between fences of three backticks. -/
def endsCode (l : List Char) : Bool :=
  let (missing, behind) := (Cursor.mk l 0 0).skip 4
  0 < missing && closesFence ('\x60', 3) behind.rest

/-- A line of at most three blanks, at least three backticks and white space. -/
def EndsCode (l : List Char) : Prop := ∃ blanks ticks after,
  l = List.replicate blanks ' ' ++ (List.replicate ticks '\x60' ++ after) ∧ blanks ≤ 3 ∧ 3 ≤ ticks ∧
    ∀ c ∈ after, isSpace c = true

theorem skip_of_le_pending {n : Nat} {c : Cursor} (h : n ≤ c.pending) : (c.skip n).1 = 0 := by
  induction n generalizing c with
  | zero => rfl
  | succ n ih =>
    rw [Cursor.skip, if_pos (Nat.zero_lt_of_lt h)]
    exact ih (Nat.le_sub_one_of_lt h)

/-- Indentation by less than four columns is of blanks only, since a tab goes on to the fourth one. -/
theorem skip_spec {n column : Nat} (hn : column + n = 4) (cs : List Char) :
    ((Cursor.mk cs column 0).skip n).1 = 0 ∨ ∃ k, k + ((Cursor.mk cs column 0).skip n).1 = n ∧
      cs = List.replicate k ' ' ++ ((Cursor.mk cs column 0).skip n).2.rest := by
  induction n generalizing column cs with
  | zero => exact .inl rfl
  | succ n ih =>
    rw [Cursor.skip, if_neg (Nat.lt_irrefl 0)]
    split
    · rename_i rest hcs
      obtain rfl : cs = ' ' :: rest := hcs
      dsimp only
      rcases @ih (column + 1) (by omega) rest with hzero | ⟨k, hk, hrest⟩
      · exact .inl hzero
      · refine .inr ⟨k + 1, by omega, ?_⟩
        rw [List.replicate_succ, List.cons_append, ← hrest]
    · refine .inl (skip_of_le_pending ?_)
      show n ≤ 4 - column % 4 - 1
      omega
    · exact .inr ⟨0, Nat.zero_add _, rfl⟩

theorem skip_blanks {n k : Nat} (hk : k ≤ n) {cs : List Char} (hcs : ∀ c, cs.head? = some c → c ≠ ' ' ∧ c ≠ '\t')
    (column : Nat) : (Cursor.mk (List.replicate k ' ' ++ cs) column 0).skip n = (n - k, ⟨cs, column + k, 0⟩) := by
  induction k generalizing n column with
  | zero =>
    cases n with
    | zero => rfl
    | succ n =>
      rw [Cursor.skip, if_neg (Nat.lt_irrefl 0)]
      split
      · rename_i rest hrest
        obtain rfl : cs = ' ' :: rest := hrest
        exact absurd rfl (hcs ' ' rfl).1
      · rename_i rest hrest
        obtain rfl : cs = '\t' :: rest := hrest
        exact absurd rfl (hcs '\t' rfl).2
      · rfl
  | succ k ih =>
    obtain ⟨n, rfl⟩ : ∃ m, n = m + 1 := ⟨n - 1, by omega⟩
    rw [List.replicate_succ, List.cons_append, Cursor.skip, if_neg (Nat.lt_irrefl 0)]
    refine (ih (Nat.le_of_succ_le_succ hk) (column + 1)).trans ?_
    rw [Nat.add_sub_add_right, Nat.add_assoc, Nat.add_comm 1 k]

/-- **The lines that end code.** -/
theorem endsCode_iff (l : List Char) : endsCode l = true ↔ EndsCode l := by
  rw [endsCode]
  simp only [Bool.and_eq_true, decide_eq_true_eq, closesFence]
  constructor
  · rintro ⟨hmissing, hcount, hafter⟩
    rcases skip_spec (show 0 + 4 = 4 from rfl) l with hzero | ⟨k, hk, hl⟩
    · omega
    · generalize ((Cursor.mk l 0 0).skip 4).2.rest = behind at hl hcount hafter
      obtain ⟨ticks, after, rfl, hstop, -⟩ := Text.exists_replicate '\x60' behind
      rw [Text.takeWhile_replicate ticks hstop, List.length_replicate] at hcount hafter
      rw [List.drop_left' List.length_replicate] at hafter
      exact ⟨k, ticks, after, hl, by omega, hcount, List.all_eq_true.mp hafter⟩
  · rintro ⟨blanks, ticks, after, rfl, hblanks, hticks, hafter⟩
    have hhead : ∀ c, (List.replicate ticks '\x60' ++ after).head? = some c → c ≠ ' ' ∧ c ≠ '\t' := by
      intro c hc
      rw [List.head?_append_of_ne_nil _ (by simp; omega), List.head?_replicate, if_neg (by omega)] at hc
      rw [← Option.some.inj hc]
      decide
    have hstop : after.head? ≠ some '\x60' := fun h =>
      absurd (hafter _ (List.mem_of_mem_head? h)) (by decide)
    rw [skip_blanks (by omega) hhead 0]
    dsimp only
    rw [Text.takeWhile_replicate ticks hstop, List.drop_left, List.length_replicate]
    exact ⟨by omega, hticks, List.all_eq_true.mpr hafter⟩

instance : DecidablePred EndsCode := fun l => decidable_of_iff _ (endsCode_iff l)

/-! ## Lines -/

/-- A text that ends no line. -/
structure OneLine (cs : List Char) : Prop where
  noFeed : '\n' ∉ cs
  noReturn : '\r' ∉ cs

theorem oneLine_nil : OneLine [] := ⟨List.not_mem_nil, List.not_mem_nil⟩

theorem oneLine_cons_iff {c : Char} {cs : List Char} : OneLine (c :: cs) ↔ (c ≠ '\n' ∧ c ≠ '\r') ∧ OneLine cs := by
  constructor
  · rintro ⟨hfeed, hreturn⟩
    rw [List.mem_cons, not_or] at hfeed hreturn
    exact ⟨⟨Ne.symm hfeed.1, Ne.symm hreturn.1⟩, hfeed.2, hreturn.2⟩
  · rintro ⟨⟨hfeed, hreturn⟩, h⟩
    exact ⟨List.not_mem_cons_of_ne_of_not_mem hfeed.symm h.noFeed,
      List.not_mem_cons_of_ne_of_not_mem hreturn.symm h.noReturn⟩

theorem oneLine_append_iff {cs ds : List Char} : OneLine (cs ++ ds) ↔ OneLine cs ∧ OneLine ds := by
  induction cs with
  | nil => exact ⟨fun h => ⟨oneLine_nil, h⟩, fun h => h.2⟩
  | cons c cs ih => rw [List.cons_append, oneLine_cons_iff, oneLine_cons_iff, ih, ← and_assoc]

theorem ofText_line {l rest : List Char} (hl : OneLine l) (acc : List Char) :
    Line.ofText acc (l ++ '\n' :: rest) = ⟨acc.reverse ++ l, .feed⟩ :: Line.ofText [] rest := by
  induction l generalizing acc with
  | nil => simp [Line.ofText]
  | cons c l ih =>
    obtain ⟨hc, hl⟩ := oneLine_cons_iff.mp hl
    have hstep : Line.ofText acc (c :: (l ++ '\n' :: rest)) = Line.ofText (c :: acc) (l ++ '\n' :: rest) := by
      simp [Line.ofText, hc]
    rw [List.cons_append, hstep, ih hl, List.reverse_cons, List.append_assoc, List.singleton_append]

def joined (ls : List (List Char)) : List Char := ls.flatMap fun l => l ++ ['\n']

theorem ofText_joined {ls : List (List Char)} (hls : ∀ l ∈ ls, OneLine l) (rest : List Char) :
    Line.ofText [] (joined ls ++ rest) = ls.map (fun l => ⟨l, .feed⟩) ++ Line.ofText [] rest := by
  induction ls with
  | nil => rfl
  | cons l ls ih =>
    obtain ⟨hl, hls⟩ := List.forall_mem_cons.mp hls
    have hjoined : joined (l :: ls) ++ rest = l ++ '\n' :: (joined ls ++ rest) := by simp [joined]
    rw [hjoined, ofText_line hl, ih hls]
    rfl

theorem readFenced_lines {ls : List (List Char)} (hls : ∀ l ∈ ls, ¬EndsCode l) {stop : List Char}
    (hstop : EndsCode stop) (rest : List Line) :
    readFenced [] 0 ('\x60', 3) (ls.map (fun l => ⟨l, .feed⟩) ++ ⟨stop, .feed⟩ :: rest) = (ls, rest) := by
  induction ls with
  | nil =>
    rw [List.map_nil, List.nil_append, readFenced]
    show (if endsCode stop = true then ([], rest) else _) = _
    rw [if_pos ((endsCode_iff stop).mpr hstop)]
  | cons l ls ih =>
    obtain ⟨hl, hls⟩ := List.forall_mem_cons.mp hls
    rw [List.map_cons, List.cons_append, readFenced]
    show (if endsCode l = true then ([], _) else _) = _
    rw [if_neg (mt (endsCode_iff l).mp hl), ih hls]
    rfl

/-! ## Blocks -/

/-- The line of a heading: it starts like strong emphasis and does not end with a blank. -/
structure IsStrongLine (l : List Char) : Prop where
  start : ∃ c cs, l = '*' :: '*' :: c :: cs ∧ c ≠ '*' ∧ isSpace c = false
  last : l.getLast?.all (!isSpace ·) = true

theorem isRule_strongLine {c : Char} {cs : List Char} (hstar : c ≠ '*') (hspace : isSpace c = false) :
    isRule ('*' :: '*' :: c :: cs) = false := by
  have hfilter : ('*' :: '*' :: c :: cs).filter (!isSpace ·) = '*' :: '*' :: c :: cs.filter (!isSpace ·) := by
    simp [List.filter, hspace, show isSpace '*' = false from rfl]
  rw [isRule, hfilter]
  simp [hstar]

theorem joinLines_singleton {l : List Char} (h : l.getLast?.all (!isSpace ·) = true) : joinLines [l] = l := by
  have hbare : l.reverse.dropWhile isSpace = l.reverse := by
    rw [← List.head?_reverse] at h
    cases hl : l.reverse with
    | nil => rfl
    | cons c cs =>
      rw [hl] at h
      exact List.dropWhile_cons_of_neg (by simpa using h)
  have htext : List.intercalate ['\n'] [l] = l := List.intercalate_singleton
  rw [joinLines, htext, hbare, List.reverse_reverse]
  exact if_neg (Nat.not_le.mpr (Nat.lt_add_of_pos_right Nat.two_pos))

section strong
variable {c : Char} {cs : List Char}

theorem listMark?_strongLine (hstar : c ≠ '*') (hspace : isSpace c = false) :
    listMark? 0 ⟨'*' :: '*' :: c :: cs, 0, 0⟩ = none := by
  have hbare : bareMark? ('*' :: '*' :: c :: cs) = some ('*', 0, 1) := by
    rw [bareMark?, if_pos (by decide), isRule_strongLine hstar hspace]
    rfl
  rw [listMark?, hbare]
  rfl

theorem openBlocks_strongLine (hstar : c ≠ '*') (hspace : isSpace c = false) (fuel : Nat) :
    openBlocks (fuel + 1) { stack := [⟨.root, []⟩] } ⟨'*' :: '*' :: c :: cs, 0, 0⟩ =
      ({ stack := [⟨.root, []⟩] }, some ⟨'*' :: '*' :: c :: cs, 0, 0⟩) := by
  have hskip : (Cursor.mk ('*' :: '*' :: c :: cs) 0 0).skip 4 = (4, ⟨'*' :: '*' :: c :: cs, 0, 0⟩) := rfl
  rw [openBlocks, hskip]
  dsimp only
  rw [if_neg (by decide), listMark?_strongLine hstar hspace]
  rfl

theorem readLeaf_strongLine (hstar : c ≠ '*') (hspace : isSpace c = false)
    (hlast : ('*' :: '*' :: c :: cs).getLast?.all (!isSpace ·) = true) (ls : List Line) :
    readLeaf { stack := [⟨.root, []⟩] } ⟨'*' :: '*' :: c :: cs, 0, 0⟩ 0 ⟨'*' :: '*' :: c :: cs, .feed⟩
      (⟨[], .feed⟩ :: ls) = ({ stack := [⟨.root, [.paragraph ('*' :: '*' :: c :: cs)]⟩] }, ⟨[], .feed⟩ :: ls) := by
  rw [readLeaf]
  show (if isRule ('*' :: '*' :: c :: cs) = true then _ else _) = _
  rw [isRule_strongLine hstar hspace, if_neg Bool.false_ne_true]
  show (({ stack := [⟨.root, []⟩] } : Builder).add (.paragraph (joinLines ['*' :: '*' :: c :: cs])), _) = _
  rw [joinLines_singleton hlast]
  rfl

end strong

theorem readBlock_strongLine {l : List Char} (h : IsStrongLine l) (ls : List Line) :
    readBlock { stack := [⟨.root, []⟩] } ⟨l, .feed⟩ (⟨[], .feed⟩ :: ls) =
      ({ stack := [⟨.root, [.paragraph l]⟩] }, ⟨[], .feed⟩ :: ls) := by
  obtain ⟨⟨c, cs, rfl, hstar, hspace⟩, hlast⟩ := h
  have hskip : (Cursor.mk ('*' :: '*' :: c :: cs) 0 0).skip 4 = (4, ⟨'*' :: '*' :: c :: cs, 0, 0⟩) := rfl
  have hpop : Builder.popTo (enter (Builder.containers { stack := [⟨.root, []⟩] })
      ⟨'*' :: '*' :: c :: cs, 0, 0⟩).1 [(⟨.root, []⟩ : Frame)].length { stack := [⟨.root, []⟩] } =
        { stack := [⟨.root, []⟩] } := rfl
  have hcursor : (enter (Builder.containers { stack := [⟨.root, []⟩] }) ⟨'*' :: '*' :: c :: cs, 0, 0⟩).2 =
      ⟨'*' :: '*' :: c :: cs, 0, 0⟩ := rfl
  have hblank : (Cursor.mk ('*' :: '*' :: c :: cs) 0 0).isBlank = false := rfl
  rw [readBlock]
  dsimp only
  rw [hpop, hcursor, openBlocks_strongLine hstar hspace]
  dsimp only
  rw [hblank, if_neg Bool.false_ne_true, hskip]
  exact readLeaf_strongLine hstar hspace hlast ls

theorem readBlock_blank (block : Block) (ls : List Line) :
    readBlock { stack := [⟨.root, [block]⟩] } ⟨[], .feed⟩ ls =
      ({ stack := [⟨.root, [block]⟩], afterBlank := true }, ls) := rfl

theorem readBlock_fence (block : Block) (ls : List Line) :
    readBlock { stack := [⟨.root, [block]⟩], afterBlank := true } ⟨"\x60\x60\x60yaml".toList, .feed⟩ ls =
      let (code, rest) := readFenced [] 0 ('\x60', 3) ls
      ({ stack := [⟨.root, [.code code, block]⟩] }, rest) := rfl

/-- The characters of a line, an empty line, and lines behind a fence. -/
def documentChars (l : List Char) (ls : List (List Char)) : List Char :=
  l ++ ("\n\n\x60\x60\x60yaml\n".toList ++ joined ls)

theorem ofText_documentChars {l : List Char} {ls : List (List Char)} (hl : OneLine l) (hls : ∀ l ∈ ls, OneLine l) :
    Line.ofText [] (documentChars l ls) =
      ⟨l, .feed⟩ :: ⟨[], .feed⟩ :: ⟨"\x60\x60\x60yaml".toList, .feed⟩ :: ls.map fun l => ⟨l, .feed⟩ := by
  have hlines := ofText_joined hls []
  rw [List.append_nil] at hlines
  show Line.ofText [] (l ++ '\n' :: ([] ++ '\n' :: ("\x60\x60\x60yaml".toList ++ '\n' :: joined ls))) = _
  rw [ofText_line hl, ofText_line oneLine_nil, ofText_line ⟨by decide, by decide⟩, hlines]
  simp [Line.ofText]

theorem readBlocks_document {l stop : List Char} {ls : List (List Char)} (h : IsStrongLine l)
    (hls : ∀ l ∈ ls, ¬EndsCode l) (hstop : EndsCode stop) (fuel : Nat) (rest : List Line) :
    readBlocks (fuel + 3) { stack := [⟨.root, []⟩] } (⟨l, .feed⟩ :: ⟨[], .feed⟩ ::
      ⟨"\x60\x60\x60yaml".toList, .feed⟩ :: (ls.map (fun l => ⟨l, .feed⟩) ++ ⟨stop, .feed⟩ :: rest)) =
        readBlocks fuel { stack := [⟨.root, [.code ls, .paragraph l]⟩] } rest := by
  rw [readBlocks, readBlock_strongLine h]
  dsimp only
  rw [readBlocks, readBlock_blank]
  dsimp only
  rw [readBlocks, readBlock_fence, readFenced_lines hls hstop]

/-- **A line and fenced code are two blocks**, and the last ones if nothing stands behind the end of the code. -/
theorem exists_blocks_document {l stop : List Char} {ls rest : List (List Char)} (h : IsStrongLine l) (hl : OneLine l)
    (hlines : ∀ l ∈ ls ++ stop :: rest, OneLine l) (hls : ∀ l ∈ ls, ¬EndsCode l) (hstop : EndsCode stop) :
    ∃ more, (blocks (documentChars l (ls ++ stop :: rest))).1 = .paragraph l :: .code ls :: more ∧
      (rest = [] → more = []) := by
  have htext := ofText_documentChars hl hlines
  rw [List.map_append, List.map_cons] at htext
  have hread := fun fuel => readBlocks_document h hls hstop fuel (rest.map fun l => ⟨l, .feed⟩)
  have hkeeps : Builder.Keeps [.code ls, .paragraph l] { stack := [⟨.root, [.code ls, .paragraph l]⟩] } :=
    And.intro rfl (List.suffix_refl _)
  obtain ⟨more, hmore⟩ : ∃ more, (blocks (documentChars l (ls ++ stop :: rest))).1 =
      [.code ls, .paragraph l].reverse ++ more := by
    refine exists_blocks_of_keeps ?_
    rw [htext, List.length_cons, List.length_cons, List.length_cons, hread]
    exact keeps_readBlocks hkeeps _ _
  refine ⟨more, hmore, ?_⟩
  rintro rfl
  have hblocks : (blocks (documentChars l (ls ++ [stop]))).1 = [.paragraph l, .code ls] := by
    rw [blocks, htext, List.length_cons, List.length_cons, List.length_cons, hread]
    rfl
  rw [hblocks] at hmore
  exact (List.append_right_eq_self.mp hmore.symm)

end ChartValues.Markdown
