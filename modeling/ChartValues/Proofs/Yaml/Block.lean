import ChartValues.Proofs.Yaml.Flow

/-!
# Cutting block mappings into tokens

A rendered mapping is read line by line. Between two lines the lexer stands at the next key in the state
`inBlock n`, with `n` block mappings open at the columns `0, 2, …`. Mappings are closed late: only the column of
the next key tells which of them have ended. So what is said of a state is said up to the block ends that are
still due (`opening`), and the recursion of the document carries this from line to line. The main statement is
`Written.tokens_fieldChars`: **the tokens of a document's characters are the document's tokens.**
-/

namespace ChartValues.Yaml

namespace Lexer

/-! ## States between lines -/

/-- The column of the innermost of `n` open block mappings. -/
def indentAt : Nat → Int
  | 0 => -1
  | n + 1 => 2 * n

/-- The columns of the mappings around it. -/
def outerAt : Nat → List Int
  | 0 => []
  | n + 1 => indentAt n :: outerAt n

/-- The state with `n` block mappings open and no key in sight. -/
def inBlock (n : Nat) (c : Cursor) (toks : List Token) (allowed : Bool) : Lexer where
  cursor := c
  tokens := toks
  count := toks.length
  indent := indentAt n
  outer := outerAt n
  keyAllowed := allowed

section inBlock
variable {n k : Nat} {c : Cursor} {toks : List Token} {allowed : Bool} {rest : List Char}

theorem unroll_of_indent_le {l : Lexer} {column : Int} (h : l.indent ≤ column) : l.unroll column = l := by
  rw [unroll]
  split_ifs
  · cases l.outer with
    | nil => rfl
    | cons indent outer => rw [unrollTo, if_neg (Int.not_lt.mpr h)]
  · rfl

theorem unroll_inBlock_succ {column : Int} (h : column < 2 * n) :
    (inBlock (n + 1) c toks allowed).unroll column = (inBlock n c (.blockEnd :: toks) allowed).unroll column := by
  show unrollTo column (inBlock (n + 1) c toks allowed) (indentAt n :: outerAt n) = _
  rw [unrollTo, if_pos (show column < (inBlock (n + 1) c toks allowed).indent from h)]
  rfl

theorem unroll_inBlock {column : Int} (h : indentAt n ≤ column) (h' : column < 2 * n) (k : Nat) :
    (inBlock (n + k) c toks allowed).unroll column =
      inBlock n c (List.replicate k .blockEnd ++ toks) allowed := by
  induction k generalizing toks with
  | zero => exact unroll_of_indent_le h
  | succ k ih =>
    rw [← Nat.add_assoc, unroll_inBlock_succ (by push_cast; omega), ih, List.replicate_succ']
    simp

theorem settle_inBlock_spaces (hc : c.rest = List.replicate k ' ' ++ rest) (hat : TokenAt rest)
    (hmark : c.index = 0 → c.isAt 0 '\uFEFF' = false) :
    (inBlock n c toks allowed).settle = some (inBlock n (c.advance k) toks allowed) := by
  rw [settle, skipToToken_spaces (l := inBlock n c toks allowed) hc hat hmark,
    refreshKeys_of_loose loose_none (by simp [inBlock])]
  rfl

theorem settle_inBlock_line (hc : c.rest = '\n' :: (List.replicate k ' ' ++ rest)) (hat : TokenAt rest)
    (hindex : c.index ≠ 0) :
    (inBlock n c toks allowed).settle = some (inBlock n (c.skipBreak.advance k) toks true) := by
  have hlength : (inBlock n c toks allowed).cursor.rest.length = (List.replicate k ' ' ++ rest).length + 1 := by
    rw [show (inBlock n c toks allowed).cursor = c from rfl, hc, List.length_cons]
  rw [settle, hlength, skipToToken_line (l := inBlock n c toks allowed) hc hat rfl hindex,
    refreshKeys_of_loose loose_none (by simp [inBlock])]
  rfl

theorem saved_inBlock : (inBlock n c toks false).saved = inBlock n c toks false := rfl

theorem rest_skipBreak {c : Cursor} (hc : c.rest = '\n' :: (List.replicate k ' ' ++ rest)) :
    (c.skipBreak.advance k).rest = rest ∧ (c.skipBreak.advance k).column = k ∧
      (c.skipBreak.advance k).index ≠ 0 := by
  rw [Cursor.skipBreak_feed hc]
  have hindex := Cursor.index_le_advance ⟨List.replicate k ' ' ++ rest, c.index + 1, c.line + 1, 0⟩ k
  refine ⟨?_, by simp, ((Nat.succ_pos c.index).trans_le hindex).ne'⟩
  have hrest := Cursor.rest_advance (c := ⟨List.replicate k ' ' ++ rest, c.index + 1, c.line + 1, 0⟩) rfl
  rwa [List.length_replicate] at hrest

theorem Passes.eq_inBlock {l : Lexer} {m : Nat} {ts : List Token}
    (h : Passes m ts (inBlock n c toks allowed) l) (hallowed : l.keyAllowed = false) (hkey : l.keyPlace = none) :
    l = inBlock n (c.advance m) (ts.reverse ++ toks) false := by
  have houter := h.outerKeys
  rw [show (inBlock n c toks allowed).outerKeys = [] from rfl, List.forall₂_nil_left_iff] at houter
  have hcount : l.count = (ts.reverse ++ toks).length := by
    rw [h.count, List.length_append, List.length_reverse, Nat.add_comm]
    rfl
  obtain ⟨cursor, tokens, count, indent, outer, level, keyAllowed, keyPlace, outerKeys⟩ := l
  obtain ⟨hc, ht, -, hi, ho, hl, -, -⟩ := h
  dsimp only at *
  subst hc ht hi ho hl hallowed hkey houter hcount
  rfl

end inBlock

/-! ## A value on its key's line -/

section line
variable {n k : Nat} {c : Cursor} {toks : List Token} {rest : List Char}

theorem reads_inBlock {ch : Char} {cs : List Char} {mid l' : Lexer} (hc : c.rest = ch :: cs)
    (hcolumn : indentAt n ≤ c.column) {allowed : Bool} (hnext : (inBlock n c toks allowed).next ch = some mid)
    (hsettle : mid.settle = some l') (hshort : l'.cursor.rest.length < c.rest.length) :
    Reads (inBlock n c toks allowed) l' :=
  ⟨ch, cs, mid, hc, by
    rw [show (inBlock n c toks allowed).cursor = c from rfl, unroll_of_indent_le hcolumn]
    exact hnext, hsettle, hshort⟩

theorem reads_word_line {text : String} (htext : Word text.toList)
    (hc : c.rest = text.toList ++ '\n' :: (List.replicate k ' ' ++ rest)) (hat : TokenAt rest)
    (hcolumn : c.column ≠ 0) (hindent : indentAt n ≤ c.column) (hk : k ≤ indentAt n) :
    Reads (inBlock n c toks false)
      (inBlock n ((c.advance text.toList.length).skipBreak.advance k) (.scalar text true :: toks) true) := by
  obtain ⟨ch, cs, hcs⟩ := List.exists_cons_of_ne_nil htext.ne_nil
  have hc' : c.rest = ch :: (cs ++ '\n' :: (List.replicate k ' ' ++ rest)) := by
    rw [hc, hcs, List.cons_append]
  obtain ⟨f, hread, hcontent, hbroken⟩ : ∃ f, readPlain false (indentAt n + 1).toNat (c.rest.length + 1) c {} =
      some ((c.advance text.toList.length).skipBreak.advance k, f) ∧ f.content = text.toList.reverse ∧
        f.broken = true := readPlain_line htext hat.solid hc hcolumn (by omega)
  have hrest := rest_skipBreak (Cursor.rest_advance hc)
  have hnext : (inBlock n c toks false).next ch = some
      (inBlock n ((c.advance text.toList.length).skipBreak.advance k) (.scalar text true :: toks) true) := by
    rw [next_plain hc' (Cursor.atDocumentMarker_of_column hcolumn) (startsPlain_of_word (hcs ▸ htext) _ _),
      plainScalar, saveKey_of_loose loose_none, saved_inBlock]
    simp [inBlock, hread, hcontent, hbroken, emit]
  refine reads_inBlock hc' hindent hnext
    (settle_inBlock_spaces (k := 0) (by rw [hrest.1]; rfl) hat fun h0 => absurd h0 hrest.2.2) ?_
  simp [inBlock, hrest.1, hc]
  omega

theorem reads_line {l mid : Lexer} {ch : Char} {cs : List Char} {m : Nat} {ts : List Token} {allowed : Bool}
    (hl : l.cursor.rest = ch :: cs) (hunroll : l.unroll l.cursor.column = l) (hnext : l.next ch = some mid)
    (hpass : Passes m ts (inBlock n c toks allowed) mid) (hallowed : mid.keyAllowed = false)
    (hkey : mid.keyPlace = none) (hc : (c.advance m).rest = '\n' :: (List.replicate k ' ' ++ rest))
    (hat : TokenAt rest) (hindex : (c.advance m).index ≠ 0) (hshort : rest.length ≤ cs.length) :
    Reads l (inBlock n ((c.advance m).skipBreak.advance k) (ts.reverse ++ toks) true) := by
  refine ⟨ch, cs, mid, hl, by rwa [hunroll], ?_, ?_⟩
  · rw [hpass.eq_inBlock hallowed hkey]
    exact settle_inBlock_line hc hat hindex
  · rw [hl, List.length_cons, show (inBlock n ((c.advance m).skipBreak.advance k) _ true).cursor.rest =
      ((c.advance m).skipBreak.advance k).rest from rfl, (rest_skipBreak hc).1]
    omega

theorem passes_afterScalar_inBlock (m : Nat) (content : String) (plain : Bool) :
    Passes m [.scalar content plain] (inBlock n c toks false)
      ((inBlock n c toks false).afterScalar m content plain) :=
  ⟨rfl, rfl, rfl, rfl, rfl, rfl, loose_none, .nil⟩

theorem reads_quoted_line {text : String} (htext : ∀ ch ∈ text.toList, Quotable ch)
    (hc : c.rest = Text.quoteChars text.toList ++ '\n' :: (List.replicate k ' ' ++ rest)) (hat : TokenAt rest)
    (hcolumn : c.column ≠ 0) (hindent : indentAt n ≤ c.column) :
    Reads (inBlock n c toks false)
      (inBlock n ((c.advance (Text.quoteChars text.toList).length).skipBreak.advance k)
        (.scalar text false :: toks) true) := by
  have hnext : (inBlock n c toks false).next '"' = some _ :=
    (next_quote hcolumn).trans (quotedScalar_eq loose_none htext hc)
  have hpos : 0 < (Text.quoteChars text.toList).length := by simp [Text.quoteChars]
  have hl : (inBlock n c toks false).cursor.rest =
      '"' :: (text.toList.flatMap Text.escape ++ '"' :: '\n' :: (List.replicate k ' ' ++ rest)) := by
    rw [show (inBlock n c toks false).cursor = c from rfl, hc]
    simp [Text.quoteChars]
  exact reads_line hl (unroll_of_indent_le hindent) hnext (passes_afterScalar_inBlock _ _ _) rfl rfl
    (Cursor.rest_advance hc) hat (Cursor.index_advance_ne_zero (by simp [hc, Text.quoteChars]) hpos.ne') (by simp; omega)

theorem steps_brackets_line {body : List Char} {ts : List Token} {t u : Token} {ch close : Char}
    (hc : c.rest = ch :: (body ++ close :: '\n' :: (List.replicate k ' ' ++ rest)))
    (hat : TokenAt (body ++ close :: '\n' :: (List.replicate k ' ' ++ rest))) (hindent : indentAt n ≤ c.column)
    (hopen : (inBlock n c toks false).next ch = (inBlock n c toks false).flowStart t) (hbody : Cuts body close ts)
    (hclose : ∀ l : Lexer, InFlow l → l.next close = l.flowEnd u) (hat' : TokenAt rest) :
    Steps (inBlock n c toks false)
      (inBlock n ((c.advance (ch :: (body ++ [close])).length).skipBreak.advance k)
        ((t :: (ts ++ [u])).reverse ++ toks) true) := by
  have hopened : InFlow ((inBlock n c toks false).opened t) :=
    inFlow_opened (l := inBlock n c toks false) (by simp [inBlock, hc]) rfl loose_none (by simp [inBlock]) t
  obtain ⟨inside, hsteps, hpass, hinside, hc'⟩ := hbody.exists_inside hopened hc
  have hrest : ((inBlock n c toks false).opened t).cursor.rest =
      body ++ close :: '\n' :: (List.replicate k ' ' ++ rest) := by
    rw [show ((inBlock n c toks false).opened t).cursor = ((inBlock n c toks false).opened t).faded.cursor from rfl,
      cursor_opened]
    exact Cursor.rest_advance_one hc
  have hread : Reads (inBlock n c toks false) ((inBlock n c toks false).opened t).faded :=
    reads_inBlock hc hindent (hopen.trans (flowStart_eq loose_none t)) (hopened.settle (by rwa [hrest]))
      (by rw [show ((inBlock n c toks false).opened t).faded.cursor =
            ((inBlock n c toks false).opened t).cursor from rfl,
            hrest, hc]; simp)
  obtain ⟨mid, hend, hmid, hallowed, hkey⟩ := flowEnd_of_passes (l := inBlock n c toks false) loose_none hpass u
  have hadvance : inside.cursor = c.advance (body.length + 1) := by
    rw [hpass.cursor, cursor_opened, Cursor.advance_advance, Nat.add_comm]
    rfl
  rw [hadvance] at hc'
  have hread' := reads_line (by rw [hadvance]; exact hc') (unroll_of_flow hinside.level _)
    ((hclose inside hinside).trans hend) hmid hallowed
    (hkey.elim id id) (by rw [← Cursor.advance_advance]; exact Cursor.rest_advance_one hc') hat'
    (Cursor.index_advance_ne_zero (by simp [hc]) (Nat.succ_ne_zero _)) (by simp; omega)
  rw [List.length_cons, List.length_append, List.length_singleton]
  exact .head hread (hsteps.tail hread')

variable (toks) in
/-- **A flow at the end of a line is cut into its tokens**, and the lexer stands at the next line's key. -/
theorem steps_flow_line {f : Flow} (hf : f.Legible)
    (hc : c.rest = f.chars ++ '\n' :: (List.replicate k ' ' ++ rest)) (hat : TokenAt rest)
    (hcolumn : c.column ≠ 0) (hindent : indentAt n ≤ c.column) (hk : k ≤ indentAt n) :
    ∃ c', Steps (inBlock n c toks false) (inBlock n c' (f.tokens.reverse ++ toks) true) ∧
      c'.rest = rest ∧ c'.column = k ∧ c'.index ≠ 0 := by
  have hrest := rest_skipBreak (Cursor.rest_advance hc)
  refine ⟨(c.advance f.chars.length).skipBreak.advance k, ?_, hrest⟩
  cases f with
  | plain text =>
    rw [Flow.Legible] at hf
    rw [Flow.chars] at hc ⊢
    rw [Flow.tokens]
    exact .single (reads_word_line hf hc hat hcolumn hindent hk)
  | quoted text =>
    rw [Flow.Legible] at hf
    rw [Flow.chars] at hc ⊢
    rw [Flow.tokens]
    exact .single (reads_quoted_line hf hc hat hcolumn hindent)
  | sequence items =>
    rw [Flow.Legible] at hf
    rw [Flow.chars, List.cons_append, List.append_assoc, List.singleton_append] at hc
    rw [Flow.chars, Flow.tokens]
    exact steps_brackets_line hc (Flow.tokenAt_itemChars hf true (by rintro _ ⟨⟩; decide)) hindent
      (next_sequenceStart hcolumn) (Flow.cuts_items hf) (fun _ hl => next_sequenceEnd hl.column) hat
  | mapping pairs =>
    rw [Flow.Legible] at hf
    rw [Flow.chars, List.cons_append, List.append_assoc, List.singleton_append] at hc
    rw [Flow.chars, Flow.tokens]
    exact steps_brackets_line hc (Flow.tokenAt_pairChars pairs true (by rintro _ ⟨⟩; decide)) hindent
      (next_mappingStart hcolumn) (Flow.cuts_pairs hf) (fun _ hl => next_mappingEnd hl.column) hat

end line

/-! ## Keys -/

/-- A text that reads as the key of a block mapping at a depth: plain, on one line, not too long for its colon,
and no mark that starts or ends a document. -/
structure BlockKey (depth : Nat) (cs : List Char) : Prop where
  text : PlainText cs
  allowed : ∀ ch ∈ cs, isAllowed ch = true
  start : ∀ ch rest, cs = ch :: rest → StartsPlain false ch (rest ++ [':'])
  short : Line.byteLength cs ≤ 1024
  noMarker : depth = 0 → ∀ mark, mark = '-' ∨ mark = '.' →
    ¬([mark, mark, mark] <+: cs ∧ ∃ ch, cs[3]? = some ch ∧ isSpace ch = true)

theorem BlockKey.tokenAt {depth : Nat} {cs : List Char} (h : BlockKey depth cs) (rest : List Char) :
    TokenAt (cs ++ rest) := by
  obtain ⟨ch, cs', rfl⟩ := List.exists_cons_of_ne_nil h.text.ne_nil
  rintro _ ⟨⟩
  have hhead := h.text.head ch rfl
  exact ⟨hhead.1, h.text.noBreak ch List.mem_cons_self, hhead.2⟩

theorem BlockKey.atMarker {cs stop : List Char} {c : Cursor} {mark : Char} (h : BlockKey 0 cs)
    (hmark : mark = '-' ∨ mark = '.') (hc : c.rest = cs ++ ':' :: stop) : c.atMarker mark = false := by
  refine Bool.eq_false_iff.mpr fun hat => ?_
  simp only [Cursor.atMarker, Cursor.isAt, Cursor.blankAt, Cursor.peek, hc, Bool.and_eq_true, beq_iff_eq] at hat
  obtain ⟨⟨⟨⟨-, h₀⟩, h₁⟩, h₂⟩, h₃⟩ := hat
  have hcolon : ':' ≠ mark := by rcases hmark with rfl | rfl <;> decide
  -- The marks and the blank behind them all lie in the key, since the colon is none of them.
  rcases cs with _ | ⟨x, _ | ⟨y, _ | ⟨z, _ | ⟨ch, cs⟩⟩⟩⟩
  · exact hcolon (by simpa using h₀)
  · exact hcolon (by simpa using h₁)
  · exact hcolon (by simpa using h₂)
  · simp [isSpace, isBreak] at h₃
  · obtain rfl : x = mark := by simpa using h₀
    obtain rfl : y = x := by simpa using h₁
    obtain rfl : z = y := by simpa using h₂
    have hspace : isSpace ch = true := by simpa [h.text.noBreak ch (by simp)] using h₃
    exact h.noMarker rfl z hmark ⟨⟨ch :: cs, rfl⟩, ch, rfl, hspace⟩

theorem BlockKey.notMarker {depth : Nat} {cs stop : List Char} {c : Cursor} (h : BlockKey depth cs)
    (hc : c.rest = cs ++ ':' :: stop) (hcolumn : c.column = 2 * depth) : c.atDocumentMarker = false := by
  by_cases hdepth : depth = 0
  · subst hdepth
    rw [Cursor.atDocumentMarker, h.atMarker (.inl rfl) hc, h.atMarker (.inr rfl) hc]
    rfl
  · exact Cursor.atDocumentMarker_of_column (by omega)

section key
variable {n m depth : Nat} {c : Cursor} {toks : List Token} {key : String} {next : Char} {stop : List Char}

/-- The state behind a key, before its colon. -/
def behindKey (n : Nat) (c : Cursor) (toks : List Token) (key : String) : Lexer :=
  { inBlock n (c.advance key.toList.length) (.scalar key true :: toks) false with
    keyPlace := some (inBlock n c toks true).placeHere }

theorem plainScalar_key (hkey : BlockKey depth key.toList) (hnext : isSpace next = true ∨ isBreak next = true)
    (hc : c.rest = key.toList ++ ':' :: next :: stop) (hcolumn : c.column = 2 * depth)
    (hindent : indentAt n ≤ c.column) :
    (inBlock n c toks true).plainScalar = some (behindKey n c toks key) := by
  have hread : readPlain false (indentAt n + 1).toNat (c.rest.length + 1) c {} = _ :=
    readPlain_key hkey.text hnext hc (hkey.notMarker hc hcolumn) (by omega) rfl (by rw [hc, List.length_append]; omega)
  rw [plainScalar, saveKey_of_loose loose_none]
  simp [inBlock, saved, hread, behindKey, emit, Folding.joined]

theorem settle_behindKey (hshort : Line.byteLength key.toList ≤ 1024) (hc : c.rest = key.toList ++ ':' :: stop)
    (hne : key.toList ≠ []) : (behindKey n c toks key).settle = some (behindKey n c toks key) := by
  have hrest : (behindKey n c toks key).cursor.rest = List.replicate 0 ' ' ++ ':' :: stop :=
    Cursor.rest_advance hc
  have hat : TokenAt (':' :: stop) := by
    rintro _ ⟨⟩
    decide
  have hindex : (behindKey n c toks key).cursor.index ≠ 0 := by
    exact Cursor.index_advance_ne_zero (by simp [hc]) (by simpa using hne)
  have hplace : refreshKey (behindKey n c toks key).cursor (behindKey n c toks key).keyPlace =
      some (behindKey n c toks key).keyPlace := by
    rw [show (behindKey n c toks key).keyPlace = some (inBlock n c toks true).placeHere from rfl, refreshKey,
      show (behindKey n c toks key).cursor = (inBlock n c toks true).cursor.advance key.toList.length from rfl,
      isOutdated_placeHere hc hshort, if_neg Bool.false_ne_true]
  rw [settle, skipToToken_spaces hrest hat fun h0 => absurd h0 hindex, Cursor.advance_zero, refreshKeys, hplace]
  rfl

/-- What stands before the tokens of a mapping at depth `depth` that is read on with `n` mappings open: the
start of the mapping, or the ends of the mappings inside it. -/
def opening (depth n : Nat) (toks : List Token) : List Token :=
  if n = depth then .blockMappingStart :: toks else List.replicate (n - (depth + 1)) .blockEnd ++ toks

theorem colon_behindKey (hcolumn : c.column = 2 * depth) (hn : n = depth ∨ n = depth + 1) :
    (behindKey n c toks key).colon =
      some (inBlock (depth + 1) (c.advance (key.toList.length + 1))
        (.value :: .scalar key true :: .key :: opening depth n toks) false) := by
  have hkey : insertBehind .key 1 (.scalar key true :: toks) = .scalar key true :: .key :: toks := rfl
  have hstart : insertBehind .blockMappingStart (toks.length + 1 + 1 - toks.length)
      (.scalar key true :: .key :: toks) = .scalar key true :: .key :: .blockMappingStart :: toks := by
    rw [Nat.add_assoc, Nat.add_sub_cancel_left]
    rfl
  have hindent : (indentAt (depth + 1) : Int) = c.column := by
    rw [hcolumn]
    push_cast
    rfl
  rcases hn with rfl | rfl
  · have hless : indentAt n < (c.column : Int) := by
      rw [hcolumn]
      cases n <;> simp only [indentAt] <;> omega
    simp [colon, behindKey, placeHere, inBlock, insertAt, hkey, roll, hless, hstart, opening, take, emit, hindent,
      outerAt]
  · simp [colon, behindKey, placeHere, inBlock, insertAt, hkey, roll, hindent, opening, take, emit]

theorem unroll_key (hcolumn : c.column = 2 * depth) (hn : n = depth ∨ depth + 1 ≤ n) :
    ∃ m toks', (m = depth ∨ m = depth + 1) ∧ indentAt m ≤ c.column ∧
      (inBlock n c toks true).unroll c.column = inBlock m c toks' true ∧
        opening depth m toks' = opening depth n toks := by
  rcases hn with rfl | hn
  · have hindent : indentAt n ≤ c.column := by
      rw [hcolumn]
      cases n <;> simp only [indentAt] <;> omega
    exact ⟨n, toks, .inl rfl, hindent, unroll_of_indent_le hindent, rfl⟩
  · obtain ⟨k, rfl⟩ := Nat.exists_eq_add_of_le hn
    have hindent : indentAt (depth + 1) ≤ c.column := by
      rw [hcolumn]
      simp [indentAt]
    refine ⟨depth + 1, _, .inr rfl, hindent, unroll_inBlock hindent (by rw [hcolumn]; push_cast; omega) k, ?_⟩
    rw [opening, opening, if_neg (by omega), if_neg (by omega), Nat.sub_self, Nat.add_sub_cancel_left]
    rfl

theorem reads_key {toks' : List Token} (hkey : BlockKey depth key.toList)
    (hnext : isSpace next = true ∨ isBreak next = true) (hc : c.rest = key.toList ++ ':' :: next :: stop)
    (hcolumn : c.column = 2 * depth) (hindent : indentAt m ≤ c.column)
    (hunroll : (inBlock n c toks true).unroll c.column = inBlock m c toks' true) :
    Reads (inBlock n c toks true) (behindKey m c toks' key) := by
  obtain ⟨ch, cs, hcs⟩ := List.exists_cons_of_ne_nil hkey.text.ne_nil
  have hc' : c.rest = ch :: (cs ++ ':' :: next :: stop) := by rw [hc, hcs, List.cons_append]
  have hstart : StartsPlain false ch (cs ++ ':' :: next :: stop) := by
    have hhead : (cs ++ [':']).head? = (cs ++ ':' :: next :: stop).head? := by cases cs <;> rfl
    have hkeystart := hkey.start ch cs hcs
    rwa [StartsPlain, hhead] at hkeystart
  have hcursor : (inBlock n c toks true).cursor = c := rfl
  refine ⟨ch, _, behindKey m c toks' key, hc', ?_, settle_behindKey hkey.short hc hkey.text.ne_nil, ?_⟩
  · rw [hcursor, hunroll, next_plain (l := inBlock m c toks' true) hc' (hkey.notMarker hc hcolumn) hstart]
    exact plainScalar_key hkey hnext hc hcolumn hindent
  · have hrest : (behindKey m c toks' key).cursor.rest = ':' :: next :: stop := Cursor.rest_advance hc
    rw [hrest, hcursor, hc']
    simp only [List.length_cons, List.length_append]
    omega

theorem reads_colon {r : Lexer} (hne : key.toList ≠ []) (hnext : isSpace next = true ∨ isBreak next = true)
    (hc : c.rest = key.toList ++ ':' :: next :: stop) (hcolumn : c.column = 2 * depth)
    (hn : n = depth ∨ n = depth + 1) (hindent : indentAt n ≤ c.column)
    (hsettle : (inBlock (depth + 1) (c.advance (key.toList.length + 1))
      (.value :: .scalar key true :: .key :: opening depth n toks) false).settle = some r)
    (hshort : r.cursor.rest.length ≤ stop.length) : Reads (behindKey n c toks key) r := by
  have hrest : (behindKey n c toks key).cursor.rest = ':' :: next :: stop := Cursor.rest_advance hc
  have hblank : (behindKey n c toks key).cursor.blankAt 1 = true := by
    rcases hnext with h | h <;> simp [Cursor.blankAt, Cursor.peek, hrest, h]
  have hpos := List.length_pos_iff.mpr hne
  have hbehind : (behindKey n c toks key).cursor.column = c.column + key.toList.length := rfl
  refine ⟨':', _, _, hrest, ?_, hsettle, ?_⟩
  · rw [unroll_of_indent_le (show indentAt n ≤ _ by rw [hbehind]; push_cast; omega),
      next_colon (by rw [hbehind]; omega) (.inr hblank), colon_behindKey hcolumn hn]
  · rw [hrest, List.length_cons, List.length_cons]
    omega

/-- **A key and its colon.** The mappings that ended before the key are closed, and its own token goes before
it. -/
theorem steps_key {r : Lexer} (hkey : BlockKey depth key.toList) (hnext : isSpace next = true ∨ isBreak next = true)
    (hc : c.rest = key.toList ++ ':' :: next :: stop) (hcolumn : c.column = 2 * depth)
    (hn : n = depth ∨ depth + 1 ≤ n)
    (hsettle : (inBlock (depth + 1) (c.advance (key.toList.length + 1))
      (.value :: .scalar key true :: .key :: opening depth n toks) false).settle = some r)
    (hshort : r.cursor.rest.length ≤ stop.length) : Steps (inBlock n c toks true) r := by
  obtain ⟨m, toks', hm, hindent, hunroll, hopening⟩ := unroll_key hcolumn hn
  rw [← hopening] at hsettle
  exact .tail (.single (reads_key hkey hnext hc hcolumn hindent hunroll))
    (reads_colon hkey.text.ne_nil hnext hc hcolumn hm hindent hsettle hshort)

end key

end Lexer

/-! ## Whole mappings -/

open Lexer

mutual

/-- Every key and every flow of the value can be written as it is; a block mapping has a first key. -/
def Written.Legible (depth : Nat) : Written → Prop
  | .inline flow => flow.Legible
  | .block fields => fields ≠ [] ∧ Written.LegibleFields (depth + 1) fields

def Written.LegibleFields (depth : Nat) : List (String × Written) → Prop
  | [] => True
  | (key, value) :: fields =>
    BlockKey depth key.toList ∧ value.Legible depth ∧ Written.LegibleFields depth fields

end

/-- The lexer stands at the next line, `k` columns in, and has read `ts` since a state with the tokens `toks`,
up to the ends that are due for mappings inside depth `depth`. -/
structure AtLine (depth k : Nat) (rest : List Char) (ts toks : List Token) (n : Nat) (c : Cursor)
    (toks' : List Token) : Prop where
  rest : c.rest = rest
  column : c.column = k
  index : c.index ≠ 0
  level : depth + 1 ≤ n
  tokens : List.replicate (n - (depth + 1)) .blockEnd ++ toks' = ts.reverse ++ toks

namespace AtLine

variable {depth k k' n n' : Nat} {rest rest' : List Char} {ts ts' toks toks₁ toks₂ : List Token} {c c' : Cursor}

theorem behind (before : List Token) (h : AtLine depth k rest ts (before.reverse ++ toks) n c toks₁) :
    AtLine depth k rest (before ++ ts) toks n c toks₁ := by
  refine ⟨h.rest, h.column, h.index, h.level, ?_⟩
  rw [h.tokens, List.reverse_append, List.append_assoc]

theorem trans (h : AtLine depth k rest ts toks n c toks₁)
    (h' : AtLine depth k' rest' ts' (opening depth n toks₁) n' c' toks₂) :
    AtLine depth k' rest' (ts ++ ts') toks n' c' toks₂ := by
  have hlevel := h.level
  have htokens := h'.tokens
  rw [opening, if_neg (by omega), h.tokens] at htokens
  refine ⟨h'.rest, h'.column, h'.index, h'.level, ?_⟩
  rw [htokens, List.reverse_append, List.append_assoc]

theorem block (h : AtLine (depth + 1) k rest ts (opening (depth + 1) (depth + 1) toks) n c toks₁) :
    AtLine depth k rest (.blockMappingStart :: (ts ++ [.blockEnd])) toks n c toks₁ := by
  have hlevel := h.level
  refine ⟨h.rest, h.column, h.index, by omega, ?_⟩
  rw [show n - (depth + 1) = n - (depth + 1 + 1) + 1 by omega, List.replicate_succ, List.cons_append, h.tokens,
    opening, if_pos rfl]
  simp

end AtLine

theorem Written.exists_fieldChars {depth : Nat} {fields : List (String × Written)} (hne : fields ≠ [])
    (h : Written.LegibleFields depth fields) (tail : List Char) :
    ∃ rest, Written.fieldChars depth fields ++ tail = List.replicate (2 * depth) ' ' ++ rest ∧ TokenAt rest := by
  obtain ⟨⟨key, value⟩, fields, rfl⟩ := List.exists_cons_of_ne_nil hne
  rw [Written.LegibleFields] at h
  exact ⟨_, by rw [Written.fieldChars, List.append_assoc, List.append_assoc], h.1.tokenAt _⟩

theorem Written.exists_nextLine {depth k : Nat} {fields : List (String × Written)}
    (h : Written.LegibleFields depth fields) {rest : List Char} (hat : TokenAt rest) (hk : k ≤ 2 * depth) :
    ∃ k' rest', Written.fieldChars depth fields ++ (List.replicate k ' ' ++ rest) = List.replicate k' ' ' ++ rest' ∧
      TokenAt rest' ∧ k' ≤ 2 * depth ∧ (fields = [] → k' = k ∧ rest' = rest) ∧ (fields ≠ [] → k' = 2 * depth) := by
  by_cases hmore : fields = []
  · exact ⟨k, rest, by rw [hmore, Written.fieldChars, List.nil_append], hat, hk, fun _ => ⟨rfl, rfl⟩,
      fun hne => absurd hmore hne⟩
  · obtain ⟨rest', hlines, hat'⟩ := Written.exists_fieldChars hmore h (List.replicate k ' ' ++ rest)
    exact ⟨2 * depth, rest', hlines, hat', le_rfl, fun heq => absurd heq hmore, fun _ => rfl⟩

theorem Written.exists_chars (depth : Nat) (value : Written) :
    ∃ next stop, value.chars depth = next :: stop ∧ (isSpace next = true ∨ isBreak next = true) := by
  cases value with
  | inline flow => exact ⟨_, _, by rw [Written.chars], .inl rfl⟩
  | block fields => exact ⟨_, _, by rw [Written.chars], .inr rfl⟩

mutual

theorem Written.steps (depth : Nat) : ∀ (value : Written) (_ : value.Legible depth) {k : Nat} {rest : List Char}
    {c : Cursor} (toks : List Token) (_ : c.rest = value.chars depth ++ (List.replicate k ' ' ++ rest))
    (_ : TokenAt rest) (_ : k ≤ 2 * depth) (_ : 2 * depth < c.column) (_ : c.index ≠ 0),
    ∃ r n c' toks', (inBlock (depth + 1) c toks false).settle = some r ∧
      r.cursor.rest.length < c.rest.length ∧ Steps r (inBlock n c' toks' true) ∧
      AtLine depth k rest value.tokens toks n c' toks'
  | .inline flow, hvalue, k, rest, c, toks, hc, hat, hk, hcolumn, hindex => by
    rw [Written.Legible] at hvalue
    rw [Written.chars, List.cons_append, List.append_assoc, List.singleton_append] at hc
    have hrest := Cursor.rest_advance_one hc
    have hindent : indentAt (depth + 1) = ((2 * depth : Nat) : Int) := by simp [indentAt]
    obtain ⟨c', hsteps, hrest', hcolumn', hindex'⟩ := steps_flow_line (n := depth + 1) toks hvalue hrest hat
      (by rw [Cursor.column_advance]; omega) (by rw [hindent, Cursor.column_advance]; omega) (by omega)
    refine ⟨_, depth + 1, c', _,
      settle_inBlock_spaces (k := 1) hc (Flow.tokenAt_chars hvalue _) (fun h0 => absurd h0 hindex), ?_, hsteps, ?_⟩
    · rw [show (inBlock (depth + 1) (c.advance 1) toks false).cursor = c.advance 1 from rfl, hrest, hc]
      simp
    · exact ⟨hrest', hcolumn', hindex', le_rfl, by rw [Nat.sub_self, Written.tokens]; rfl⟩
  | .block fields, hvalue, k, rest, c, toks, hc, hat, hk, hcolumn, hindex => by
    rw [Written.Legible] at hvalue
    obtain ⟨rest₁, hlines, hat₁⟩ := Written.exists_fieldChars hvalue.1 hvalue.2 (List.replicate k ' ' ++ rest)
    rw [Written.chars, List.cons_append, hlines] at hc
    obtain ⟨hrest, hcolumn', -⟩ := rest_skipBreak hc
    obtain ⟨n, c', toks', hsteps, hline⟩ := Written.steps_fields (depth + 1) fields hvalue.1 hvalue.2
      (n := depth + 1) toks (by rw [hrest, hlines]) hat (by omega) hcolumn' (.inl rfl)
    refine ⟨_, n, c', toks', settle_inBlock_line hc hat₁ hindex, ?_, hsteps, ?_⟩
    · rw [show (inBlock (depth + 1) (c.skipBreak.advance (2 * (depth + 1))) toks true).cursor =
        c.skipBreak.advance (2 * (depth + 1)) from rfl, hrest, hc]
      simp only [List.length_cons, List.length_append]
      omega
    · rw [Written.tokens]
      exact hline.block

theorem Written.steps_fields (depth : Nat) : ∀ (fields : List (String × Written)) (_ : fields ≠ [])
    (_ : Written.LegibleFields depth fields) {k n : Nat} {rest : List Char} {c : Cursor} (toks : List Token)
    (_ : List.replicate (2 * depth) ' ' ++ c.rest =
      Written.fieldChars depth fields ++ (List.replicate k ' ' ++ rest))
    (_ : TokenAt rest) (_ : k ≤ 2 * depth) (_ : c.column = 2 * depth) (_ : n = depth ∨ depth + 1 ≤ n),
    ∃ n' c' toks', Steps (inBlock n c toks true) (inBlock n' c' toks' true) ∧
      AtLine depth k rest (Written.fieldTokens fields) (opening depth n toks) n' c' toks'
  | [], hne, _, k, n, rest, c, toks, hc, hat, hk, hcolumn, hn => absurd rfl hne
  | (key, value) :: fields, hne, hfields, k, n, rest, c, toks, hc, hat, hk, hcolumn, hn => by
    rw [Written.LegibleFields] at hfields
    obtain ⟨hkey, hvalue, hfields⟩ := hfields
    rw [Written.fieldChars, List.append_assoc] at hc
    have hc := List.append_cancel_left hc
    rw [List.append_assoc, List.cons_append, List.append_assoc] at hc
    obtain ⟨k₁, rest₁, hlines, hat₁, hk₁, hlast, hmore⟩ := Written.exists_nextLine hfields hat hk
    obtain ⟨next, stop, hchars, hnext⟩ := Written.exists_chars depth value
    have hrest : (c.advance (key.toList.length + 1)).rest = value.chars depth ++ (List.replicate k₁ ' ' ++ rest₁) := by
      rw [← Cursor.advance_advance, Cursor.rest_advance_one (Cursor.rest_advance hc), hlines]
    obtain ⟨r, n₁, c₁, toks₁, hsettle, hshort, hsteps, hline⟩ := Written.steps depth value hvalue
      (.value :: .scalar key true :: .key :: opening depth n toks) hrest hat₁ hk₁
      (by rw [Cursor.column_advance]; omega) (Cursor.index_advance_ne_zero (by simp [hc]) (Nat.succ_ne_zero _))
    rw [hrest, hchars, List.cons_append, List.length_cons] at hshort
    rw [hchars, List.cons_append, hlines] at hc
    have hsteps := (steps_key hkey hnext hc hcolumn hn hsettle (by omega)).trans hsteps
    have hfield := AtLine.behind [.key, .scalar key true, .value] hline
    rw [Written.fieldTokens]
    by_cases hfirst : fields = []
    · obtain ⟨rfl, rfl⟩ := hlast hfirst
      rw [hfirst, Written.fieldTokens, List.append_nil]
      exact ⟨n₁, c₁, toks₁, hsteps, hfield⟩
    · obtain rfl := hmore hfirst
      obtain ⟨n₂, c₂, toks₂, hsteps₂, hline₂⟩ := Written.steps_fields depth fields hfirst hfields toks₁
        (by rw [hline.rest, hlines]) hat hk hline.column (.inr hline.level)
      exact ⟨n₂, c₂, toks₂, hsteps.trans hsteps₂, hfield.trans hline₂⟩

end

/-! ## Whole texts -/

theorem isAllowed_of_isWordChar {ch : Char} (h : isWordChar ch = true) : isAllowed ch = true := by
  have hascii (h : 0x20 ≤ ch.toNat ∧ ch.toNat ≤ 0x7E) : isAllowed ch = true := by simp [isAllowed, h]
  rw [isWordChar, Bool.or_eq_true, Bool.or_eq_true, Bool.or_eq_true, beq_iff_eq, beq_iff_eq, beq_iff_eq] at h
  rcases h with ((h | rfl) | rfl) | rfl
  · rcases (Bool.or_eq_true _ _).mp h with h | h
    · rcases (Bool.or_eq_true _ _).mp h with h | h
      · obtain ⟨h₁, h₂⟩ : 65 ≤ ch.toNat ∧ ch.toNat ≤ 90 := of_decide_eq_true h
        exact hascii ⟨by omega, by omega⟩
      · obtain ⟨h₁, h₂⟩ := (Bool.and_eq_true _ _).mp h
        have h₁ : 97 ≤ ch.toNat := of_decide_eq_true h₁
        have h₂ : ch.toNat ≤ 122 := of_decide_eq_true h₂
        exact hascii ⟨by omega, by omega⟩
    · obtain ⟨h₁, h₂⟩ : 48 ≤ ch.toNat ∧ ch.toNat ≤ 57 := Char.isDigit_iff_toNat.mp h
      exact hascii ⟨by omega, by omega⟩
  all_goals rfl

theorem allowed_escape {ch : Char} (h : Quotable ch) : ∀ x ∈ Text.escape ch, isAllowed x = true := by
  have hhex : ∀ d < 16, isAllowed (Nat.digitChar d) = true := by decide
  have hpair : ∀ x y, isAllowed x = true → isAllowed y = true → ∀ z ∈ [x, y], isAllowed z = true := by
    intro x y hx hy
    simp [hx, hy]
  rw [Text.escape]
  split_ifs with h₁ h₂ h₃ h₄ h₅ h₆ h₇ h₈
  · exact hpair _ _ rfl rfl
  · exact hpair _ _ rfl rfl
  · exact hpair _ _ rfl rfl
  · exact hpair _ _ rfl rfl
  · exact hpair _ _ rfl rfl
  · exact hpair _ _ rfl rfl
  · exact hpair _ _ rfl rfl
  · simp only [Text.hex4, Text.hexDigit, List.forall_mem_cons]
    exact ⟨rfl, rfl, hhex _ (Nat.mod_lt _ (by decide)), hhex _ (Nat.mod_lt _ (by decide)),
      hhex _ (Nat.mod_lt _ (by decide)), hhex _ (Nat.mod_lt _ (by decide)), by simp⟩
  · simpa using (h.resolve_left h₈).1

theorem allowed_comma (first : Bool) : ∀ ch ∈ Flow.comma first, isAllowed ch = true := by
  cases first
  · exact List.forall_mem_singleton.mpr rfl
  · exact List.forall_mem_nil _

theorem allowed_quoteChars {cs : List Char} (h : ∀ ch ∈ cs, Quotable ch) :
    ∀ ch ∈ Text.quoteChars cs, isAllowed ch = true := by
  intro ch hch
  simp only [Text.quoteChars, List.cons_append, List.mem_cons, List.mem_append, List.mem_flatMap,
    List.not_mem_nil, or_false] at hch
  rcases hch with rfl | ⟨x, hx, hch⟩ | rfl
  · rfl
  · exact allowed_escape (h x hx) ch hch
  · rfl

mutual

theorem Flow.allowed_chars : ∀ f : Flow, f.Legible → ∀ ch ∈ f.chars, isAllowed ch = true
  | .plain text, hf => by
    rw [Flow.Legible] at hf
    rw [Flow.chars]
    exact fun ch hch => isAllowed_of_isWordChar (hf.chars ch hch)
  | .quoted text, hf => by
    rw [Flow.Legible] at hf
    rw [Flow.chars]
    exact allowed_quoteChars hf
  | .sequence items, hf => by
    rw [Flow.Legible] at hf
    rw [Flow.chars]
    rw [List.forall_mem_cons, List.forall_mem_append, List.forall_mem_singleton]
    exact ⟨rfl, Flow.allowed_itemChars items true hf, rfl⟩
  | .mapping pairs, hf => by
    rw [Flow.Legible] at hf
    rw [Flow.chars]
    rw [List.forall_mem_cons, List.forall_mem_append, List.forall_mem_singleton]
    exact ⟨rfl, Flow.allowed_pairChars pairs true hf, rfl⟩

theorem Flow.allowed_itemChars : ∀ (items : List Flow) (first : Bool), Flow.LegibleItems items →
    ∀ ch ∈ Flow.itemChars first items, isAllowed ch = true
  | [], first, _ => by simp [Flow.itemChars]
  | item :: items, first, h => by
    rw [Flow.LegibleItems] at h
    rw [Flow.itemChars, List.forall_mem_append, List.forall_mem_append]
    exact ⟨allowed_comma first, Flow.allowed_chars item h.1, Flow.allowed_itemChars items false h.2⟩

theorem Flow.allowed_pairChars : ∀ (pairs : List (String × Flow)) (first : Bool), Flow.LegiblePairs pairs →
    ∀ ch ∈ Flow.pairChars first pairs, isAllowed ch = true
  | [], first, _ => by simp [Flow.pairChars]
  | (key, value) :: pairs, first, h => by
    rw [Flow.LegiblePairs] at h
    rw [Flow.pairChars, List.forall_mem_append, List.forall_mem_append, List.forall_mem_cons,
      List.forall_mem_append]
    exact ⟨allowed_comma first, allowed_quoteChars h.1.1, rfl, Flow.allowed_chars value h.2.1,
      Flow.allowed_pairChars pairs false h.2.2⟩

end

mutual

theorem Written.allowed_chars (depth : Nat) : ∀ value : Written, value.Legible depth →
    ∀ ch ∈ value.chars depth, isAllowed ch = true
  | .inline flow, h => by
    rw [Written.Legible] at h
    rw [Written.chars]
    rw [List.forall_mem_cons, List.forall_mem_append, List.forall_mem_singleton]
    exact ⟨rfl, flow.allowed_chars h, rfl⟩
  | .block fields, h => by
    rw [Written.Legible] at h
    rw [Written.chars, List.forall_mem_cons]
    exact ⟨rfl, Written.allowed_fieldChars (depth + 1) fields h.2⟩

theorem Written.allowed_fieldChars (depth : Nat) : ∀ fields : List (String × Written),
    Written.LegibleFields depth fields → ∀ ch ∈ Written.fieldChars depth fields, isAllowed ch = true
  | [], _ => by simp [Written.fieldChars]
  | (key, value) :: fields, h => by
    rw [Written.LegibleFields] at h
    rw [Written.fieldChars, List.forall_mem_append, List.forall_mem_append, List.forall_mem_cons,
      List.forall_mem_append]
    refine ⟨fun ch hch => ?_, h.1.allowed, rfl, Written.allowed_chars depth value h.2.1,
      Written.allowed_fieldChars depth fields h.2.2⟩
    rw [List.eq_of_mem_replicate hch]
    rfl

end

theorem Lexer.runSettled_end {fuel n : Nat} {c : Cursor} {toks : List Token} (hrest : c.rest = [])
    (hcolumn : c.column = 0) :
    runSettled fuel (inBlock (n + 1) c toks true) =
      some ((.streamEnd :: .blockEnd :: (List.replicate n .blockEnd ++ toks)).reverse) := by
  have hunroll : (inBlock (n + 1) c toks true).unroll c.column =
      inBlock 1 c (List.replicate n .blockEnd ++ toks) true := by
    rw [Nat.add_comm]
    exact unroll_inBlock (by simp [indentAt]) (by simp [hcolumn]) n
  have hlast : (inBlock 1 c (List.replicate n .blockEnd ++ toks) true).unroll (-1) =
      inBlock 0 c (.blockEnd :: (List.replicate n .blockEnd ++ toks)) true :=
    unroll_inBlock (n := 0) (by simp [indentAt]) (by simp) 1
  rw [runSettled, show (inBlock (n + 1) c toks true).cursor = c from rfl, hrest]
  dsimp only
  rw [hunroll, finish, hlast, dropKey_of_loose loose_none]
  rfl

/-- **The tokens of a document's characters are the document's tokens.** A byte order mark at the start would be
skipped, so the first key must not start with one. -/
theorem Written.tokens_fieldChars {fields : List (String × Written)} (hne : fields ≠ [])
    (h : Written.LegibleFields 0 fields) (hmark : (Written.fieldChars 0 fields).head? ≠ some '\uFEFF') :
    Yaml.tokens (String.ofList (Written.fieldChars 0 fields)) =
      some ((Written.block fields).tokens ++ [.streamEnd]) := by
  have hallowed : (Written.fieldChars 0 fields).all isAllowed = true :=
    List.all_eq_true.mpr (Written.allowed_fieldChars 0 fields h)
  obtain ⟨rest, hlines, hat⟩ := Written.exists_fieldChars hne h []
  replace hlines : Written.fieldChars 0 fields = rest := by simpa using hlines
  rw [Yaml.tokens, String.toList_ofList, if_pos hallowed, hlines]
  have hsettle : (inBlock 0 ⟨rest, 0, 0, 0⟩ [] true).settle = some (inBlock 0 ⟨rest, 0, 0, 0⟩ [] true) := by
    refine settle_inBlock_spaces (k := 0) rfl hat fun _ => ?_
    rw [Cursor.isAt, Cursor.peek_zero, ← hlines]
    simpa using hmark
  have hlast : List.replicate (2 * 0) ' ' ++ rest =
      Written.fieldChars 0 fields ++ (List.replicate 0 ' ' ++ []) := by simp [hlines]
  obtain ⟨n, c, toks, hsteps, hline⟩ := Written.steps_fields 0 fields hne h (c := ⟨rest, 0, 0, 0⟩) [] hlast
    (by simp [TokenAt]) le_rfl rfl (.inl rfl)
  obtain ⟨fuel, hrun⟩ := runSettled_of_steps hsteps
    (show (inBlock 0 ⟨rest, 0, 0, 0⟩ [] true).cursor.rest.length ≤ rest.length + 1 from Nat.le_succ _)
  obtain ⟨n, rfl⟩ : ∃ m, n = m + 1 := ⟨n - 1, by have := hline.level; omega⟩
  have htokens := hline.tokens
  rw [Nat.zero_add, Nat.add_sub_cancel] at htokens
  rw [show ({ cursor := { rest := rest } } : Lexer) = inBlock 0 ⟨rest, 0, 0, 0⟩ [] true from rfl, run_succ,
    hsettle, Option.bind_some, hrun, runSettled_end hline.rest hline.column, htokens, Written.tokens]
  simp [opening]

end ChartValues.Yaml
