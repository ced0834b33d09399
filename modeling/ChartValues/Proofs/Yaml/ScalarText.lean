import Mathlib.Data.List.Chain
import ChartValues.Proofs.Document.Slice
import ChartValues.Proofs.Text.Run
import ChartValues.Text.Quoted
import ChartValues.Yaml.ScalarText

/-!
# Scalars on one line

What reading a scalar gives where the scalar was written on a line of its own: a quoted text between its quotes
(`readQuoted_flatMap_escape`), a plain text before the colon of a key (`readPlain_key`), and a word before the end
of a line or a mark of flow style (`readPlain_line`, `readPlain_flow`). Blanks inside a scalar are read in
runs, so the inductions go from one run of blanks to the next.
-/

namespace ChartValues.Yaml

/-! ## Moving a cursor -/

namespace Cursor

@[simp] theorem advance_zero (c : Cursor) : c.advance 0 = c := by
  rw [advance, List.take_zero, Line.byteLength_nil]
  rfl

@[simp] theorem advance_advance (c : Cursor) (m n : Nat) :
    (c.advance m).advance n = c.advance (m + n) := by
  simp [advance, List.take_add, Line.byteLength_append, Nat.add_assoc]

@[simp] theorem column_advance (c : Cursor) (n : Nat) : (c.advance n).column = c.column + n := rfl

theorem index_le_advance (c : Cursor) (n : Nat) : c.index ≤ (c.advance n).index := Nat.le_add_right _ _

theorem index_advance {c : Cursor} {cs rest : List Char} (h : c.rest = cs ++ rest) :
    (c.advance cs.length).index = c.index + Line.byteLength cs := by
  simp [advance, h]

theorem line_advance (c : Cursor) (n : Nat) : (c.advance n).line = c.line := rfl

theorem index_advance_ne_zero {c : Cursor} {n : Nat} (hc : c.rest ≠ []) (hn : n ≠ 0) : (c.advance n).index ≠ 0 := by
  obtain ⟨ch, rest, hrest⟩ := List.exists_cons_of_ne_nil hc
  obtain ⟨n, rfl⟩ := Nat.exists_eq_succ_of_ne_zero hn
  have := ch.utf8Size_pos
  rw [advance, hrest, List.take_succ_cons, Line.byteLength_cons]
  dsimp only
  omega

theorem rest_advance {c : Cursor} {cs rest : List Char} (h : c.rest = cs ++ rest) :
    (c.advance cs.length).rest = rest := by
  simp [advance, h]

theorem rest_advance_one {c : Cursor} {ch : Char} {rest : List Char} (h : c.rest = ch :: rest) :
    (c.advance 1).rest = rest := by
  simp [advance, h]

theorem skipBreak_feed {c : Cursor} {rest : List Char} (h : c.rest = '\n' :: rest) :
    c.skipBreak = ⟨rest, c.index + 1, c.line + 1, 0⟩ := by
  rw [skipBreak, h]
  rfl

theorem peek_zero (c : Cursor) : c.peek 0 = c.rest.head? := by
  simp [peek, List.head?_eq_getElem?]

theorem atMarker_of_column {c : Cursor} (h : c.column ≠ 0) (mark : Char) : c.atMarker mark = false := by
  simp [atMarker, h]

theorem atDocumentMarker_of_column {c : Cursor} (h : c.column ≠ 0) : c.atDocumentMarker = false := by
  simp [atDocumentMarker, atMarker_of_column h]

end Cursor

/-! ## Runs of blanks -/

/-- The text goes on with neither a blank nor a line break, or it ends. -/
def Solid (rest : List Char) : Prop :=
  ∀ ch, rest.head? = some ch → isSpace ch = false ∧ isBreak ch = false

theorem readBlanks_run {indent fuel : Nat} {bs rest : List Char} {c : Cursor} {f : Folding}
    (hbs : ∀ b ∈ bs, isSpace b = true) (hrest : Solid rest) (hc : c.rest = bs ++ rest)
    (hf : f.broken = false) (hfuel : bs.length < fuel) :
    readBlanks indent fuel c f =
      some (c.advance bs.length, { f with blanks := bs.reverse ++ f.blanks }) := by
  induction bs generalizing c f fuel with
  | nil =>
    obtain ⟨fuel, rfl⟩ : ∃ n, fuel = n + 1 := ⟨fuel - 1, by simp at hfuel; omega⟩
    rw [List.nil_append] at hc
    rw [readBlanks, hc]
    cases rest with
    | nil => simp
    | cons ch rest => simp [hrest ch rfl]
  | cons b bs ih =>
    obtain ⟨fuel, rfl⟩ : ∃ n, fuel = n + 1 := ⟨fuel - 1, by simp at hfuel; omega⟩
    have hb : isSpace b = true := hbs b List.mem_cons_self
    have hspace : f.space b = { f with blanks := b :: f.blanks } := by simp [Folding.space, hf]
    rw [readBlanks, hc, List.cons_append]
    simp only [hb, hf, if_true, Bool.false_and, if_false, Bool.false_eq_true]
    rw [ih (fun b' hb' => hbs b' (List.mem_cons_of_mem _ hb')) (Cursor.rest_advance_one hc)
      (by rw [hspace]; exact hf) (by simpa using hfuel), hspace]
    simp [hf, Nat.add_comm]

theorem readBlanks_indentation {indent fuel k : Nat} {rest : List Char} {c : Cursor} {f : Folding}
    (hrest : Solid rest) (hc : c.rest = List.replicate k ' ' ++ rest) (hf : f.broken = true)
    (hfuel : k < fuel) : readBlanks indent fuel c f = some (c.advance k, f) := by
  induction k generalizing c fuel with
  | zero =>
    obtain ⟨fuel, rfl⟩ : ∃ n, fuel = n + 1 := ⟨fuel - 1, by omega⟩
    rw [List.replicate_zero, List.nil_append] at hc
    rw [readBlanks, hc]
    cases rest with
    | nil => simp
    | cons ch rest => simp [hrest ch rfl]
  | succ k ih =>
    obtain ⟨fuel, rfl⟩ : ∃ n, fuel = n + 1 := ⟨fuel - 1, by omega⟩
    rw [List.replicate_succ, List.cons_append] at hc
    have hspace : f.space ' ' = f := by simp [Folding.space, hf]
    rw [readBlanks, hc]
    simp only [show isSpace ' ' = true from rfl, show (' ' == '\t') = false from rfl, if_true,
      Bool.and_false, Bool.false_eq_true, if_false]
    rw [hspace, ih (Cursor.rest_advance_one hc) (by omega)]
    simp [Nat.add_comm]

/-! ## Quoted scalars -/

/-- A character that a quoted text may hold: a control, which is escaped, or one that YAML lets through and
that ends no line. -/
def Quotable (ch : Char) : Prop := ch.toNat < 0x20 ∨ (isAllowed ch = true ∧ isBreak ch = false)

instance : DecidablePred Quotable := fun _ => inferInstanceAs (Decidable (_ ∨ _))

theorem hexNumber_hex4 {n : Nat} (hn : n < 32) (rest : List Char) :
    hexNumber 4 (Text.hex4 n ++ rest) = some n := by
  have hlength : (Text.hex4 n).length = 4 := rfl
  have hvalue : ∀ n < 32, (Text.hex4 n).foldlM
      (fun value ch => (hexValue? ch).map (value * 16 + ·)) 0 = some n := by decide
  rw [hexNumber, if_neg (by simp [hlength]), List.take_left' hlength, hvalue n hn]

theorem unescape_control {ch : Char} (h : ch.toNat < 0x20) (rest : List Char) :
    unescape ('u' :: Text.hex4 ch.toNat ++ rest) = some (ch, 5) := by
  simp only [List.cons_append, unescape, hexNumber_hex4 h, Option.bind_some, Char.ofNat_toNat]
  rw [if_neg]
  simp only [Bool.or_eq_true, Bool.and_eq_true, decide_eq_true_eq]
  omega

theorem escape_cases {ch : Char} (h : Quotable ch) :
    (∃ x code, Text.escape ch = '\\' :: x :: code ∧ isBreak x = false ∧
      ∀ rest, unescape (x :: (code ++ rest)) = some (ch, code.length + 1)) ∨
    (Text.escape ch = [ch] ∧ ch ≠ '"' ∧ ch ≠ '\\' ∧ ch ≠ '\t' ∧ isBreak ch = false) := by
  generalize he : Text.escape ch = e
  rw [Text.escape] at he
  split_ifs at he with h₁ h₂ h₃ h₄ h₅ h₆ h₇ h₈ <;> subst he
  · exact .inl ⟨'"', [], rfl, rfl, fun _ => by subst h₁; rfl⟩
  · exact .inl ⟨'\\', [], rfl, rfl, fun _ => by subst h₂; rfl⟩
  · exact .inl ⟨'n', [], rfl, rfl, fun _ => by subst h₃; rfl⟩
  · exact .inl ⟨'r', [], rfl, rfl, fun _ => by subst h₄; rfl⟩
  · exact .inl ⟨'t', [], rfl, rfl, fun _ => by subst h₅; rfl⟩
  · exact .inl ⟨'b', [], rfl, rfl, fun _ => by rw [← Char.ofNat_toNat ch, h₆]; rfl⟩
  · exact .inl ⟨'f', [], rfl, rfl, fun _ => by rw [← Char.ofNat_toNat ch, h₇]; rfl⟩
  · exact .inl ⟨'u', Text.hex4 ch.toNat, rfl, rfl, fun rest => unescape_control h₈ rest⟩
  · exact .inr ⟨rfl, h₁, h₂, h₅, (h.resolve_left h₈).2⟩

theorem readQuoted_escape {fuel : Nat} {ch : Char} {rest : List Char} {c : Cursor} {content : List Char}
    (hch : Quotable ch) (hspace : ch ≠ ' ') (hc : c.rest = Text.escape ch ++ rest)
    (hcolumn : c.column ≠ 0) :
    readQuoted false (fuel + 1) c { content } =
      readQuoted false fuel (c.advance (Text.escape ch).length) { content := ch :: content } := by
  rw [readQuoted, Cursor.atDocumentMarker_of_column hcolumn, hc]
  rcases escape_cases hch with ⟨x, code, hcode, hbreak, hread⟩ | ⟨hself, hquote, hslash, htab, hbreak⟩
  · rw [hcode]
    simp [hbreak, hread, show isSpace '\\' = false from rfl, show isBreak '\\' = false from rfl,
      Folding.push, Folding.joined]
  · rw [hself]
    have hblank : isSpace ch = false := by simp [isSpace, hspace, htab]
    simp [hbreak, hblank, hquote, hslash, Folding.push, Folding.joined]

theorem readQuoted_blanks {fuel : Nat} {bs rest : List Char} {c : Cursor} {content : List Char}
    (hne : bs ≠ []) (hbs : ∀ b ∈ bs, isSpace b = true) (hrest : Solid rest) (hc : c.rest = bs ++ rest)
    (hcolumn : c.column ≠ 0) :
    readQuoted false (fuel + 1) c { content } =
      readQuoted false fuel (c.advance bs.length) { content := bs.reverse ++ content } := by
  obtain ⟨b, bs', rfl⟩ := List.exists_cons_of_ne_nil hne
  have hblank : isSpace b = true := hbs b List.mem_cons_self
  rw [readQuoted, Cursor.atDocumentMarker_of_column hcolumn]
  simp only [hc, List.cons_append, hblank, Bool.true_or, if_true, Bool.false_eq_true, if_false]
  rw [readBlanks_run hbs hrest hc rfl (by simp only [List.length_cons, List.length_append]; omega)]
  simp [Folding.settle, Folding.joined]

theorem length_escape_pos {ch : Char} (h : Quotable ch) : 0 < (Text.escape ch).length := by
  rcases escape_cases h with ⟨x, code, hescape, -⟩ | ⟨hescape, -⟩ <;>
  · rw [hescape]
    exact Nat.succ_pos _

theorem solid_flatMap_escape {cs : List Char} (hcs : ∀ ch ∈ cs, Quotable ch)
    (hhead : ∀ ch, cs.head? = some ch → ch ≠ ' ') (rest : List Char) :
    Solid (cs.flatMap Text.escape ++ '"' :: rest) := by
  cases cs with
  | nil =>
    intro ch hch
    obtain rfl : '"' = ch := by simpa using hch
    exact ⟨rfl, rfl⟩
  | cons d cs =>
    intro ch hch
    rcases escape_cases (hcs d List.mem_cons_self) with ⟨x, code, hcode, -, -⟩ | ⟨hself, -, -, htab, hbreak⟩
    · obtain rfl : '\\' = ch := by simpa [hcode] using hch
      exact ⟨rfl, rfl⟩
    · obtain rfl : d = ch := by simpa [hself] using hch
      exact ⟨by simp [isSpace, hhead d rfl, htab], hbreak⟩

theorem flatMap_escape_replicate (k : Nat) :
    (List.replicate k ' ').flatMap Text.escape = List.replicate k ' ' := by
  induction k with
  | zero => rfl
  | succ k ih => rw [List.replicate_succ, List.flatMap_cons, ih]; rfl

/-- **A quoted text is read back from behind its opening quote.** -/
theorem readQuoted_flatMap_escape {fuel : Nat} {cs rest : List Char} {c : Cursor} {content : List Char}
    (hcs : ∀ ch ∈ cs, Quotable ch) (hc : c.rest = cs.flatMap Text.escape ++ '"' :: rest)
    (hcolumn : c.column ≠ 0) (hfuel : (cs.flatMap Text.escape).length < fuel) :
    readQuoted false fuel c { content } =
      some (c.advance ((cs.flatMap Text.escape).length + 1), { content := cs.reverse ++ content }) := by
  -- The induction is on the length: a run of spaces is read in one step.
  induction hn : cs.length using Nat.strongRecOn generalizing cs c content fuel with
  | ind n ih =>
  obtain ⟨fuel, rfl⟩ : ∃ n, fuel = n + 1 := ⟨fuel - 1, by omega⟩
  obtain ⟨k, cs', rfl, hhead, -⟩ := Text.exists_replicate ' ' cs
  have hhead' : ∀ ch, cs'.head? = some ch → ch ≠ ' ' := fun ch hch heq => hhead (heq ▸ hch)
  have hcs' : ∀ ch ∈ cs', Quotable ch := fun ch hch => hcs ch (List.mem_append_right _ hch)
  rw [List.flatMap_append, flatMap_escape_replicate] at hc hfuel ⊢
  rw [List.append_assoc] at hc
  by_cases hk : k = 0
  · subst hk
    simp only [List.replicate_zero, List.nil_append] at hc hfuel hn ⊢
    cases cs' with
    | nil =>
      rw [List.flatMap_nil, List.nil_append] at hc
      rw [readQuoted, Cursor.atDocumentMarker_of_column hcolumn, hc]
      simp [isSpace, isBreak]
    | cons ch cs' =>
      rw [List.flatMap_cons, List.append_assoc] at hc
      rw [List.flatMap_cons, List.length_append] at hfuel
      have hpos := length_escape_pos (hcs' ch List.mem_cons_self)
      rw [readQuoted_escape (hcs' ch List.mem_cons_self) (hhead' ch rfl) hc hcolumn,
        ih cs'.length (by simp [← hn]) (fun ch' h' => hcs' ch' (List.mem_cons_of_mem _ h'))
          (Cursor.rest_advance hc) (by simp [hcolumn]) (by omega) rfl]
      simp [Nat.add_assoc]
  · have hspaces : ∀ b ∈ List.replicate k ' ', isSpace b = true := fun b hb => by
      rw [List.eq_of_mem_replicate hb]; rfl
    have hrest := Cursor.rest_advance hc
    rw [List.length_append, List.length_replicate] at hfuel
    rw [List.length_replicate] at hrest
    rw [readQuoted_blanks (by simp [hk]) hspaces (solid_flatMap_escape hcs' hhead' rest) hc hcolumn,
      List.length_replicate,
      ih cs'.length (by simp [← hn]; omega) hcs' hrest (by simp [hcolumn]) (by omega) rfl]
    simp [Nat.add_assoc]

/-! ## Plain scalars -/

/-- A plain scalar goes on from one character to the next. -/
def GoesOn (flow : Bool) (ch next : Char) : Prop :=
  isStrayColon flow ch (some next) = false ∧ endsPlain flow ch (some next) = false

/-- The text at which a run of a plain scalar stops. -/
def StopsRun (flow : Bool) (stop : List Char) : Prop :=
  ∀ f count, plainRun flow f count stop = some (f, count)

theorem stopsRun_blank {ch : Char} (h : isSpace ch = true ∨ isBreak ch = true) (flow : Bool)
    (rest : List Char) : StopsRun flow (ch :: rest) := by
  intro f count
  rcases h with h | h <;> simp [plainRun, h]

theorem stopsRun_colon {next : Char} (h : isSpace next = true ∨ isBreak next = true) (rest : List Char) :
    StopsRun false (':' :: next :: rest) := by
  intro f count
  have hends : endsPlain false ':' (some next) = true := by
    rcases h with h | h <;> simp [endsPlain, h]
  simp [plainRun, isSpace, isBreak, isStrayColon, hends]

theorem plainRun_append {flow : Bool} {run stop : List Char} {next : Char}
    (hrun : ∀ ch ∈ run, isSpace ch = false ∧ isBreak ch = false) (hne : run ≠ [])
    (hchain : (run ++ [next]).IsChain (GoesOn flow)) (hstop : StopsRun flow (next :: stop))
    (f : Folding) (count : Nat) :
    plainRun flow f count (run ++ next :: stop) =
      some ({ content := run.reverse ++ f.joined }, count + run.length) := by
  induction run generalizing f count with
  | nil => exact absurd rfl hne
  | cons ch run ih =>
    obtain ⟨hspace, hbreak⟩ := hrun ch List.mem_cons_self
    cases run with
    | nil =>
      have hgo : GoesOn flow ch next := by simpa using hchain
      rw [List.cons_append, plainRun]
      simp only [List.nil_append, List.head?_cons, hspace, hbreak, hgo.1, hgo.2, Bool.or_self,
        Bool.false_eq_true, if_false]
      rw [hstop]
      rfl
    | cons d run =>
      rw [List.cons_append, List.cons_append, List.isChain_cons_cons] at hchain
      have hrest := ih (fun x hx => hrun x (List.mem_cons_of_mem _ hx)) (by simp) hchain.2 (f.push ch)
        (count + 1)
      rw [List.cons_append, plainRun]
      simp only [List.cons_append, List.head?_cons, hspace, hbreak, hchain.1.1, hchain.1.2, Bool.or_self,
        Bool.false_eq_true, if_false]
      rw [← List.cons_append, hrest]
      simp [Folding.push, Folding.joined, Nat.add_assoc, Nat.add_comm 1]

/-- What may stand side by side in a plain text: no blank behind a colon and no comment behind a blank. -/
def PlainPair (ch next : Char) : Prop :=
  ¬(ch = ':' ∧ isSpace next = true) ∧ ¬(isSpace ch = true ∧ next = '#')

instance : DecidableRel PlainPair := fun _ _ => inferInstanceAs (Decidable (_ ∧ _))

/-- A text that a plain scalar can hold on one line, before a colon. -/
structure PlainText (cs : List Char) : Prop where
  ne_nil : cs ≠ []
  noBreak : ∀ ch ∈ cs, isBreak ch = false
  head : ∀ ch, cs.head? = some ch → isSpace ch = false ∧ ch ≠ '#'
  last : ∀ ch, cs.getLast? = some ch → isSpace ch = false
  pairs : cs.IsChain PlainPair

namespace PlainText

variable {cs run bs more : List Char}

theorem isChain_colon (h : PlainText cs) : (cs ++ [':']).IsChain (GoesOn false) := by
  have hpairs : (cs ++ [':']).IsChain PlainPair :=
    h.pairs.append (List.isChain_singleton ':') (by
      rintro ch hch _ ⟨⟩
      exact ⟨fun hcolon => by simp [isSpace] at hcolon, fun hhash => by simp at hhash⟩)
  refine hpairs.imp_of_mem_tail_imp fun ch next hch hnext hpair => ?_
  have hbreak : isBreak next = false := by
    rcases List.mem_append.mp (List.mem_of_mem_tail hnext) with hmem | hmem
    · exact h.noBreak next hmem
    · rw [List.mem_singleton.mp hmem]
      rfl
  have hcolon : ch = ':' → isSpace next = false := fun he => by simpa [he] using hpair.1
  by_cases he : ch = ':' <;> simp_all [GoesOn, isStrayColon, endsPlain]

theorem of_append (h : PlainText (run ++ bs ++ more)) (hbs : bs ≠ []) (hspace : ∀ b ∈ bs, isSpace b = true)
    (hmore : ∀ ch, more.head? = some ch → isSpace ch = false) : PlainText more := by
  have hne : more ≠ [] := by
    rintro rfl
    have hlast := h.last (bs.getLast hbs) (by simp [List.getLast?_append, List.getLast?_eq_some_getLast hbs])
    rw [hspace _ (List.getLast_mem hbs)] at hlast
    exact Bool.noConfusion hlast
  refine ⟨hne, fun ch hch => h.noBreak ch (List.mem_append_right _ hch), fun ch hch => ⟨hmore ch hch, ?_⟩,
    fun ch hch => h.last ch (by simp [List.getLast?_append, hch]), h.pairs.right_of_append⟩
  have hpair := (List.isChain_append.mp h.pairs).2.2 (bs.getLast hbs)
    (by simp [List.getLast?_append, List.getLast?_eq_some_getLast hbs]) ch hch
  exact fun he => hpair.2 ⟨hspace _ (List.getLast_mem hbs), he⟩

theorem one_or_more (h : PlainText cs) : (∀ ch ∈ cs, isSpace ch = false) ∨
    ∃ run b bs tail, cs = run ++ (b :: bs ++ tail) ∧ run ≠ [] ∧ (∀ ch ∈ run, isSpace ch = false) ∧
      (∀ ch ∈ b :: bs, isSpace ch = true) ∧ PlainText tail := by
  obtain ⟨run, more, rfl, hrun, hmore⟩ := Text.exists_run (fun ch => !isSpace ch) cs
  have hrun' : ∀ ch ∈ run, isSpace ch = false := fun ch hch => by simpa using hrun ch hch
  cases more with
  | nil => exact .inl (by simpa using hrun')
  | cons b more =>
    have hb : isSpace b = true := by simpa using hmore b rfl
    obtain ⟨bs, tail, rfl, hbs, htail⟩ := Text.exists_run isSpace more
    have hblanks : ∀ ch ∈ b :: bs, isSpace ch = true := List.forall_mem_cons.mpr ⟨hb, hbs⟩
    have hne : run ≠ [] := by
      rintro rfl
      exact absurd (h.head b rfl).1 (by simp [hb])
    refine .inr ⟨run, b, bs, tail, by simp, hne, hrun', hblanks, ?_⟩
    rw [← List.cons_append, ← List.append_assoc] at h
    exact h.of_append (by simp) hblanks htail

theorem isAt_hash (h : PlainText cs) {c : Cursor} {rest : List Char} (hc : c.rest = cs ++ rest) :
    c.isAt 0 '#' = false := by
  obtain ⟨ch, cs', rfl⟩ := List.exists_cons_of_ne_nil h.ne_nil
  simp [Cursor.isAt, Cursor.peek, hc, (h.head ch rfl).2]

theorem solid_append (h : PlainText cs) (rest : List Char) : Solid (cs ++ rest) := by
  obtain ⟨ch, cs', rfl⟩ := List.exists_cons_of_ne_nil h.ne_nil
  intro x hx
  obtain rfl : ch = x := by simpa using hx
  exact ⟨(h.head ch rfl).1, h.noBreak ch List.mem_cons_self⟩

end PlainText

theorem readPlain_run {indent fuel : Nat} {run bs rest : List Char} {b : Char} {c : Cursor} {f : Folding}
    (hrun : ∀ ch ∈ run, isSpace ch = false ∧ isBreak ch = false) (hne : run ≠ [])
    (hbs : ∀ ch ∈ b :: bs, isSpace ch = true) (hgo : (run ++ [b]).IsChain (GoesOn false)) (hrest : Solid rest)
    (hc : c.rest = run ++ (b :: bs ++ rest)) (hmarker : c.atDocumentMarker = false)
    (hstart : c.isAt 0 '#' = false) (hcolumn : indent ≤ c.column + 1) :
    readPlain false indent (fuel + 1) c f =
      readPlain false indent fuel (c.advance (run.length + (b :: bs).length))
        { content := run.reverse ++ f.joined, blanks := (b :: bs).reverse } := by
  have hb : isSpace b = true := hbs b List.mem_cons_self
  have hat : (c.advance run.length).rest = b :: bs ++ rest := Cursor.rest_advance hc
  have hatspace : (c.advance run.length).atSpace = true := by
    rw [Cursor.atSpace, Cursor.peek_zero, hat]
    exact hb
  have hpos : 0 < run.length := List.length_pos_iff.mpr hne
  rw [readPlain, hmarker, hstart, hc, List.cons_append,
    plainRun_append hrun hne hgo (stopsRun_blank (.inl hb) _ _) f 0]
  simp only [Bool.or_self, Nat.zero_add, hatspace, Bool.true_or, Bool.not_true, Bool.false_eq_true, if_false]
  rw [readBlanks_run hbs hrest hat rfl (by rw [hat, List.length_append]; omega)]
  simp only [Cursor.advance_advance, Cursor.column_advance, List.append_nil]
  exact if_neg (by simp; omega)

/-- **A key is read up to its colon.** -/
theorem readPlain_key {indent fuel : Nat} {cs stop : List Char} {next : Char} {c : Cursor} {f : Folding}
    (hcs : PlainText cs) (hnext : isSpace next = true ∨ isBreak next = true)
    (hc : c.rest = cs ++ ':' :: next :: stop) (hmarker : c.atDocumentMarker = false)
    (hcolumn : indent ≤ c.column + 1) (hf : f.broken = false) (hfuel : cs.length < fuel) :
    readPlain false indent fuel c f =
      some (c.advance cs.length, { content := cs.reverse ++ f.joined }) := by
  -- The induction is on the length, from one run of blanks to the next.
  induction hn : cs.length using Nat.strongRecOn generalizing cs c f fuel with
  | ind n ih =>
  subst hn
  obtain ⟨fuel, rfl⟩ : ∃ n, fuel = n + 1 := ⟨fuel - 1, by omega⟩
  have hstart := hcs.isAt_hash hc
  have hgo := hcs.isChain_colon
  rcases hcs.one_or_more with hone | ⟨run, b, bs, tail, rfl, hne, hrun, hbs, htail⟩
  · have hat : (c.advance cs.length).rest = ':' :: next :: stop := Cursor.rest_advance hc
    have hsolid : ∀ ch ∈ cs, isSpace ch = false ∧ isBreak ch = false := fun ch hch =>
      ⟨hone ch hch, hcs.noBreak ch hch⟩
    rw [readPlain, hmarker, hstart, hc, plainRun_append hsolid hcs.ne_nil hgo (stopsRun_colon hnext stop) f 0]
    simp [Cursor.atSpace, Cursor.atBreak, Cursor.peek_zero, hat, isSpace, isBreak]
  · have hsolid : ∀ ch ∈ run, isSpace ch = false ∧ isBreak ch = false := fun ch hch =>
      ⟨hrun ch hch, hcs.noBreak ch (List.mem_append_left _ hch)⟩
    have hgo' : (run ++ [b]).IsChain (GoesOn false) := hgo.prefix ⟨bs ++ tail ++ [':'], by simp⟩
    have hc' : c.rest = run ++ (b :: bs ++ (tail ++ ':' :: next :: stop)) := by simpa using hc
    have hpos : 0 < run.length := List.length_pos_iff.mpr hne
    have hrest := Cursor.rest_advance (Cursor.rest_advance hc')
    rw [Cursor.advance_advance] at hrest
    simp only [List.length_append, List.length_cons] at hfuel ih
    rw [readPlain_run hsolid hne hbs hgo' (htail.solid_append _) hc' hmarker hstart hcolumn,
      ih tail.length (by omega) htail hrest
        (Cursor.atDocumentMarker_of_column (by simp only [Cursor.column_advance]; omega))
        (by simp only [Cursor.column_advance]; omega) rfl (by omega) rfl]
    simp [Folding.joined, Nat.add_assoc, Nat.add_comm 1]

/-! ## Words -/

/-- The characters of numbers and of the other words that stand without quotes as values. -/
def isWordChar (ch : Char) : Bool := ch.isAlphanum || ch == '.' || ch == '-' || ch == '+'

/-- A word that stands without quotes as a value. -/
structure Word (cs : List Char) : Prop where
  ne_nil : cs ≠ []
  chars : ∀ ch ∈ cs, isWordChar ch = true
  /-- A dash on its own starts an item of a sequence. -/
  ne_dash : cs ≠ ['-']

theorem word_iff {cs : List Char} : Word cs ↔ cs ≠ [] ∧ cs.all isWordChar = true ∧ cs ≠ ['-'] :=
  ⟨fun h => ⟨h.ne_nil, List.all_eq_true.mpr h.chars, h.ne_dash⟩,
    fun ⟨hne, hchars, hdash⟩ => ⟨hne, List.all_eq_true.mp hchars, hdash⟩⟩

instance (cs : List Char) : Decidable (Word cs) := decidable_of_iff _ word_iff.symm

theorem isWordChar_ne {ch : Char} (h : isWordChar ch = true) {d : Char} (hd : isWordChar d = false) : ch ≠ d := by
  rintro rfl
  rw [h] at hd
  exact Bool.noConfusion hd

namespace Word

variable {cs rest : List Char}

theorem solid (h : Word cs) : ∀ ch ∈ cs, isSpace ch = false ∧ isBreak ch = false := by
  intro ch hch
  have hword := h.chars ch hch
  constructor
  · simp [isSpace, isWordChar_ne hword (d := ' ') rfl, isWordChar_ne hword (d := '\t') rfl]
  · simp [isBreak, isWordChar_ne hword (d := '\n') rfl, isWordChar_ne hword (d := '\r') rfl,
      isWordChar_ne hword (d := '\u0085') rfl, isWordChar_ne hword (d := '\u2028') rfl,
      isWordChar_ne hword (d := '\u2029') rfl]

theorem isChain (h : Word cs) (flow : Bool) (next : Char) : (cs ++ [next]).IsChain (GoesOn flow) := by
  have hgo : ∀ ch ∈ cs, ∀ d, GoesOn flow ch d := fun ch hch d => by
    have hword := h.chars ch hch
    simp [GoesOn, isStrayColon, endsPlain, isWordChar_ne hword (d := ':') rfl,
      isWordChar_ne hword (d := ',') rfl, isWordChar_ne hword (d := '[') rfl,
      isWordChar_ne hword (d := ']') rfl, isWordChar_ne hword (d := '\x7b') rfl,
      isWordChar_ne hword (d := '\x7d') rfl]
  clear h
  induction cs with
  | nil => exact List.isChain_singleton next
  | cons ch cs ih =>
    refine (ih fun d hd => hgo d (List.mem_cons_of_mem _ hd)).cons fun d hd => ?_
    exact hgo ch List.mem_cons_self d

theorem head_ne (h : Word cs) {d : Char} (hd : isWordChar d = false) {rest : List Char} {c : Cursor}
    (hc : c.rest = cs ++ rest) : c.isAt 0 d = false := by
  obtain ⟨ch, cs', rfl⟩ := List.exists_cons_of_ne_nil h.ne_nil
  simp [Cursor.isAt, Cursor.peek, hc, isWordChar_ne (h.chars ch List.mem_cons_self) hd]

end Word

/-- **A word in flow style is read up to the mark behind it.** -/
theorem readPlain_flow {fuel : Nat} {cs stop : List Char} {next : Char} {c : Cursor} (hcs : Word cs)
    (hnext : next = ',' ∨ next = ']' ∨ next = '\x7d') (hc : c.rest = cs ++ next :: stop)
    (hcolumn : c.column ≠ 0) (indent : Nat) :
    readPlain true indent (fuel + 1) c {} = some (c.advance cs.length, { content := cs.reverse }) := by
  have hstop : StopsRun true (next :: stop) := by
    intro f count
    rcases hnext with rfl | rfl | rfl <;> rfl
  have hat : (c.advance cs.length).rest = next :: stop := Cursor.rest_advance hc
  rw [readPlain, Cursor.atDocumentMarker_of_column hcolumn, hcs.head_ne rfl hc, hc,
    plainRun_append hcs.solid hcs.ne_nil (hcs.isChain true next) hstop]
  rcases hnext with rfl | rfl | rfl <;>
    simp [Cursor.atSpace, Cursor.atBreak, Cursor.peek_zero, hat, isSpace, isBreak, Folding.joined]

/-- **A word at the end of a line is read with the indentation of the next line.** -/
theorem readPlain_line {fuel indent k : Nat} {cs rest : List Char} {c : Cursor} (hcs : Word cs)
    (hrest : Solid rest) (hc : c.rest = cs ++ '\n' :: (List.replicate k ' ' ++ rest))
    (hcolumn : c.column ≠ 0) (hk : k < indent) :
    ∃ f, readPlain false indent (fuel + 1) c {} = some ((c.advance cs.length).skipBreak.advance k, f) ∧
      f.content = cs.reverse ∧ f.broken = true := by
  have hat : (c.advance cs.length).rest = '\n' :: (List.replicate k ' ' ++ rest) := Cursor.rest_advance hc
  have hskip : (c.advance cs.length).skipBreak.rest = List.replicate k ' ' ++ rest := by
    rw [Cursor.skipBreak_feed hat]
  have htext : (c.advance cs.length).breakText = ['\n'] := by
    rw [Cursor.breakText, hat]
    rfl
  have hzero : (c.advance cs.length).skipBreak.column = 0 := by
    rw [Cursor.skipBreak_feed hat]
  refine ⟨{ content := cs.reverse, broken := true, first := ['\n'] }, ?_, rfl, rfl⟩
  rw [readPlain, Cursor.atDocumentMarker_of_column hcolumn, hcs.head_ne rfl hc, hc,
    plainRun_append hcs.solid hcs.ne_nil (hcs.isChain false '\n') (stopsRun_blank (.inr rfl) _ _)]
  simp only [Bool.or_self, Bool.false_eq_true, if_false, Nat.zero_add]
  have hbreak : (c.advance cs.length).atBreak = true := by
    rw [Cursor.atBreak, Cursor.peek_zero, hat]
    rfl
  rw [hbreak, readBlanks, hat]
  simp only [Bool.or_true, Bool.not_true, Bool.false_eq_true, if_false, show isSpace '\n' = false from rfl,
    show isBreak '\n' = true from rfl, if_true, htext]
  rw [readBlanks_indentation hrest hskip rfl
    (by rw [List.length_cons, List.length_append, List.length_replicate]; omega)]
  simp [Folding.newline, Folding.joined, hzero, hk]

end ChartValues.Yaml
