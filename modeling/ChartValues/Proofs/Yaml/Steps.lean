import Mathlib.Logic.Relation
import ChartValues.Proofs.Yaml.Written

/-!
# The lexer token by token

Between two tokens the lexer skips blanks and forgets the possible keys that are out of reach. `settle` is that
move, and `Reads` is one token from a settled state to the next. A run follows any chain of them
(`runSettled_of_steps`), since each takes at least one character of its fuel.
-/

namespace ChartValues.Yaml.Lexer

/-! ## Settled states -/

/-- Move to the next token. -/
def settle (l : Lexer) : Option Lexer := (skipToToken (l.cursor.rest.length + 1) l).refreshKeys

/-- `run` from a settled state. -/
def runSettled (fuel : Nat) (l : Lexer) : Option (List Token) :=
  match l.cursor.rest with
  | [] => (l.unroll l.cursor.column).finish
  | ch :: _ => ((l.unroll l.cursor.column).next ch).bind (run fuel)

theorem cursor_unrollTo (column : Int) (l : Lexer) (outer : List Int) :
    (unrollTo column l outer).cursor = l.cursor := by
  induction outer generalizing l with
  | nil => rfl
  | cons indent outer ih =>
    rw [unrollTo]
    split_ifs
    · exact ih _
    · rfl

theorem cursor_unroll (l : Lexer) (column : Int) : (l.unroll column).cursor = l.cursor := by
  rw [unroll]
  split_ifs
  · exact cursor_unrollTo column l l.outer
  · rfl

theorem run_succ (fuel : Nat) (l : Lexer) : run (fuel + 1) l = l.settle.bind (runSettled fuel) := by
  rw [run, settle]
  cases (skipToToken (l.cursor.rest.length + 1) l).refreshKeys with
  | none => rfl
  | some l =>
    have hrest : (l.unroll l.cursor.column).cursor.rest = l.cursor.rest := by rw [cursor_unroll]
    cases hcs : l.cursor.rest with
    | nil => simp [runSettled, hrest, hcs]
    | cons ch cs => simp [runSettled, hrest, hcs]

/-- One token, from a settled state to the next. -/
def Reads (l l' : Lexer) : Prop :=
  ∃ ch rest mid, l.cursor.rest = ch :: rest ∧ (l.unroll l.cursor.column).next ch = some mid ∧
    mid.settle = some l' ∧ l'.cursor.rest.length < l.cursor.rest.length

abbrev Steps : Lexer → Lexer → Prop := Relation.ReflTransGen Reads

theorem runSettled_of_reads {l l' : Lexer} (h : Reads l l') (fuel : Nat) :
    runSettled (fuel + 1) l = runSettled fuel l' := by
  obtain ⟨ch, rest, mid, hrest, hnext, hsettle, -⟩ := h
  simp [runSettled, hrest, hnext, run_succ, hsettle]

/-- A run follows the steps; its fuel lasts as long as the text. -/
theorem runSettled_of_steps {l l' : Lexer} (h : Steps l l') {fuel : Nat}
    (hfuel : l.cursor.rest.length ≤ fuel) : ∃ fuel', runSettled fuel l = runSettled fuel' l' := by
  induction h using Relation.ReflTransGen.head_induction_on generalizing fuel with
  | refl => exact ⟨fuel, rfl⟩
  | head hread _ ih =>
    have hshort := hread.choose_spec.choose_spec.choose_spec.2.2.2
    obtain ⟨fuel, rfl⟩ : ∃ n, fuel = n + 1 := ⟨fuel - 1, by omega⟩
    rw [runSettled_of_reads hread]
    exact ih (by omega)

/-! ## Blanks between tokens -/

/-- The text goes on with a token, or it ends. -/
def TokenAt (rest : List Char) : Prop :=
  ∀ ch, rest.head? = some ch → isSpace ch = false ∧ isBreak ch = false ∧ ch ≠ '#'

theorem TokenAt.solid {rest : List Char} (h : TokenAt rest) : Solid rest :=
  fun ch hch => ⟨(h ch hch).1, (h ch hch).2.1⟩

section skip
variable {l : Lexer} {k : Nat} {rest : List Char}

theorem skipComment_of_tokenAt {c : Cursor} (hc : c.rest = rest) (h : TokenAt rest) :
    c.skipComment = c := by
  have hat : c.isAt 0 '#' = false := by
    rw [Cursor.isAt, Cursor.peek_zero, hc]
    cases rest with
    | nil => rfl
    | cons ch rest => simpa using (h ch rfl).2.2
  simp [Cursor.skipComment, hat]

theorem atBreak_of_tokenAt {c : Cursor} (hc : c.rest = rest) (h : TokenAt rest) : c.atBreak = false := by
  rw [Cursor.atBreak, Cursor.peek_zero, hc]
  cases rest with
  | nil => rfl
  | cons ch rest => simpa using (h ch rfl).2.1

theorem skipWhile_spaces {c : Cursor} (hc : c.rest = List.replicate k ' ' ++ rest) (h : TokenAt rest)
    (tabs : Bool) : (c.skipWhile fun ch => ch == ' ' || (tabs && ch == '\t')) = c.advance k := by
  have htake : (c.rest.takeWhile fun ch => ch == ' ' || (tabs && ch == '\t')) = List.replicate k ' ' := by
    rw [hc, List.takeWhile_append_of_pos (by simp)]
    cases rest with
    | nil => simp
    | cons ch rest =>
      have hspace := (h ch rfl).1
      rw [isSpace, Bool.or_eq_false_iff] at hspace
      simp [hspace.1, hspace.2]
  rw [Cursor.skipWhile, htake, List.length_replicate]

theorem skipToToken_spaces (hc : l.cursor.rest = List.replicate k ' ' ++ rest) (h : TokenAt rest)
    (hmark : l.cursor.index = 0 → l.cursor.isAt 0 '\uFEFF' = false) (fuel : Nat) :
    skipToToken (fuel + 1) l = { l with cursor := l.cursor.advance k } := by
  have hstart : (if l.cursor.index = 0 ∧ l.cursor.isAt 0 '\uFEFF' = true then l.cursor.advance 1
      else l.cursor) = l.cursor := if_neg fun hat => by simp [hmark hat.1] at hat
  have hat : (l.cursor.advance k).rest = rest := by
    have := Cursor.rest_advance hc
    rwa [List.length_replicate] at this
  rw [skipToToken]
  simp only [hstart, skipWhile_spaces hc h, skipComment_of_tokenAt hat h, atBreak_of_tokenAt hat h,
    Bool.false_eq_true, if_false]

theorem skipToToken_line (hc : l.cursor.rest = '\n' :: (List.replicate k ' ' ++ rest)) (h : TokenAt rest)
    (hlevel : l.flowLevel = 0) (hindex : l.cursor.index ≠ 0) (fuel : Nat) :
    skipToToken (fuel + 2) l =
      { l with cursor := l.cursor.skipBreak.advance k, keyAllowed := true } := by
  have hskip (tabs : Bool) : (l.cursor.skipWhile fun ch => ch == ' ' || (tabs && ch == '\t')) = l.cursor := by
    simp [Cursor.skipWhile, hc]
  have hcomment : l.cursor.skipComment = l.cursor := by
    simp [Cursor.skipComment, Cursor.isAt, Cursor.peek, hc]
  have hbreak : l.cursor.atBreak = true := by
    simp [Cursor.atBreak, Cursor.peek, hc, isBreak]
  have hnext := Cursor.skipBreak_feed hc
  rw [skipToToken]
  simp only [hindex, false_and, if_false, hskip, hcomment, hbreak, if_true, hlevel, decide_true, Bool.or_true]
  rw [skipToToken_spaces (by rw [hnext]) h (by rw [hnext]; simp)]

end skip

/-! ## Possible keys -/

/-- A possible key that need not become one. -/
def Loose (place : Option KeyPlace) : Prop := ∀ p, place = some p → p.required = false

theorem loose_none : Loose none := fun _ h => by simp at h

/-- A possible key is forgotten once it is out of reach. -/
def fade (c : Cursor) (place : Option KeyPlace) : Option KeyPlace := place.filter fun p => !isOutdated c p

theorem Loose.fade {place : Option KeyPlace} (h : Loose place) (c : Cursor) : Loose (fade c place) := by
  intro p hp
  exact h p (Option.filter_eq_some_iff.mp hp).1

theorem refreshKey_of_loose {place : Option KeyPlace} (h : Loose place) (c : Cursor) :
    refreshKey c place = some (fade c place) := by
  cases place with
  | none => rfl
  | some p => by_cases hout : isOutdated c p <;> simp [refreshKey, Lexer.fade, Option.filter, hout, h p rfl]

/-- The state with the keys that are out of reach forgotten. -/
def faded (l : Lexer) : Lexer :=
  { l with keyPlace := fade l.cursor l.keyPlace, outerKeys := l.outerKeys.map (fade l.cursor) }

theorem mapM_refreshKey_of_loose {places : List (Option KeyPlace)} (h : ∀ place ∈ places, Loose place)
    (c : Cursor) : places.mapM (refreshKey c) = some (places.map (fade c)) := by
  induction places with
  | nil => rfl
  | cons place places ih =>
    rw [List.forall_mem_cons] at h
    simp [refreshKey_of_loose h.1, ih h.2]

theorem refreshKeys_of_loose {l : Lexer} (hkey : Loose l.keyPlace)
    (houter : ∀ place ∈ l.outerKeys, Loose place) : l.refreshKeys = some l.faded := by
  simp [refreshKeys, refreshKey_of_loose hkey, mapM_refreshKey_of_loose houter, faded]

/-- Where a key may start, the next token may become one. -/
def saved (l : Lexer) : Lexer := if l.keyAllowed then { l with keyPlace := some l.placeHere } else l

theorem dropKey_of_loose {l : Lexer} (h : Loose l.keyPlace) : l.dropKey = some { l with keyPlace := none } := by
  rw [dropKey]
  split
  · rename_i place hplace
    simp [h place hplace]
  · rename_i hplace
    rw [← hplace]

theorem saveKey_of_loose {l : Lexer} (h : Loose l.keyPlace) : l.saveKey = some l.saved := by
  rw [saveKey, dropKey_of_loose h, saved]
  split_ifs <;> rfl

/-! ## Which token is next -/

section next
variable {l : Lexer} {ch : Char} {cs rest : List Char}

theorem next_quote (h : l.cursor.column ≠ 0) : l.next '"' = l.quotedScalar false := by
  simp [next, Cursor.atMarker_of_column h]

theorem next_sequenceStart (h : l.cursor.column ≠ 0) : l.next '[' = l.flowStart .flowSequenceStart := by
  simp [next, Cursor.atMarker_of_column h]

theorem next_sequenceEnd (h : l.cursor.column ≠ 0) : l.next ']' = l.flowEnd .flowSequenceEnd := by
  simp [next, Cursor.atMarker_of_column h]

theorem next_mappingStart (h : l.cursor.column ≠ 0) : l.next '\x7b' = l.flowStart .flowMappingStart := by
  simp [next, Cursor.atMarker_of_column h]

theorem next_mappingEnd (h : l.cursor.column ≠ 0) : l.next '\x7d' = l.flowEnd .flowMappingEnd := by
  simp [next, Cursor.atMarker_of_column h]

theorem next_comma (h : l.cursor.column ≠ 0) : l.next ',' = l.flowEntry := by
  simp [next, Cursor.atMarker_of_column h]

theorem next_colon (h : l.cursor.column ≠ 0) (hblank : l.flowLevel ≠ 0 ∨ l.cursor.blankAt 1 = true) :
    l.next ':' = l.colon := by
  simp [next, Cursor.atMarker_of_column h, hblank]

/-- How a plain scalar starts: with no mark, or with one of three marks that has no blank behind it. -/
def StartsPlain (flow : Bool) (ch : Char) (rest : List Char) : Prop :=
  (isIndicator ch = false ∧ isSpace ch = false ∧ isBreak ch = false) ∨
    ((ch = '-' ∨ (flow = false ∧ (ch = '?' ∨ ch = ':'))) ∧
      ∃ d, rest.head? = some d ∧ isSpace d = false ∧ isBreak d = false)

theorem next_plain (hc : l.cursor.rest = ch :: rest) (hmarker : l.cursor.atDocumentMarker = false)
    (hstart : StartsPlain (l.flowLevel ≠ 0) ch rest) : l.next ch = l.plainScalar := by
  rw [Cursor.atDocumentMarker, Bool.or_eq_false_iff] at hmarker
  rcases hstart with ⟨hmark, hspace, hbreak⟩ | ⟨hch, d, hd, hspace, hbreak⟩
  · have hne {d : Char} (hd : isIndicator d = true) : ch ≠ d := by
      rintro rfl
      rw [hd] at hmark
      exact Bool.noConfusion hmark
    have hblank : l.cursor.blankAt 0 = false := by
      simp [Cursor.blankAt, Cursor.peek, hc, hspace, hbreak]
    simp [next, startsPlain, hmarker, hmark, hblank, hne (d := '%') rfl, hne (d := '[') rfl, hne (d := ']') rfl,
      hne (d := '\x7b') rfl, hne (d := '\x7d') rfl, hne (d := ',') rfl, hne (d := '-') rfl,
      hne (d := '?') rfl, hne (d := ':') rfl, hne (d := '*') rfl, hne (d := '&') rfl, hne (d := '!') rfl,
      hne (d := '|') rfl, hne (d := '>') rfl, hne (d := '\'') rfl, hne (d := '"') rfl]
  · have hpeek : l.cursor.peek 1 = some d := by
      rw [Cursor.peek, hc, List.getElem?_cons_succ, ← List.head?_eq_getElem?, hd]
    have hblank : l.cursor.blankAt 1 = false := by simp [Cursor.blankAt, hpeek, hspace, hbreak]
    rcases hch with rfl | ⟨hlevel, rfl | rfl⟩
    · simp [next, startsPlain, hmarker, hblank, hpeek, hspace]
    · simp only [ne_eq, decide_not, Bool.not_eq_eq_eq_not, Bool.not_false, decide_eq_true_eq] at hlevel
      simp [next, startsPlain, hmarker, hblank, hlevel]
    · simp only [ne_eq, decide_not, Bool.not_eq_eq_eq_not, Bool.not_false, decide_eq_true_eq] at hlevel
      simp [next, startsPlain, hmarker, hblank, hlevel]

theorem startsPlain_of_word (hcs : Word (ch :: cs)) (flow : Bool) (rest : List Char) :
    StartsPlain flow ch (cs ++ rest) := by
  by_cases hdash : ch = '-'
  · obtain ⟨d, cs', rfl⟩ : ∃ d cs', cs = d :: cs' :=
      List.exists_cons_of_ne_nil fun h => hcs.ne_dash (by rw [h, hdash])
    have hd := hcs.solid d (by simp)
    exact .inr ⟨.inl hdash, d, rfl, hd⟩
  · have hword := hcs.chars ch List.mem_cons_self
    have hmark : isIndicator ch = false := by
      have hnot : ("-?:,[]\x7b\x7d#&*!|>'\"%@\x60".toList.all fun d => d == '-' || !isWordChar d) = true := by decide
      refine Bool.eq_false_iff.mpr fun hmem => ?_
      have hmark := List.all_eq_true.mp hnot ch (List.contains_iff_mem.mp hmem)
      rw [Bool.or_eq_true, beq_iff_eq, Bool.not_eq_true'] at hmark
      rcases hmark with h | h
      · exact hdash h
      · rw [hword] at h
        exact Bool.noConfusion h
    exact .inl ⟨hmark, hcs.solid ch List.mem_cons_self⟩

end next

end ChartValues.Yaml.Lexer
