import ChartValues.Proofs.Yaml.Steps

/-!
# Cutting flows into tokens

Inside brackets the lexer is not bound to lines. What it keeps between two tokens is told by `InFlow`, and what
passing over some text changes by `Passes`: the tokens are added, the collections around stay as they are, and
of the possible keys outside at most some are forgotten. **A flow is cut into its tokens** (`Flow.steps`): one
step for each mark and scalar, and the recursion of the flow for the rest. A key in brackets is settled by its
colon, so its own token goes before the text that is already there.
-/

namespace ChartValues.Yaml

mutual

/-- Every word and every text of the flow can be written as it is. -/
def Flow.Legible : Flow → Prop
  | .plain text => Word text.toList
  | .quoted text => ∀ ch ∈ text.toList, Quotable ch
  | .sequence items => Flow.LegibleItems items
  | .mapping pairs => Flow.LegiblePairs pairs

def Flow.LegibleItems : List Flow → Prop
  | [] => True
  | item :: items => item.Legible ∧ Flow.LegibleItems items

/-- A key reaches its colon within 1024 bytes. -/
def Flow.LegiblePairs : List (String × Flow) → Prop
  | [] => True
  | (key, value) :: pairs =>
    ((∀ ch ∈ key.toList, Quotable ch) ∧ Line.byteLength (Text.quoteChars key.toList) ≤ 1024) ∧
      value.Legible ∧ Flow.LegiblePairs pairs

end

namespace Lexer

/-! ## States inside brackets -/

/-- The lexer is inside brackets, past the first column. -/
structure InFlow (l : Lexer) : Prop where
  level : l.flowLevel ≠ 0
  column : l.cursor.column ≠ 0
  index : l.cursor.index ≠ 0
  count : l.count = l.tokens.length
  key : Loose l.keyPlace
  outer : ∀ place ∈ l.outerKeys, Loose place

/-- The possible key is still the same or has been forgotten. -/
def Fades (place place' : Option KeyPlace) : Prop := place' = place ∨ place' = none

theorem fades_fade (c : Cursor) (place : Option KeyPlace) : Fades place (fade c place) := by
  cases place with
  | none => exact .inl rfl
  | some p => by_cases h : isOutdated c p <;> simp [Fades, fade, Option.filter, h]

theorem Fades.trans {a b c : Option KeyPlace} (h : Fades a b) (h' : Fades b c) : Fades a c := by
  rcases h with rfl | rfl
  · exact h'
  · exact .inr (h'.elim id id)

theorem Fades.loose {a b : Option KeyPlace} (h : Fades a b) (ha : Loose a) : Loose b := by
  rcases h with rfl | rfl
  · exact ha
  · exact loose_none

theorem forall₂_fades_refl (places : List (Option KeyPlace)) : List.Forall₂ Fades places places :=
  List.forall₂_same.mpr fun _ _ => .inl rfl

theorem forall₂_fades_map (c : Cursor) (places : List (Option KeyPlace)) :
    List.Forall₂ Fades places (places.map (fade c)) :=
  List.forall₂_map_right_iff.mpr (List.forall₂_same.mpr fun place _ => fades_fade c place)

theorem forall₂_fades_trans {as bs cs : List (Option KeyPlace)} (h : List.Forall₂ Fades as bs)
    (h' : List.Forall₂ Fades bs cs) : List.Forall₂ Fades as cs := by
  induction h generalizing cs with
  | nil => exact h'
  | cons hab _ ih =>
    cases h' with
    | cons hbc h' => exact .cons (hab.trans hbc) (ih h')

theorem forall_loose_of_fades {as bs : List (Option KeyPlace)} (h : List.Forall₂ Fades as bs)
    (has : ∀ place ∈ as, Loose place) : ∀ place ∈ bs, Loose place := by
  induction h with
  | nil => exact has
  | cons hab _ ih =>
    rw [List.forall_mem_cons] at has ⊢
    exact ⟨hab.loose has.1, ih has.2⟩

/-- The lexer has passed over `n` characters of a line, which gave the tokens `toks`. -/
structure Passes (n : Nat) (toks : List Token) (l l' : Lexer) : Prop where
  cursor : l'.cursor = l.cursor.advance n
  tokens : l'.tokens = toks.reverse ++ l.tokens
  count : l'.count = l.count + toks.length
  indent : l'.indent = l.indent
  outer : l'.outer = l.outer
  level : l'.flowLevel = l.flowLevel
  key : Loose l'.keyPlace
  outerKeys : List.Forall₂ Fades l.outerKeys l'.outerKeys

namespace Passes

variable {l l' l'' : Lexer} {m n : Nat} {ts us : List Token}

theorem refl (h : InFlow l) : Passes 0 [] l l where
  cursor := (Cursor.advance_zero _).symm
  tokens := rfl
  count := rfl
  indent := rfl
  outer := rfl
  level := rfl
  key := h.key
  outerKeys := forall₂_fades_refl _

theorem trans (h : Passes m ts l l') (h' : Passes n us l' l'') : Passes (m + n) (ts ++ us) l l'' where
  cursor := by rw [h'.cursor, h.cursor, Cursor.advance_advance]
  tokens := by rw [h'.tokens, h.tokens, List.reverse_append, List.append_assoc]
  count := by rw [h'.count, h.count, List.length_append, Nat.add_assoc]
  indent := h'.indent.trans h.indent
  outer := h'.outer.trans h.outer
  level := h'.level.trans h.level
  key := h'.key
  outerKeys := forall₂_fades_trans h.outerKeys h'.outerKeys

theorem inFlow (h : Passes n ts l l') (hl : InFlow l) : InFlow l' where
  level := h.level ▸ hl.level
  column := by rw [h.cursor, Cursor.column_advance]; have := hl.column; omega
  index := by rw [h.cursor]; have := hl.index; have := l.cursor.index_le_advance n; omega
  count := by rw [h.count, h.tokens, hl.count, List.length_append, List.length_reverse, Nat.add_comm]
  key := h.key
  outer := forall_loose_of_fades h.outerKeys hl.outer

theorem rest {cs rest : List Char} (h : Passes cs.length ts l l') (hc : l.cursor.rest = cs ++ rest) :
    l'.cursor.rest = rest := by
  rw [h.cursor]
  exact Cursor.rest_advance hc

end Passes

/-! ## One token inside brackets -/

section step
variable {l mid : Lexer} {ch : Char} {rest : List Char}

theorem InFlow.settle (h : InFlow l) (hat : TokenAt l.cursor.rest) : l.settle = some l.faded := by
  have hskip := skipToToken_spaces (show l.cursor.rest = List.replicate 0 ' ' ++ l.cursor.rest from rfl) hat
    (fun h0 => absurd h0 h.index) l.cursor.rest.length
  rw [Cursor.advance_zero] at hskip
  rw [Lexer.settle, hskip]
  exact refreshKeys_of_loose h.key h.outer

theorem unroll_of_flow (h : l.flowLevel ≠ 0) (column : Int) : l.unroll column = l := by
  simp [unroll, h]

theorem InFlow.reads (hl : InFlow l) (hc : l.cursor.rest = ch :: rest) (hnext : l.next ch = some mid)
    (hmid : InFlow mid) (hat : TokenAt mid.cursor.rest)
    (hshort : mid.cursor.rest.length < l.cursor.rest.length) : Reads l mid.faded :=
  ⟨ch, rest, mid, hc, by rwa [unroll_of_flow hl.level], hmid.settle hat, hshort⟩

theorem passes_faded (h : InFlow l) : Passes 0 [] l l.faded where
  cursor := (Cursor.advance_zero _).symm
  tokens := rfl
  count := rfl
  indent := rfl
  outer := rfl
  level := rfl
  key := h.key.fade _
  outerKeys := forall₂_fades_map _ _

theorem InFlow.reads_passes {n : Nat} {toks : List Token} (hl : InFlow l) (hc : l.cursor.rest = ch :: rest)
    (hnext : l.next ch = some mid) (hpass : Passes n toks l mid) (hn : 0 < n)
    (hat : TokenAt mid.cursor.rest) : Reads l mid.faded ∧ Passes n toks l mid.faded := by
  have hmid := hpass.inFlow hl
  have hshort : mid.cursor.rest.length < l.cursor.rest.length := by
    rw [hpass.cursor, Cursor.advance, hc, List.length_drop, List.length_cons]
    omega
  exact ⟨hl.reads hc hnext hmid hat hshort, by simpa using hpass.trans (passes_faded hmid)⟩

theorem placeHere_loose (h : l.flowLevel ≠ 0) : Loose (some l.placeHere) := by
  rintro p ⟨⟩
  simp [placeHere, h]

theorem saved_loose (h : l.flowLevel ≠ 0) (hkey : Loose l.keyPlace) : Loose l.saved.keyPlace := by
  rw [saved]
  split_ifs
  · exact placeHere_loose h
  · exact hkey

@[simp] theorem saved_cursor (l : Lexer) : l.saved.cursor = l.cursor := by rw [saved]; split_ifs <;> rfl
@[simp] theorem saved_tokens (l : Lexer) : l.saved.tokens = l.tokens := by rw [saved]; split_ifs <;> rfl
@[simp] theorem saved_count (l : Lexer) : l.saved.count = l.count := by rw [saved]; split_ifs <;> rfl
@[simp] theorem saved_indent (l : Lexer) : l.saved.indent = l.indent := by rw [saved]; split_ifs <;> rfl
@[simp] theorem saved_outer (l : Lexer) : l.saved.outer = l.outer := by rw [saved]; split_ifs <;> rfl
@[simp] theorem saved_flowLevel (l : Lexer) : l.saved.flowLevel = l.flowLevel := by rw [saved]; split_ifs <;> rfl
@[simp] theorem saved_outerKeys (l : Lexer) : l.saved.outerKeys = l.outerKeys := by rw [saved]; split_ifs <;> rfl

/-- The state behind a scalar of `n` characters on one line. -/
def afterScalar (l : Lexer) (n : Nat) (content : String) (plain : Bool) : Lexer :=
  { l.saved with keyAllowed := false, cursor := l.cursor.advance n }.emit (.scalar content plain)

theorem passes_afterScalar (h : InFlow l) (n : Nat) (content : String) (plain : Bool) :
    Passes n [.scalar content plain] l (l.afterScalar n content plain) where
  cursor := rfl
  tokens := by simp [afterScalar, emit]
  count := by simp [afterScalar, emit]
  indent := by simp [afterScalar, emit]
  outer := by simp [afterScalar, emit]
  level := by simp [afterScalar, emit]
  key := saved_loose h.level h.key
  outerKeys := by simpa [afterScalar, emit] using forall₂_fades_refl l.outerKeys

theorem quotedScalar_eq {text : String} {stop : List Char} (hkey : Loose l.keyPlace)
    (htext : ∀ ch ∈ text.toList, Quotable ch)
    (hc : l.cursor.rest = Text.quoteChars text.toList ++ stop) :
    l.quotedScalar false =
      some (l.afterScalar (Text.quoteChars text.toList).length text false) := by
  have hrest : (l.cursor.advance 1).rest = text.toList.flatMap Text.escape ++ '"' :: stop := by
    rw [Text.quoteChars] at hc
    simpa using Cursor.rest_advance_one hc
  have hread : readQuoted false (l.cursor.rest.length + 1) (l.cursor.advance 1) {} = _ :=
    readQuoted_flatMap_escape htext hrest (by simp) (by rw [hc, Text.quoteChars]; simp; omega)
  rw [quotedScalar, saveKey_of_loose hkey]
  simp [hread, afterScalar, Text.quoteChars, Nat.add_comm]

/-- What may stand behind an entry in brackets. -/
def EndsEntry (ch : Char) : Prop := ch = ',' ∨ ch = ']' ∨ ch = '\x7d'

theorem EndsEntry.tokenAt {ch : Char} (h : EndsEntry ch) (rest : List Char) : TokenAt (ch :: rest) := by
  rintro _ ⟨⟩
  rcases h with rfl | rfl | rfl <;> decide

theorem plainScalar_flow {text : String} {next : Char} {stop : List Char} (h : InFlow l)
    (htext : Word text.toList) (hnext : EndsEntry next) (hc : l.cursor.rest = text.toList ++ next :: stop) :
    l.plainScalar = some (l.afterScalar text.toList.length text true) := by
  have hread : readPlain true (l.indent + 1).toNat (l.cursor.rest.length + 1) l.cursor {} = _ :=
    readPlain_flow htext hnext hc h.column _
  rw [plainScalar, saveKey_of_loose h.key]
  simp [h.level, hread, afterScalar]

theorem InFlow.reads_quoted {text : String} {next : Char} {stop : List Char} (h : InFlow l)
    (htext : ∀ ch ∈ text.toList, Quotable ch) (hat : TokenAt (next :: stop))
    (hc : l.cursor.rest = Text.quoteChars text.toList ++ next :: stop) :
    Reads l (l.afterScalar (Text.quoteChars text.toList).length text false).faded ∧
      Passes (Text.quoteChars text.toList).length [.scalar text false] l
        (l.afterScalar (Text.quoteChars text.toList).length text false).faded := by
  have hnext : l.next '"' = some _ := (next_quote h.column).trans (quotedScalar_eq h.key htext hc)
  have hrest : (l.afterScalar (Text.quoteChars text.toList).length text false).cursor.rest = next :: stop :=
    Cursor.rest_advance hc
  exact h.reads_passes (by rw [hc]; rfl) hnext (passes_afterScalar h _ _ _) (by simp [Text.quoteChars])
    (by rwa [hrest])

theorem InFlow.reads_word {text : String} {next : Char} {stop : List Char} (h : InFlow l)
    (htext : Word text.toList) (hnext : EndsEntry next) (hc : l.cursor.rest = text.toList ++ next :: stop) :
    Reads l (l.afterScalar text.toList.length text true).faded ∧
      Passes text.toList.length [.scalar text true] l (l.afterScalar text.toList.length text true).faded := by
  obtain ⟨ch, cs, hcs⟩ := List.exists_cons_of_ne_nil htext.ne_nil
  have hc' : l.cursor.rest = ch :: (cs ++ next :: stop) := by rw [hc, hcs, List.cons_append]
  have hstart : l.next ch = l.plainScalar :=
    next_plain hc' (Cursor.atDocumentMarker_of_column h.column) (startsPlain_of_word (hcs ▸ htext) _ _)
  have hrest : (l.afterScalar text.toList.length text true).cursor.rest = next :: stop :=
    Cursor.rest_advance hc
  exact h.reads_passes hc' (hstart.trans (plainScalar_flow h htext hnext hc)) (passes_afterScalar h _ _ _)
    (List.length_pos_iff.mpr htext.ne_nil)
    (by rw [hrest]; exact hnext.tokenAt stop)

/-- The state behind the comma of an entry, at which a key may start. -/
def afterComma (l : Lexer) : Lexer := { l with keyPlace := none, keyAllowed := true }.take 1 .flowEntry

theorem InFlow.reads_comma (h : InFlow l) (hat : TokenAt rest) (hc : l.cursor.rest = ',' :: rest) :
    Reads l l.afterComma.faded ∧ Passes 1 [.flowEntry] l l.afterComma.faded := by
  have hnext : l.next ',' = some l.afterComma := by
    rw [next_comma h.column, flowEntry, dropKey_of_loose h.key]
    rfl
  have hpass : Passes 1 [.flowEntry] l l.afterComma :=
    ⟨rfl, rfl, rfl, rfl, rfl, rfl, loose_none, forall₂_fades_refl _⟩
  have hrest : l.afterComma.cursor.rest = rest := Cursor.rest_advance_one hc
  exact h.reads_passes hc hnext hpass Nat.one_pos (by rwa [hrest])

/-! ## Brackets -/

/-- The state behind an opening bracket. -/
def opened (l : Lexer) (t : Token) : Lexer :=
  { l.saved with
    keyPlace := none
    outerKeys := l.saved.keyPlace :: l.outerKeys
    flowLevel := l.flowLevel + 1
    keyAllowed := true }.take 1 t

theorem cursor_opened (l : Lexer) (t : Token) : (l.opened t).faded.cursor = l.cursor.advance 1 := by
  rw [show (l.opened t).faded.cursor = l.saved.cursor.advance 1 from rfl, saved_cursor]

theorem flowStart_eq (h : Loose l.keyPlace) (t : Token) : l.flowStart t = some (l.opened t) := by
  rw [flowStart, saveKey_of_loose h]
  simp [opened]

/-- The state behind a closing bracket that leads back to the keys `place` and `outer`. -/
def closed (l : Lexer) (t : Token) (level : Nat) (place : Option KeyPlace) (outer : List (Option KeyPlace)) :
    Lexer :=
  { l with flowLevel := level, keyPlace := place, outerKeys := outer, keyAllowed := false }.take 1 t

theorem flowEnd_eq {level : Nat} {place : Option KeyPlace} {outer : List (Option KeyPlace)}
    (h : Loose l.keyPlace) (hlevel : l.flowLevel = level + 1) (houter : l.outerKeys = place :: outer)
    (t : Token) : l.flowEnd t = some (l.closed t level place outer) := by
  rw [flowEnd, dropKey_of_loose h]
  simp [hlevel, houter, closed]

theorem inFlow_opened (hc : l.cursor.rest ≠ []) (hcount : l.count = l.tokens.length)
    (hplace : Loose l.saved.keyPlace) (houter : ∀ place ∈ l.outerKeys, Loose place) (t : Token) :
    InFlow (l.opened t) where
  level := by simp [opened, take, emit]
  column := by simp [opened, take, emit]
  index := by simpa [opened, take, emit] using Cursor.index_advance_ne_zero hc Nat.one_ne_zero
  count := by simp [opened, take, emit, hcount]
  key := loose_none
  outer := by
    rw [show (l.opened t).outerKeys = l.saved.keyPlace :: l.outerKeys from rfl, List.forall_mem_cons]
    exact ⟨hplace, houter⟩

/-- A closing bracket behind what has passed over the inside of the brackets. The keys of the levels outside are
as they were before the brackets, some of them forgotten on the way. -/
theorem flowEnd_of_passes {inside : Lexer} {n : Nat} {toks : List Token} {t : Token}
    (hsaved : Loose l.saved.keyPlace) (hpass : Passes n toks (l.opened t).faded inside) (u : Token) :
    ∃ mid, inside.flowEnd u = some mid ∧ Passes (n + 1 + 1) (t :: (toks ++ [u])) l mid ∧
      mid.keyAllowed = false ∧ Fades l.saved.keyPlace mid.keyPlace := by
  have hfades : List.Forall₂ Fades (l.saved.keyPlace :: l.outerKeys) inside.outerKeys :=
    forall₂_fades_trans (forall₂_fades_map _ _) hpass.outerKeys
  obtain ⟨place, outer, hplace, houter, hkeys⟩ := List.forall₂_cons_left_iff.mp hfades
  refine ⟨_, flowEnd_eq hpass.key hpass.level hkeys u, ?_, rfl, hplace⟩
  exact {
    cursor := by
      rw [show (inside.closed u l.flowLevel place outer).cursor = inside.cursor.advance 1 from rfl, hpass.cursor,
        cursor_opened, Cursor.advance_advance, Cursor.advance_advance, Nat.add_comm 1]
    tokens := by
      rw [show (inside.closed u l.flowLevel place outer).tokens = u :: inside.tokens from rfl, hpass.tokens,
        show (l.opened t).faded.tokens = t :: l.saved.tokens from rfl]
      simp
    count := by
      rw [show (inside.closed u l.flowLevel place outer).count = inside.count + 1 from rfl, hpass.count,
        show (l.opened t).faded.count = l.saved.count + 1 from rfl]
      simp
      omega
    indent := hpass.indent.trans (saved_indent l)
    outer := hpass.outer.trans (saved_outer l)
    level := rfl
    key := hplace.loose hsaved
    outerKeys := houter }

/-- From any state in which a key may start, the text before a closing bracket is cut into tokens. -/
def Cuts (body : List Char) (close : Char) (toks : List Token) : Prop :=
  ∀ (l : Lexer) (stop : List Char), InFlow l → l.keyAllowed = true → l.cursor.rest = body ++ close :: stop →
    ∃ l', Steps l l' ∧ Passes body.length toks l l'

theorem Cuts.exists_inside {body stop : List Char} {close : Char} {toks : List Token} (h : Cuts body close toks)
    {t : Token} (hopened : InFlow (l.opened t)) (hc : l.cursor.rest = ch :: (body ++ close :: stop)) :
    ∃ inside, Steps (l.opened t).faded inside ∧ Passes body.length toks (l.opened t).faded inside ∧
      InFlow inside ∧ inside.cursor.rest = close :: stop := by
  have hfaded := (passes_faded hopened).inFlow hopened
  have hrest : (l.opened t).faded.cursor.rest = body ++ close :: stop := by
    rw [cursor_opened]
    exact Cursor.rest_advance_one hc
  obtain ⟨inside, hsteps, hpass⟩ := h _ _ hfaded rfl hrest
  exact ⟨inside, hsteps, hpass, hpass.inFlow hfaded, hpass.rest hrest⟩

theorem InFlow.steps_brackets {body stop : List Char} {toks : List Token} {t u : Token} {ch close next : Char}
    (h : InFlow l) (hc : l.cursor.rest = ch :: (body ++ close :: next :: stop))
    (hat : TokenAt (body ++ close :: next :: stop)) (hopen : l.next ch = l.flowStart t) (hbody : Cuts body close toks)
    (hclose : ∀ l' : Lexer, InFlow l' → l'.next close = l'.flowEnd u) (hnext : EndsEntry next) :
    ∃ l', Steps l l' ∧ Passes (ch :: (body ++ [close])).length (t :: (toks ++ [u])) l l' := by
  have hsaved := saved_loose h.level h.key
  have hopened := inFlow_opened (by simp [hc]) h.count hsaved h.outer t
  obtain ⟨inside, hsteps, hpass, hinside, hc'⟩ := hbody.exists_inside hopened hc
  have hrest : (l.opened t).cursor.rest = body ++ close :: next :: stop := by
    rw [show (l.opened t).cursor = (l.opened t).faded.cursor from rfl, cursor_opened]
    exact Cursor.rest_advance_one hc
  have hread : Reads l (l.opened t).faded :=
    h.reads hc (hopen.trans (flowStart_eq h.key t)) hopened (by rwa [hrest]) (by simp [hrest, hc])
  obtain ⟨mid, hend, hmid, -, -⟩ := flowEnd_of_passes hsaved hpass u
  have hflow := hmid.inFlow h
  have hrest' : mid.cursor.rest = next :: stop := by
    rw [hmid.cursor, ← Cursor.advance_advance]
    have hadvance := hpass.cursor
    rw [cursor_opened, Cursor.advance_advance, Nat.add_comm] at hadvance
    rw [← hadvance]
    exact Cursor.rest_advance_one hc'
  have hread' : Reads inside mid.faded :=
    hinside.reads hc' ((hclose inside hinside).trans hend) hflow (by rw [hrest']; exact hnext.tokenAt stop)
      (by simp [hrest', hc'])
  rw [List.length_cons, List.length_append, List.length_singleton]
  exact ⟨_, .head hread (hsteps.tail hread'), by simpa using hmid.trans (passes_faded hflow)⟩

/-! ## Keys -/

theorem isOutdated_placeHere {cs : List Char} (hc : l.cursor.rest = cs ++ rest) (hshort : Line.byteLength cs ≤ 1024) :
    isOutdated (l.cursor.advance cs.length) l.placeHere = false := by
  rw [isOutdated, Cursor.line_advance, Cursor.index_advance hc]
  simp [placeHere, hshort]

theorem fade_placeHere {cs : List Char} (hc : l.cursor.rest = cs ++ rest) (hshort : Line.byteLength cs ≤ 1024) :
    fade (l.cursor.advance cs.length) (some l.placeHere) = some l.placeHere := by
  simp [fade, Option.filter, isOutdated_placeHere hc hshort]

/-- The state behind a colon that made the last token `t` a key. -/
def afterColon (l : Lexer) (t : Token) (ts : List Token) : Lexer :=
  { l with
    cursor := l.cursor.advance 1
    tokens := .value :: t :: .key :: ts
    count := l.count + 2
    keyPlace := none
    keyAllowed := false }

theorem colon_of_flow {place : KeyPlace} {t : Token} {ts : List Token} (hlevel : l.flowLevel ≠ 0)
    (hplace : l.keyPlace = some place) (hnumber : l.count = place.number + 1) (htokens : l.tokens = t :: ts) :
    l.colon = some (l.afterColon t ts) := by
  have hinsert : insertBehind .key (l.count - place.number) l.tokens = t :: .key :: ts := by
    rw [hnumber, htokens, Nat.add_sub_cancel_left]
    rfl
  simp [colon, hplace, insertAt, hinsert, roll, hlevel, take, emit, afterColon]

theorem InFlow.steps_key {key : String} (h : InFlow l) (hallowed : l.keyAllowed = true)
    (hkey : ∀ ch ∈ key.toList, Quotable ch) (hshort : Line.byteLength (Text.quoteChars key.toList) ≤ 1024)
    (hat : TokenAt rest) (hc : l.cursor.rest = Text.quoteChars key.toList ++ ':' :: rest) :
    ∃ l', Steps l l' ∧ Passes ((Text.quoteChars key.toList).length + 1) [.key, .scalar key false, .value] l l' := by
  obtain ⟨hread, hpass⟩ := h.reads_quoted hkey (by rintro _ ⟨⟩; decide) hc
  have hmid := hpass.inFlow h
  set mid := (l.afterScalar (Text.quoteChars key.toList).length key false).faded with hmiddef
  have hplace : mid.keyPlace = some l.placeHere := by
    have hsaved : l.saved.keyPlace = some l.placeHere := by simp [saved, hallowed]
    rw [hmiddef, show (l.afterScalar _ key false).faded.keyPlace =
      fade (l.cursor.advance _) l.saved.keyPlace from rfl, hsaved, fade_placeHere hc hshort]
  have hrest : mid.cursor.rest = ':' :: rest := hpass.rest hc
  have hcolon : mid.colon = some (mid.afterColon (.scalar key false) l.tokens) :=
    colon_of_flow hmid.level hplace (by rw [hpass.count]; rfl) hpass.tokens
  have hpass' : Passes ((Text.quoteChars key.toList).length + 1) [.key, .scalar key false, .value] l
      (mid.afterColon (.scalar key false) l.tokens) :=
    { cursor := by
        rw [show (mid.afterColon (.scalar key false) l.tokens).cursor = mid.cursor.advance 1 from rfl,
          hpass.cursor, Cursor.advance_advance]
      tokens := rfl
      count := by
        rw [show (mid.afterColon (.scalar key false) l.tokens).count = mid.count + 2 from rfl, hpass.count]
        rfl
      indent := hpass.indent
      outer := hpass.outer
      level := hpass.level
      key := loose_none
      outerKeys := hpass.outerKeys }
  have hflow := hpass'.inFlow h
  have hrest' : (mid.afterColon (.scalar key false) l.tokens).cursor.rest = rest :=
    Cursor.rest_advance_one hrest
  have hread' := hmid.reads hrest ((next_colon hmid.column (.inl hmid.level)).trans hcolon) hflow
    (by rwa [hrest']) (by simp [hrest', hrest])
  exact ⟨_, .tail (.single hread) hread', by simpa using hpass'.trans (passes_faded hflow)⟩

end step

end Lexer

/-! ## Whole flows -/

open Lexer

theorem Flow.tokenAt_chars {f : Flow} (h : f.Legible) (rest : List Char) : TokenAt (f.chars ++ rest) := by
  cases f with
  | plain text =>
    rw [Flow.Legible] at h
    obtain ⟨ch, cs, hcs⟩ := List.exists_cons_of_ne_nil h.ne_nil
    rw [Flow.chars, hcs]
    rintro _ ⟨⟩
    exact ⟨(h.solid ch (by simp [hcs])).1, (h.solid ch (by simp [hcs])).2,
      isWordChar_ne (h.chars ch (by simp [hcs])) rfl⟩
  | quoted text => rw [Flow.chars]; rintro _ ⟨⟩; decide
  | sequence items => rw [Flow.chars]; rintro _ ⟨⟩; decide
  | mapping pairs => rw [Flow.chars]; rintro _ ⟨⟩; decide

theorem tokenAt_comma (rest : List Char) : TokenAt (',' :: rest) := by
  rintro _ ⟨⟩
  decide

theorem Flow.tokenAt_itemChars {items : List Flow} (h : Flow.LegibleItems items) (first : Bool)
    {rest : List Char} (hrest : TokenAt rest) : TokenAt (Flow.itemChars first items ++ rest) := by
  cases items with
  | nil => rwa [Flow.itemChars]
  | cons item items =>
    rw [Flow.LegibleItems] at h
    rw [Flow.itemChars, List.append_assoc, List.append_assoc]
    cases first
    · exact tokenAt_comma _
    · exact Flow.tokenAt_chars h.1 _

theorem Flow.tokenAt_pairChars (pairs : List (String × Flow)) (first : Bool) {rest : List Char}
    (hrest : TokenAt rest) : TokenAt (Flow.pairChars first pairs ++ rest) := by
  match pairs with
  | [] => rwa [Flow.pairChars]
  | (key, value) :: pairs =>
    rw [Flow.pairChars]
    cases first
    · exact tokenAt_comma _
    · rintro _ ⟨⟩
      decide

theorem Lexer.InFlow.steps_entry {l : Lexer} {rest : List Char} (h : InFlow l) (first : Bool)
    (hat : TokenAt rest) (hc : l.cursor.rest = Flow.comma first ++ rest)
    (hallowed : first = true → l.keyAllowed = true) :
    ∃ l', Steps l l' ∧ Passes (Flow.comma first).length (Flow.entry first) l l' ∧ l'.keyAllowed = true := by
  cases first with
  | true => exact ⟨l, .refl, .refl h, hallowed rfl⟩
  | false =>
    obtain ⟨hread, hpass⟩ := h.reads_comma hat hc
    exact ⟨_, .single hread, hpass, rfl⟩

mutual

/-- **A flow is cut into its tokens.** -/
theorem Flow.steps : ∀ (f : Flow) (_ : f.Legible) {l : Lexer} {next : Char} {stop : List Char} (_ : InFlow l)
    (_ : EndsEntry next) (_ : l.cursor.rest = f.chars ++ next :: stop),
    ∃ l', Steps l l' ∧ Passes f.chars.length f.tokens l l'
  | .plain text, hf, l, next, stop, hl, hnext, hc => by
    rw [Flow.Legible] at hf
    rw [Flow.chars] at hc
    obtain ⟨hread, hpass⟩ := hl.reads_word hf hnext hc
    rw [Flow.chars, Flow.tokens]
    exact ⟨_, .single hread, hpass⟩
  | .quoted text, hf, l, next, stop, hl, hnext, hc => by
    rw [Flow.Legible] at hf
    rw [Flow.chars] at hc
    obtain ⟨hread, hpass⟩ := hl.reads_quoted hf (hnext.tokenAt stop) hc
    rw [Flow.chars, Flow.tokens]
    exact ⟨_, .single hread, hpass⟩
  | .sequence items, hf, l, next, stop, hl, hnext, hc => by
    rw [Flow.Legible] at hf
    rw [Flow.chars, List.cons_append, List.append_assoc, List.singleton_append] at hc
    rw [Flow.chars, Flow.tokens]
    exact hl.steps_brackets hc (Flow.tokenAt_itemChars hf true (by rintro _ ⟨⟩; decide))
      (next_sequenceStart hl.column)
      (fun _ _ hl' hallowed => Flow.steps_items items hf true hl' fun _ => hallowed)
      (fun _ hl' => next_sequenceEnd hl'.column) hnext
  | .mapping pairs, hf, l, next, stop, hl, hnext, hc => by
    rw [Flow.Legible] at hf
    rw [Flow.chars, List.cons_append, List.append_assoc, List.singleton_append] at hc
    rw [Flow.chars, Flow.tokens]
    exact hl.steps_brackets hc (Flow.tokenAt_pairChars pairs true (by rintro _ ⟨⟩; decide))
      (next_mappingStart hl.column)
      (fun _ _ hl' hallowed => Flow.steps_pairs pairs hf true hl' fun _ => hallowed)
      (fun _ hl' => next_mappingEnd hl'.column) hnext

theorem Flow.steps_items : ∀ (items : List Flow) (_ : Flow.LegibleItems items) {l : Lexer} (first : Bool)
    {stop : List Char} (_ : InFlow l) (_ : first = true → l.keyAllowed = true)
    (_ : l.cursor.rest = Flow.itemChars first items ++ ']' :: stop),
    ∃ l', Steps l l' ∧ Passes (Flow.itemChars first items).length (Flow.itemTokens first items) l l'
  | [], _, l, first, stop, hl, _, hc => by
    rw [Flow.itemChars, Flow.itemTokens]
    exact ⟨l, .refl, .refl hl⟩
  | item :: items, hitems, l, first, stop, hl, hallowed, hc => by
    rw [Flow.LegibleItems] at hitems
    rw [Flow.itemChars, List.append_assoc, List.append_assoc] at hc
    obtain ⟨l₁, hsteps₁, hpass₁, -⟩ := hl.steps_entry first (Flow.tokenAt_chars hitems.1 _) hc hallowed
    have hc₁ : l₁.cursor.rest = item.chars ++ (Flow.itemChars false items ++ ']' :: stop) := hpass₁.rest hc
    obtain ⟨next, stop', hends, hstop⟩ : ∃ next stop', EndsEntry next ∧
        Flow.itemChars false items ++ ']' :: stop = next :: stop' := by
      cases items with
      | nil => exact ⟨']', stop, .inr (.inl rfl), by rw [Flow.itemChars]; rfl⟩
      | cons item' items => exact ⟨',', _, .inl rfl, by rw [Flow.itemChars]; rfl⟩
    obtain ⟨l₂, hsteps₂, hpass₂⟩ := Flow.steps item hitems.1 (hpass₁.inFlow hl) hends (hstop ▸ hc₁)
    have hc₂ : l₂.cursor.rest = Flow.itemChars false items ++ ']' :: stop := hpass₂.rest hc₁
    obtain ⟨l₃, hsteps₃, hpass₃⟩ := Flow.steps_items items hitems.2 false (hpass₂.inFlow (hpass₁.inFlow hl))
      (fun h => Bool.noConfusion h) hc₂
    refine ⟨l₃, hsteps₁.trans (hsteps₂.trans hsteps₃), ?_⟩
    rw [Flow.itemChars, Flow.itemTokens, List.length_append, List.length_append]
    exact hpass₁.trans (hpass₂.trans hpass₃)

theorem Flow.steps_pairs : ∀ (pairs : List (String × Flow)) (_ : Flow.LegiblePairs pairs) {l : Lexer}
    (first : Bool) {stop : List Char} (_ : InFlow l) (_ : first = true → l.keyAllowed = true)
    (_ : l.cursor.rest = Flow.pairChars first pairs ++ '\x7d' :: stop),
    ∃ l', Steps l l' ∧ Passes (Flow.pairChars first pairs).length (Flow.pairTokens first pairs) l l'
  | [], _, l, first, stop, hl, _, hc => by
    rw [Flow.pairChars, Flow.pairTokens]
    exact ⟨l, .refl, .refl hl⟩
  | (key, value) :: pairs, hpairs, l, first, stop, hl, hallowed, hc => by
    rw [Flow.LegiblePairs] at hpairs
    obtain ⟨⟨hkey, hshort⟩, hvalue, hpairs⟩ := hpairs
    rw [Flow.pairChars, List.append_assoc, List.append_assoc, List.cons_append, List.append_assoc] at hc
    obtain ⟨l₀, hsteps₀, hpass₀, hallowed₀⟩ := hl.steps_entry first (by rintro _ ⟨⟩; decide) hc hallowed
    have hc₀ : l₀.cursor.rest = Text.quoteChars key.toList ++
        ':' :: (value.chars ++ (Flow.pairChars false pairs ++ '\x7d' :: stop)) := hpass₀.rest hc
    obtain ⟨l₁, hsteps₁, hpass₁⟩ := (hpass₀.inFlow hl).steps_key hallowed₀ hkey hshort
      (Flow.tokenAt_chars hvalue _) hc₀
    have hc₁ : l₁.cursor.rest = value.chars ++ (Flow.pairChars false pairs ++ '\x7d' :: stop) := by
      rw [hpass₁.cursor, ← Cursor.advance_advance]
      exact Cursor.rest_advance_one (Cursor.rest_advance hc₀)
    obtain ⟨next, stop', hends, hstop⟩ : ∃ next stop', EndsEntry next ∧
        Flow.pairChars false pairs ++ '\x7d' :: stop = next :: stop' := by
      match pairs with
      | [] => exact ⟨'\x7d', stop, .inr (.inr rfl), by rw [Flow.pairChars]; rfl⟩
      | (key', value') :: pairs => exact ⟨',', _, .inl rfl, by rw [Flow.pairChars]; rfl⟩
    have hl₁ := hpass₁.inFlow (hpass₀.inFlow hl)
    obtain ⟨l₂, hsteps₂, hpass₂⟩ := Flow.steps value hvalue hl₁ hends (hstop ▸ hc₁)
    have hc₂ : l₂.cursor.rest = Flow.pairChars false pairs ++ '\x7d' :: stop := hpass₂.rest hc₁
    obtain ⟨l₃, hsteps₃, hpass₃⟩ := Flow.steps_pairs pairs hpairs false (hpass₂.inFlow hl₁)
      (fun h => Bool.noConfusion h) hc₂
    refine ⟨l₃, hsteps₀.trans (hsteps₁.trans (hsteps₂.trans hsteps₃)), ?_⟩
    have hpass := hpass₀.trans (hpass₁.trans (hpass₂.trans hpass₃))
    rw [Flow.pairChars, Flow.pairTokens]
    simpa [Nat.add_assoc, Nat.add_comm 1, Nat.add_left_comm 1] using hpass

end

theorem Flow.cuts_items {items : List Flow} (h : Flow.LegibleItems items) :
    Cuts (Flow.itemChars true items) ']' (Flow.itemTokens true items) :=
  fun _ _ hl hallowed => Flow.steps_items items h true hl fun _ => hallowed

theorem Flow.cuts_pairs {pairs : List (String × Flow)} (h : Flow.LegiblePairs pairs) :
    Cuts (Flow.pairChars true pairs) '\x7d' (Flow.pairTokens true pairs) :=
  fun _ _ hl hallowed => Flow.steps_pairs pairs h true hl fun _ => hallowed

end ChartValues.Yaml
