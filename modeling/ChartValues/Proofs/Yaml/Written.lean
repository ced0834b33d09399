import ChartValues.Proofs.Yaml.ScalarText
import ChartValues.Yaml.Value

/-!
# Documents as they are written

The documents that a writer of block mappings produces. A `Flow` stands on one line: a plain word, a quoted
text, or a bracketed collection without blanks whose keys are quoted. A `Written` document is a block mapping
with plain keys, each value a flow on the key's line or a mapping two columns further in. Each has its
characters, its tokens, its node and its value, so that what the stages of reading have to do is told by
functions of one recursion.
-/

namespace ChartValues.Yaml

/-- A node on one line. -/
inductive Flow where
  | plain (text : String)
  | quoted (text : String)
  | sequence (items : List Flow)
  | mapping (pairs : List (String × Flow))

/-- A document in block style, or what stands on the line of a key. -/
inductive Written where
  | inline (flow : Flow)
  | block (fields : List (String × Written))

namespace Flow

/-! ## Characters -/

/-- What stands before an entry. -/
def comma (first : Bool) : List Char := if first then [] else [',']

mutual

def chars : Flow → List Char
  | plain text => text.toList
  | quoted text => Text.quoteChars text.toList
  | sequence items => '[' :: (itemChars true items ++ [']'])
  | mapping pairs => '\x7b' :: (pairChars true pairs ++ ['\x7d'])

/-- The items of a sequence, with commas between them. -/
def itemChars (first : Bool) : List Flow → List Char
  | [] => []
  | item :: items => comma first ++ (item.chars ++ itemChars false items)

/-- The pairs of a mapping, with commas between them. -/
def pairChars (first : Bool) : List (String × Flow) → List Char
  | [] => []
  | (key, value) :: pairs =>
    comma first ++ (Text.quoteChars key.toList ++ ':' :: (value.chars ++ pairChars false pairs))

end

/-! ## Tokens -/

/-- The token before an entry. -/
def entry (first : Bool) : List Token := if first then [] else [.flowEntry]

mutual

def tokens : Flow → List Token
  | plain text => [.scalar text true]
  | quoted text => [.scalar text false]
  | sequence items => .flowSequenceStart :: (itemTokens true items ++ [.flowSequenceEnd])
  | mapping pairs => .flowMappingStart :: (pairTokens true pairs ++ [.flowMappingEnd])

def itemTokens (first : Bool) : List Flow → List Token
  | [] => []
  | item :: items => entry first ++ (item.tokens ++ itemTokens false items)

def pairTokens (first : Bool) : List (String × Flow) → List Token
  | [] => []
  | (key, value) :: pairs =>
    entry first ++ (.key :: .scalar key false :: .value :: (value.tokens ++ pairTokens false pairs))

end

/-! ## Nodes -/

variable {ρ : Type}

mutual

/-- The node of a flow, which has neither anchors nor tags. -/
def node : Flow → Node ρ
  | plain text => .scalar none none text true
  | quoted text => .scalar none none text false
  | sequence items => .sequence none none (itemNodes items)
  | mapping pairs => .mapping none none (pairNodes pairs)

def itemNodes : List Flow → List (Node ρ)
  | [] => []
  | item :: items => item.node :: itemNodes items

def pairNodes : List (String × Flow) → List (Node ρ × Node ρ)
  | [] => []
  | (key, value) :: pairs => (.scalar none none key false, value.node) :: pairNodes pairs

end

end Flow

namespace Written

/-! ## Block style -/

mutual

/-- What stands behind the colon of a key at depth `depth`, up to the end of its lines. -/
def chars (depth : Nat) : Written → List Char
  | inline flow => ' ' :: (flow.chars ++ ['\n'])
  | block fields => '\n' :: fieldChars (depth + 1) fields

/-- The lines of a mapping at depth `depth`. -/
def fieldChars (depth : Nat) : List (String × Written) → List Char
  | [] => []
  | (key, value) :: fields =>
    List.replicate (2 * depth) ' ' ++
      (key.toList ++ ':' :: (value.chars depth ++ fieldChars depth fields))

end

mutual

def tokens : Written → List Token
  | inline flow => flow.tokens
  | block fields => .blockMappingStart :: (fieldTokens fields ++ [.blockEnd])

def fieldTokens : List (String × Written) → List Token
  | [] => []
  | (key, value) :: fields =>
    .key :: .scalar key true :: .value :: (value.tokens ++ fieldTokens fields)

end

variable {ρ : Type}

mutual

def node : Written → Node ρ
  | inline flow => flow.node
  | block fields => .mapping none none (fieldNodes fields)

def fieldNodes : List (String × Written) → List (Node ρ × Node ρ)
  | [] => []
  | (key, value) :: fields => (.scalar none none key true, value.node) :: fieldNodes fields

end

end Written

/-! ## From tokens to nodes -/

/-- The tokens that start a flow. -/
def Token.startsFlow : Token → Bool
  | .scalar _ _ | .flowSequenceStart | .flowMappingStart => true
  | _ => false

theorem Flow.exists_tokens (f : Flow) : ∃ t ts, f.tokens = t :: ts ∧ t.startsFlow = true := by
  cases f <;> exact ⟨_, _, by rw [tokens], rfl⟩

theorem Written.exists_tokens (w : Written) :
    ∃ t ts, w.tokens = t :: ts ∧ (t.startsFlow || t == .blockMappingStart) = true := by
  cases w with
  | inline flow =>
    obtain ⟨t, ts, htoks, ht⟩ := flow.exists_tokens
    exact ⟨t, ts, by rw [tokens, htoks], by simp [ht]⟩
  | block fields => exact ⟨_, _, by rw [tokens], rfl⟩

section read
variable {handles : Handles} {fuel : Nat}

theorem flowItems_append {item : Node String} {items : List (Node String)} {toks rest rest' : List Token}
    {t : Token} {ts : List Token} (htoks : toks = t :: ts) (ht : t.startsFlow = true)
    (hitem : Node.read handles fuel false false (toks ++ rest) = some (item, rest))
    (hitems : Node.flowItems handles fuel false rest = some (items, rest')) (first : Bool) :
    Node.flowItems handles (fuel + 1) first (Flow.entry first ++ (toks ++ rest)) =
      some (item :: items, rest') := by
  subst htoks
  rw [List.cons_append] at hitem ⊢
  cases first
  · cases t <;> simp_all [Node.flowItems, Flow.entry, Token.startsFlow]
  · cases t <;> simp_all [Node.flowItems, Flow.entry, Token.startsFlow]

theorem read_scalar (hfuel : 0 < fuel) (content : String) (plain block indentless : Bool)
    (rest : List Token) :
    Node.read handles fuel block indentless (.scalar content plain :: rest) =
      some (.scalar none none content plain, rest) := by
  obtain ⟨fuel, rfl⟩ : ∃ n, fuel = n + 1 := ⟨fuel - 1, by omega⟩
  simp [Node.read, Node.properties]

theorem flowPairs_append {key : String} {value : Node String} {pairs : List (Node String × Node String)}
    {toks rest rest' : List Token} {t : Token} {ts : List Token} (htoks : toks = t :: ts)
    (ht : t.startsFlow = true) (hfuel : 0 < fuel)
    (hvalue : Node.read handles fuel false false (toks ++ rest) = some (value, rest))
    (hpairs : Node.flowPairs handles fuel false rest = some (pairs, rest')) (first : Bool) :
    Node.flowPairs handles (fuel + 1) first
        (Flow.entry first ++ (.key :: .scalar key false :: .value :: (toks ++ rest))) =
      some ((.scalar none none key false, value) :: pairs, rest') := by
  subst htoks
  rw [List.cons_append] at hvalue ⊢
  have hends : Node.endsFlowValue t = false := by
    cases t <;> simp_all [Token.startsFlow, Node.endsFlowValue]
  cases first <;>
    simp [Node.flowPairs, Flow.entry, Node.orMissing, Node.endsFlowKey, read_scalar hfuel, hends, hvalue,
      hpairs]

theorem blockPairs_append {key : String} {value : Node String} {pairs : List (Node String × Node String)}
    {toks rest rest' : List Token} {t : Token} {ts : List Token} (htoks : toks = t :: ts)
    (ht : (t.startsFlow || t == .blockMappingStart) = true) (hfuel : 0 < fuel)
    (hvalue : Node.read handles fuel true true (toks ++ rest) = some (value, rest))
    (hpairs : Node.blockPairs handles fuel rest = some (pairs, rest')) :
    Node.blockPairs handles (fuel + 1) (.key :: .scalar key true :: .value :: (toks ++ rest)) =
      some ((.scalar none none key true, value) :: pairs, rest') := by
  subst htoks
  rw [List.cons_append] at hvalue ⊢
  have hkey : Node.endsPairPart (.scalar key true) = false := rfl
  have hends : Node.endsPairPart t = false := by
    cases t <;> simp_all [Token.startsFlow, Node.endsPairPart]
  simp [Node.blockPairs, Node.orMissing, hkey, read_scalar hfuel, hends, hvalue, hpairs]

mutual

theorem Flow.read_tokens (handles : Handles) : ∀ (f : Flow) (fuel : Nat) (_ : f.tokens.length ≤ fuel)
    (block indentless : Bool) (rest : List Token),
    Node.read handles fuel block indentless (f.tokens ++ rest) = some (f.node, rest)
  | .plain text, fuel, hfuel, block, indentless, rest => by
    rw [Flow.tokens] at hfuel
    rw [Flow.tokens, Flow.node]
    exact read_scalar hfuel text true block indentless rest
  | .quoted text, fuel, hfuel, block, indentless, rest => by
    rw [Flow.tokens] at hfuel
    rw [Flow.tokens, Flow.node]
    exact read_scalar hfuel text false block indentless rest
  | .sequence items, fuel, hfuel, block, indentless, rest => by
    rw [Flow.tokens, List.length_cons, List.length_append, List.length_singleton] at hfuel
    obtain ⟨fuel, rfl⟩ : ∃ n, fuel = n + 1 := ⟨fuel - 1, by omega⟩
    have hitems := Flow.read_itemTokens handles items fuel true (by omega) rest
    rw [Flow.tokens, Flow.node, List.cons_append, List.append_assoc, List.singleton_append]
    simp [Node.read, Node.properties, hitems]
  | .mapping pairs, fuel, hfuel, block, indentless, rest => by
    rw [Flow.tokens, List.length_cons, List.length_append, List.length_singleton] at hfuel
    obtain ⟨fuel, rfl⟩ : ∃ n, fuel = n + 1 := ⟨fuel - 1, by omega⟩
    have hpairs := Flow.read_pairTokens handles pairs fuel true (by omega) rest
    rw [Flow.tokens, Flow.node, List.cons_append, List.append_assoc, List.singleton_append]
    simp [Node.read, Node.properties, hpairs]

theorem Flow.read_itemTokens (handles : Handles) : ∀ (items : List Flow) (fuel : Nat) (first : Bool)
    (_ : (Flow.itemTokens first items).length < fuel) (rest : List Token),
    Node.flowItems handles fuel first (Flow.itemTokens first items ++ .flowSequenceEnd :: rest) =
      some (Flow.itemNodes items, rest)
  | [], fuel, first, hfuel, rest => by
    obtain ⟨fuel, rfl⟩ : ∃ n, fuel = n + 1 := ⟨fuel - 1, by omega⟩
    simp [Flow.itemTokens, Flow.itemNodes, Node.flowItems]
  | item :: items, fuel, first, hfuel, rest => by
    obtain ⟨fuel, rfl⟩ : ∃ n, fuel = n + 1 := ⟨fuel - 1, by omega⟩
    obtain ⟨t, ts, htoks, ht⟩ := item.exists_tokens
    rw [Flow.itemTokens, List.length_append, List.length_append] at hfuel
    have hpos : 0 < item.tokens.length := by simp [htoks]
    have hitems := Flow.read_itemTokens handles items fuel false (by omega) rest
    rw [Flow.itemTokens, Flow.itemNodes, List.append_assoc, List.append_assoc]
    exact flowItems_append htoks ht
      (Flow.read_tokens handles item fuel (by omega) false false _) hitems first

theorem Flow.read_pairTokens (handles : Handles) : ∀ (pairs : List (String × Flow)) (fuel : Nat)
    (first : Bool) (_ : (Flow.pairTokens first pairs).length < fuel) (rest : List Token),
    Node.flowPairs handles fuel first (Flow.pairTokens first pairs ++ .flowMappingEnd :: rest) =
      some (Flow.pairNodes pairs, rest)
  | [], fuel, first, hfuel, rest => by
    obtain ⟨fuel, rfl⟩ : ∃ n, fuel = n + 1 := ⟨fuel - 1, by omega⟩
    simp [Flow.pairTokens, Flow.pairNodes, Node.flowPairs]
  | (key, value) :: pairs, fuel, first, hfuel, rest => by
    obtain ⟨fuel, rfl⟩ : ∃ n, fuel = n + 1 := ⟨fuel - 1, by omega⟩
    obtain ⟨t, ts, htoks, ht⟩ := value.exists_tokens
    rw [Flow.pairTokens, List.length_append] at hfuel
    simp only [List.length_cons, List.length_append] at hfuel
    have hpairs := Flow.read_pairTokens handles pairs fuel false (by omega) rest
    rw [Flow.pairTokens, Flow.pairNodes]
    simp only [List.append_assoc, List.cons_append]
    exact flowPairs_append htoks ht (by omega)
      (Flow.read_tokens handles value fuel (by omega) false false _) hpairs first

end

mutual

theorem Written.read_tokens (handles : Handles) : ∀ (w : Written) (fuel : Nat)
    (_ : w.tokens.length ≤ fuel) (indentless : Bool) (rest : List Token),
    Node.read handles fuel true indentless (w.tokens ++ rest) = some (w.node, rest)
  | .inline flow, fuel, hfuel, indentless, rest => by
    rw [Written.tokens] at hfuel
    rw [Written.tokens, Written.node]
    exact flow.read_tokens handles fuel hfuel true indentless rest
  | .block fields, fuel, hfuel, indentless, rest => by
    rw [Written.tokens, List.length_cons, List.length_append, List.length_singleton] at hfuel
    obtain ⟨fuel, rfl⟩ : ∃ n, fuel = n + 1 := ⟨fuel - 1, by omega⟩
    have hfields := Written.read_fieldTokens handles fields fuel (by omega) rest
    rw [Written.tokens, Written.node, List.cons_append, List.append_assoc, List.singleton_append]
    simp [Node.read, Node.properties, hfields]

theorem Written.read_fieldTokens (handles : Handles) : ∀ (fields : List (String × Written))
    (fuel : Nat) (_ : (Written.fieldTokens fields).length < fuel) (rest : List Token),
    Node.blockPairs handles fuel (Written.fieldTokens fields ++ .blockEnd :: rest) =
      some (Written.fieldNodes fields, rest)
  | [], fuel, hfuel, rest => by
    obtain ⟨fuel, rfl⟩ : ∃ n, fuel = n + 1 := ⟨fuel - 1, by omega⟩
    simp [Written.fieldTokens, Written.fieldNodes, Node.blockPairs]
  | (key, value) :: fields, fuel, hfuel, rest => by
    obtain ⟨fuel, rfl⟩ : ∃ n, fuel = n + 1 := ⟨fuel - 1, by omega⟩
    obtain ⟨t, ts, htoks, ht⟩ := value.exists_tokens
    rw [Written.fieldTokens] at hfuel
    simp only [List.length_cons, List.length_append] at hfuel
    have hfields := Written.read_fieldTokens handles fields fuel (by omega) rest
    rw [Written.fieldTokens, Written.fieldNodes]
    simp only [List.append_assoc, List.cons_append]
    exact blockPairs_append htoks ht (by omega)
      (Written.read_tokens handles value fuel (by omega) true _) hfields

end

end read

theorem Written.document_tokens (w : Written) : document (w.tokens ++ [.streamEnd]) = some (some w.node) := by
  obtain ⟨t, ts, htoks, ht⟩ := w.exists_tokens
  have hread := w.read_tokens defaultHandles (3 * (w.tokens ++ [Token.streamEnd]).length + 3)
    (by rw [List.length_append]; omega) false [.streamEnd]
  rw [htoks, List.cons_append] at hread ⊢
  have hlast : [Token.streamEnd].dropWhile (· == .documentEnd) = [.streamEnd] := rfl
  cases t <;> simp_all [Token.startsFlow, document, startsDocument]

end ChartValues.Yaml
