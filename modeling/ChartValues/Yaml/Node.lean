import ChartValues.Yaml.Lexer

/-!
# YAML nodes

The structure of a document before its scalars are given a meaning: scalars, sequences, mappings and
aliases, with anchors and tags. `document` reads the tokens of a text that holds at most one document.
-/

namespace ChartValues.Yaml

/-- A node whose anchors are named by `ρ`. -/
inductive Node (ρ : Type) where
  | alias (target : ρ)
  | scalar (anchor : Option ρ) (tag : Option String) (content : String) (plain : Bool)
  | sequence (anchor : Option ρ) (tag : Option String) (items : List (Node ρ))
  | mapping (anchor : Option ρ) (tag : Option String) (pairs : List (Node ρ × Node ρ))
  deriving Repr, Inhabited

/-- What each handle of a tag stands for. -/
abbrev Handles := List (String × String)

def defaultHandles : Handles := [("!", "!"), ("!!", "tag:yaml.org,2002:")]

/-- The anchor and the tag before a node. -/
structure Properties where
  anchor : Option String := none
  tag : Option String := none

namespace Node

/-- The scalar of a place where nothing is written. -/
def missing : Node String := scalar none none "" true

def expandTag (handles : Handles) (handle suffix : String) : Option String :=
  if handle.isEmpty then some suffix else (handles.lookup handle).map (· ++ suffix)

/-- Read an anchor and a tag, in either order. -/
def properties (handles : Handles) : List Token → Option (Properties × List Token)
  | .anchor a :: .tag h s :: rest =>
    (expandTag handles h s).map fun t => (⟨some a, some t⟩, rest)
  | .tag h s :: .anchor a :: rest =>
    (expandTag handles h s).map fun t => (⟨some a, some t⟩, rest)
  | .anchor a :: rest => some (⟨some a, none⟩, rest)
  | .tag h s :: rest => (expandTag handles h s).map fun t => (⟨none, some t⟩, rest)
  | rest => some ({}, rest)

/-- Whether an item of a block sequence is left out before this token. -/
def endsItem : Token → Bool
  | .blockEntry | .blockEnd => true
  | _ => false

/-- Whether an item of a sequence at its key's indentation is left out before this token. -/
def endsIndentlessItem : Token → Bool
  | .blockEntry | .key | .value | .blockEnd => true
  | _ => false

/-- Whether a key or a value of a block mapping is left out before this token. -/
def endsPairPart : Token → Bool
  | .key | .value | .blockEnd => true
  | _ => false

/-- Whether the key of a pair in a flow sequence is left out before this token. -/
def endsFlowItemKey : Token → Bool
  | .value | .flowEntry | .flowSequenceEnd => true
  | _ => false

/-- Whether the value of a pair in a flow sequence is left out before this token. -/
def endsFlowItemValue : Token → Bool
  | .flowEntry | .flowSequenceEnd => true
  | _ => false

/-- Whether a key of a flow mapping is left out before this token. -/
def endsFlowKey : Token → Bool
  | .value | .flowEntry | .flowMappingEnd => true
  | _ => false

/-- Whether a value of a flow mapping is left out before this token. -/
def endsFlowValue : Token → Bool
  | .flowEntry | .flowMappingEnd => true
  | _ => false

/-- Read a node unless the next token tells that it is left out. -/
def orMissing (left : Token → Bool) (read : List Token → Option (Node String × List Token)) :
    List Token → Option (Node String × List Token)
  | [] => none
  | t :: rest => if left t then some (missing, t :: rest) else read (t :: rest)

mutual

/-- Read a node. Block collections are allowed if `block`, a sequence without indentation of its own
if `indentless`. -/
def read (handles : Handles) : Nat → (block indentless : Bool) → List Token →
    Option (Node String × List Token)
  | 0, _, _, _ => none
  | fuel + 1, block, indentless, tokens =>
    match tokens with
    | .alias name :: rest => some (.alias name, rest)
    | _ => do
      let (p, tokens) ← properties handles tokens
      match tokens with
      | .blockEntry :: _ =>
        if indentless then
          let (items, rest) ← indentlessItems handles fuel tokens
          return (.sequence p.anchor p.tag items, rest)
        else if p.anchor.isSome || p.tag.isSome then
          return (.scalar p.anchor p.tag "" true, tokens)
        else none
      | .scalar content plain :: rest =>
        return (.scalar p.anchor (p.tag.filter (· ≠ "!")) content plain, rest)
      | .flowSequenceStart :: rest =>
        let (items, rest) ← flowItems handles fuel true rest
        return (.sequence p.anchor p.tag items, rest)
      | .flowMappingStart :: rest =>
        let (pairs, rest) ← flowPairs handles fuel true rest
        return (.mapping p.anchor p.tag pairs, rest)
      | t :: rest =>
        if block && t == .blockSequenceStart then
          let (items, rest) ← blockItems handles fuel rest
          return (.sequence p.anchor p.tag items, rest)
        else if block && t == .blockMappingStart then
          let (pairs, rest) ← blockPairs handles fuel rest
          return (.mapping p.anchor p.tag pairs, rest)
        else if p.anchor.isSome || p.tag.isSome then
          return (.scalar p.anchor p.tag "" true, t :: rest)
        else none
      | [] => none

def blockItems (handles : Handles) : Nat → List Token →
    Option (List (Node String) × List Token)
  | 0, _ => none
  | fuel + 1, tokens =>
    match tokens with
    | .blockEnd :: rest => some ([], rest)
    | .blockEntry :: rest => do
      let (item, rest) ← orMissing endsItem (read handles fuel true false) rest
      let (items, rest) ← blockItems handles fuel rest
      return (item :: items, rest)
    | _ => none

/-- Read the items of a sequence that has no indentation of its own. -/
def indentlessItems (handles : Handles) : Nat → List Token →
    Option (List (Node String) × List Token)
  | 0, _ => none
  | fuel + 1, tokens =>
    match tokens with
    | .blockEntry :: rest => do
      let (item, rest) ← orMissing endsIndentlessItem (read handles fuel true false) rest
      let (items, rest) ← indentlessItems handles fuel rest
      return (item :: items, rest)
    | _ => some ([], tokens)

def blockPairs (handles : Handles) : Nat → List Token →
    Option (List (Node String × Node String) × List Token)
  | 0, _ => none
  | fuel + 1, tokens =>
    match tokens with
    | .blockEnd :: rest => some ([], rest)
    | .key :: rest => do
      let (key, rest) ← orMissing endsPairPart (read handles fuel true true) rest
      let (value, rest) ← match rest with
        | .value :: rest => orMissing endsPairPart (read handles fuel true true) rest
        | rest => some (missing, rest)
      let (pairs, rest) ← blockPairs handles fuel rest
      return ((key, value) :: pairs, rest)
    | _ => none

/-- Read the items of a flow sequence to its end; `first` if no item has been read yet. -/
def flowItems (handles : Handles) : Nat → (first : Bool) → List Token →
    Option (List (Node String) × List Token)
  | 0, _, _ => none
  | fuel + 1, first, tokens =>
    match tokens with
    | .flowSequenceEnd :: rest => some ([], rest)
    | _ => do
      let tokens ← if first then some tokens else match tokens with
        | .flowEntry :: rest => some rest
        | _ => none
      match tokens with
      | .flowSequenceEnd :: rest => return ([], rest)
      | .key :: rest =>
        let (pair, rest) ← flowItemPair handles fuel rest
        let (items, rest) ← flowItems handles fuel false rest
        return (.mapping none none [pair] :: items, rest)
      | _ =>
        let (item, rest) ← read handles fuel false false tokens
        let (items, rest) ← flowItems handles fuel false rest
        return (item :: items, rest)

/-- Read the pair of a one-pair mapping inside a flow sequence. Where its key is left out, the token
in the key's place is passed over. -/
def flowItemPair (handles : Handles) : Nat → List Token →
    Option ((Node String × Node String) × List Token)
  | 0, _ => none
  | fuel + 1, tokens => do
    let (key, tokens) ← match tokens with
      | [] => none
      | t :: rest =>
        if endsFlowItemKey t then some (missing, rest) else read handles fuel false false tokens
    let (value, tokens) ← match tokens with
      | .value :: rest => orMissing endsFlowItemValue (read handles fuel false false) rest
      | rest => some (missing, rest)
    return ((key, value), tokens)

/-- Read the pairs of a flow mapping to its end; `first` if no pair has been read yet. -/
def flowPairs (handles : Handles) : Nat → (first : Bool) → List Token →
    Option (List (Node String × Node String) × List Token)
  | 0, _, _ => none
  | fuel + 1, first, tokens =>
    match tokens with
    | .flowMappingEnd :: rest => some ([], rest)
    | _ => do
      let tokens ← if first then some tokens else match tokens with
        | .flowEntry :: rest => some rest
        | _ => none
      match tokens with
      | .flowMappingEnd :: rest => return ([], rest)
      | .key :: rest =>
        let (key, rest) ← orMissing endsFlowKey (read handles fuel false false) rest
        let (value, rest) ← match rest with
          | .value :: rest => orMissing endsFlowValue (read handles fuel false false) rest
          | rest => some (missing, rest)
        let (pairs, rest) ← flowPairs handles fuel false rest
        return ((key, value) :: pairs, rest)
      | _ =>
        let (key, rest) ← read handles fuel false false tokens
        let (pairs, rest) ← flowPairs handles fuel false rest
        return ((key, missing) :: pairs, rest)

end

end Node

/-! ## Documents -/

/-- Read the directives before a document: at most one version, which is 1.1 or 1.2, and no handle
twice. -/
def directives (versioned : Bool) (handles : Handles) : List Token →
    Option (Handles × List Token)
  | .version major minor :: rest =>
    if versioned || major ≠ 1 || (minor ≠ 1 && minor ≠ 2) then none
    else directives true handles rest
  | .tagDirective handle expansion :: rest =>
    if (handles.lookup handle).isSome then none
    else directives versioned (handles ++ [(handle, expansion)]) rest
  | rest => some (handles ++ defaultHandles, rest)

def endsDocument : Token → Bool
  | .version _ _ | .tagDirective _ _ | .documentStart | .documentEnd | .streamEnd => true
  | _ => false

def startsDocument : Token → Bool
  | .version _ _ | .tagDirective _ _ | .documentStart => true
  | _ => false

/-- The only document of a list of tokens: `some none` if there is none, `none` if the tokens are
malformed or hold more than one. -/
def document (tokens : List Token) : Option (Option (Node String)) :=
  let fuel := 3 * tokens.length + 3
  match tokens with
  | [] => none
  | .streamEnd :: _ => some none
  | t :: _ => do
    let (node, rest) ←
      if startsDocument t then do
        let (handles, rest) ← directives false [] tokens
        match rest with
        | .documentStart :: rest =>
          Node.orMissing endsDocument (Node.read handles fuel true false) rest
        | _ => none
      else Node.read defaultHandles fuel true false tokens
    if rest.dropWhile (· == .documentEnd) = [.streamEnd] then return some node else none

end ChartValues.Yaml
