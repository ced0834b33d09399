import ChartValues.Fetch.Basic
import ChartValues.Proofs.Tree.Distinct
import ChartValues.Proofs.Yaml.Json

/-!
# Rendered values are the values

A rendered tree is a written document: scalars are words or quoted texts, lists are JSON, and keys are written as
they are. **Reading it gives the tree again as long as every key, written without quotes, still reads as the key it is
and every other character may stand in the text** (`parseValues_toYaml`, under `Renders`). The numbers and the nesting
need no such condition, since they come from a text that has been read. A key that quotes kept together is lost
without them (`parseValues_toYaml_colon`).
-/

namespace ChartValues.Tree

open ChartValues.Yaml (Value Written Flow Scalar Number)

/-! ## Keys -/

/-- A key that reads back where it is written without quotes, at a level of nesting: it is a plain scalar on one line,
no byte order mark stands at the start of the text, and the scalar stands for a key of the same text. -/
structure KeyReads (level : Nat) (key : String) : Prop where
  plain : Yaml.Lexer.BlockKey level key.toList
  noMark : level = 0 → key.toList.head? ≠ some '\uFEFF'
  meaning : (Scalar.ofPlain key).map (fun s => keyText (Value.ofScalar s)) = some key

theorem KeyReads.plainValue {level : Nat} {key : String} (h : KeyReads level key) :
    (Scalar.ofPlain key).isSome ∧ ∃ s, Yaml.plainValue key = Value.ofScalar s ∧ keyText (Value.ofScalar s) = key := by
  obtain ⟨s, hs, hkey⟩ := Option.map_eq_some_iff.mp h.meaning
  exact ⟨by rw [hs]; rfl, s, Value.plainValue_eq hs, hkey⟩

theorem plainText_of_word {cs : List Char} (h : Yaml.Word cs) : Yaml.PlainText cs where
  ne_nil := h.ne_nil
  noBreak ch hch := (h.solid ch hch).2
  head ch hch := by
    have hmem := List.mem_of_mem_head? hch
    exact ⟨(h.solid ch hmem).1, Yaml.isWordChar_ne (h.chars ch hmem) rfl⟩
  last ch hch := (h.solid ch (List.mem_of_mem_getLast? hch)).1
  pairs := by
    refine (List.pairwise_of_forall_mem_list fun ch hch next hnext => ⟨?_, ?_⟩).isChain
    · exact fun hcolon => by simp [(h.solid next hnext).1] at hcolon
    · exact fun hhash => by simp [(h.solid ch hch).1] at hhash

theorem keyReads_of_word (level : Nat) {key : String} (hword : Yaml.Word key.toList) (hshort : Line.byteLength key.toList ≤ 1024)
    (hplain : Scalar.ofPlain key = some (.text key)) : KeyReads level key where
  plain := {
    text := plainText_of_word hword
    allowed := fun ch hch => Yaml.isAllowed_of_isWordChar (hword.chars ch hch)
    start := fun ch rest hcs => Yaml.Lexer.startsPlain_of_word (hcs ▸ hword) false _
    short := hshort
    noMarker := fun _ mark _ ⟨_, ch, hch, hspace⟩ => by
      rw [(hword.solid ch (List.mem_of_getElem? hch)).1] at hspace
      exact Bool.noConfusion hspace }
  noMark _ hmark := Yaml.isWordChar_ne (hword.chars _ (List.mem_of_mem_head? hmark)) rfl rfl
  meaning := by rw [hplain]; rfl

/-- The two spellings of zero, which count as one key. -/
def ZeroKeys (keys : List String) : Prop := "0.0" ∈ keys ∧ "-0.0" ∈ keys

instance (keys : List String) : Decidable (ZeroKeys keys) := inferInstanceAs (Decidable (_ ∧ _))

theorem ZeroKeys.mono {keys keys' : List String} (h : ZeroKeys keys) (hkeys : ∀ key ∈ keys, key ∈ keys') :
    ZeroKeys keys' :=
  ⟨hkeys _ h.1, hkeys _ h.2⟩

theorem text_zero (negative : Bool) (e : Int) :
    (Number.float (.finite negative 0 e)).text = if negative then "-0.0" else "0.0" := by
  cases negative <;> rfl

theorem text_of_same {m n : Number} (h : m.same n = true) : m.text = n.text ∨ ZeroKeys [m.text, n.text] := by
  match m, n, h with
  | .integer a, .integer b, h =>
    left
    rw [beq_iff_eq.mp h]
  | .float (.finite a m e), .float (.finite b n f), h =>
    simp only [Number.same, Decimal.Binary64.same, Bool.and_eq_true, Bool.or_eq_true, beq_iff_eq] at h
    obtain ⟨⟨rfl, rfl⟩, rfl | rfl⟩ := h
    · exact .inl rfl
    · rw [text_zero, text_zero]
      cases a <;> cases b <;> simp [ZeroKeys]
  | .float (.infinite a), .float (.infinite b), h =>
    left
    rw [beq_iff_eq.mp h]
  | .float .nan, .float .nan, _ => exact .inl rfl

theorem keyText_of_same {a b : Scalar} (h : (Value.ofScalar a).same (Value.ofScalar b) = true) :
    keyText (Value.ofScalar a) = keyText (Value.ofScalar b) ∨
      ZeroKeys [keyText (Value.ofScalar a), keyText (Value.ofScalar b)] := by
  cases a <;> cases b <;> simp only [Value.ofScalar, Value.same, Bool.false_eq_true, beq_iff_eq] at h
  · exact .inl rfl
  · exact .inl (by rw [h])
  · exact text_of_same h
  · exact .inl (by rw [h])

theorem same_plainValue {level : Nat} {a b : String} (ha : KeyReads level a) (hb : KeyReads level b) (hne : a ≠ b)
    (hzero : ¬ZeroKeys [a, b]) : (Yaml.plainValue a).same (Yaml.plainValue b) = false := by
  obtain ⟨-, s, hs, hsa⟩ := ha.plainValue
  obtain ⟨-, t, ht, htb⟩ := hb.plainValue
  rw [hs, ht, ← Bool.not_eq_true]
  intro hsame
  have htext := keyText_of_same hsame
  rw [hsa, htb] at htext
  exact htext.elim hne hzero

/-! ## Trees as written documents -/

/-- What stands behind the colon of a key at a level, up to the end of its lines. -/
def behindColon (level : Nat) : Tree → List Char
  | scalar text _ => ' ' :: (text.toList ++ ['\n'])
  | object [] => [' ', '\x7b', '\x7d', '\n']
  | object (field :: fields) => '\n' :: (fieldsYaml (2 * (level + 1)) (field :: fields)).toList

theorem toList_fieldsYaml_cons (level : Nat) (key : String) (child : Tree) (rest : List (String × Tree)) :
    (fieldsYaml (2 * level) ((key, child) :: rest)).toList = List.replicate (2 * level) ' ' ++
      (key.toList ++ ':' :: (child.behindColon level ++ (fieldsYaml (2 * level) rest).toList)) := by
  match child with
  | scalar text kind =>
    rw [fieldsYaml]
    simp [behindColon, spaces]
  | object [] =>
    rw [fieldsYaml]
    simp [behindColon, spaces]
  | object (field :: fields) =>
    rw [fieldsYaml, show 2 * level + 2 = 2 * (level + 1) by omega]
    simp [behindColon, spaces]

/-- What is written for a node under a key at a level is a document that reads as the node, within `depth` levels
of collections. -/
def ReadsBack (level depth : Nat) (t : Tree) : Prop :=
  ∃ w : Written, w.chars level = t.behindColon level ∧ w.Legible level ∧ w.Loads depth ∧ ofYaml w.value = t

theorem readsBack_fields {level depth : Nat} {fields : List (String × Tree)}
    (h : ∀ field ∈ fields, KeyReads level field.1 ∧ field.2.ReadsBack level depth) :
    ∃ ws : List (String × Written), Written.fieldChars level ws = (fieldsYaml (2 * level) fields).toList ∧
      Written.LegibleFields level ws ∧ Written.LoadsFields depth ws ∧ ws.map Prod.fst = fields.map Prod.fst ∧
      fieldsOfYaml (Written.fieldValues ws) = fields := by
  induction fields with
  | nil =>
    refine ⟨[], ?_, ?_, ?_, rfl, ?_⟩
    · rw [Written.fieldChars, fieldsYaml]
      rfl
    · rw [Written.LegibleFields]
      trivial
    · rw [Written.LoadsFields]
      trivial
    · rw [Written.fieldValues, fieldsOfYaml]
  | cons field rest ih =>
    obtain ⟨key, child⟩ := field
    rw [List.forall_mem_cons] at h
    obtain ⟨⟨hkey, w, hchars, hlegible, hloads, hvalue⟩, hrest⟩ := h
    obtain ⟨ws, hchars', hlegible', hloads', hkeys', hvalue'⟩ := ih hrest
    obtain ⟨hplain, s, hs, hsk⟩ := hkey.plainValue
    refine ⟨(key, w) :: ws, ?_, ?_, ?_, ?_, ?_⟩
    · rw [Written.fieldChars, toList_fieldsYaml_cons, hchars, hchars']
    · rw [Written.LegibleFields]
      exact ⟨hkey.plain, hlegible, hlegible'⟩
    · rw [Written.LoadsFields]
      exact ⟨hplain, hloads, hloads'⟩
    · rw [List.map_cons, List.map_cons, hkeys']
    · rw [Written.fieldValues, fieldsOfYaml, hs, hsk, hvalue, hvalue']

theorem pairwise_plainValue {level : Nat} {keys : List String} (hkeys : ∀ key ∈ keys, KeyReads level key)
    (hnodup : keys.Nodup) (hzero : ¬ZeroKeys keys) :
    (keys.map Yaml.plainValue).Pairwise fun a b => b.same a = false := by
  rw [List.pairwise_map]
  refine hnodup.imp_of_mem fun ha hb hne => ?_
  exact same_plainValue (hkeys _ hb) (hkeys _ ha) hne.symm fun hzeros => hzero (hzeros.mono (by simp [ha, hb]))

theorem exists_block {level depth : Nat} {fields : List (String × Tree)}
    (h : ∀ field ∈ fields, KeyReads level field.1 ∧ field.2.ReadsBack level depth)
    (hnodup : (fields.map Prod.fst).Nodup) (hzero : ¬ZeroKeys (fields.map Prod.fst)) :
    ∃ ws : List (String × Written), Written.fieldChars level ws = (fieldsYaml (2 * level) fields).toList ∧
      Written.LegibleFields level ws ∧ (ws = [] ↔ fields = []) ∧ (Written.block ws).Loads (depth + 1) ∧
      ofYaml (Written.block ws).value = object fields := by
  obtain ⟨ws, hchars, hlegible, hloads, hkeys, hvalue⟩ := readsBack_fields h
  refine ⟨ws, hchars, hlegible, ?_, ?_, ?_⟩
  · rw [← List.map_eq_nil_iff (f := Prod.fst), hkeys, List.map_eq_nil_iff]
  · have hread : ∀ key ∈ fields.map Prod.fst, KeyReads level key := by
      intro key hkey
      obtain ⟨field, hfield, rfl⟩ := List.mem_map.mp hkey
      exact (h field hfield).1
    have hpairwise := pairwise_plainValue hread hnodup hzero
    rw [← hkeys, List.map_map] at hpairwise
    rw [Written.Loads]
    exact ⟨Nat.succ_pos depth, hpairwise, hloads⟩
  · rw [Written.value, ofYaml, hvalue, ofPairs_of_nodup hnodup]

theorem readsBack_object {level depth : Nat} {fields : List (String × Tree)} (hdepth : 0 < depth)
    (h : ∀ field ∈ fields, KeyReads (level + 1) field.1 ∧ field.2.ReadsBack (level + 1) (depth - 1))
    (hnodup : (fields.map Prod.fst).Nodup) (hzero : ¬ZeroKeys (fields.map Prod.fst)) :
    (object fields).ReadsBack level depth := by
  obtain ⟨ws, hchars, hlegible, hnil, hloads, hvalue⟩ := exists_block h hnodup hzero
  rw [Nat.sub_add_cancel hdepth] at hloads
  cases fields with
  | nil =>
    refine ⟨.inline (.mapping []), ?_, ?_, ?_, ?_⟩
    · rw [Written.chars, Flow.chars, Flow.pairChars, behindColon]
      rfl
    · rw [Written.Legible, Flow.Legible, Flow.LegiblePairs]
      trivial
    · rw [Written.Loads, Flow.Loads, Flow.LoadsPairs]
      exact ⟨hdepth, List.nodup_nil, trivial⟩
    · rw [Written.value, Flow.value, Flow.pairValues, ofYaml, fieldsOfYaml]
      rfl
  | cons field fields =>
    refine ⟨.block ws, ?_, ?_, hloads, hvalue⟩
    · rw [Written.chars, behindColon, hchars]
    · rw [Written.Legible]
      exact ⟨mt hnil.mp (by simp), hlegible⟩

/-! ## Values -/

theorem readsBack_scalar {level depth : Nat} {text : String} {kind : Kind} {f : Flow} (hchars : f.chars = text.toList)
    (hlegible : f.Legible) (hloads : f.Loads depth) (hvalue : ofYaml f.value = scalar text kind) :
    (scalar text kind).ReadsBack level depth := by
  refine ⟨.inline f, ?_, ?_, ?_, ?_⟩
  · rw [Written.chars, hchars, behindColon]
  · rwa [Written.Legible]
  · rwa [Written.Loads]
  · rwa [Written.value]

theorem readsBack_word {level depth : Nat} {text : String} {kind : Kind} {s : Scalar} (hword : Yaml.Word text.toList)
    (hplain : Scalar.ofPlain text = some s) (hvalue : ofYaml (Value.ofScalar s) = scalar text kind) :
    (scalar text kind).ReadsBack level depth := by
  have hloads : (Flow.plain text).Loads depth := by
    rw [Flow.Loads, hplain]
    rfl
  refine readsBack_scalar ?_ ?_ hloads ?_
  · rw [Flow.chars]
  · rwa [Flow.Legible]
  · rwa [Flow.value, Value.plainValue_eq hplain]

theorem readsBack_sequence {level depth : Nat} {items : List Value} (hloaded : (Value.sequence items).Loaded depth)
    (hreads : (Value.sequence items).json = none ∨ (Value.sequence items).JsonReads depth) :
    (ofYaml (.sequence items)).ReadsBack level depth := by
  rw [ofYaml]
  cases hjson : (Value.sequence items).json with
  | none =>
    have hdepth : 0 < depth := by
      rw [Value.Loaded] at hloaded
      exact hloaded.1
    have hloads : (Flow.sequence []).Loads depth := by
      rw [Flow.Loads, Flow.LoadsItems]
      exact ⟨hdepth, trivial⟩
    refine readsBack_scalar ?_ ?_ hloads ?_
    · rw [Flow.chars, Flow.itemChars]
      rfl
    · rw [Flow.Legible, Flow.LegibleItems]
      trivial
    · rw [Flow.value, Flow.itemValues, ofYaml]
      rfl
  | some text =>
    have hreads := hreads.resolve_left (by simp [hjson])
    refine readsBack_scalar (Value.chars_flow _ hjson) (Value.legible_flow _ hreads)
      (Value.loads_flow _ hloaded hreads) ?_
    have hread := Value.json_flow _ hloaded hjson
    rw [Value.flow, Flow.value] at hread ⊢
    rw [ofYaml, hread]

mutual

/-- What is rendered for the value is text that reads back: its keys do, the characters of its texts may stand between
quotes, no object has both spellings of zero as keys, and its lists are readable as JSON. -/
def Renders (level depth : Nat) : Value → Prop
  | .string s => ∀ ch ∈ s.toList, Yaml.Quotable ch
  | .sequence items => (Value.sequence items).json = none ∨ (Value.sequence items).JsonReads depth
  | .mapping pairs => ¬ZeroKeys (pairs.map fun pair => keyText pair.1) ∧ RendersPairs level (depth - 1) pairs
  | .tagged _ value => Renders level depth value
  | _ => True

def RendersPairs (level depth : Nat) : List (Value × Value) → Prop
  | [] => True
  | (key, value) :: pairs =>
    KeyReads level (keyText key) ∧ Renders (level + 1) depth value ∧ RendersPairs level depth pairs

end

theorem map_fst_fieldsOfYaml (pairs : List (Value × Value)) :
    (fieldsOfYaml pairs).map Prod.fst = pairs.map fun pair => keyText pair.1 := by
  induction pairs with
  | nil => rw [fieldsOfYaml]; rfl
  | cons pair pairs ih =>
    obtain ⟨key, value⟩ := pair
    rw [fieldsOfYaml, List.map_cons, List.map_cons, ih]

theorem not_zeroKeys_ofPairs {pairs : List (Value × Value)} (h : ¬ZeroKeys (pairs.map fun pair => keyText pair.1)) :
    ¬ZeroKeys ((ofPairs (fieldsOfYaml pairs)).map Prod.fst) := by
  rw [← map_fst_fieldsOfYaml] at h
  refine fun hzero => h (hzero.mono fun key hkey => ?_)
  obtain ⟨field, hfield, rfl⟩ := List.mem_map.mp hkey
  exact List.mem_map.mpr ⟨field, mem_of_mem_ofPairs hfield, rfl⟩

mutual

/-- **The node of a value that renders reads back.** -/
theorem readsBack_ofYaml : ∀ (v : Value) {level depth : Nat}, v.Loaded depth → Renders (level + 1) depth v →
    (ofYaml v).ReadsBack level depth
  | .null, level, depth, _, _ => by
    rw [ofYaml]
    exact readsBack_word (by decide) (s := .null) rfl rfl
  | .boolean b, level, depth, _, _ => by
    rw [ofYaml]
    exact readsBack_word (Value.word_boolean b) (Value.ofPlain_boolean b) rfl
  | .number n, level, depth, hloaded, _ => by
    rw [Value.Loaded] at hloaded
    rw [ofYaml]
    exact readsBack_word (Scalar.word_text n) (Scalar.ofPlain_text hloaded) rfl
  | .string s, level, depth, _, h => by
    rw [Renders] at h
    rw [ofYaml, string]
    have hloads : (Flow.quoted s).Loads depth := by
      rw [Flow.Loads]
      trivial
    refine readsBack_scalar ?_ ?_ hloads ?_
    · rw [Flow.chars, Text.quote, String.toList_ofList]
    · rwa [Flow.Legible]
    · rw [Flow.value, ofYaml, string]
  | .sequence items, level, depth, hloaded, h => by
    rw [Renders] at h
    exact readsBack_sequence hloaded h
  | .mapping pairs, level, depth, hloaded, h => by
    rw [Value.Loaded] at hloaded
    rw [Renders] at h
    rw [ofYaml]
    have hpairs := readsBack_fieldsOfYaml pairs hloaded.2 h.2
    exact readsBack_object hloaded.1 (fun field hfield => hpairs field (mem_of_mem_ofPairs hfield))
      (nodup_keys_ofPairs _) (not_zeroKeys_ofPairs h.1)
  | .tagged tag value, level, depth, hloaded, h => by
    rw [Value.Loaded] at hloaded
    rw [Renders] at h
    rw [ofYaml]
    exact readsBack_ofYaml value hloaded h

theorem readsBack_fieldsOfYaml : ∀ (pairs : List (Value × Value)) {level depth : Nat}, Value.LoadedPairs depth pairs →
    RendersPairs level depth pairs →
      ∀ field ∈ fieldsOfYaml pairs, KeyReads level field.1 ∧ field.2.ReadsBack level depth
  | [], level, depth, _, _ => by simp [fieldsOfYaml]
  | (key, value) :: pairs, level, depth, hloaded, h => by
    rw [Value.LoadedPairs] at hloaded
    rw [RendersPairs] at h
    rw [fieldsOfYaml, List.forall_mem_cons]
    exact ⟨⟨h.1, readsBack_ofYaml value hloaded.1 h.2.1⟩, readsBack_fieldsOfYaml pairs hloaded.2 h.2.2⟩

end

/-! ## Whole texts -/

theorem root_fields : ∀ (v : Value) {depth : Nat} {fields : List (String × Tree)}, v.Loaded depth →
    Renders 0 depth v → ofYaml v = object fields →
      (∀ field ∈ fields, KeyReads 0 field.1 ∧ field.2.ReadsBack 0 (depth - 1)) ∧ 0 < depth ∧
        (fields.map Prod.fst).Nodup ∧ ¬ZeroKeys (fields.map Prod.fst)
  | .mapping pairs, depth, fields, hloaded, h, htree => by
    rw [Value.Loaded] at hloaded
    rw [Renders] at h
    rw [ofYaml] at htree
    obtain rfl := object.inj htree
    have hpairs := readsBack_fieldsOfYaml pairs hloaded.2 h.2
    exact ⟨fun field hfield => hpairs field (mem_of_mem_ofPairs hfield), hloaded.1, nodup_keys_ofPairs _,
      not_zeroKeys_ofPairs h.1⟩
  | .tagged tag value, depth, fields, hloaded, h, htree => by
    rw [Value.Loaded] at hloaded
    rw [Renders] at h
    rw [ofYaml] at htree
    exact root_fields value hloaded h htree
  | .null, _, _, _, _, htree => by simp [ofYaml, null] at htree
  | .boolean b, _, _, _, _, htree => by simp [ofYaml, boolean] at htree
  | .number n, _, _, _, _, htree => by simp [ofYaml, number] at htree
  | .string s, _, _, _, _, htree => by simp [ofYaml, string] at htree
  | .sequence items, _, _, _, _, htree => by simp [ofYaml] at htree

theorem exists_parse_toYaml {v : Value} {fields : List (String × Tree)} (hloaded : v.Loaded Value.maxDepth)
    (h : Renders 0 Value.maxDepth v) (htree : ofYaml v = object fields) (hne : fields ≠ []) :
    ∃ value, Yaml.parse ((object fields).toYaml 0) = some value ∧ ofYaml value = object fields := by
  obtain ⟨hfields, hdepth, hnodup, hzero⟩ := root_fields v hloaded h htree
  obtain ⟨ws, hchars, hlegible, hnil, hloads, hvalue⟩ := exists_block hfields hnodup hzero
  obtain ⟨⟨key, child⟩, rest, rfl⟩ := List.exists_cons_of_ne_nil hne
  have htext : (object ((key, child) :: rest)).toYaml 0 = String.ofList (Written.fieldChars 0 ws) := by
    rw [toYaml, hchars, Nat.mul_zero, String.ofList_toList]
  have hmark : (Written.fieldChars 0 ws).head? ≠ some '\uFEFF' := by
    have hkey := (hfields (key, child) List.mem_cons_self).1
    obtain ⟨ch, cs, hcs⟩ := List.exists_cons_of_ne_nil hkey.plain.text.ne_nil
    have hfirst := hkey.noMark rfl
    rw [hcs] at hfirst
    rw [hchars, toList_fieldsYaml_cons, hcs]
    exact hfirst
  refine ⟨_, ?_, hvalue⟩
  rw [htext]
  exact Written.parse_fieldChars (mt hnil.mp hne) hlegible hmark hloads

theorem parse_toYaml_empty : Yaml.parse (empty.toYaml 0) = some (.mapping []) := by
  rw [empty, toYaml]
  decide +kernel

end ChartValues.Tree

namespace ChartValues

open ChartValues.Yaml (Value)

theorem parseValues_of_parse {text : String} {value : Value} {fields : List (String × Tree)}
    (hparse : Yaml.parse text = some value) (htree : Tree.ofYaml value = .object fields) (chartRef : String) :
    parseValues chartRef text = .ok (.object fields) := by
  rw [parseValues, hparse]
  simp only [htree]

/-- **Rendered values read as the values again**, whoever asks for them, if what is written without quotes does. -/
theorem parseValues_toYaml {chartRef text : String} {v : Value} {t : Tree} (hparse : Yaml.parse text = some v)
    (hvalues : parseValues chartRef text = .ok t) (h : Tree.Renders 0 Value.maxDepth v) (chartRef' : String) :
    parseValues chartRef' (t.toYaml 0) = .ok t := by
  have hempty : parseValues chartRef' (Tree.empty.toYaml 0) = .ok .empty :=
    parseValues_of_parse Tree.parse_toYaml_empty rfl chartRef'
  rw [parseValues, hparse] at hvalues
  dsimp only at hvalues
  split at hvalues
  · rename_i fields htree
    obtain rfl := Except.ok.inj hvalues
    by_cases hne : fields = []
    · subst hne
      exact hempty
    · obtain ⟨value, hvalue, htree'⟩ := Tree.exists_parse_toYaml (Yaml.loaded_of_parse hparse) h htree hne
      exact parseValues_of_parse hvalue htree' chartRef'
  · obtain rfl := Except.ok.inj hvalues
    exact hempty
  · simp at hvalues

theorem parseValues_toYaml_image :
    let text := "\"image\": \x7btag: 'v 1', ports: [80, 1.50]\x7d # defaults\n"
    let t := Tree.object [("image", .object [("tag", .string "v 1"), ("ports", .scalar "[80,1.5]" .sequence)])]
    parseValues "a/b" text = .ok t ∧ parseValues "a/b" (t.toYaml 0) = .ok t := by
  intro text t
  have hparse : Yaml.parse text = some (.mapping [(.string "image", .mapping [(.string "tag", .string "v 1"),
      (.string "ports", .sequence [.number (.integer 80),
        .number (.float (.finite false 6755399441055744 (-52)))])])]) := by decide +kernel
  have hjson : (Value.sequence [.number (.integer 80),
      .number (.float (.finite false 6755399441055744 (-52)))]).json = some "[80,1.5]" := by decide +kernel
  have hvalues : parseValues "a/b" text = .ok t := by
    refine parseValues_of_parse hparse ?_ _
    simp only [Tree.ofYaml, Tree.fieldsOfYaml, hjson]
    rfl
  refine ⟨hvalues, parseValues_toYaml hparse hvalues ?_ _⟩
  have htext : ∀ ch ∈ "v 1".toList, Yaml.Quotable ch := by
    have hall : ("v 1".toList.all fun ch => decide (Yaml.Quotable ch)) = true := by decide
    exact fun ch hch => of_decide_eq_true (List.all_eq_true.mp hall ch hch)
  simp only [Tree.Renders, Tree.RendersPairs, Value.JsonReads, Value.JsonReadsItems]
  have himage : Tree.KeyReads 0 "image" := Tree.keyReads_of_word 0 (by decide) (by decide) (by decide)
  have htag : Tree.KeyReads 1 "tag" := Tree.keyReads_of_word 1 (by decide) (by decide) (by decide)
  have hports : Tree.KeyReads 1 "ports" := Tree.keyReads_of_word 1 (by decide) (by decide) (by decide)
  exact ⟨by decide, himage, ⟨by decide, htag, htext, hports, .inr ⟨by decide, trivial, trivial, trivial⟩, trivial⟩,
    trivial⟩

/-- A quoted key may hold a colon with a blank behind it; written without quotes it is no longer one key, and
the rendered text is malformed. -/
theorem parseValues_toYaml_colon :
    let t := Tree.object [("a: b", .number "1")]
    parseValues "" "\"a: b\": 1\n" = .ok t ∧ t.toYaml 0 = "a: b: 1\n" ∧
      ∀ t', parseValues "" (t.toYaml 0) ≠ .ok t' := by
  have hparse : Yaml.parse "\"a: b\": 1\n" = some (.mapping [(.string "a: b", .number (.integer 1))]) := by
    decide +kernel
  have hfail : Yaml.parse "a: b: 1\n" = none := by decide +kernel
  have htext : (Tree.object [("a: b", .number "1")]).toYaml 0 = "a: b: 1\n" := by
    rw [Tree.toYaml, Tree.number, Tree.fieldsYaml, Tree.fieldsYaml]
    decide +kernel
  refine ⟨?_, htext, fun t' => ?_⟩
  · rw [parseValues, hparse]
    rfl
  · rw [htext, parseValues, hfail]
    simp

end ChartValues
