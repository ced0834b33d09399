import ChartValues.Proofs.Yaml.Load
import ChartValues.Proofs.Yaml.Loaded

/-!
# JSON texts as flows

The JSON text of a value is a flow: `Value.flow` tells which. Reading the flow does not always give the value back,
since a key becomes a text, a tag becomes a key and a number that is not finite becomes null, **but the value that
is read has the same JSON text** (`Value.json_flow`). What the text needs for that is told by `Value.JsonReads`.
-/

namespace ChartValues.Yaml

namespace Value

/-- What stands between the quotes of a key in JSON. -/
def jsonKeyText : Value → String
  | string s => s
  | boolean b => if b then "true" else "false"
  | number n => jsonNumber n
  | _ => ""

mutual

/-- The JSON text of a value as a flow. -/
def flow : Value → Flow
  | null => .plain "null"
  | boolean b => .plain (if b then "true" else "false")
  | number n => .plain (jsonNumber n)
  | string s => .quoted s
  | sequence items => .sequence (itemFlows items)
  | mapping pairs => .mapping (pairFlows pairs)
  | tagged tag value => .mapping [("!" ++ tag, value.flow)]

def itemFlows : List Value → List Flow
  | [] => []
  | item :: items => item.flow :: itemFlows items

def pairFlows : List (Value × Value) → List (String × Flow)
  | [] => []
  | (key, value) :: pairs => (jsonKeyText key, value.flow) :: pairFlows pairs

end

/-- A key that is found as a key in brackets: short enough, and of characters that may stand between quotes. -/
def JsonKeyReads (key : String) : Prop :=
  (∀ ch ∈ key.toList, Quotable ch) ∧ Line.byteLength (Text.quoteChars key.toList) ≤ 1024

mutual

/-- The JSON text of the value can be read: its characters may stand between quotes, no two keys of one object are
the same, and with a level for each tag it has at most `depth` levels. -/
def JsonReads (depth : Nat) : Value → Prop
  | string s => ∀ ch ∈ s.toList, Quotable ch
  | sequence items => 0 < depth ∧ JsonReadsItems (depth - 1) items
  | mapping pairs =>
    0 < depth ∧ (pairs.map fun pair => jsonKeyText pair.1).Nodup ∧ JsonReadsPairs (depth - 1) pairs
  | tagged tag value => 0 < depth ∧ JsonKeyReads ("!" ++ tag) ∧ value.JsonReads (depth - 1)
  | _ => True

def JsonReadsItems (depth : Nat) : List Value → Prop
  | [] => True
  | item :: items => item.JsonReads depth ∧ JsonReadsItems depth items

def JsonReadsPairs (depth : Nat) : List (Value × Value) → Prop
  | [] => True
  | (key, value) :: pairs => JsonKeyReads (jsonKeyText key) ∧ value.JsonReads depth ∧ JsonReadsPairs depth pairs

end

/-! ## Keys -/

theorem escape_of_isWordChar {c : Char} (h : isWordChar c = true) : Text.escape c = [c] := by
  have hcontrol : ∀ n < 0x20, isWordChar (Char.ofNat n) = false := by decide
  have hlarge : ¬c.toNat < 0x20 := fun hlt => by
    rw [← Char.ofNat_toNat c, hcontrol _ hlt] at h
    exact Bool.noConfusion h
  have hne (d : Char) (hd : isWordChar d = false) : c ≠ d := isWordChar_ne h hd
  rw [Text.escape, if_neg (hne '"' rfl), if_neg (hne '\\' rfl), if_neg (hne '\n' rfl), if_neg (hne '\r' rfl),
    if_neg (hne '\t' rfl), if_neg (by omega), if_neg (by omega), if_neg hlarge]

theorem quote_of_isWordChar {s : String} (h : ∀ c ∈ s.toList, isWordChar c = true) :
    Text.quote s = "\"" ++ s ++ "\"" := by
  have hescape : s.toList.flatMap Text.escape = s.toList := by
    generalize s.toList = cs at h
    induction cs with
    | nil => rfl
    | cons c cs ih =>
      rw [List.flatMap_cons, escape_of_isWordChar (h c List.mem_cons_self),
        ih fun d hd => h d (List.mem_cons_of_mem _ hd)]
      rfl
  apply String.toList_injective
  rw [Text.quote, String.toList_ofList, Text.quoteChars, hescape]
  simp

theorem jsonKey_eq {key : Value} {text : String} (h : jsonKey key = some text) :
    text = Text.quote (jsonKeyText key) := by
  match key, h with
  | string s, h => exact (Option.some.inj h).symm
  | boolean true, h => exact (Option.some.inj h).symm
  | boolean false, h => exact (Option.some.inj h).symm
  | number (.integer n), h =>
    rw [← Option.some.inj h, jsonKeyText, quote_of_isWordChar (Scalar.word_jsonNumber _).chars]
    rfl
  | number (.float (.finite negative m e)), h =>
    rw [← Option.some.inj h, jsonKeyText, quote_of_isWordChar (Scalar.word_jsonNumber _).chars]
    rfl

/-! ## Characters -/

/-- Texts with commas between them, and before them unless they come first. -/
def joined (first : Bool) (texts : List String) : List Char :=
  if first then (",".intercalate texts).toList else texts.flatMap fun t => ',' :: t.toList

theorem joined_nil (first : Bool) : joined first [] = [] := by
  cases first <;> simp [joined]

theorem joined_cons (first : Bool) (text : String) (texts : List String) :
    joined first (text :: texts) = Flow.comma first ++ (text.toList ++ joined false texts) := by
  cases first with
  | false => simp [joined, Flow.comma]
  | true =>
    induction texts generalizing text with
    | nil => simp [joined, Flow.comma]
    | cons t texts ih =>
      have hrest := ih t
      simp only [joined, if_true] at hrest
      simp [joined, Flow.comma, String.intercalate_cons_cons, hrest]

mutual

theorem chars_flow : ∀ (v : Value) {text : String}, v.json = some text → v.flow.chars = text.toList
  | null, text, h => by
    rw [json] at h
    rw [flow, Flow.chars, Option.some.inj h]
  | boolean b, text, h => by
    rw [json] at h
    rw [flow, Flow.chars, Option.some.inj h]
  | number n, text, h => by
    rw [json] at h
    rw [flow, Flow.chars, Option.some.inj h]
  | string s, text, h => by
    rw [json] at h
    rw [flow, Flow.chars, ← Option.some.inj h, Text.quote, String.toList_ofList]
  | sequence items, text, h => by
    rw [json] at h
    obtain ⟨texts, htexts, rfl⟩ := Option.map_eq_some_iff.mp h
    rw [flow, Flow.chars, chars_itemFlows items htexts true]
    simp [joined]
  | mapping pairs, text, h => by
    rw [json] at h
    obtain ⟨texts, htexts, rfl⟩ := Option.map_eq_some_iff.mp h
    rw [flow, Flow.chars, chars_pairFlows pairs htexts true]
    simp [joined]
  | tagged tag value, text, h => by
    rw [json] at h
    obtain ⟨t, ht, rfl⟩ := Option.map_eq_some_iff.mp h
    rw [flow, Flow.chars, Flow.pairChars, Flow.pairChars, chars_flow value ht]
    simp [Flow.comma, Text.quote]

theorem chars_itemFlows : ∀ (items : List Value) {texts : List String}, jsonItems items = some texts → ∀ first,
    Flow.itemChars first (itemFlows items) = joined first texts
  | [], texts, h, first => by
    rw [jsonItems] at h
    rw [itemFlows, Flow.itemChars, ← Option.some.inj h, joined_nil]
  | item :: items, texts, h, first => by
    rw [jsonItems] at h
    obtain ⟨text, htext, h⟩ := Option.bind_eq_some_iff.mp h
    obtain ⟨texts, htexts, h⟩ := Option.bind_eq_some_iff.mp h
    rw [← Option.some.inj h, joined_cons, itemFlows, Flow.itemChars, chars_flow item htext,
      chars_itemFlows items htexts false]

theorem chars_pairFlows : ∀ (pairs : List (Value × Value)) {texts : List String}, jsonPairs pairs = some texts →
    ∀ first, Flow.pairChars first (pairFlows pairs) = joined first texts
  | [], texts, h, first => by
    rw [jsonPairs] at h
    rw [pairFlows, Flow.pairChars, ← Option.some.inj h, joined_nil]
  | (key, value) :: pairs, texts, h, first => by
    rw [jsonPairs] at h
    obtain ⟨keyText, hkey, h⟩ := Option.bind_eq_some_iff.mp h
    obtain ⟨text, htext, h⟩ := Option.bind_eq_some_iff.mp h
    obtain ⟨texts, htexts, h⟩ := Option.bind_eq_some_iff.mp h
    rw [← Option.some.inj h, joined_cons, pairFlows, Flow.pairChars, chars_flow value htext,
      chars_pairFlows pairs htexts false, jsonKey_eq hkey]
    simp [Text.quote]

end

/-! ## Values -/

theorem plainValue_eq {text : String} {s : Scalar} (h : Scalar.ofPlain text = some s) :
    plainValue text = ofScalar s := by
  rw [plainValue, h]
  rfl

theorem ofPlain_boolean (b : Bool) : Scalar.ofPlain (if b then "true" else "false") = some (.boolean b) := by
  cases b <;> rfl

mutual

/-- **The value that is read from the JSON text has the same JSON text.** -/
theorem json_flow : ∀ (v : Value) {depth : Nat} {text : String}, v.Loaded depth → v.json = some text →
    v.flow.value.json = some text
  | null, depth, text, _, h => by
    rw [flow, Flow.value]
    exact h
  | boolean b, depth, text, _, h => by
    rw [flow, Flow.value, plainValue_eq (ofPlain_boolean b)]
    exact h
  | number n, depth, text, hloaded, h => by
    rw [Loaded] at hloaded
    rw [flow, Flow.value]
    rcases Scalar.ofPlain_jsonNumber hloaded with hplain | ⟨hplain, hnull⟩
    · rw [plainValue_eq hplain]
      exact h
    · rw [json, hnull] at h
      rw [plainValue_eq hplain]
      exact h
  | string s, depth, text, _, h => by
    rw [flow, Flow.value]
    exact h
  | sequence items, depth, text, hloaded, h => by
    rw [Loaded] at hloaded
    rw [json] at h
    obtain ⟨texts, htexts, rfl⟩ := Option.map_eq_some_iff.mp h
    rw [flow, Flow.value, json, json_itemFlows items hloaded.2 htexts, Option.map_some]
  | mapping pairs, depth, text, hloaded, h => by
    rw [Loaded] at hloaded
    rw [json] at h
    obtain ⟨texts, htexts, rfl⟩ := Option.map_eq_some_iff.mp h
    rw [flow, Flow.value, json, json_pairFlows pairs hloaded.2 htexts, Option.map_some]
  | tagged tag value, depth, text, hloaded, h => by
    rw [Loaded] at hloaded
    rw [json] at h
    obtain ⟨t, ht, rfl⟩ := Option.map_eq_some_iff.mp h
    rw [flow, Flow.value, Flow.pairValues, Flow.pairValues, json, jsonPairs, json_flow value hloaded ht, jsonPairs]
    simp [jsonKey, String.append_assoc]

theorem json_itemFlows : ∀ (items : List Value) {depth : Nat} {texts : List String}, LoadedItems depth items →
    jsonItems items = some texts → jsonItems (Flow.itemValues (itemFlows items)) = some texts
  | [], depth, texts, _, h => by
    rw [itemFlows, Flow.itemValues]
    exact h
  | item :: items, depth, texts, hloaded, h => by
    rw [LoadedItems] at hloaded
    rw [jsonItems] at h
    obtain ⟨text, htext, h⟩ := Option.bind_eq_some_iff.mp h
    obtain ⟨texts, htexts, h⟩ := Option.bind_eq_some_iff.mp h
    rw [itemFlows, Flow.itemValues, jsonItems, json_flow item hloaded.1 htext, json_itemFlows items hloaded.2 htexts]
    exact h

theorem json_pairFlows : ∀ (pairs : List (Value × Value)) {depth : Nat} {texts : List String},
    LoadedPairs depth pairs → jsonPairs pairs = some texts →
      jsonPairs (Flow.pairValues (pairFlows pairs)) = some texts
  | [], depth, texts, _, h => by
    rw [pairFlows, Flow.pairValues]
    exact h
  | (key, value) :: pairs, depth, texts, hloaded, h => by
    rw [LoadedPairs] at hloaded
    rw [jsonPairs] at h
    obtain ⟨keyText, hkey, h⟩ := Option.bind_eq_some_iff.mp h
    obtain ⟨text, htext, h⟩ := Option.bind_eq_some_iff.mp h
    obtain ⟨texts, htexts, h⟩ := Option.bind_eq_some_iff.mp h
    rw [pairFlows, Flow.pairValues, jsonPairs, json_flow value hloaded.1 htext, json_pairFlows pairs hloaded.2 htexts,
      jsonKey, ← jsonKey_eq hkey]
    exact h

end

/-! ## Reading the flow -/

theorem map_fst_pairFlows (pairs : List (Value × Value)) :
    (pairFlows pairs).map Prod.fst = pairs.map fun pair => jsonKeyText pair.1 := by
  induction pairs with
  | nil => rw [pairFlows]; rfl
  | cons pair pairs ih =>
    obtain ⟨key, value⟩ := pair
    rw [pairFlows, List.map_cons, List.map_cons, ih]

theorem word_boolean (b : Bool) : Word (if b then "true" else "false").toList := by
  cases b <;> decide

mutual

theorem legible_flow : ∀ (v : Value) {depth : Nat}, v.JsonReads depth → v.flow.Legible
  | null, depth, _ => by
    rw [flow, Flow.Legible]
    decide
  | boolean b, depth, _ => by
    rw [flow, Flow.Legible]
    exact word_boolean b
  | number n, depth, _ => by
    rw [flow, Flow.Legible]
    exact Scalar.word_jsonNumber n
  | string s, depth, h => by
    rw [JsonReads] at h
    rw [flow, Flow.Legible]
    exact h
  | sequence items, depth, h => by
    rw [JsonReads] at h
    rw [flow, Flow.Legible]
    exact legible_itemFlows items h.2
  | mapping pairs, depth, h => by
    rw [JsonReads] at h
    rw [flow, Flow.Legible]
    exact legible_pairFlows pairs h.2.2
  | tagged tag value, depth, h => by
    rw [JsonReads] at h
    rw [flow, Flow.Legible, Flow.LegiblePairs, Flow.LegiblePairs]
    exact ⟨h.2.1, legible_flow value h.2.2, trivial⟩

theorem legible_itemFlows : ∀ (items : List Value) {depth : Nat}, JsonReadsItems depth items →
    Flow.LegibleItems (itemFlows items)
  | [], depth, _ => by
    rw [itemFlows, Flow.LegibleItems]
    trivial
  | item :: items, depth, h => by
    rw [JsonReadsItems] at h
    rw [itemFlows, Flow.LegibleItems]
    exact ⟨legible_flow item h.1, legible_itemFlows items h.2⟩

theorem legible_pairFlows : ∀ (pairs : List (Value × Value)) {depth : Nat}, JsonReadsPairs depth pairs →
    Flow.LegiblePairs (pairFlows pairs)
  | [], depth, _ => by
    rw [pairFlows, Flow.LegiblePairs]
    trivial
  | (key, value) :: pairs, depth, h => by
    rw [JsonReadsPairs] at h
    rw [pairFlows, Flow.LegiblePairs]
    exact ⟨h.1, legible_flow value h.2.1, legible_pairFlows pairs h.2.2⟩

end

mutual

theorem loads_flow : ∀ (v : Value) {depth n : Nat}, v.Loaded n → v.JsonReads depth → v.flow.Loads depth
  | null, depth, n, _, _ => by
    rw [flow, Flow.Loads]
    rfl
  | boolean b, depth, n, _, _ => by
    rw [flow, Flow.Loads, ofPlain_boolean]
    rfl
  | number x, depth, n, hloaded, _ => by
    rw [Loaded] at hloaded
    rw [flow, Flow.Loads]
    rcases Scalar.ofPlain_jsonNumber hloaded with hplain | ⟨hplain, -⟩ <;> rw [hplain] <;> rfl
  | string s, depth, n, _, _ => by
    rw [flow, Flow.Loads]
    trivial
  | sequence items, depth, n, hloaded, h => by
    rw [Loaded] at hloaded
    rw [JsonReads] at h
    rw [flow, Flow.Loads]
    exact ⟨h.1, loads_itemFlows items hloaded.2 h.2⟩
  | mapping pairs, depth, n, hloaded, h => by
    rw [Loaded] at hloaded
    rw [JsonReads, ← map_fst_pairFlows] at h
    rw [flow, Flow.Loads]
    exact ⟨h.1, h.2.1, loads_pairFlows pairs hloaded.2 h.2.2⟩
  | tagged tag value, depth, n, hloaded, h => by
    rw [Loaded] at hloaded
    rw [JsonReads] at h
    rw [flow, Flow.Loads, Flow.LoadsPairs, Flow.LoadsPairs]
    exact ⟨h.1, by simp, loads_flow value hloaded h.2.2, trivial⟩

theorem loads_itemFlows : ∀ (items : List Value) {depth n : Nat}, LoadedItems n items → JsonReadsItems depth items →
    Flow.LoadsItems depth (itemFlows items)
  | [], depth, n, _, _ => by
    rw [itemFlows, Flow.LoadsItems]
    trivial
  | item :: items, depth, n, hloaded, h => by
    rw [LoadedItems] at hloaded
    rw [JsonReadsItems] at h
    rw [itemFlows, Flow.LoadsItems]
    exact ⟨loads_flow item hloaded.1 h.1, loads_itemFlows items hloaded.2 h.2⟩

theorem loads_pairFlows : ∀ (pairs : List (Value × Value)) {depth n : Nat}, LoadedPairs n pairs →
    JsonReadsPairs depth pairs → Flow.LoadsPairs depth (pairFlows pairs)
  | [], depth, n, _, _ => by
    rw [pairFlows, Flow.LoadsPairs]
    trivial
  | (key, value) :: pairs, depth, n, hloaded, h => by
    rw [LoadedPairs] at hloaded
    rw [JsonReadsPairs] at h
    rw [pairFlows, Flow.LoadsPairs]
    exact ⟨loads_flow value hloaded.1 h.2.1, loads_pairFlows pairs hloaded.2 h.2.2⟩

end

end Value

end ChartValues.Yaml
