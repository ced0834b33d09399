import ChartValues.Proofs.Block.Commits
import ChartValues.Proofs.Tree.ReadBack

/-!
# What conversion keeps

A mapping becomes an object under the texts of its keys. An object has each key once, so a pair is found there if no
later pair has the same text as its key (`lookup_ofYaml`), and all are there exactly if the texts are distinct. Keys
of a mapping that was read are distinct as values; **two of them have one text exactly if one is a string that spells
the other, or both are collections with one JSON text** (`keyText_eq_iff`). In a value none of whose mappings has
such keys, whatever mappings lead to is found in the tree under the texts of the keys on the way (`get?_ofYaml`).
-/

namespace ChartValues.Tree

open ChartValues.Yaml (Value Scalar Number Word)

def keyTexts (pairs : List (Value × Value)) : List String := pairs.map fun pair => keyText pair.1

/-- The value of the last pair whose key has the text `key`. -/
def lastUnder (key : String) (pairs : List (Value × Value)) : Option Value :=
  ((pairs.filter fun pair => keyText pair.1 == key).getLast?).map Prod.snd

/-- Keys that are no scalars; their text is JSON. -/
def IsCollection : Value → Prop
  | .sequence _ | .mapping _ | .tagged _ _ => True
  | _ => False

/-- One of the keys is a string that spells the other one, or both are collections that are the same in JSON or both
not to be written there. -/
inductive Meet : Value → Value → Prop
  | spelled (k : Value) : Meet (.string (keyText k)) k
  | spells (k : Value) : Meet k (.string (keyText k))
  | collections {k k' : Value} : IsCollection k → IsCollection k' → k.json = k'.json → Meet k k'

/-- The keys of mappings that lead from a value to another, past any tags. -/
inductive Leads : Value → List Value → Value → Prop
  | here (v : Value) : Leads v [] v
  | tagged (tag : String) {value w : Value} {path : List Value} : Leads value path w → Leads (.tagged tag value) path w
  | key {pairs : List (Value × Value)} {pair : Value × Value} {w : Value} {path : List Value} :
    pair ∈ pairs → Leads pair.2 path w → Leads (.mapping pairs) (pair.1 :: path) w

/-! ## Objects from pairs -/

section pairs
variable {α : Type}

theorem keys_ofPairs (pairs : List (String × α)) :
    (ofPairs pairs).map Prod.fst = (pairs.map Prod.fst).eraseDups := by
  induction pairs using List.reverseRecOn with
  | nil => rfl
  | append_singleton pairs pair ih =>
    rw [ofPairs_concat, keys_insert, ih, List.map_append, List.map_singleton, Blocks.eraseDups_concat]
    simp only [List.mem_eraseDups]

theorem lookup_ofPairs (pairs : List (String × α)) (key : String) :
    lookup key (ofPairs pairs) = ((pairs.filter fun pair => pair.1 == key).getLast?).map Prod.snd := by
  induction pairs using List.reverseRecOn with
  | nil => rfl
  | append_singleton pairs pair ih =>
    rw [ofPairs_concat, lookup_insert, ih]
    by_cases hkey : pair.1 = key <;> simp [List.filter_append, hkey]

end pairs

/-! ## Mappings -/

theorem fieldsOfYaml_eq_map (pairs : List (Value × Value)) :
    fieldsOfYaml pairs = pairs.map fun pair => (keyText pair.1, ofYaml pair.2) := by
  induction pairs with
  | nil => rw [fieldsOfYaml, List.map_nil]
  | cons pair pairs ih => rw [fieldsOfYaml, ih, List.map_cons]

variable {pairs : List (Value × Value)}

theorem keys_ofYaml (pairs : List (Value × Value)) :
    (ofPairs (fieldsOfYaml pairs)).map Prod.fst = (keyTexts pairs).eraseDups := by
  rw [keys_ofPairs, map_fst_fieldsOfYaml, keyTexts]

theorem lookup_ofYaml (pairs : List (Value × Value)) (key : String) :
    lookup key (ofPairs (fieldsOfYaml pairs)) = (lastUnder key pairs).map ofYaml := by
  rw [lookup_ofPairs, fieldsOfYaml_eq_map, List.filter_map, List.getLast?_map, lastUnder, Option.map_map,
    Option.map_map]
  rfl

theorem lookup_ofYaml_of_nodup (h : (keyTexts pairs).Nodup) {pair : Value × Value} (hpair : pair ∈ pairs) :
    lookup (keyText pair.1) (ofPairs (fieldsOfYaml pairs)) = some (ofYaml pair.2) := by
  have hnodup : ((fieldsOfYaml pairs).map Prod.fst).Nodup := by rwa [map_fst_fieldsOfYaml]
  rw [ofPairs_of_nodup hnodup]
  refine lookup_of_mem hnodup ?_
  rw [fieldsOfYaml_eq_map]
  exact List.mem_map.mpr ⟨pair, hpair, rfl⟩

/-- **Nothing of a mapping is lost exactly if its keys have distinct texts.** -/
theorem nodup_keyTexts_iff (pairs : List (Value × Value)) :
    (keyTexts pairs).Nodup ↔ (ofPairs (fieldsOfYaml pairs)).map Prod.fst = keyTexts pairs ∧
      ∀ pair ∈ pairs, lookup (keyText pair.1) (ofPairs (fieldsOfYaml pairs)) = some (ofYaml pair.2) := by
  refine ⟨fun h => ⟨?_, fun pair hpair => lookup_ofYaml_of_nodup h hpair⟩, fun h => ?_⟩
  · have hnodup : ((fieldsOfYaml pairs).map Prod.fst).Nodup := by rwa [map_fst_fieldsOfYaml]
    rw [ofPairs_of_nodup hnodup, map_fst_fieldsOfYaml, keyTexts]
  · rw [← h.1]
    exact nodup_keys_ofPairs _

/-! ## Keys with one text -/

theorem exists_scalar {k : Value} (hk : ∀ n, k = .number n → n.Readable) (hstring : ∀ s, k ≠ .string s)
    (hcollection : ¬IsCollection k) :
    ∃ s, k = Value.ofScalar s ∧ Scalar.ofPlain (keyText k) = some s ∧ Word (keyText k).toList := by
  cases k with
  | null => exact ⟨.null, rfl, by decide, by decide⟩
  | boolean b => exact ⟨.boolean b, rfl, Value.ofPlain_boolean b, Value.word_boolean b⟩
  | number n => exact ⟨.number n, rfl, Scalar.ofPlain_text (hk n rfl), Scalar.word_text n⟩
  | string s => exact absurd rfl (hstring s)
  | sequence items => exact absurd trivial hcollection
  | mapping pairs => exact absurd trivial hcollection
  | tagged tag value => exact absurd trivial hcollection

theorem keyText_collection {k : Value} (h : IsCollection k) : keyText k = k.json.getD "" := by
  cases k <;> first | exact h.elim | rfl

theorem bracket_mem_json {k : Value} (h : IsCollection k) {text : String} (hjson : k.json = some text) :
    '[' ∈ text.toList ∨ '\x7b' ∈ text.toList := by
  cases k with
  | sequence items =>
    rw [Value.json] at hjson
    obtain ⟨texts, -, rfl⟩ := Option.map_eq_some_iff.mp hjson
    exact .inl (by simp)
  | mapping pairs =>
    rw [Value.json] at hjson
    obtain ⟨texts, -, rfl⟩ := Option.map_eq_some_iff.mp hjson
    exact .inr (by simp)
  | tagged tag value =>
    rw [Value.json] at hjson
    obtain ⟨inner, -, rfl⟩ := Option.map_eq_some_iff.mp hjson
    exact .inr (by simp)
  | _ => exact h.elim

theorem not_word_keyText {k : Value} (h : IsCollection k) : ¬Word (keyText k).toList := by
  intro hword
  rw [keyText_collection h] at hword
  cases hjson : k.json with
  | none => exact hword.ne_nil (by rw [hjson]; rfl)
  | some text =>
    rw [hjson, Option.getD_some] at hword
    rcases bracket_mem_json h hjson with hbracket | hbracket
    · exact absurd (hword.chars _ hbracket) (by decide)
    · exact absurd (hword.chars _ hbracket) (by decide)

theorem json_eq_of_keyText_eq {k k' : Value} (h : IsCollection k) (h' : IsCollection k')
    (heq : keyText k = keyText k') : k.json = k'.json := by
  have hne : ∀ {k : Value}, IsCollection k → k.json ≠ some "" := by
    intro k hk hjson
    rcases bracket_mem_json hk hjson with hbracket | hbracket <;> simp at hbracket
  have hk := hne h
  have hk' := hne h'
  rw [keyText_collection h, keyText_collection h'] at heq
  cases hjson : k.json <;> cases hjson' : k'.json <;> simp_all

theorem same_self_ofScalar (s : Scalar) : (Value.ofScalar s).same (Value.ofScalar s) = true := by
  cases s with
  | null => rfl
  | boolean b => simp [Value.ofScalar, Value.same]
  | text s => simp [Value.ofScalar, Value.same]
  | number n =>
    cases n with
    | integer n => simp [Value.ofScalar, Value.same, Number.same]
    | float x => cases x <;> simp [Value.ofScalar, Value.same, Number.same, Decimal.Binary64.same]

/-- **Two distinct keys have one text exactly if they meet.** -/
theorem keyText_eq_iff {k k' : Value} (hk : ∀ n, k = .number n → n.Readable) (hk' : ∀ n, k' = .number n → n.Readable)
    (hne : k'.same k = false) : keyText k = keyText k' ↔ Meet k k' := by
  constructor
  · intro h
    by_cases hstring : ∃ s, k = .string s
    · obtain ⟨s, rfl⟩ := hstring
      obtain rfl : s = keyText k' := h
      exact .spelled k'
    by_cases hstring' : ∃ s, k' = .string s
    · obtain ⟨s, rfl⟩ := hstring'
      obtain rfl : keyText k = s := h
      exact .spells k
    by_cases hcollection : IsCollection k <;> by_cases hcollection' : IsCollection k'
    · exact .collections hcollection hcollection' (json_eq_of_keyText_eq hcollection hcollection' h)
    · obtain ⟨s, -, -, hword⟩ := exists_scalar hk' (not_exists.mp hstring') hcollection'
      exact absurd (h ▸ hword) (not_word_keyText hcollection)
    · obtain ⟨s, -, -, hword⟩ := exists_scalar hk (not_exists.mp hstring) hcollection
      exact absurd (h ▸ hword) (not_word_keyText hcollection')
    · -- both texts read as the scalar they are the text of, so the keys would be the same
      obtain ⟨s, rfl, hs, -⟩ := exists_scalar hk (not_exists.mp hstring) hcollection
      obtain ⟨s', rfl, hs', -⟩ := exists_scalar hk' (not_exists.mp hstring') hcollection'
      obtain rfl : s = s' := Option.some.inj (by rw [← hs, ← hs', h])
      rw [same_self_ofScalar] at hne
      exact Bool.noConfusion hne
  · intro h
    cases h with
    | spelled => rfl
    | spells => rfl
    | collections hcollection hcollection' hjson =>
      rw [keyText_collection hcollection, keyText_collection hcollection', hjson]

theorem nodup_keyTexts_iff_not_meet (h : (Value.mapping pairs).WellKeyed) :
    (keyTexts pairs).Nodup ↔ pairs.Pairwise fun p q => ¬Meet p.1 q.1 := by
  have hreadable : ∀ pair ∈ pairs, ∀ n, pair.1 = .number n → n.Readable := fun pair hpair n hn =>
    h.readable n (.key hpair (hn ▸ .self _))
  have hdistinct := h.distinct pairs (.self _)
  rw [keyTexts, List.Nodup, List.pairwise_map]
  constructor
  · intro hnodup
    refine (hdistinct.and hnodup).imp_of_mem fun hp hq ⟨hsame, htext⟩ => ?_
    rwa [← keyText_eq_iff (hreadable _ hp) (hreadable _ hq) hsame]
  · intro hmeet
    refine (hdistinct.and hmeet).imp_of_mem fun hp hq ⟨hsame, hmeet⟩ => ?_
    rwa [Ne, keyText_eq_iff (hreadable _ hp) (hreadable _ hq) hsame]

/-! ## Paths -/

theorem Leads.holds {v w : Value} {path : List Value} (h : Leads v path w) : v.Holds w := by
  induction h with
  | here v => exact .self v
  | tagged tag _ ih => exact .tagged tag ih
  | key hpair _ ih => exact .value hpair ih

/-- **Where all mappings on the way keep their keys apart, the tree has what the keys lead to.** -/
theorem get?_ofYaml {v w : Value} {path : List Value} (h : Leads v path w)
    (hdistinct : ∀ before pairs, before <+: path → before ≠ path → Leads v before (.mapping pairs) →
      (keyTexts pairs).Nodup) :
    (ofYaml v).get? (path.map keyText) = some (ofYaml w) := by
  induction h with
  | here v => rfl
  | tagged tag _ ih =>
    rw [ofYaml]
    exact ih fun before pairs hbefore hne hpairs => hdistinct before pairs hbefore hne (.tagged tag hpairs)
  | @key pairs pair w path hpair _ ih =>
    have hapart : (keyTexts pairs).Nodup := hdistinct [] pairs List.nil_prefix (List.cons_ne_nil _ _).symm (.here _)
    rw [List.map_cons, get?_cons, ofYaml, child?, lookup_ofYaml_of_nodup hapart hpair]
    exact ih fun before inner hbefore hne hinner =>
      hdistinct (pair.1 :: before) inner (List.cons_prefix_cons.mpr ⟨rfl, hbefore⟩)
        (fun heq => hne (List.cons.inj heq).2) (.key hpair hinner)

/-- **What is kept of a text's mappings.** A mapping becomes an object with the distinct texts of its keys in the order
in which they come first, each with the last value under it. It has all keys, each with its own value, exactly if no
two keys meet; and where that is so of every mapping above a value, the tree has it under the texts of the keys that
lead to it. -/
theorem ofYaml_keeps {text : String} {v : Value} (h : Yaml.parse text = some v) :
    (∀ pairs, v.Holds (.mapping pairs) → ∃ fields, ofYaml (.mapping pairs) = object fields ∧
      fields.map Prod.fst = (keyTexts pairs).eraseDups ∧
      (∀ key, lookup key fields = (lastUnder key pairs).map ofYaml) ∧
      ((pairs.Pairwise fun p q => ¬Meet p.1 q.1) ↔ fields.map Prod.fst = keyTexts pairs ∧
        ∀ pair ∈ pairs, lookup (keyText pair.1) fields = some (ofYaml pair.2))) ∧
    ∀ path w, Leads v path w →
      (∀ before pairs, before <+: path → before ≠ path → Leads v before (.mapping pairs) →
        pairs.Pairwise fun p q => ¬Meet p.1 q.1) →
      (ofYaml v).get? (path.map keyText) = some (ofYaml w) := by
  have hkeyed := Yaml.wellKeyed_of_parse h
  refine ⟨fun pairs hpairs => ⟨ofPairs (fieldsOfYaml pairs), ?_, keys_ofYaml pairs, lookup_ofYaml pairs, ?_⟩,
    fun path w hw hdistinct => ?_⟩
  · rw [ofYaml]
  · rw [← nodup_keyTexts_iff_not_meet (hkeyed.of_holds hpairs), nodup_keyTexts_iff]
  · refine get?_ofYaml hw fun before pairs hbefore hne hpairs => ?_
    rw [nodup_keyTexts_iff_not_meet (hkeyed.of_holds hpairs.holds)]
    exact hdistinct before pairs hbefore hne hpairs

/-- Keys of three kinds with different texts lead to what is under them, past a tag. -/
theorem ofYaml_keeps_kinds :
    let v : Value := .mapping [(.boolean true, .null),
      (.number (.integer 1), .tagged "t" (.mapping [(.sequence [.null], .string "x")]))]
    Yaml.parse "true: ~\n1: !t {[~]: x}\n" = some v ∧ (ofYaml v).get? ["1", "[null]"] = some (string "x") := by
  dsimp only
  have hparse : Yaml.parse "true: ~\n1: !t {[~]: x}\n" = some (.mapping [(.boolean true, .null),
      (.number (.integer 1), .tagged "t" (.mapping [(.sequence [.null], .string "x")]))]) := by decide +kernel
  refine ⟨hparse, (ofYaml_keeps hparse).2 [.number (.integer 1), .sequence [.null]] (.string "x") ?_
    fun before pairs _ _ hpairs => ?_⟩
  · exact .key (List.mem_cons_of_mem _ List.mem_cons_self) (.tagged "t" (.key List.mem_cons_self (.here _)))
  have hapart : ¬Meet (.boolean true) (.number (.integer 1)) := by
    rintro (_ | _ | ⟨hcollection, -, -⟩)
    exact hcollection
  cases hpairs with
  | here => simpa using hapart
  | key hpair hpairs =>
    simp only [List.mem_cons, List.not_mem_nil, or_false] at hpair
    rcases hpair with rfl | rfl
    · cases hpairs
    · cases hpairs with
      | tagged _ hpairs =>
        cases hpairs with
        | here => exact List.pairwise_singleton _ _
        | key hpair hpairs =>
          obtain rfl := List.mem_singleton.mp hpair
          cases hpairs

/-- A number and the string that spells it are two keys, of which the object has one, with the later value. -/
theorem ofYaml_number_string :
    let pairs : List (Value × Value) := [(.number (.integer 1), .string "a"), (.string "1", .string "b")]
    Yaml.parse "1: a\n\"1\": b\n" = some (.mapping pairs) ∧ (pairs.map Prod.fst).Nodup ∧
      ofYaml (.mapping pairs) = object [("1", string "b")] ∧
      (ofYaml (.mapping pairs)).get? [keyText (.number (.integer 1))] ≠ some (ofYaml (.string "a")) := by
  intro pairs
  refine ⟨by decide +kernel, by decide, rfl, fun h => ?_⟩
  have htext : Text.quote "b" = Text.quote "a" := (scalar.inj (Option.some.inj h)).1
  exact absurd htext (by decide)

end ChartValues.Tree
