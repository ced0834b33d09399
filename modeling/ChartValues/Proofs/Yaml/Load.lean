import ChartValues.Proofs.Yaml.Block

/-!
# From written documents to values

A written document has neither anchors nor tags, so resolving its names changes nothing, and loading it gives
the value that its recursion tells, as long as it is not nested too deeply and no mapping has a key twice.
Together with the tokens this reads a written document back: `Written.parse_fieldChars`.
-/

namespace ChartValues.Yaml

/-- What a plain text stands for. -/
def plainValue (text : String) : Value := ((Scalar.ofPlain text).map Value.ofScalar).getD .null

namespace Flow

mutual

def value : Flow → Value
  | plain text => plainValue text
  | quoted text => .string text
  | sequence items => .sequence (itemValues items)
  | mapping pairs => .mapping (pairValues pairs)

def itemValues : List Flow → List Value
  | [] => []
  | item :: items => item.value :: itemValues items

def pairValues : List (String × Flow) → List (Value × Value)
  | [] => []
  | (key, value) :: pairs => (.string key, value.value) :: pairValues pairs

end

mutual

/-- The flow has at most `depth` levels of collections, its words have a meaning and its keys are distinct. -/
def Loads (depth : Nat) : Flow → Prop
  | plain text => (Scalar.ofPlain text).isSome
  | quoted _ => True
  | sequence items => 0 < depth ∧ LoadsItems (depth - 1) items
  | mapping pairs => 0 < depth ∧ (pairs.map Prod.fst).Nodup ∧ LoadsPairs (depth - 1) pairs

def LoadsItems (depth : Nat) : List Flow → Prop
  | [] => True
  | item :: items => item.Loads depth ∧ LoadsItems depth items

def LoadsPairs (depth : Nat) : List (String × Flow) → Prop
  | [] => True
  | (_, value) :: pairs => value.Loads depth ∧ LoadsPairs depth pairs

end

end Flow

namespace Written

mutual

def value : Written → Value
  | inline flow => flow.value
  | block fields => .mapping (fieldValues fields)

def fieldValues : List (String × Written) → List (Value × Value)
  | [] => []
  | (key, value) :: fields => (plainValue key, value.value) :: fieldValues fields

end

mutual

/-- The document has at most `depth` levels of collections, its words have a meaning and its keys differ. -/
def Loads (depth : Nat) : Written → Prop
  | inline flow => flow.Loads depth
  | block fields =>
    0 < depth ∧ (fields.map fun field => plainValue field.1).Pairwise (fun a b => b.same a = false) ∧
      LoadsFields (depth - 1) fields

def LoadsFields (depth : Nat) : List (String × Written) → Prop
  | [] => True
  | (key, value) :: fields => (Scalar.ofPlain key).isSome ∧ value.Loads depth ∧ LoadsFields depth fields

end

end Written

/-! ## Names -/

mutual

theorem Flow.resolve_node (names : Node.Names) : ∀ f : Flow, f.node.resolve names = some (f.node, names)
  | .plain text => by simp [Flow.node, Node.resolve, Node.label]
  | .quoted text => by simp [Flow.node, Node.resolve, Node.label]
  | .sequence items => by simp [Flow.node, Node.resolve, Node.label, Flow.resolve_itemNodes names items]
  | .mapping pairs => by simp [Flow.node, Node.resolve, Node.label, Flow.resolve_pairNodes names pairs]

theorem Flow.resolve_itemNodes (names : Node.Names) : ∀ items : List Flow,
    Node.resolveItems (Flow.itemNodes items) names = some (Flow.itemNodes items, names)
  | [] => by simp [Flow.itemNodes, Node.resolveItems]
  | item :: items => by
    simp [Flow.itemNodes, Node.resolveItems, Flow.resolve_node names item, Flow.resolve_itemNodes names items]

theorem Flow.resolve_pairNodes (names : Node.Names) : ∀ pairs : List (String × Flow),
    Node.resolvePairs (Flow.pairNodes pairs) names = some (Flow.pairNodes pairs, names)
  | [] => by simp [Flow.pairNodes, Node.resolvePairs]
  | (key, value) :: pairs => by
    simp [Flow.pairNodes, Node.resolvePairs, Node.resolve, Node.label, Flow.resolve_node names value,
      Flow.resolve_pairNodes names pairs]

end

mutual

theorem Written.resolve_node (names : Node.Names) : ∀ w : Written, w.node.resolve names = some (w.node, names)
  | .inline flow => by
    rw [Written.node, Written.node]
    exact flow.resolve_node names
  | .block fields => by simp [Written.node, Node.resolve, Node.label, Written.resolve_fieldNodes names fields]

theorem Written.resolve_fieldNodes (names : Node.Names) : ∀ fields : List (String × Written),
    Node.resolvePairs (Written.fieldNodes fields) names = some (Written.fieldNodes fields, names)
  | [] => by simp [Written.fieldNodes, Node.resolvePairs]
  | (key, value) :: fields => by
    simp [Written.fieldNodes, Node.resolvePairs, Node.resolve, Node.label, Written.resolve_node names value,
      Written.resolve_fieldNodes names fields]

end

/-! ## Loading -/

section load
variable {source : Value.Source} {depth : Nat}

theorem load_scalar {content : String} {plain : Bool} {v : Value}
    (h : Value.ofScalarNode none content plain = some v) (depth : Nat) :
    Value.load source depth (.scalar none none content plain) = pure v := by
  cases depth <;> simp [Value.load, Value.follow, Value.ofNode, h]

theorem ofScalarNode_plain {text : String} (h : (Scalar.ofPlain text).isSome) :
    Value.ofScalarNode none text true = some (plainValue text) := by
  obtain ⟨s, hs⟩ := Option.isSome_iff_exists.mp h
  simp [Value.ofScalarNode, Value.ownTag?, plainValue, hs]

theorem loadPairs_eq {load : Node Nat → Value.Load Value} {nodes : List (Node Nat × Node Nat)}
    {values before : List (Value × Value)}
    (h : List.Forall₂ (fun n v => load n.1 = pure v.1 ∧ load n.2 = pure v.2) nodes values)
    (hdistinct : ((before.reverse ++ values).map Prod.fst).Pairwise fun a b => b.same a = false) :
    Value.loadPairs load nodes before = pure (before.reverse ++ values) := by
  induction h generalizing before with
  | nil => simp [Value.loadPairs]
  | @cons n v nodes values hload _ ih =>
    obtain ⟨keyNode, valueNode⟩ := n
    obtain ⟨key, value⟩ := v
    have hnew : Value.hasKey key before = false := by
      rw [List.map_append, List.pairwise_append] at hdistinct
      rw [Value.hasKey, List.any_eq_false]
      intro p hp
      simpa using hdistinct.2.2 p.1 (by simpa using ⟨p.2, hp⟩) key (by simp)
    rw [Value.loadPairs, hload.1, pure_bind, hnew, if_neg Bool.false_ne_true, hload.2, pure_bind,
      ih (by simpa using hdistinct)]
    simp

theorem Flow.map_fst_pairValues (pairs : List (String × Flow)) :
    (Flow.pairValues pairs).map Prod.fst = pairs.map fun pair => Value.string pair.1 := by
  induction pairs with
  | nil => rw [Flow.pairValues]; rfl
  | cons pair pairs ih =>
    obtain ⟨key, value⟩ := pair
    rw [Flow.pairValues, List.map_cons, List.map_cons, ih]

theorem Written.map_fst_fieldValues (fields : List (String × Written)) :
    (Written.fieldValues fields).map Prod.fst = fields.map fun field => plainValue field.1 := by
  induction fields with
  | nil => rw [Written.fieldValues]; rfl
  | cons field fields ih =>
    obtain ⟨key, value⟩ := field
    rw [Written.fieldValues, List.map_cons, List.map_cons, ih]

variable (source) in
mutual

theorem Flow.load_node : ∀ (f : Flow) (depth : Nat), f.Loads depth →
    Value.load source depth f.node = pure f.value
  | .plain text, depth, h => by
    rw [Flow.Loads] at h
    rw [Flow.node, Flow.value]
    exact load_scalar (ofScalarNode_plain h) depth
  | .quoted text, depth, _ => by
    rw [Flow.node, Flow.value]
    exact load_scalar rfl depth
  | .sequence items, depth, h => by
    rw [Flow.Loads] at h
    obtain ⟨depth, rfl⟩ : ∃ d, depth = d + 1 := ⟨depth - 1, by omega⟩
    have hitems := Flow.load_itemNodes items depth h.2
    simp [Flow.node, Flow.value, Value.load, Value.follow, Value.ofNode, hitems, Value.withTag, Value.ownTag?]
  | .mapping pairs, depth, h => by
    rw [Flow.Loads] at h
    obtain ⟨depth, rfl⟩ : ∃ d, depth = d + 1 := ⟨depth - 1, by omega⟩
    have hdistinct : ((Flow.pairValues pairs).map Prod.fst).Pairwise fun a b => b.same a = false := by
      rw [Flow.map_fst_pairValues, List.pairwise_map]
      refine (List.pairwise_map.mp h.2.1).imp fun hne => ?_
      simpa [Value.same] using hne.symm
    have hpairs : Value.loadPairs (Value.load source depth) (Flow.pairNodes pairs) [] =
        pure (Flow.pairValues pairs) := loadPairs_eq (Flow.load_pairNodes pairs depth h.2.2) hdistinct
    simp [Flow.node, Flow.value, Value.load, Value.follow, Value.ofNode, hpairs, Value.withTag, Value.ownTag?]

theorem Flow.load_itemNodes : ∀ (items : List Flow) (depth : Nat), Flow.LoadsItems depth items →
    (Flow.itemNodes items).mapM (Value.load source depth) = pure (Flow.itemValues items)
  | [], depth, _ => by simp [Flow.itemNodes, Flow.itemValues]
  | item :: items, depth, h => by
    rw [Flow.LoadsItems] at h
    simp [Flow.itemNodes, Flow.itemValues, Flow.load_node item depth h.1, Flow.load_itemNodes items depth h.2]

theorem Flow.load_pairNodes : ∀ (pairs : List (String × Flow)) (depth : Nat), Flow.LoadsPairs depth pairs →
    List.Forall₂ (fun n v => Value.load source depth n.1 = pure v.1 ∧ Value.load source depth n.2 = pure v.2)
      (Flow.pairNodes pairs) (Flow.pairValues pairs)
  | [], depth, _ => by
    rw [Flow.pairNodes, Flow.pairValues]
    exact .nil
  | (key, value) :: pairs, depth, h => by
    rw [Flow.LoadsPairs] at h
    rw [Flow.pairNodes, Flow.pairValues]
    exact .cons ⟨load_scalar rfl depth, Flow.load_node value depth h.1⟩ (Flow.load_pairNodes pairs depth h.2)

end

variable (source) in
mutual

theorem Written.load_node : ∀ (w : Written) (depth : Nat), w.Loads depth →
    Value.load source depth w.node = pure w.value
  | .inline flow, depth, h => by
    rw [Written.Loads] at h
    rw [Written.node, Written.value]
    exact flow.load_node source depth h
  | .block fields, depth, h => by
    rw [Written.Loads, ← Written.map_fst_fieldValues] at h
    obtain ⟨depth, rfl⟩ : ∃ d, depth = d + 1 := ⟨depth - 1, by omega⟩
    have hfields : Value.loadPairs (Value.load source depth) (Written.fieldNodes fields) [] =
        pure (Written.fieldValues fields) := loadPairs_eq (Written.load_fieldNodes fields depth h.2.2) h.2.1
    simp [Written.node, Written.value, Value.load, Value.follow, Value.ofNode, hfields, Value.withTag,
      Value.ownTag?]

theorem Written.load_fieldNodes : ∀ (fields : List (String × Written)) (depth : Nat),
    Written.LoadsFields depth fields →
    List.Forall₂ (fun n v => Value.load source depth n.1 = pure v.1 ∧ Value.load source depth n.2 = pure v.2)
      (Written.fieldNodes fields) (Written.fieldValues fields)
  | [], depth, _ => by
    rw [Written.fieldNodes, Written.fieldValues]
    exact .nil
  | (key, value) :: fields, depth, h => by
    rw [Written.LoadsFields] at h
    rw [Written.fieldNodes, Written.fieldValues]
    exact .cons ⟨load_scalar (ofScalarNode_plain h.1) depth, Written.load_node value depth h.2.1⟩
      (Written.load_fieldNodes fields depth h.2.2)

end

end load

/-- **A written document is read back as its value.** -/
theorem Written.parse_fieldChars {fields : List (String × Written)} (hne : fields ≠ [])
    (hlegible : Written.LegibleFields 0 fields)
    (hmark : (Written.fieldChars 0 fields).head? ≠ some '\uFEFF')
    (hloads : (Written.block fields).Loads Value.maxDepth) :
    parse (String.ofList (Written.fieldChars 0 fields)) = some (Written.block fields).value := by
  rw [parse, Written.tokens_fieldChars hne hlegible hmark]
  simp only [Option.bind_eq_bind, Option.bind_some, Written.document_tokens, Written.resolve_node,
    Written.load_node _ _ _ hloads]
  rfl

end ChartValues.Yaml
