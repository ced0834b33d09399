import ChartValues.Proofs.Yaml.Number

/-!
# What loading gives

Loading is partial and counts aliases, so a property of its result is told by `Yields`: whatever comes out has the
property. What the steps of loading keep (`Closed`) holds of every value that is read (`Closed.of_parse`): it **has
only readable numbers and is nested at most as deep as loading allows** (`loaded_of_parse`), and **no mapping in it,
not even in a key, has two keys that count as the same** (`wellKeyed_of_parse`).
-/

namespace ChartValues.Yaml

namespace Value

/-! ## Equality -/

mutual

def equal : Value → Value → Bool
  | null, null => true
  | boolean a, boolean b => a == b
  | number m, number n => m == n
  | string s, string t => s == t
  | sequence xs, sequence ys => equalItems xs ys
  | mapping ps, mapping qs => equalPairs ps qs
  | tagged t v, tagged u w => t == u && v.equal w
  | _, _ => false

def equalItems : List Value → List Value → Bool
  | [], [] => true
  | x :: xs, y :: ys => x.equal y && equalItems xs ys
  | _, _ => false

def equalPairs : List (Value × Value) → List (Value × Value) → Bool
  | [], [] => true
  | (k, v) :: ps, (l, w) :: qs => k.equal l && v.equal w && equalPairs ps qs
  | _, _ => false

end

mutual

theorem equal_iff : ∀ v w : Value, v.equal w = true ↔ v = w
  | null, w => by cases w <;> simp [equal]
  | boolean b, w => by cases w <;> simp [equal]
  | number n, w => by cases w <;> simp [equal]
  | string s, w => by cases w <;> simp [equal]
  | sequence items, w => by cases w <;> simp [equal, equalItems_iff items]
  | mapping pairs, w => by cases w <;> simp [equal, equalPairs_iff pairs]
  | tagged tag value, w => by cases w <;> simp [equal, equal_iff value]

theorem equalItems_iff : ∀ xs ys : List Value, equalItems xs ys = true ↔ xs = ys
  | [], ys => by cases ys <;> simp [equalItems]
  | x :: xs, ys => by cases ys <;> simp [equalItems, equal_iff x, equalItems_iff xs]

theorem equalPairs_iff : ∀ ps qs : List (Value × Value), equalPairs ps qs = true ↔ ps = qs
  | [], qs => by cases qs <;> simp [equalPairs]
  | (k, v) :: ps, qs => by
    rcases qs with _ | ⟨⟨l, w⟩, qs⟩ <;> simp [equalPairs, equal_iff k, equal_iff v, equalPairs_iff ps, and_assoc]

end

instance : DecidableEq Value := fun v w => decidable_of_iff (v.equal w = true) (equal_iff v w)

/-! ## Steps -/

/-- Whatever the computation gives has the property. -/
def Yields {α : Type} (P : α → Prop) (x : Load α) : Prop := ∀ s a s', x.run s = some (a, s') → P a

section yields
variable {α β : Type} {P : α → Prop} {Q : β → Prop}

theorem yields_pure {a : α} (h : P a) : Yields P (pure a : Load α) := by
  intro s b s' hrun
  obtain ⟨rfl, -⟩ : a = b ∧ s = s' := by simpa using hrun
  exact h

theorem yields_failure : Yields P (failure : Load α) := by
  intro s a s' hrun
  simp at hrun

theorem Yields.bind {x : Load α} {f : α → Load β} (hx : Yields P x) (hf : ∀ a, P a → Yields Q (f a)) :
    Yields Q (x >>= f) := by
  intro s b s' hrun
  rw [StateT.run_bind] at hrun
  obtain ⟨⟨a, s₁⟩, ha, hb⟩ := Option.bind_eq_some_iff.mp hrun
  exact hf a (hx s a s₁ ha) s₁ b s' hb

theorem yields_true (x : Load α) : Yields (fun _ => True) x := fun _ _ _ _ => trivial

end yields

section closed

/-- What the steps of loading keep: it holds of every scalar, whose number is readable, is kept by tags, and passes
from the parts of a collection to the collection, whose keys are distinct. -/
structure Closed (P : Nat → Value → Prop) : Prop where
  ofScalar (depth : Nat) (s : Scalar) : (∀ n, s = .number n → n.Readable) → P depth (ofScalar s)
  tagged (depth : Nat) (tag : String) (value : Value) : P depth value → P depth (tagged tag value)
  sequence (depth : Nat) (items : List Value) : (∀ item ∈ items, P depth item) → P (depth + 1) (sequence items)
  mapping (depth : Nat) (pairs : List (Value × Value)) : pairs.Pairwise (fun p q => q.1.same p.1 = false) →
    (∀ pair ∈ pairs, P depth pair.1 ∧ P depth pair.2) → P (depth + 1) (mapping pairs)

variable {P : Nat → Value → Prop} {depth : Nat}

theorem Closed.withTag (hP : Closed P) (tag : Option String) {value : Value} (hvalue : P depth value) :
    P depth (withTag tag value) := by
  rw [Value.withTag]
  split
  · exact hvalue
  · exact hP.tagged depth _ value hvalue

theorem Closed.ofScalarNode (hP : Closed P) {tag : Option String} {content : String} {plain : Bool} {v : Value}
    (h : ofScalarNode tag content plain = some v) : P depth v := by
  have huntagged : ∀ s, (if plain then Scalar.ofPlain content else some (.text content)) = some s →
      P depth (Value.ofScalar s) := by
    intro s hs
    refine hP.ofScalar depth s fun n hn => ?_
    split_ifs at hs
    · exact Scalar.readable_of_ofPlain (hn ▸ hs)
    · simp [hn] at hs
  rw [ofScalarNode.eq_def] at h
  generalize (if plain then Scalar.ofPlain content else some (.text content)) = untagged at h huntagged
  split at h
  · obtain ⟨s, hs, rfl⟩ := Option.map_eq_some_iff.mp h
    exact hP.withTag _ (huntagged s hs)
  · obtain ⟨s, hs, rfl⟩ := Option.map_eq_some_iff.mp h
    exact hP.ofScalar depth s fun n hn => Scalar.readable_of_ofTagged (hn ▸ hs)
  · obtain ⟨s, hs, rfl⟩ := Option.map_eq_some_iff.mp h
    exact huntagged s hs

section parts
variable {Q : Value → Prop} {load : Node Nat → Load Value}

theorem yields_mapM (hload : ∀ node, Yields Q (load node)) (nodes : List (Node Nat)) :
    Yields (fun items => ∀ item ∈ items, Q item) (nodes.mapM load) := by
  induction nodes with
  | nil =>
    rw [List.mapM_nil]
    exact yields_pure (by simp)
  | cons node nodes ih =>
    rw [List.mapM_cons]
    refine (hload node).bind fun item hitem => ih.bind fun items hitems => yields_pure ?_
    exact List.forall_mem_cons.mpr ⟨hitem, hitems⟩

/-- A key is compared with all those before it, of which the last stands first. -/
theorem yields_loadPairs (hload : ∀ node, Yields Q (load node)) (nodes : List (Node Nat × Node Nat))
    {before : List (Value × Value)} (hdistinct : before.reverse.Pairwise fun p q => q.1.same p.1 = false)
    (hbefore : ∀ pair ∈ before, Q pair.1 ∧ Q pair.2) :
    Yields (fun pairs => pairs.Pairwise (fun p q => q.1.same p.1 = false) ∧ ∀ pair ∈ pairs, Q pair.1 ∧ Q pair.2)
      (loadPairs load nodes before) := by
  induction nodes generalizing before with
  | nil =>
    rw [loadPairs]
    exact yields_pure ⟨hdistinct, fun pair hpair => hbefore pair (List.mem_reverse.mp hpair)⟩
  | cons node nodes ih =>
    obtain ⟨keyNode, valueNode⟩ := node
    rw [loadPairs]
    refine (hload keyNode).bind fun key hkey => ?_
    split_ifs with hnew
    · exact yields_failure
    · refine (hload valueNode).bind fun value hvalue => ih ?_ (List.forall_mem_cons.mpr ⟨⟨hkey, hvalue⟩, hbefore⟩)
      rw [List.reverse_cons, List.pairwise_append]
      refine ⟨hdistinct, List.pairwise_singleton _ _, fun pair hpair last hlast => ?_⟩
      rw [List.mem_singleton.mp hlast]
      simp only [hasKey, List.any_eq_true, not_exists, not_and, Bool.not_eq_true] at hnew
      exact hnew pair (List.mem_reverse.mp hpair)

end parts

theorem Closed.yields_ofNode (hP : Closed P) {load? : Option (Node Nat → Load Value)}
    (hload : ∀ load, load? = some load → 0 < depth ∧ ∀ node, Yields (P (depth - 1)) (load node))
    (node : Node Nat) : Yields (P depth) (ofNode load? node) := by
  cases node with
  | «alias» target =>
    rw [ofNode]
    exact yields_failure
  | scalar anchor tag content plain =>
    rw [ofNode]
    split
    · rename_i hvalue
      exact yields_pure (hP.ofScalarNode hvalue)
    · exact yields_failure
  | sequence anchor tag nodes =>
    cases load? with
    | none => exact yields_failure
    | some load =>
      obtain ⟨hdepth, hload⟩ := hload load rfl
      obtain ⟨depth, rfl⟩ := Nat.exists_eq_succ_of_ne_zero hdepth.ne'
      rw [ofNode]
      exact (yields_mapM hload nodes).bind fun items hitems =>
        yields_pure (hP.withTag tag (hP.sequence depth items hitems))
  | mapping anchor tag nodes =>
    cases load? with
    | none => exact yields_failure
    | some load =>
      obtain ⟨hdepth, hload⟩ := hload load rfl
      obtain ⟨depth, rfl⟩ := Nat.exists_eq_succ_of_ne_zero hdepth.ne'
      rw [ofNode]
      exact (yields_loadPairs hload nodes List.Pairwise.nil (by simp)).bind fun pairs hpairs =>
        yields_pure (hP.withTag tag (hP.mapping depth pairs hpairs.1 hpairs.2))

theorem Closed.yields_load (hP : Closed P) (source : Source) (depth : Nat) (node : Node Nat) :
    Yields (P depth) (Value.load source depth node) := by
  induction depth generalizing node with
  | zero => exact (yields_true _).bind fun node _ => hP.yields_ofNode (by simp) node
  | succ depth ih =>
    refine (yields_true _).bind fun node _ => hP.yields_ofNode (fun load hload => ?_) node
    obtain rfl := Option.some.inj hload
    exact ⟨Nat.succ_pos depth, ih⟩

/-- **What the steps of loading keep holds of every value that is read.** -/
theorem Closed.of_parse (hP : Closed P) {text : String} {v : Value} (h : parse text = some v) : P maxDepth v := by
  rw [parse] at h
  obtain ⟨tokens, -, h⟩ := Option.bind_eq_some_iff.mp h
  obtain ⟨root, -, h⟩ := Option.bind_eq_some_iff.mp h
  cases root with
  | none =>
    obtain rfl := Option.some.inj h
    exact hP.ofScalar maxDepth .null (by simp)
  | some node =>
    obtain ⟨⟨node, names⟩, -, h⟩ := Option.bind_eq_some_iff.mp h
    obtain ⟨⟨value, count⟩, hload, h⟩ := Option.bind_eq_some_iff.mp h
    obtain rfl := Option.some.inj h
    exact hP.yields_load _ _ _ _ _ _ hload

end closed

/-! ## Numbers and nesting -/

mutual

/-- The numbers in the value are readable, and it has at most `depth` levels of collections. -/
def Loaded (depth : Nat) : Value → Prop
  | number n => n.Readable
  | sequence items => 0 < depth ∧ LoadedItems (depth - 1) items
  | mapping pairs => 0 < depth ∧ LoadedPairs (depth - 1) pairs
  | tagged _ value => value.Loaded depth
  | _ => True

def LoadedItems (depth : Nat) : List Value → Prop
  | [] => True
  | item :: items => item.Loaded depth ∧ LoadedItems depth items

def LoadedPairs (depth : Nat) : List (Value × Value) → Prop
  | [] => True
  | (_, value) :: pairs => value.Loaded depth ∧ LoadedPairs depth pairs

end

theorem loadedItems_iff {depth : Nat} {items : List Value} :
    LoadedItems depth items ↔ ∀ item ∈ items, item.Loaded depth := by
  induction items with
  | nil => simp [LoadedItems]
  | cons item items ih => rw [LoadedItems, ih, List.forall_mem_cons]

theorem loadedPairs_iff {depth : Nat} {pairs : List (Value × Value)} :
    LoadedPairs depth pairs ↔ ∀ pair ∈ pairs, pair.2.Loaded depth := by
  induction pairs with
  | nil => simp [LoadedPairs]
  | cons pair pairs ih =>
    obtain ⟨key, value⟩ := pair
    rw [LoadedPairs, ih, List.forall_mem_cons]

theorem closed_loaded : Closed Loaded where
  ofScalar depth s h := by
    cases s with
    | number n =>
      rw [Value.ofScalar, Loaded]
      exact h n rfl
    | null => rw [Value.ofScalar, Loaded] <;> simp
    | boolean b => rw [Value.ofScalar, Loaded] <;> simp
    | text s => rw [Value.ofScalar, Loaded] <;> simp
  tagged depth tag value h := by rwa [Loaded]
  sequence depth items h := by
    rw [Loaded, Nat.add_sub_cancel, loadedItems_iff]
    exact ⟨Nat.succ_pos depth, h⟩
  mapping depth pairs _ h := by
    rw [Loaded, Nat.add_sub_cancel, loadedPairs_iff]
    exact ⟨Nat.succ_pos depth, fun pair hpair => (h pair hpair).2⟩

/-! ## Keys -/

/-- The second value is the first one or a part of it, in a key or outside of keys. -/
inductive Holds : Value → Value → Prop
  | self (v : Value) : Holds v v
  | item {items : List Value} {item w : Value} : item ∈ items → Holds item w → Holds (sequence items) w
  | key {pairs : List (Value × Value)} {pair : Value × Value} {w : Value} :
    pair ∈ pairs → Holds pair.1 w → Holds (mapping pairs) w
  | value {pairs : List (Value × Value)} {pair : Value × Value} {w : Value} :
    pair ∈ pairs → Holds pair.2 w → Holds (mapping pairs) w
  | tagged (tag : String) {value w : Value} : Holds value w → Holds (tagged tag value) w

theorem Holds.trans {u v w : Value} (h : u.Holds v) (h' : v.Holds w) : u.Holds w := by
  induction h with
  | self v => exact h'
  | item hitem _ ih => exact .item hitem (ih h')
  | key hpair _ ih => exact .key hpair (ih h')
  | value hpair _ ih => exact .value hpair (ih h')
  | tagged tag _ ih => exact .tagged tag (ih h')

/-- The numbers in the value are readable, and no mapping in it has a key twice. -/
structure WellKeyed (v : Value) : Prop where
  readable (n : Number) : v.Holds (number n) → n.Readable
  distinct (pairs : List (Value × Value)) : v.Holds (mapping pairs) → pairs.Pairwise fun p q => q.1.same p.1 = false

theorem WellKeyed.of_holds {v w : Value} (h : v.WellKeyed) (hw : v.Holds w) : w.WellKeyed :=
  ⟨fun n hn => h.readable n (hw.trans hn), fun pairs hpairs => h.distinct pairs (hw.trans hpairs)⟩

theorem closed_wellKeyed : Closed fun _ => WellKeyed where
  ofScalar _ s h := by
    refine ⟨fun n hn => ?_, fun pairs hpairs => ?_⟩
    · cases s <;> cases hn
      exact h n rfl
    · cases s <;> cases hpairs
  tagged _ tag value h := by
    refine ⟨fun n hn => ?_, fun pairs hpairs => ?_⟩
    · cases hn with
      | tagged _ hn => exact h.readable n hn
    · cases hpairs with
      | tagged _ hpairs => exact h.distinct pairs hpairs
  sequence _ items h := by
    refine ⟨fun n hn => ?_, fun pairs hpairs => ?_⟩
    · cases hn with
      | item hitem hn => exact (h _ hitem).readable n hn
    · cases hpairs with
      | item hitem hpairs => exact (h _ hitem).distinct pairs hpairs
  mapping _ pairs hdistinct h := by
    refine ⟨fun n hn => ?_, fun inner hinner => ?_⟩
    · cases hn with
      | key hpair hn => exact (h _ hpair).1.readable n hn
      | value hpair hn => exact (h _ hpair).2.readable n hn
    · cases hinner with
      | self => exact hdistinct
      | key hpair hinner => exact (h _ hpair).1.distinct inner hinner
      | value hpair hinner => exact (h _ hpair).2.distinct inner hinner

end Value

/-- **A value that is read has readable numbers and is not nested too deeply.** -/
theorem loaded_of_parse {text : String} {v : Value} (h : parse text = some v) : v.Loaded Value.maxDepth :=
  Value.closed_loaded.of_parse h

/-- **No mapping of a value that is read has a key twice.** -/
theorem wellKeyed_of_parse {text : String} {v : Value} (h : parse text = some v) : v.WellKeyed :=
  Value.closed_wellKeyed.of_parse h

end ChartValues.Yaml
