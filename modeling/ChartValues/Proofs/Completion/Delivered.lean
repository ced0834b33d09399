import ChartValues.Proofs.Completion.Items
import ChartValues.Proofs.Completion.Request

/-!
# Items after their response

An item carries its chart and its path, and everything else is looked up when it is resolved or executed.
`run_delivered` says that this look-up finds the node that the item was made from, in whatever state the
source is by then, and that the values shown are those of the node under its key. The tree is still there
because no request drops or replaces one (`keeps_run`), and the path leads to the node because items are one
level of the tree (`exists_shows_of_mem_itemsIn`).
-/

namespace ChartValues

/-! ## The values of a node -/

namespace Tree

theorem keyedYaml_eq_toYaml (key : String) (node : Tree) :
    node.keyedYaml key = toYaml 0 (.object [(key, node)]) := by
  have hspaces : spaces 0 = "" := rfl
  cases node with
  | scalar text kind => simp [keyedYaml, toYaml, fieldsYaml, hspaces]
  | object fields =>
    cases fields with
    | nil => simp [keyedYaml, toYaml, fieldsYaml, hspaces]
    | cons field rest => simp [keyedYaml, toYaml, fieldsYaml, hspaces]

end Tree

theorem Item.Shows.getLast?_path {chartRef key : String} {parent : List String} {node : Tree}
    {item : Item} (h : item.Shows chartRef parent key node) :
    item.origin.path.getLast? = some key := by
  rw [h.origin]
  exact List.getLast?_concat

theorem Item.Shows.insertText_of_value {chartRef key : String} {parent : List String} {node : Tree}
    {item : Item} (h : item.Shows chartRef parent key node) (hkind : item.kind = .value) :
    Tree.toYaml 0 (.object [(key, node)]) = item.insertText ++ "\n" := by
  rw [← Tree.keyedYaml_eq_toYaml, h.insertText]
  cases node with
  | object fields => simp [h.kind, Tree.isObject] at hkind
  | scalar text kind => rfl

namespace Source

variable {σ : Type} {s : Source σ} {item : Item} {node : Tree} {key : String}

/-! ## Looking an item up -/

theorem lookup_eq_some {origin : Origin} {tree : Tree}
    (hget : s.cache.get? origin.chartRef = some tree) (hnode : tree.get? origin.path = some node) :
    s.lookup origin = some node := by
  rw [lookup, hget]
  exact hnode

theorem execute_of_lookup (h : s.lookup item.origin = some node)
    (hkey : item.origin.path.getLast? = some key) :
    s.execute item = some ⟨item.origin.chartRef, item.origin.path,
      Tree.toYaml 0 (.object [(key, node)])⟩ := by
  rw [execute, h, hkey, ← Tree.keyedYaml_eq_toYaml]

theorem resolve_of_lookup (h : s.lookup item.origin = some node)
    (hkey : item.origin.path.getLast? = some key) :
    s.resolve item = { item with
      documentation := some (heading item.origin node ++ "\n\n```yaml\n" ++
        Tree.toYaml 0 (.object [(key, node)]) ++ "```\n") } := by
  simp only [resolve, h, document, hkey, Option.getD_some, Tree.keyedYaml_eq_toYaml]

theorem resolve_resolve (s : Source σ) (item : Item) :
    s.resolve (s.resolve item) = s.resolve item := by
  cases h : s.lookup item.origin with
  | none =>
    have hsame : s.resolve item = item := by rw [resolve, h]
    rw [hsame, hsame]
  | some node =>
    have hresolve : s.resolve item =
        { item with documentation := some (document item.origin node) } := by rw [resolve, h]
    rw [hresolve, resolve, h]

/-! ## Responses of a run -/

theorem exists_of_mem_run {requests : List Request} {response : Response}
    (h : response ∈ (s.run requests).1) :
    ∃ before r after, requests = before ++ r :: after ∧
      response = ((s.run before).2.handle r).1 := by
  induction requests generalizing s with
  | nil => simp [run] at h
  | cons r rest ih =>
    rw [run] at h
    rcases List.mem_cons.mp h with rfl | hrest
    · exact ⟨[], r, rest, rfl, rfl⟩
    · obtain ⟨before, r', after, rfl, hresponse⟩ := ih hrest
      exact ⟨r :: before, r', after, rfl, hresponse⟩

theorem shows_of_mem_run (hs : s.UniqueKeys) {requests : List Request} {response : Response}
    (hresponse : response ∈ (s.run requests).1) (hitem : item ∈ response.items) :
    ∃ parent key tree node, (s.run requests).2.cache.get? item.origin.chartRef = some tree ∧
      tree.get? item.origin.path = some node ∧ item.Shows item.origin.chartRef parent key node := by
  obtain ⟨before, r, after, rfl, rfl⟩ := exists_of_mem_run hresponse
  obtain ⟨block, ref, path, tree, -, hplan, hget, hitems⟩ := items_handle (List.ne_nil_of_mem hitem)
  obtain ⟨-, -, -, relative, hrelative⟩ := Document.plan_eq_needs_iff.mp hplan
  have htree : tree.UniqueKeys := ((hs.run before).handle r).cache ref tree hget
  rw [hitems] at hitem
  obtain ⟨key, node, hnode, hshows⟩ := exists_shows_of_mem_itemsIn htree hrelative hitem
  have hkept : (s.run (before ++ r :: after)).2.cache.get? ref = some tree := by
    rw [run_append]
    exact keeps_run ((s.run before).2.handle r).2 after ref tree hget
  refine ⟨relative, key, tree, node, ?_, ?_, ?_⟩
  · rw [hshows.origin]
    exact hkept
  · rw [hshows.origin]
    exact hnode
  · rw [hshows.origin]
    exact hshows

/-- **Delivered items stay resolvable.** An item of a response of a run shows the node at its path in the
tree that the source has for its chart. In this and every later state, executing it shows the values of that
node under its key, which for a value is the text that accepting the item enters; resolving it fills in the
documentation, whose code block holds just these values, changes nothing else, and does nothing when
repeated. -/
theorem run_delivered (s : Source σ) (hs : s.UniqueKeys) (requests : List Request)
    (response : Response) (hresponse : response ∈ (s.run requests).1) (item : Item)
    (hitem : item ∈ response.items) :
    ∃ parent key tree node, (s.run requests).2.cache.get? item.origin.chartRef = some tree ∧
      tree.get? item.origin.path = some node ∧
      item.Shows item.origin.chartRef parent key node ∧
      (item.kind = .value → Tree.toYaml 0 (.object [(key, node)]) = item.insertText ++ "\n") ∧
      ∀ later, let s' := (s.run (requests ++ later)).2
        s'.execute item = some ⟨item.origin.chartRef, item.origin.path,
          Tree.toYaml 0 (.object [(key, node)])⟩ ∧
        s'.resolve item = { item with
          documentation := some (heading item.origin node ++ "\n\n```yaml\n" ++
            Tree.toYaml 0 (.object [(key, node)]) ++ "```\n") } ∧
        s'.resolve (s'.resolve item) = s'.resolve item := by
  obtain ⟨parent, key, tree, node, hget, hnode, hshows⟩ := shows_of_mem_run hs hresponse hitem
  refine ⟨parent, key, tree, node, hget, hnode, hshows, hshows.insertText_of_value,
    fun later => ?_⟩
  have hlater : (s.run (requests ++ later)).2.cache.get? item.origin.chartRef = some tree := by
    rw [run_append]
    exact keeps_run (s.run requests).2 later _ tree hget
  have hlookup : (s.run (requests ++ later)).2.lookup item.origin = some node :=
    lookup_eq_some hlater hnode
  exact ⟨execute_of_lookup hlookup hshows.getLast?_path,
    resolve_of_lookup hlookup hshows.getLast?_path, resolve_resolve _ _⟩

def fickle : Provider Bool where
  fetch _ _ asked := (.ok (if asked then .empty else .object [("port", .number "80")]), true)

theorem fickle_uniqueKeys : fickle.UniqueKeys := by
  rintro ref cancelled asked tree h
  obtain rfl := Except.ok.inj h
  cases asked <;>
    simp [Tree.UniqueKeys, Tree.UniqueKeysBelow, Tree.number, Tree.empty]

/-- The item `port` shows `80` for as long as the source lives, although its provider would now give an
empty tree. -/
theorem run_delivered_port :
    let r : Request := ⟨⟨"values.yaml", "# @a/b\nx:\n  \n"⟩, ⟨3, 2⟩, false⟩
    let s : Source Bool := { provider := fickle, state := false }
    let item : Item := ⟨"port", "port: 80", .value, some "80 (number)", ⟨2, 2, 2⟩, none, "1000000",
      ⟨"a/b", ["port"]⟩⟩
    s.UniqueKeys ∧ { items := [item] } ∈ (s.run [r]).1 ∧
      ∀ later, (s.run ([r] ++ later)).2.execute item = some ⟨"a/b", ["port"], "port: 80\n"⟩ := by
  intro r s item
  have hs : s.UniqueKeys := uniqueKeys_of_empty fickle_uniqueKeys rfl
  have hresponse : { items := [item] } ∈ (s.run [r]).1 := by decide +kernel
  obtain ⟨parent, key, tree, node, -, -, -, hyaml, hlater⟩ :=
    run_delivered s hs [r] { items := [item] } hresponse item List.mem_cons_self
  refine ⟨hs, hresponse, fun later => ?_⟩
  rw [(hlater later).1, hyaml rfl]
  rfl

end Source

end ChartValues
