import ChartValues.Proofs.Completion.Items
import ChartValues.Proofs.Completion.Request
import ChartValues.Proofs.Document.Edit

/-!
# Accepting an object and going on below it

A cursor on a line of spaces is offered an object, the object is accepted, and the next line is indented
further. `handle_descend` says that a request there goes one level down: it finds the same block, its path
goes on with the accepted key, the tree is served from the cache, and the response is the children of the
accepted node.
-/

namespace ChartValues

namespace CursorPath

theorem relativeTo_append {segments relative : List String} {topKey : String} (hne : segments ≠ [])
    (h : relativeTo ⟨segments, none⟩ topKey = some relative) (key : String) :
    relativeTo ⟨segments ++ [key], none⟩ topKey = some (relative ++ [key]) := by
  cases segments with
  | nil => exact absurd rfl hne
  | cons root rest =>
    simp only [relativeTo, elements, Option.toList_none, List.append_nil, List.cons_append] at h ⊢
    split_ifs at h ⊢
    exact congrArg (fun relative => some (relative ++ [key])) (Option.some.inj h)

end CursorPath

theorem Item.Shows.exists_object {chartRef key : String} {parent : List String} {node : Tree}
    {item : Item} (h : item.Shows chartRef parent key node) (hkind : item.kind = .object) :
    (∃ fields, node = .object fields) ∧ item.insertText = key ++ ":" := by
  rw [h.kind] at hkind
  rw [h.insertText]
  cases node with
  | object fields => exact ⟨⟨fields, rfl⟩, rfl⟩
  | scalar text kind => simp [Tree.isObject] at hkind

theorem Document.Opens.plan_second {d d' : Document} {l c c₂ : Nat} {key ref : String}
    {block : Block} {path : CursorPath} {relative : List String}
    (h : d.Opens l (Tree.spaces c ++ (key ++ ":")) (Tree.spaces c₂) d')
    (hline : d.line? l = some (Tree.spaces c)) (hc : 1 ≤ c) (hkey : Line.PlainKey key) (hc₂ : c < c₂)
    (hne : path.elements ≠ []) (hplan : d.plan ⟨l, c⟩ = .needs block ref path)
    (hrelative : path.relativeTo block.topKey = some relative) :
    d'.plan ⟨l + 1, c₂⟩ = .needs block ref ⟨path.segments ++ [key], none⟩ ∧
      CursorPath.relativeTo ⟨path.segments ++ [key], none⟩ block.topKey = some (relative ++ [key]) := by
  obtain ⟨hlocate, href, hpath, -⟩ := plan_eq_needs_iff.mp hplan
  have hkeyAt : d.keyAt l = none := by
    rw [keyAt, hline]
    exact Line.topLevelKey_spaces hc
  have hrefAt : d.refAt l = none := by
    rw [refAt, hline]
    exact Line.chartRef_spaces c
  have hlocate' : d'.scan.locate (l + 1) = some block :=
    h.locate_scan hkeyAt hrefAt (Line.topLevelKey_spaces_append hc _)
      (Line.topLevelKey_spaces (by omega)) (Line.chartRef_spaces c₂) hlocate
  have hpath' : d'.pathAt ⟨l + 1, c₂⟩ = .ok ⟨path.segments ++ [key], none⟩ := by
    rw [← String.append_empty (s := ":")] at h
    exact h.pathAt_second hline hkey hc₂ hpath
  obtain ⟨segments, rfl⟩ : ∃ segments, path = ⟨segments, none⟩ :=
    ⟨_, (Except.ok.inj ((pathAt_spaces hline).symm.trans hpath)).symm⟩
  have hrelative' := CursorPath.relativeTo_append
    (by simpa [CursorPath.elements] using hne) hrelative key
  exact ⟨plan_eq_needs_iff.mpr ⟨hlocate', href, hpath', _, hrelative'⟩, hrelative'⟩

namespace Source

variable {σ : Type}

theorem handle_object_of_hit {s : Source σ} {d : Document} {p : Position} {block : Block}
    {ref : String} {path : CursorPath} {relative : List String} {tree : Tree}
    {fields : List (String × Tree)} (hplan : d.plan p = .needs block ref path)
    (hrelative : path.relativeTo block.topKey = some relative)
    (hget : s.cache.get? ref = some tree) (htree : tree.UniqueKeys)
    (hobject : tree.get? relative = some (.object fields)) :
    s.calls ⟨d, p, false⟩ = [] ∧ ∃ items,
      s.handle ⟨d, p, false⟩ =
        ({ items }, { s with cache := { s.cache with hits := s.cache.hits + 1 } }) ∧
      List.Forall₂ (fun field => Item.Shows ref relative field.1 field.2)
        (Tree.objectsFirst fields) items := by
  have hchart : (⟨d, p, false⟩ : Request).chart? = some ref :=
    Request.chart?_eq_some_iff.mpr ⟨rfl, block, path, hplan⟩
  have hchildren : tree.childrenAt relative = fields := by
    rw [Tree.childrenAt, hobject]
    rfl
  have hanswer : (⟨d, p, false⟩ : Request).answer (.ok tree) =
      { items := itemsIn tree path block.topKey ref (d.editRange p path) } :=
    Request.answer_ok (r := ⟨d, p, false⟩) hplan tree
  refine ⟨calls_of_hit hchart hget, itemsIn tree path block.topKey ref (d.editRange p path), ?_, ?_⟩
  · rw [handle_of_hit hchart hget, hanswer]
  · rw [← hchildren]
    exact shows_itemsIn htree hrelative

/-- **Accepting an object and going on below it.** Line `l` consists of `c ≥ 1` spaces, and a request at its
end, where the path is not empty, offers an object under a plain key. Accept it and indent the next line
further: such documents exist, and in each of them the path at the end of the new line is the path of before
followed by the key of the item. A request there, to the same source, makes no call of the provider and is one
more hit; its response has no notice, and its items are the children of the node that the item stands for,
objects first. -/
theorem handle_descend (s : Source σ) (hs : s.UniqueKeys) (d : Document) (l c : Nat)
    (hline : d.line? l = some (Tree.spaces c)) (hc : 1 ≤ c) (path : CursorPath)
    (hpath : d.pathAt ⟨l, c⟩ = .ok path) (hne : path.elements ≠ []) (item : Item)
    (hitem : item ∈ (s.handle ⟨d, ⟨l, c⟩, false⟩).1.items) (hkind : item.kind = .object)
    (hlabel : Line.PlainKey item.label) (c₂ : Nat) (hc₂ : c < c₂) :
    (∃ d', d.Opens l (Tree.spaces c ++ item.insertText) (Tree.spaces c₂) d') ∧
    ∀ d', d.Opens l (Tree.spaces c ++ item.insertText) (Tree.spaces c₂) d' →
      let s₁ := (s.handle ⟨d, ⟨l, c⟩, false⟩).2
      let next : Request := ⟨d', ⟨l + 1, c₂⟩, false⟩
      d'.pathAt ⟨l + 1, c₂⟩ = .ok ⟨path.segments ++ [item.label], none⟩ ∧
      s₁.calls next = [] ∧
      ∃ items tree fields,
        s₁.handle next =
          ({ items }, { s₁ with cache := { s₁.cache with hits := s₁.cache.hits + 1 } }) ∧
        s₁.cache.get? item.origin.chartRef = some tree ∧
        tree.get? item.origin.path = some (.object fields) ∧
        List.Forall₂
          (fun field => Item.Shows item.origin.chartRef item.origin.path field.1 field.2)
          (Tree.objectsFirst fields) items := by
  obtain ⟨block, ref, path', tree, -, hplan, hget, hitems⟩ := items_handle (List.ne_nil_of_mem hitem)
  obtain ⟨hlocate, href, hpath', relative, hrelative⟩ := Document.plan_eq_needs_iff.mp hplan
  obtain rfl : path' = path := Except.ok.inj (hpath'.symm.trans hpath)
  have htree : tree.UniqueKeys := (hs.handle _).cache ref tree hget
  rw [hitems] at hitem
  obtain ⟨key, node, hnode, hshows⟩ := exists_shows_of_mem_itemsIn htree hrelative hitem
  obtain ⟨⟨fields, rfl⟩, hinsert⟩ := hshows.exists_object hkind
  rw [hshows.label] at hlabel ⊢
  rw [hinsert, hshows.origin]
  refine ⟨Document.exists_opens hline ?_ ?_, fun d' hopens => ?_⟩
  · simp [Line.toList_spaces, hlabel.noLineFeed]
  · simp [Line.toList_spaces]
  · obtain ⟨hplan', hrelative'⟩ := hopens.plan_second hline hc hlabel hc₂ hne hplan hrelative
    generalize (s.handle ⟨d, ⟨l, c⟩, false⟩).2 = s₁ at hget ⊢
    intro next
    obtain ⟨hcalls, items, hhandle, hshows'⟩ :=
      handle_object_of_hit hplan' hrelative' hget htree hnode
    exact ⟨(Document.plan_eq_needs_iff.mp hplan').2.2.1, hcalls, items, tree, fields, hhandle, hget,
      hnode, hshows'⟩

/-- Below `x:` the item `auth` is accepted and the next line is indented by four: the document that has been
edited so reads one level further down, and offers the two children from the cache, the object first. -/
theorem handle_descend_auth :
    let d : Document := ⟨"values.yaml", "# @a/b\nx:\n  \ny:\n"⟩
    let d' : Document := ⟨"values.yaml", "# @a/b\nx:\n  auth:\n    \ny:\n"⟩
    let db : Tree := .object [("host", .null)]
    let tree : Tree := .object [("auth", .object [("port", .number "80"), ("db", db)])]
    let s : Source Unit :=
      { provider := .ofCharts [], state := (), cache := { trees := [("a/b", tree)], misses := 1 } }
    let s₁ := (s.handle ⟨d, ⟨3, 2⟩, false⟩).2
    let next : Request := ⟨d', ⟨4, 4⟩, false⟩
    d.Opens 3 "  auth:" "    " d' ∧
    (∃ item ∈ (s.handle ⟨d, ⟨3, 2⟩, false⟩).1.items, item.label = "auth" ∧ item.kind = .object) ∧
      d'.pathAt ⟨4, 4⟩ = .ok ⟨["x", "auth"], none⟩ ∧ s₁.calls next = [] ∧
      (s₁.handle next).2.cache.hits = 2 ∧ (s₁.handle next).1.notices = [] ∧
      (s₁.handle next).1.items.map Item.label = ["db", "port"] := by
  intro d d' db tree s s₁ next
  have htexts : d.texts = ["# @a/b", "x:", "  ", "y:"] := by decide +kernel
  have htexts' : d'.texts = ["# @a/b", "x:", "  auth:", "    ", "y:"] := by decide +kernel
  have hopens : d.Opens 3 "  auth:" "    " d' := by
    refine ⟨by decide +kernel, by decide +kernel, by decide +kernel, fun m hm => ?_⟩
    obtain ⟨i, rfl⟩ : ∃ i, m = i + 4 := ⟨m - 4, by omega⟩
    rw [Document.line?_succ_eq, htexts', Document.line?_succ_eq, htexts]
    rfl
  have htree : tree.UniqueKeys := by
    simp [Tree.UniqueKeys, Tree.UniqueKeysBelow, Tree.number, Tree.null, tree, db]
  have hs : s.UniqueKeys := by
    refine ⟨Provider.ofCharts_uniqueKeys [], fun ref tree' h => ?_⟩
    obtain ⟨-, rfl⟩ : "a/b" = ref ∧ tree = tree' := by
      simpa [s, Cache.get?, Tree.lookup] using h
    exact htree
  have hplan : d.plan ⟨3, 2⟩ = .needs ⟨"x", some "a/b", 1, 2, 0⟩ "a/b" ⟨["x"], none⟩ := by decide +kernel
  obtain ⟨-, items, hfirst, hshows⟩ := handle_object_of_hit (s := s) hplan rfl rfl htree rfl
  -- the tree has one field, so there is one item
  obtain _ | @⟨_, item, _, _, hauth, _ | _⟩ := hshows
  have hitem : item ∈ (s.handle ⟨d, ⟨3, 2⟩, false⟩).1.items := by
    rw [hfirst]
    exact List.mem_cons_self
  have hkind : item.kind = .object := hauth.kind
  have hlabel : Line.PlainKey item.label := by
    rw [hauth.label]
    refine ⟨by decide, by decide, by decide, fun c hc => ?_, fun c hc => ?_, by decide⟩
    · obtain rfl : 'a' = c := by simpa using hc
      rfl
    · obtain rfl : 'h' = c := by simpa using hc
      rfl
  obtain ⟨-, hdescend⟩ := handle_descend s hs d 3 2 (by decide +kernel) (by decide) ⟨["x"], none⟩
    (by decide +kernel) (by decide) item hitem hkind hlabel 4 (by decide)
  rw [hauth.insertText, hauth.label, hauth.origin] at hdescend
  obtain ⟨hpath, hcalls, items, tree', fields, hhandle, hget, hnode, hchildren⟩ := hdescend d' hopens
  have hnext : s₁.handle next = _ := hhandle
  refine ⟨hopens, ⟨item, hitem, hauth.label, hkind⟩, hpath, hcalls, by decide +kernel, ?_, ?_⟩
  · rw [hnext]
  · obtain rfl : tree = tree' :=
      Option.some.inj ((s.keeps_handle _ "a/b" tree rfl).symm.trans hget)
    obtain rfl : [("port", .number "80"), ("db", db)] = fields :=
      Tree.object.inj (Option.some.inj hnode)
    rw [hnext]
    obtain _ | ⟨hdb, _ | ⟨hport, _ | _⟩⟩ := hchildren
    simp [hdb.label, hport.label]

end Source

end ChartValues
