import ChartValues.Proofs.Tree.Level

/-!
# The nodes behind a flattened tree

Flattening numbers the nodes of a tree in post-order and then moves the objects to the front. Here the list
is compared with the tree through `get?`: every entry reads as the node at its path
(`get?_of_mem_entriesAt`), and conversely the entries of a node, with all that lie below it, stand together
in the entries of every tree around it (`entriesAt_sublist`). The second fact carries the order as well:
of a node and a node below it the lower one is emitted first, and so is the first of two siblings with all
that it holds (`descendant_sublist`, `sibling_sublist`).

`flatten_exact` puts this together: the entries are the nodes below the root, each one once.
-/

namespace ChartValues.Tree

variable {t node : Tree} {path below : List String} {start : Nat} {e : Entry}

/-! ## Entries as nodes -/

mutual

theorem get?_of_mem_entriesAt (path : List String) (start : Nat) : ∀ t : Tree, t.UniqueKeys →
    ∀ e ∈ entriesAt path start t, ∃ below node n,
      t.get? below = some node ∧ e = Entry.ofNode (path ++ below) node n
  | scalar text kind, _ => by
    intro e he
    rw [entriesAt, List.mem_singleton] at he
    exact ⟨[], scalar text kind, start, rfl, by rw [he, List.append_nil]⟩
  | object fields, ht => by
    intro e he
    rw [entriesAt, List.mem_append, List.mem_singleton] at he
    rcases he with he | rfl
    · obtain ⟨key, below, child, node, n, hfield, hget, rfl⟩ :=
        get?_of_mem_entriesOf path start fields ht.2 e he
      have hchild : (object fields).child? key = some child := lookup_of_mem ht.1 hfield
      refine ⟨key :: below, node, n, ?_, rfl⟩
      rw [get?_cons, hchild]
      exact hget
    · exact ⟨[], object fields, _, rfl, by rw [List.append_nil]⟩

theorem get?_of_mem_entriesOf (path : List String) (start : Nat) : ∀ fields : List (String × Tree),
    UniqueKeysBelow fields → ∀ e ∈ entriesOf path start fields, ∃ key below child node n,
      (key, child) ∈ fields ∧ child.get? below = some node ∧
        e = Entry.ofNode (path ++ key :: below) node n
  | [], _ => by simp [entriesOf]
  | (key, child) :: rest, hbelow => by
    intro e he
    rw [entriesOf, List.mem_append] at he
    rcases he with he | he
    · obtain ⟨below, node, n, hget, rfl⟩ :=
        get?_of_mem_entriesAt (path ++ [key]) start child hbelow.1 e he
      exact ⟨key, below, child, node, n, List.mem_cons_self, hget, by simp⟩
    · obtain ⟨k, below, c, node, n, hfield, hget, rfl⟩ :=
        get?_of_mem_entriesOf path _ rest hbelow.2 e he
      exact ⟨k, below, c, node, n, List.mem_cons_of_mem _ hfield, hget, rfl⟩

end

/-! ## Nodes as entries -/

theorem entriesAt_sublist_of_mem {field : String × Tree} (path : List String) :
    ∀ {fields : List (String × Tree)} (start : Nat), field ∈ fields →
      ∃ n, (entriesAt (path ++ [field.1]) n field.2).Sublist (entriesOf path start fields) := by
  intro fields
  induction fields with
  | nil => intro start h; simp at h
  | cons head rest ih =>
    obtain ⟨key, child⟩ := head
    intro start h
    rw [entriesOf]
    rcases List.mem_cons.mp h with rfl | h
    · exact ⟨start, List.sublist_append_left _ _⟩
    · obtain ⟨n, hn⟩ := ih (start + (entriesAt (path ++ [key]) start child).length) h
      exact ⟨n, hn.trans (List.sublist_append_right _ _)⟩

theorem entriesAt_sublist_of_pair {field field' : String × Tree} (path : List String) :
    ∀ {fields : List (String × Tree)} (start : Nat), [field, field'].Sublist fields →
      ∃ n n', (entriesAt (path ++ [field.1]) n field.2 ++
        entriesAt (path ++ [field'.1]) n' field'.2).Sublist (entriesOf path start fields) := by
  intro fields
  induction fields with
  | nil => intro start h; simp at h
  | cons head rest ih =>
    obtain ⟨key, child⟩ := head
    intro start h
    rw [entriesOf]
    rcases List.sublist_cons_iff.mp h with h | ⟨r, hr, hrest⟩
    · obtain ⟨n, n', hn⟩ := ih (start + (entriesAt (path ++ [key]) start child).length) h
      exact ⟨n, n', hn.trans (List.sublist_append_right _ _)⟩
    · obtain ⟨rfl, rfl⟩ := List.cons.inj hr
      obtain ⟨n', hn'⟩ := entriesAt_sublist_of_mem path
        (start + (entriesAt (path ++ [key]) start child).length) (List.singleton_sublist.mp hrest)
      exact ⟨start, n', (List.Sublist.refl _).append hn'⟩

theorem entriesOf_sublist_entriesAt (path : List String) (start : Nat) (t : Tree) :
    (entriesOf path start t.children).Sublist (entriesAt path start t) := by
  obtain ⟨n, hn⟩ := entriesAt_eq_append path start t
  rw [hn]
  exact List.sublist_append_left _ _

theorem entriesAt_sublist : ∀ {below : List String} {t : Tree} (path : List String) (start : Nat),
    t.get? below = some node →
      ∃ n, (entriesAt (path ++ below) n node).Sublist (entriesAt path start t) := by
  intro below
  induction below with
  | nil =>
    intro t path start h
    obtain rfl : t = node := Option.some.inj h
    exact ⟨start, by rw [List.append_nil]⟩
  | cons key rest ih =>
    intro t path start h
    rw [get?_cons, child?_eq_lookup, Option.bind_eq_some_iff] at h
    obtain ⟨child, hchild, hget⟩ := h
    obtain ⟨m, hm⟩ := entriesAt_sublist_of_mem path start (mem_of_lookup hchild)
    obtain ⟨n, hn⟩ := ih (path ++ [key]) m hget
    rw [List.append_assoc, List.singleton_append] at hn
    exact ⟨n, (hn.trans hm).trans (entriesOf_sublist_entriesAt path start t)⟩

theorem entriesAt_sublist_entriesOf {key : String} (path : List String) (start : Nat)
    (h : t.get? (key :: below) = some node) :
    ∃ n, (entriesAt (path ++ key :: below) n node).Sublist (entriesOf path start t.children) := by
  rw [get?_cons, child?_eq_lookup, Option.bind_eq_some_iff] at h
  obtain ⟨child, hchild, hget⟩ := h
  obtain ⟨m, hm⟩ := entriesAt_sublist_of_mem path start (mem_of_lookup hchild)
  obtain ⟨n, hn⟩ := entriesAt_sublist (path ++ [key]) m hget
  rw [List.append_assoc, List.singleton_append] at hn
  exact ⟨n, hn.trans hm⟩

theorem mem_entriesAt_self (path : List String) (start : Nat) (t : Tree) :
    ∃ n, Entry.ofNode path t n ∈ entriesAt path start t := by
  obtain ⟨n, hn⟩ := entriesAt_eq_append path start t
  exact ⟨n, by simp [hn]⟩

theorem mem_entriesAt_of_get? (path : List String) (start : Nat) (h : t.get? below = some node) :
    ∃ n, Entry.ofNode (path ++ below) node n ∈ entriesAt path start t := by
  obtain ⟨m, hm⟩ := entriesAt_sublist path start h
  obtain ⟨n, hn⟩ := mem_entriesAt_self (path ++ below) m node
  exact ⟨n, hm.subset hn⟩

/-! ## Post-order -/

theorem descendant_sublist {lower : Tree} {key : String} (path : List String) (start : Nat)
    (h : t.get? (key :: below) = some lower) :
    ∃ n m, [Entry.ofNode (path ++ key :: below) lower n, Entry.ofNode path t m].Sublist
      (entriesAt path start t) := by
  obtain ⟨m, hm⟩ := entriesAt_eq_append path start t
  obtain ⟨i, hi⟩ := entriesAt_sublist_entriesOf path start h
  obtain ⟨n, hn⟩ := mem_entriesAt_self (path ++ key :: below) i lower
  refine ⟨n, m, ?_⟩
  rw [hm]
  exact (List.singleton_sublist.mpr (hi.subset hn)).append (List.Sublist.refl [Entry.ofNode path t m])

theorem sibling_sublist {field field' : String × Tree} {lower lower' : Tree} {below' : List String}
    (path : List String) (start : Nat) (hfields : [field, field'].Sublist t.children)
    (h : field.2.get? below = some lower) (h' : field'.2.get? below' = some lower') :
    ∃ n n', [Entry.ofNode (path ++ field.1 :: below) lower n,
      Entry.ofNode (path ++ field'.1 :: below') lower' n'].Sublist
        (entriesOf path start t.children) := by
  obtain ⟨m, m', hm⟩ := entriesAt_sublist_of_pair path start hfields
  obtain ⟨n, hn⟩ := mem_entriesAt_of_get? (path ++ [field.1]) m h
  obtain ⟨n', hn'⟩ := mem_entriesAt_of_get? (path ++ [field'.1]) m' h'
  rw [List.append_assoc, List.singleton_append] at hn hn'
  exact ⟨n, n', ((List.singleton_sublist.mpr hn).append (List.singleton_sublist.mpr hn')).trans hm⟩

/-! ## The flattened tree -/

theorem mem_flatten : e ∈ t.flatten ↔ e ∈ entriesOf [] 0 t.children := by
  rw [flatten_eq_ordered]
  exact (ordered_perm t.children).mem_iff

theorem eq_of_mem_flatten {e' : Entry} (ht : t.UniqueKeys) (he : e ∈ t.flatten) (he' : e' ∈ t.flatten)
    (hpath : e.path = e'.path) : e = e' :=
  List.inj_on_of_nodup_map (nodup_paths_flatten ht) he he' hpath

theorem get?_of_mem_flatten (ht : t.UniqueKeys) (he : e ∈ t.flatten) :
    ∃ key below node n, t.get? (key :: below) = some node ∧ e = Entry.ofNode (key :: below) node n := by
  rw [mem_flatten] at he
  obtain ⟨key, below, child, node, n, hfield, hget, rfl⟩ :=
    get?_of_mem_entriesOf [] 0 t.children ht.children.2 e he
  refine ⟨key, below, node, n, ?_, rfl⟩
  rw [get?_cons, child?_eq_lookup, lookup_of_mem ht.children.1 hfield]
  exact hget

theorem mem_flatten_of_get? {key : String} (h : t.get? (key :: below) = some node) :
    ∃ n, Entry.ofNode (key :: below) node n ∈ t.flatten := by
  obtain ⟨m, hm⟩ := entriesAt_sublist_entriesOf [] 0 h
  obtain ⟨n, hn⟩ := mem_entriesAt_self ([] ++ key :: below) m node
  exact ⟨n, mem_flatten.mpr (hm.subset hn)⟩

theorem sequence_lt_of_sublist {e' a b : Entry} (ht : t.UniqueKeys) (he : e ∈ t.flatten)
    (he' : e' ∈ t.flatten) (h : [a, b].Sublist (entriesOf [] 0 t.children)) (ha : a.path = e.path)
    (hb : b.path = e'.path) : e.sortKey.sequence < e'.sortKey.sequence := by
  have hpair := List.pairwise_iff_forall_sublist.mp (pairwise_sequence_entriesOf [] 0 t.children) h
  have hmem : ∀ x ∈ [a, b], x ∈ t.flatten := fun x hx => mem_flatten.mpr (h.subset hx)
  have hae : a = e := eq_of_mem_flatten ht (hmem a (by simp)) he ha
  have hbe : b = e' := eq_of_mem_flatten ht (hmem b (by simp)) he' hb
  rw [← hae, ← hbe]
  exact hpair

/-- `entries` are the nodes of a tree below its root, in the order that completion relies on. -/
structure IsFlattening (t : Tree) (entries : List Entry) : Prop where
  /-- No two entries have one path. -/
  nodup : (entries.map Entry.path).Nodup
  /-- The paths are those that lead to a node below the root. -/
  paths : ∀ path, path ∈ entries.map Entry.path ↔ path ≠ [] ∧ ∃ node, t.get? path = some node
  /-- An entry shows the node at its path. -/
  shows : ∀ e ∈ entries, ∃ node, t.get? e.path = some node ∧ e.isObject = node.isObject ∧
    e.scalarText = node.text? ∧ e.kind = node.kind?
  /-- The numbers are those below the number of entries, each one once. -/
  numbers : (entries.map (·.sortKey.sequence)).Perm (List.range entries.length)
  /-- A node comes behind all that lie below it. -/
  descendants : ∀ e ∈ entries, ∀ e' ∈ entries, e.path <+: e'.path → e.path ≠ e'.path →
    e'.sortKey.sequence < e.sortKey.sequence
  /-- All that lie at or below a key come before all that lie at or below a later key of the object. -/
  siblings : ∀ parent fields, t.get? parent = some (object fields) →
    (fields.map Prod.fst).Pairwise fun key key' => ∀ e ∈ entries, ∀ e' ∈ entries,
      parent ++ [key] <+: e.path → parent ++ [key'] <+: e'.path →
        e.sortKey.sequence < e'.sortKey.sequence
  /-- Objects have the first rank, scalars the second. -/
  rank : ∀ e ∈ entries, e.sortKey.rank = if e.isObject then 0 else 1
  /-- The list has the objects by number, then the scalars by number. -/
  order : ∃ objects scalars, entries = objects ++ scalars ∧
    (∀ e ∈ objects, e.isObject = true) ∧ (∀ e ∈ scalars, e.isObject = false) ∧
    objects.Pairwise (fun e e' => e.sortKey.sequence < e'.sortKey.sequence) ∧
    scalars.Pairwise (fun e e' => e.sortKey.sequence < e'.sortKey.sequence)

theorem mem_paths_flatten (ht : t.UniqueKeys) :
    path ∈ t.flatten.map Entry.path ↔ path ≠ [] ∧ ∃ node, t.get? path = some node := by
  constructor
  · intro h
    obtain ⟨e, he, rfl⟩ := List.mem_map.mp h
    obtain ⟨key, below, node, n, hget, rfl⟩ := get?_of_mem_flatten ht he
    exact ⟨List.cons_ne_nil _ _, node, hget⟩
  · rintro ⟨hne, node, hget⟩
    obtain ⟨key, below, rfl⟩ := List.exists_cons_of_ne_nil hne
    obtain ⟨n, hn⟩ := mem_flatten_of_get? hget
    exact List.mem_map.mpr ⟨_, hn, rfl⟩

theorem numbers_flatten (t : Tree) :
    (t.flatten.map (·.sortKey.sequence)).Perm (List.range t.flatten.length) := by
  have hperm : t.flatten.Perm (entriesOf [] 0 t.children) := by
    rw [flatten_eq_ordered]
    exact ordered_perm t.children
  have hnumbers := hperm.map (·.sortKey.sequence)
  rw [sequence_entriesOf, ← hperm.length_eq, ← List.range_eq_range'] at hnumbers
  exact hnumbers

theorem descendants_flatten {e' : Entry} (ht : t.UniqueKeys) (he : e ∈ t.flatten) (he' : e' ∈ t.flatten)
    (hpath : e.path <+: e'.path) (hne : e.path ≠ e'.path) :
    e'.sortKey.sequence < e.sortKey.sequence := by
  obtain ⟨key, below, node, n, hget, rfl⟩ := get?_of_mem_flatten ht he
  obtain ⟨key', below', lower, n', hget', rfl⟩ := get?_of_mem_flatten ht he'
  obtain ⟨rest, hrest⟩ := hpath
  cases rest with
  | nil => exact absurd ((List.append_nil _).symm.trans hrest) hne
  | cons k rest =>
    have hrest : key :: below ++ k :: rest = key' :: below' := hrest
    rw [← hrest, get?_append, hget] at hget'
    obtain ⟨m, hm⟩ := entriesAt_sublist_entriesOf [] 0 hget
    obtain ⟨i, j, hij⟩ := descendant_sublist (key :: below) m hget'
    exact sequence_lt_of_sublist ht he' he (hij.trans hm) hrest rfl

theorem siblings_flatten (ht : t.UniqueKeys) {parent : List String} {fields : List (String × Tree)}
    (hparent : t.get? parent = some (object fields)) :
    (fields.map Prod.fst).Pairwise fun key key' => ∀ e ∈ t.flatten, ∀ e' ∈ t.flatten,
      parent ++ [key] <+: e.path → parent ++ [key'] <+: e'.path →
        e.sortKey.sequence < e'.sortKey.sequence := by
  rw [List.pairwise_map, List.pairwise_iff_forall_sublist]
  intro field field' hfields e he e' he' hpath hpath'
  -- the nodes of both entries are reached through their fields
  have hreach : ∀ field ∈ fields, ∀ e ∈ t.flatten, parent ++ [field.1] <+: e.path →
      ∃ below lower, field.2.get? below = some lower ∧ e.path = parent ++ field.1 :: below := by
    intro field hfield e he hpath
    obtain ⟨key, below, lower, n, hget, rfl⟩ := get?_of_mem_flatten ht he
    obtain ⟨rest, hrest⟩ := hpath
    have hrest : parent ++ [field.1] ++ rest = key :: below := hrest
    rw [← hrest, get?_append, get?_append_key hparent,
      lookup_of_mem (ht.get? hparent).1 hfield] at hget
    exact ⟨rest, lower, hget, by simp [Entry.ofNode, ← hrest]⟩
  obtain ⟨below, lower, hget, hbelow⟩ := hreach field (hfields.subset (by simp)) e he hpath
  obtain ⟨below', lower', hget', hbelow'⟩ := hreach field' (hfields.subset (by simp)) e' he' hpath'
  have hinside : ∃ m, (entriesOf parent m fields).Sublist (entriesOf [] 0 t.children) := by
    cases parent with
    | nil =>
      obtain rfl : t = object fields := Option.some.inj hparent
      exact ⟨0, List.Sublist.refl _⟩
    | cons key rest =>
      obtain ⟨m, hm⟩ := entriesAt_sublist_entriesOf [] 0 hparent
      exact ⟨m, (entriesOf_sublist_entriesAt _ m (object fields)).trans hm⟩
  obtain ⟨m, hm⟩ := hinside
  obtain ⟨n, n', hn⟩ := sibling_sublist (t := object fields) parent m hfields hget hget'
  exact sequence_lt_of_sublist ht he he' (hn.trans hm) hbelow.symm hbelow'.symm

theorem order_flatten (t : Tree) : ∃ objects scalars, t.flatten = objects ++ scalars ∧
    (∀ e ∈ objects, e.isObject = true) ∧ (∀ e ∈ scalars, e.isObject = false) ∧
    objects.Pairwise (fun e e' => e.sortKey.sequence < e'.sortKey.sequence) ∧
    scalars.Pairwise (fun e e' => e.sortKey.sequence < e'.sortKey.sequence) := by
  have hseq := pairwise_sequence_entriesOf [] 0 t.children
  refine ⟨_, _, flatten_eq_ordered t, ?_, ?_, hseq.filter _, hseq.filter _⟩
  · intro e he
    exact (List.mem_filter.mp he).2
  · intro e he
    simpa using (List.mem_filter.mp he).2

/-- **A flattened tree lists the nodes below its root, each one once**: numbered without a gap in post-order,
with their data, and sorted so that the objects come first. A scalar has no entries. -/
theorem flatten_exact (t : Tree) (ht : t.UniqueKeys) :
    t.IsFlattening t.flatten ∧ (t.isObject = false → t.flatten = []) := by
  refine ⟨⟨nodup_paths_flatten ht, fun path => mem_paths_flatten ht, ?_, numbers_flatten t, ?_, ?_, ?_,
    order_flatten t⟩, ?_⟩
  · intro e he
    obtain ⟨key, below, node, n, hget, rfl⟩ := get?_of_mem_flatten ht he
    exact ⟨node, hget, rfl, rfl, rfl⟩
  · intro e he e' he' hpath hne
    exact descendants_flatten ht he he' hpath hne
  · intro parent fields hparent
    exact siblings_flatten ht hparent
  · intro e he
    exact rank_of_mem_entriesOf (mem_flatten.mp he)
  · intro hscalar
    cases t with
    | scalar text kind => rfl
    | object fields => simp [isObject] at hscalar

/-- In a tree with an object between two scalars, its two children are numbered behind the scalar above it and
before itself. -/
theorem flatten_exact_image :
    let image : List (String × Tree) := [("tag", .string "v1"), ("ports", .scalar "[80]" .sequence)]
    let t : Tree := .object [("replicas", .number "2"), ("image", .object image), ("debug", .boolean false)]
    t.UniqueKeys ∧ t.IsFlattening t.flatten ∧ t.flatten.length = 5 ∧
      ∀ e ∈ t.flatten, ∀ e' ∈ t.flatten, e.path = ["replicas"] → e'.path = ["image", "tag"] →
        e.sortKey.sequence < e'.sortKey.sequence := by
  intro image t
  have ht : t.UniqueKeys := by
    simp [t, image, UniqueKeys, UniqueKeysBelow, number, string, boolean]
  have hexact := (flatten_exact t ht).1
  refine ⟨ht, hexact, ?_, ?_⟩
  · rw [flatten_eq_ordered, (ordered_perm t.children).length_eq]
    rfl
  · intro e he e' he' hpath hpath'
    have hkeys : ["replicas", "image"].Sublist (t.children.map Prod.fst) := by decide
    have hsiblings := List.pairwise_iff_forall_sublist.mp (hexact.siblings [] t.children rfl) hkeys
    refine hsiblings e he e' he' ?_ ?_
    · rw [hpath]
      exact List.prefix_refl _
    · rw [hpath']
      exact ⟨["tag"], rfl⟩

end ChartValues.Tree
