import Mathlib.Data.List.Forall2
import ChartValues.Proofs.Tree.Flatten
import ChartValues.Tree.Candidate

/-!
# Candidates are one level of the tree

Selecting candidates works on the flat list of all entries: it drops the block's key from the cursor's
path, keeps the entries one level below the rest and removes repeated labels. `candidates_flatten` says
that this amounts to looking the rest of the path up in the tree and listing the children of the object
found there, those that are objects first.

The entries at one level are found by walking the path (`children_entriesOf`): the entries of a child whose
key is not the next one of the path all lie elsewhere (`filterMap_entriesOf_of_notMem`), and the entries
of the right child are again entries of children, under the rest of the path
(`filterMap_entriesOf_of_lookup`).
-/

namespace ChartValues

namespace Tree

/-- The children of a node; a scalar has none. -/
def children (t : Tree) : List (String × Tree) := t.fields?.getD []

def childrenAt (t : Tree) (path : List String) : List (String × Tree) :=
  ((t.get? path).map children).getD []

/-- The fields that hold objects, then the others, each group in order. -/
def objectsFirst (fields : List (String × Tree)) : List (String × Tree) :=
  fields.filter (·.2.isObject) ++ fields.filter (!·.2.isObject)

theorem mem_objectsFirst {fields : List (String × Tree)} {field : String × Tree} :
    field ∈ objectsFirst fields ↔ field ∈ fields :=
  (List.filter_append_perm _ fields).mem_iff

theorem flatten_eq_ordered (t : Tree) : t.flatten = ordered t.children := by
  cases t with
  | scalar text kind => rfl
  | object fields => exact flatten_object fields

theorem child?_eq_lookup (t : Tree) (key : String) : t.child? key = lookup key t.children := by
  cases t <;> rfl

theorem childrenAt_cons (t : Tree) (key : String) (path : List String) :
    t.childrenAt (key :: path) = ((lookup key t.children).map (·.childrenAt path)).getD [] := by
  rw [childrenAt, get?_cons, child?_eq_lookup]
  cases lookup key t.children <;> rfl

theorem UniqueKeys.children {t : Tree} (ht : t.UniqueKeys) :
    (t.children.map Prod.fst).Nodup ∧ UniqueKeysBelow t.children := by
  cases t with
  | scalar text kind => exact ⟨List.nodup_nil, trivial⟩
  | object fields => exact ht

theorem entriesAt_eq_append (path : List String) (start : Nat) (t : Tree) :
    ∃ n, entriesAt path start t = entriesOf path start t.children ++ [Entry.ofNode path t n] := by
  cases t with
  | scalar text kind => exact ⟨start, by simp [entriesAt, children, fields?, entriesOf]⟩
  | object fields => exact ⟨_, by rw [entriesAt]; rfl⟩

end Tree

/-! ## Selecting the entries below a path -/

namespace Entry

open ChartValues.Tree (lookup entriesAt entriesOf)

theorem labelBelow_eq_some {parent path : List String} {label : String} :
    labelBelow parent path = some label ↔ path = parent ++ [label] := by
  induction parent generalizing path with
  | nil =>
    cases path with
    | nil => simp [labelBelow]
    | cons key rest => cases rest <;> simp [labelBelow]
  | cons p parent ih =>
    cases path with
    | nil => simp [labelBelow]
    | cons key rest =>
      by_cases hp : p = key
      · simp [labelBelow, hp, ih]
      · simp [labelBelow, hp, Ne.symm hp]

/-- The candidate of an entry, if it lies one level below `parent`. -/
def candidateBelow (parent : List String) (e : Entry) : Option Candidate :=
  (labelBelow parent e.path).map (Candidate.ofEntry e)

theorem candidateBelow_eq_some {parent : List String} {e : Entry} {c : Candidate} :
    candidateBelow parent e = some c ↔
      ∃ label, e.path = parent ++ [label] ∧ c = Candidate.ofEntry e label := by
  simp only [candidateBelow, Option.map_eq_some_iff, labelBelow_eq_some, @eq_comm Candidate _ c]

theorem candidateBelow_eq_none {parent : List String} {e : Entry}
    (h : ∀ label, e.path ≠ parent ++ [label]) : candidateBelow parent e = none := by
  rw [Option.eq_none_iff_forall_ne_some]
  intro c hc
  obtain ⟨label, hpath, -⟩ := candidateBelow_eq_some.mp hc
  exact h label hpath

theorem candidatesBelow_eq_filterMap (parent : List String) :
    ∀ (entries : List Entry) (seen : List String), (entries.map Entry.path).Nodup →
      (∀ e ∈ entries, ∀ label ∈ seen, e.path ≠ parent ++ [label]) →
      candidatesBelow parent seen entries = entries.filterMap (candidateBelow parent) := by
  intro entries
  induction entries with
  | nil => intro seen _ _; rfl
  | cons e rest ih =>
    intro seen hnd hseen
    rw [List.map_cons, List.nodup_cons] at hnd
    have hrest : ∀ e' ∈ rest, ∀ label ∈ seen, e'.path ≠ parent ++ [label] :=
      fun e' he' => hseen e' (List.mem_cons_of_mem _ he')
    rw [candidatesBelow]
    cases hlabel : labelBelow parent e.path with
    | none =>
      simp only [List.filterMap_cons, candidateBelow, hlabel, Option.map_none]
      exact ih seen hnd.2 hrest
    | some label =>
      have hpath := labelBelow_eq_some.mp hlabel
      have hnew : label ∉ seen := fun hmem => hseen e List.mem_cons_self label hmem hpath
      simp only [List.filterMap_cons, candidateBelow, hlabel, Option.map_some, if_neg hnew]
      refine congrArg _ (ih (label :: seen) hnd.2 fun e' he' l hl hpath' => ?_)
      rcases List.mem_cons.mp hl with rfl | hl
      · exact hnd.1 (List.mem_map.mpr ⟨e', he', hpath'.trans hpath.symm⟩)
      · exact hrest e' he' l hl hpath'

/-! ## The entries at one level -/

/-- The candidate that a field gives below `parent`, up to its number. -/
def FieldCandidate (parent : List String) (field : String × Tree) (c : Candidate) : Prop :=
  ∃ n, c = Candidate.ofEntry (ofNode (parent ++ [field.1]) field.2 n) field.1

theorem fields_entriesOf (path : List String) (start : Nat) (fields : List (String × Tree)) :
    List.Forall₂ (FieldCandidate path) fields
      ((entriesOf path start fields).filterMap (candidateBelow path)) := by
  induction fields generalizing start with
  | nil => simp [entriesOf]
  | cons field rest ih =>
    obtain ⟨key, child⟩ := field
    obtain ⟨n, hentries⟩ := Tree.entriesAt_eq_append (path ++ [key]) start child
    have hdeeper : (entriesOf (path ++ [key]) start child.children).filterMap
        (candidateBelow path) = [] := by
      rw [List.filterMap_eq_nil_iff]
      intro e he
      obtain ⟨key', -, below, node, n, rfl⟩ := Tree.entriesOf_ofNode _ _ _ e he
      exact candidateBelow_eq_none (by simp [ofNode])
    have hown : candidateBelow path (ofNode (path ++ [key]) child n) =
        some (Candidate.ofEntry (ofNode (path ++ [key]) child n) key) :=
      candidateBelow_eq_some.mpr ⟨key, rfl, rfl⟩
    rw [entriesOf, List.filterMap_append, hentries, List.filterMap_append, hdeeper]
    simp only [List.filterMap_cons, hown, List.filterMap_nil, List.nil_append, List.cons_append]
    exact List.Forall₂.cons ⟨n, rfl⟩ (ih _)

theorem filterMap_entriesOf_of_notMem {path : List String} {key : String} (rest : List String)
    (start : Nat) {fields : List (String × Tree)} (h : key ∉ fields.map Prod.fst) :
    (entriesOf path start fields).filterMap (candidateBelow (path ++ key :: rest)) = [] := by
  rw [List.filterMap_eq_nil_iff]
  intro e he
  obtain ⟨key', hkey', below, node, n, rfl⟩ := Tree.entriesOf_ofNode _ _ _ e he
  refine candidateBelow_eq_none fun label hpath => h ?_
  simp only [ofNode, List.append_assoc, List.cons_append, List.append_cancel_left_eq,
    List.cons.injEq] at hpath
  exact hpath.1 ▸ hkey'

theorem filterMap_entriesOf_of_lookup (path : List String) {key : String} {child : Tree}
    (rest : List String) {fields : List (String × Tree)} :
    ∀ (start : Nat), (fields.map Prod.fst).Nodup → lookup key fields = some child →
      ∃ start', (entriesOf path start fields).filterMap (candidateBelow (path ++ key :: rest)) =
        (entriesOf (path ++ [key]) start' child.children).filterMap
          (candidateBelow (path ++ key :: rest)) := by
  induction fields with
  | nil => simp [lookup]
  | cons field fields ih =>
    obtain ⟨k, v⟩ := field
    intro start hnd hlookup
    rw [List.map_cons, List.nodup_cons] at hnd
    rw [entriesOf, List.filterMap_append]
    by_cases hk : k = key
    · obtain rfl : v = child := by simpa [lookup, hk] using hlookup
      subst hk
      obtain ⟨n, hentries⟩ := Tree.entriesAt_eq_append (path ++ [k]) start v
      have hown : candidateBelow (path ++ k :: rest) (ofNode (path ++ [k]) v n) = none :=
        candidateBelow_eq_none (by simp [ofNode])
      rw [filterMap_entriesOf_of_notMem rest _ hnd.1, hentries, List.filterMap_append]
      exact ⟨start, by simp [hown]⟩
    · have hother : (entriesAt (path ++ [k]) start v).filterMap
          (candidateBelow (path ++ key :: rest)) = [] := by
        rw [List.filterMap_eq_nil_iff]
        intro e he
        obtain ⟨below, node, n, rfl⟩ := Tree.entriesAt_ofNode _ _ _ e he
        exact candidateBelow_eq_none (by simp [ofNode, hk])
      rw [hother, List.nil_append]
      rw [lookup, if_neg hk] at hlookup
      exact ih _ hnd.2 hlookup

theorem children_entriesOf (relative : List String) : ∀ (t : Tree) (path : List String) (start : Nat),
    t.UniqueKeys → List.Forall₂ (FieldCandidate (path ++ relative)) (t.childrenAt relative)
      ((entriesOf path start t.children).filterMap (candidateBelow (path ++ relative))) := by
  induction relative with
  | nil =>
    intro t path start _
    rw [List.append_nil]
    exact fields_entriesOf path start t.children
  | cons key rest ih =>
    intro t path start ht
    rw [Tree.childrenAt_cons]
    cases hlookup : lookup key t.children with
    | none =>
      rw [filterMap_entriesOf_of_notMem rest start (Tree.lookup_eq_none_iff.mp hlookup)]
      exact List.Forall₂.nil
    | some child =>
      have hchild : child.UniqueKeys :=
        Tree.uniqueKeysBelow_iff.mp ht.children.2 _ (Tree.mem_of_lookup hlookup)
      obtain ⟨start', hstart'⟩ :=
        filterMap_entriesOf_of_lookup path rest start ht.children.1 hlookup
      have hlevel := ih child (path ++ [key]) start' hchild
      rw [List.append_assoc, List.singleton_append] at hlevel
      rw [hstart']
      exact hlevel

theorem candidatesBelow_flatten {t : Tree} (ht : t.UniqueKeys) (relative : List String) :
    List.Forall₂ (FieldCandidate relative) (Tree.objectsFirst (t.childrenAt relative))
      (candidatesBelow relative [] t.flatten) := by
  rw [candidatesBelow_eq_filterMap relative _ [] (Tree.nodup_paths_flatten ht) (by simp),
    Tree.flatten_eq_ordered, Tree.ordered, List.filterMap_append]
  have hlevel := children_entriesOf relative t [] 0 ht
  -- a group of entries gives the same group of candidates
  have hgroup : ∀ p : Bool → Bool,
      ((entriesOf [] 0 t.children).filter (p ·.isObject)).filterMap (candidateBelow relative) =
        ((entriesOf [] 0 t.children).filterMap (candidateBelow relative)).filter (p ·.isObject) := by
    intro p
    rw [List.filterMap_filter, List.filter_filterMap]
    refine List.filterMap_congr fun e _ => ?_
    rw [candidateBelow]
    cases labelBelow relative e.path with
    | none => simp
    | some label => simp [Option.filter, Candidate.ofEntry]
  rw [hgroup (fun b => b), hgroup (fun b => !b)]
  refine List.rel_append (List.rel_filter ?_ hlevel) (List.rel_filter ?_ hlevel)
  · rintro field c ⟨n, rfl⟩
    rfl
  · rintro field c ⟨n, rfl⟩
    rfl

end Entry

/-! ## Candidates at a cursor -/

/-- `c` is the candidate for the key `key` of the object at `parent`: it shows the node there, and
accepting it enters the key, with the value of a scalar. -/
structure Candidate.Shows (t : Tree) (parent : List String) (key : String) (c : Candidate) : Prop where
  label : c.label = key
  path : c.path = parent ++ [key]
  node : ∃ node, t.get? (parent ++ [key]) = some node ∧ c.isObject = node.isObject ∧
    c.scalarText = node.text? ∧ c.kind = node.kind? ∧
    c.insertText = match node with
      | .object _ => key ++ ":"
      | .scalar text _ => key ++ ": " ++ text

namespace Entry

theorem FieldCandidate.shows {t : Tree} {parent : List String} {field : String × Tree}
    {c : Candidate} (hget : t.get? (parent ++ [field.1]) = some field.2)
    (h : FieldCandidate parent field c) : c.Shows t parent field.1 := by
  obtain ⟨n, rfl⟩ := h
  refine ⟨rfl, rfl, field.2, hget, rfl, rfl, rfl, ?_⟩
  cases field.2 <;> simp [Candidate.ofEntry, Candidate.insertion, ofNode, Tree.text?, Tree.isObject]

theorem candidatesBelow_flatten_eq_nil {t : Tree} (ht : t.UniqueKeys) {relative : List String}
    (h : ∀ fields, t.get? relative ≠ some (.object fields)) :
    candidatesBelow relative [] t.flatten = [] := by
  have hempty : t.childrenAt relative = [] := by
    rw [Tree.childrenAt]
    cases hnode : t.get? relative with
    | none => rfl
    | some node =>
      cases node with
      | scalar text kind => rfl
      | object fields => exact absurd hnode (h fields)
  have hlevel := candidatesBelow_flatten ht relative
  rw [hempty] at hlevel
  exact List.forall₂_nil_left_iff.mp hlevel

theorem shows_candidatesBelow_flatten {t : Tree} (ht : t.UniqueKeys) {relative : List String}
    {fields : List (String × Tree)} (hget : t.get? relative = some (.object fields)) :
    List.Forall₂ (Candidate.Shows t relative) ((Tree.objectsFirst fields).map Prod.fst)
      (candidatesBelow relative [] t.flatten) := by
  have hfields : t.childrenAt relative = fields := by rw [Tree.childrenAt, hget]; rfl
  have hlevel := candidatesBelow_flatten ht relative
  rw [hfields] at hlevel
  obtain ⟨hlength, hzip⟩ := List.forall₂_iff_zip.mp hlevel
  rw [List.forall₂_map_left_iff]
  refine List.forall₂_iff_zip.mpr ⟨hlength, fun {field c} hpair => (hzip hpair).shows ?_⟩
  have hfield : field ∈ fields := Tree.mem_objectsFirst.mp (List.of_mem_zip hpair).1
  rw [Tree.get?_append_key hget]
  exact Tree.lookup_of_mem (ht.get? hget).1 hfield

theorem pairwise_sortKey_candidatesBelow {t : Tree} (ht : t.UniqueKeys) (relative : List String) :
    (candidatesBelow relative [] t.flatten).Pairwise fun a b => a.sortKey < b.sortKey := by
  rw [candidatesBelow_eq_filterMap relative _ [] (Tree.nodup_paths_flatten ht) (by simp)]
  refine (Tree.pairwise_sortKey_flatten t).filterMap _ ?_
  intro a b hab c hc c' hc'
  obtain ⟨label, -, rfl⟩ := candidateBelow_eq_some.mp hc
  obtain ⟨label', -, rfl⟩ := candidateBelow_eq_some.mp hc'
  exact hab

end Entry

theorem candidates_eq_nil {p : CursorPath} {topKey root : String} {rest : List String}
    (hp : p.elements = root :: rest) (hroot : root ≠ topKey) (entries : List Entry) :
    candidates entries p topKey = [] := by
  simp [candidates, CursorPath.relativeTo, hp, hroot]

theorem candidates_eq_candidatesBelow {p : CursorPath} {topKey : String} {relative : List String}
    (h : p.elements = [] ∧ relative = [] ∨ p.elements = topKey :: relative) (entries : List Entry) :
    candidates entries p topKey = Entry.candidatesBelow relative [] entries := by
  rcases h with ⟨hp, rfl⟩ | hp <;> simp [candidates, CursorPath.relativeTo, hp]

/-- **Candidates are one level of the tree.** Under a path with another root there are none. Else
`relative` is the path without the block's key, and there is one candidate for each key of the object at
`relative`, first for the keys that hold objects, then for those that hold scalars, each group in the
object's order; with no object there, there are none. -/
theorem candidates_flatten (t : Tree) (ht : t.UniqueKeys) (p : CursorPath) (topKey : String) :
    (∀ root rest, p.elements = root :: rest → root ≠ topKey →
      candidates t.flatten p topKey = []) ∧
    ∀ relative, (p.elements = [] ∧ relative = [] ∨ p.elements = topKey :: relative) →
      ((∀ fields, t.get? relative ≠ some (.object fields)) → candidates t.flatten p topKey = []) ∧
      ∀ fields, t.get? relative = some (.object fields) →
        List.Forall₂ (Candidate.Shows t relative) ((Tree.objectsFirst fields).map Prod.fst)
          (candidates t.flatten p topKey) ∧
        (candidates t.flatten p topKey).Pairwise fun a b => a.sortKey < b.sortKey := by
  refine ⟨fun root rest hp hroot => candidates_eq_nil hp hroot _, fun relative hrelative => ?_⟩
  rw [candidates_eq_candidatesBelow hrelative]
  refine ⟨Entry.candidatesBelow_flatten_eq_nil ht, fun fields hget => ⟨?_, ?_⟩⟩
  · exact Entry.shows_candidatesBelow_flatten ht hget
  · exact Entry.pairwise_sortKey_candidatesBelow ht relative

/-- Below `auth`, typed inside the block of `redis`, the object `users` comes before the scalar that
stands above it. -/
theorem candidates_flatten_auth :
    let auth : List (String × Tree) := [("enabled", .boolean true), ("users", .empty)]
    let t : Tree := .object [("port", .number "6379"), ("auth", .object auth)]
    t.UniqueKeys ∧ t.get? ["auth"] = some (.object auth) ∧
      List.Forall₂ (Candidate.Shows t ["auth"]) ["users", "enabled"]
        (candidates t.flatten ⟨["redis"], some "auth"⟩ "redis") := by
  intro auth t
  have ht : t.UniqueKeys := by
    simp [t, auth, Tree.UniqueKeys, Tree.UniqueKeysBelow, Tree.number, Tree.boolean, Tree.empty]
  have hget : t.get? ["auth"] = some (.object auth) := rfl
  refine ⟨ht, hget, ?_⟩
  exact (((candidates_flatten t ht ⟨["redis"], some "auth"⟩ "redis").2 ["auth"] (Or.inr rfl)).2 auth
    hget).1

end ChartValues
