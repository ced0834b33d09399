import Mathlib.Data.List.Nodup
import Mathlib.Data.List.Range
import ChartValues.Proofs.Tree.Distinct
import ChartValues.Tree.Entry

/-!
# The order and the paths of a flattened tree

Entries are numbered one after the other as they are emitted (`sequence_entriesAt`), each one reads back
as the entry of some node below its starting path (`entriesAt_ofNode`), and no path occurs twice when the
tree repeats no key (`nodup_paths_entriesOf`). Hence sorting only moves the objects before the scalars
(`flatten_object`), and the sort keys of the result are strictly increasing (`pairwise_sortKey_flatten`).
-/

namespace ChartValues

namespace SortKey

/-- The strict order of keys: by rank, then by number. -/
instance : LT SortKey where
  lt a b := a.rank < b.rank ∨ a.rank = b.rank ∧ a.sequence < b.sequence

theorem lt_iff {a b : SortKey} :
    a < b ↔ a.rank < b.rank ∨ a.rank = b.rank ∧ a.sequence < b.sequence := Iff.rfl

theorem le_iff {a b : SortKey} :
    a.le b = true ↔ a.rank < b.rank ∨ a.rank = b.rank ∧ a.sequence ≤ b.sequence := by
  simp [le]

theorem le_of_lt {a b : SortKey} (h : a < b) : a.le b = true := by
  rw [lt_iff] at h
  rw [le_iff]
  omega

theorem le_trans {a b c : SortKey} (hab : a.le b = true) (hbc : b.le c = true) :
    a.le c = true := by
  rw [le_iff] at *
  omega

theorem le_total (a b : SortKey) : (a.le b || b.le a) = true := by
  rw [Bool.or_eq_true, le_iff, le_iff]
  omega

theorem le_antisymm {a b : SortKey} (hab : a.le b = true) (hba : b.le a = true) :
    a.rank = b.rank ∧ a.sequence = b.sequence := by
  rw [le_iff] at *
  omega

end SortKey

namespace Tree

/-! ## Numbers -/

mutual

theorem sequence_entriesAt (path : List String) (start : Nat) : ∀ t : Tree,
    (entriesAt path start t).map (·.sortKey.sequence) =
      List.range' start (entriesAt path start t).length
  | scalar text kind => by simp [entriesAt, Entry.ofNode]
  | object fields => by
    rw [entriesAt, List.map_append, sequence_entriesOf path start fields, List.length_append,
      List.length_singleton, List.range'_concat]
    simp [Entry.ofNode]

theorem sequence_entriesOf (path : List String) (start : Nat) : ∀ fields : List (String × Tree),
    (entriesOf path start fields).map (·.sortKey.sequence) =
      List.range' start (entriesOf path start fields).length
  | [] => by simp [entriesOf]
  | (key, child) :: rest => by
    rw [entriesOf, List.map_append, sequence_entriesAt (path ++ [key]) start child,
      sequence_entriesOf path _ rest, List.length_append, List.range'_append_1]

end

theorem pairwise_sequence_entriesOf (path : List String) (start : Nat)
    (fields : List (String × Tree)) :
    (entriesOf path start fields).Pairwise fun a b => a.sortKey.sequence < b.sortKey.sequence := by
  rw [← List.pairwise_map (f := fun e : Entry => e.sortKey.sequence), sequence_entriesOf]
  exact List.pairwise_lt_range'

/-! ## Paths -/

mutual

theorem entriesAt_ofNode (path : List String) (start : Nat) : ∀ (t : Tree),
    ∀ e ∈ entriesAt path start t, ∃ below node n, e = Entry.ofNode (path ++ below) node n
  | scalar text kind => by
    intro e he
    rw [entriesAt, List.mem_singleton] at he
    exact ⟨[], scalar text kind, start, by rw [he, List.append_nil]⟩
  | object fields => by
    intro e he
    rw [entriesAt, List.mem_append, List.mem_singleton] at he
    rcases he with he | rfl
    · obtain ⟨key, -, below, node, n, rfl⟩ := entriesOf_ofNode path start fields e he
      exact ⟨key :: below, node, n, rfl⟩
    · exact ⟨[], object fields, _, by rw [List.append_nil]⟩

theorem entriesOf_ofNode (path : List String) (start : Nat) : ∀ (fields : List (String × Tree)),
    ∀ e ∈ entriesOf path start fields, ∃ key ∈ fields.map Prod.fst, ∃ below node n,
      e = Entry.ofNode (path ++ key :: below) node n
  | [] => by simp [entriesOf]
  | (key, child) :: rest => by
    intro e he
    rw [entriesOf, List.mem_append] at he
    rcases he with he | he
    · obtain ⟨below, node, n, rfl⟩ := entriesAt_ofNode (path ++ [key]) start child e he
      exact ⟨key, by simp, below, node, n, by simp⟩
    · obtain ⟨k, hk, below, node, n, rfl⟩ := entriesOf_ofNode path _ rest e he
      exact ⟨k, List.mem_cons_of_mem _ hk, below, node, n, rfl⟩

end

mutual

theorem nodup_paths_entriesAt (path : List String) (start : Nat) : ∀ (t : Tree), t.UniqueKeys →
    ((entriesAt path start t).map Entry.path).Nodup
  | scalar text kind, _ => by simp [entriesAt]
  | object fields, ht => by
    rw [entriesAt, List.map_append, List.nodup_append]
    refine ⟨nodup_paths_entriesOf path start fields ht.1 ht.2, by simp, ?_⟩
    -- the object's own path is shorter than those of the entries below it
    intro a ha b hb
    obtain ⟨e, he, rfl⟩ := List.mem_map.mp ha
    obtain ⟨key, -, below, node, n, rfl⟩ := entriesOf_ofNode path start fields e he
    have hb : b = path := by simpa [Entry.ofNode] using hb
    simp [Entry.ofNode, hb]

theorem nodup_paths_entriesOf (path : List String) (start : Nat) :
    ∀ (fields : List (String × Tree)), (fields.map Prod.fst).Nodup → UniqueKeysBelow fields →
      ((entriesOf path start fields).map Entry.path).Nodup
  | [], _, _ => by simp [entriesOf]
  | (key, child) :: rest, hnd, hbelow => by
    rw [List.map_cons, List.nodup_cons] at hnd
    rw [entriesOf, List.map_append, List.nodup_append]
    refine ⟨nodup_paths_entriesAt _ start child hbelow.1,
      nodup_paths_entriesOf path _ rest hnd.2 hbelow.2, ?_⟩
    -- after `path`, entries of the first child go on with its key, the others with another one
    rintro a ha b hb rfl
    obtain ⟨e, he, rfl⟩ := List.mem_map.mp ha
    obtain ⟨e', he', hpath⟩ := List.mem_map.mp hb
    obtain ⟨below, node, n, rfl⟩ := entriesAt_ofNode (path ++ [key]) start child e he
    obtain ⟨key', hkey', below', node', n', rfl⟩ := entriesOf_ofNode path _ rest e' he'
    have hkeys : key' = key := by
      simp only [Entry.ofNode, List.append_assoc, List.singleton_append, List.append_cancel_left_eq,
        List.cons.injEq] at hpath
      exact hpath.1
    exact hnd.1 (hkeys ▸ hkey')

end

/-! ## The sorted list -/

theorem rank_of_mem_entriesOf {path : List String} {start : Nat} {fields : List (String × Tree)}
    {e : Entry} (he : e ∈ entriesOf path start fields) :
    e.sortKey.rank = if e.isObject then 0 else 1 := by
  obtain ⟨key, -, below, node, n, rfl⟩ := entriesOf_ofNode path start fields e he
  rfl

/-- The entries in the order of the final list: objects first, each group as it was emitted. -/
def ordered (fields : List (String × Tree)) : List Entry :=
  (entriesOf [] 0 fields).filter (·.isObject) ++ (entriesOf [] 0 fields).filter (!·.isObject)

theorem ordered_perm (fields : List (String × Tree)) : (ordered fields).Perm (entriesOf [] 0 fields) :=
  List.filter_append_perm _ _

theorem pairwise_sortKey_ordered (fields : List (String × Tree)) :
    (ordered fields).Pairwise fun a b => a.sortKey < b.sortKey := by
  have hseq := pairwise_sequence_entriesOf [] 0 fields
  -- two entries of one rank are ordered by their numbers
  have hgroup : ∀ p : Entry → Bool, (∀ a b, p a = true → p b = true → a.isObject = b.isObject) →
      ((entriesOf [] 0 fields).filter p).Pairwise fun a b => a.sortKey < b.sortKey := by
    intro p hp
    refine List.Pairwise.imp_of_mem ?_ (hseq.filter p)
    intro a b ha hb hlt
    rw [List.mem_filter] at ha hb
    refine SortKey.lt_iff.mpr (Or.inr ⟨?_, hlt⟩)
    rw [rank_of_mem_entriesOf ha.1, rank_of_mem_entriesOf hb.1, hp a b ha.2 hb.2]
  refine List.pairwise_append.mpr ⟨hgroup _ ?_, hgroup _ ?_, ?_⟩
  · intro a b ha hb
    rw [ha, hb]
  · intro a b ha hb
    simp only [Bool.not_eq_true'] at ha hb
    rw [ha, hb]
  · intro a ha b hb
    rw [List.mem_filter] at ha hb
    refine SortKey.lt_iff.mpr (Or.inl ?_)
    rw [rank_of_mem_entriesOf ha.1, rank_of_mem_entriesOf hb.1, if_pos ha.2, if_neg (by simpa using hb.2)]
    exact Nat.zero_lt_one

/-- **Sorting puts the objects first** and otherwise keeps the order of emission. -/
theorem flatten_object (fields : List (String × Tree)) :
    (object fields).flatten = ordered fields := by
  have hperm : ((entriesOf [] 0 fields).mergeSort fun a b => a.sortKey.le b.sortKey).Perm
      (ordered fields) :=
    (List.mergeSort_perm _ _).trans (ordered_perm fields).symm
  have hsorted : ((entriesOf [] 0 fields).mergeSort fun a b => a.sortKey.le b.sortKey).Pairwise
      fun a b => a.sortKey.le b.sortKey := by
    apply List.pairwise_mergeSort
    · intro a b c hab hbc
      exact SortKey.le_trans hab hbc
    · intro a b
      exact SortKey.le_total a.sortKey b.sortKey
  have hlt := pairwise_sortKey_ordered fields
  rw [flatten]
  refine hperm.eq_of_pairwise ?_ hsorted (hlt.imp SortKey.le_of_lt)
  -- entries with one key have one number, and numbers are not used twice
  intro a b ha hb hab hba
  have hmem : ∀ e ∈ ordered fields, e ∈ entriesOf [] 0 fields :=
    fun e => (ordered_perm fields).mem_iff.mp
  have hnd : ((entriesOf [] 0 fields).map (·.sortKey.sequence)).Nodup := by
    rw [sequence_entriesOf]
    exact List.nodup_range'
  exact List.inj_on_of_nodup_map hnd (hmem a (hperm.mem_iff.mp ha)) (hmem b hb)
    (SortKey.le_antisymm hab hba).2

theorem pairwise_sortKey_flatten (t : Tree) :
    t.flatten.Pairwise fun a b => a.sortKey < b.sortKey := by
  cases t with
  | scalar text kind => exact List.Pairwise.nil
  | object fields => exact flatten_object fields ▸ pairwise_sortKey_ordered fields

theorem nodup_paths_flatten {t : Tree} (ht : t.UniqueKeys) : (t.flatten.map Entry.path).Nodup := by
  cases t with
  | scalar text kind => exact List.nodup_nil
  | object fields =>
    rw [flatten_object]
    exact ((ordered_perm fields).map Entry.path).nodup_iff.mpr (nodup_paths_entriesOf [] 0 fields ht.1 ht.2)

end Tree

end ChartValues
