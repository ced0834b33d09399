import ChartValues.Proofs.Completion.Request
import ChartValues.Proofs.Tree.SortText

/-!
# Sorting the items of a response

The items of a response come in the order of their entries' sort keys, and each carries the text of its key for a
host that sorts items by it. Whether the host then has them in the order of the response depends on the keys alone:
it does if and only if every two of them are aligned (`eq_of_hostOrder_iff`). In a chart of a million entries or
fewer all keys are (`handle_hostOrder`), and among the values of a larger one not (`ne_of_hostOrder_values`).
-/

namespace ChartValues

/-- `sorted` is what a host has after sorting `items` by the text of their sort keys. -/
structure HostOrder (items sorted : List Item) : Prop where
  perm : sorted.Perm items
  pairwise : sorted.Pairwise fun a b => a.sortKey ≤ b.sortKey

/-! ## The keys of a response -/

theorem Entry.sortKeys_candidatesBelow_sublist (parent : List String) (entries : List Entry) :
    ∀ seen, ((candidatesBelow parent seen entries).map Candidate.sortKey).Sublist (entries.map Entry.sortKey) := by
  induction entries with
  | nil => exact fun seen => List.Sublist.refl _
  | cons e entries ih =>
    intro seen
    rw [candidatesBelow, List.map_cons]
    split
    · exact (ih seen).cons _
    · split_ifs
      · exact (ih seen).cons _
      · exact (ih _).cons_cons _

theorem sortKeys_candidates_sublist (entries : List Entry) (path : CursorPath) (topKey : String) :
    ((candidates entries path topKey).map Candidate.sortKey).Sublist (entries.map Entry.sortKey) := by
  rw [candidates]
  split
  · exact List.nil_sublist _
  · exact Entry.sortKeys_candidatesBelow_sublist _ _ _

namespace Tree

theorem sortKey_of_mem_flatten {t : Tree} {e : Entry} (h : e ∈ t.flatten) :
    e.sortKey.rank ≤ 1 ∧ e.sortKey.sequence < t.flatten.length := by
  cases t with
  | scalar text kind => simp [flatten] at h
  | object fields =>
    have hperm := ordered_perm fields
    rw [flatten_object] at h ⊢
    have hmem : e ∈ entriesOf [] 0 fields := hperm.mem_iff.mp h
    have hsequence : e.sortKey.sequence ∈ (entriesOf [] 0 fields).map (·.sortKey.sequence) :=
      List.mem_map_of_mem hmem
    rw [sequence_entriesOf, List.mem_range'_1] at hsequence
    rw [hperm.length_eq]
    refine ⟨?_, by omega⟩
    rw [rank_of_mem_entriesOf hmem]
    split <;> omega

end Tree

/-! ## Sorting by text -/

section sorting
variable {items sorted : List Item} {keys : List SortKey}

theorem SortKey.pairwise_text_lt_iff (hranks : ∀ key ∈ keys, key.rank ≤ 1) (hkeys : keys.Pairwise (· < ·)) :
    keys.Pairwise (fun a b => a.text < b.text) ↔ keys.Pairwise Aligned := by
  have hiff : ∀ a ∈ keys, ∀ b ∈ keys, a < b → (a.text < b.text ↔ a.Aligned b) := by
    intro a ha b hb hlt
    rw [← text_lt_iff_lt_iff (hranks a ha) (hranks b hb), iff_true_right hlt]
  constructor
  · intro h
    exact (h.and hkeys).imp_of_mem fun ha hb hab => (hiff _ ha _ hb hab.2).mp hab.1
  · intro h
    exact (h.and hkeys).imp_of_mem fun ha hb hab => (hiff _ ha _ hb hab.2).mpr hab.1

theorem eq_of_hostOrder_iff (htexts : items.map Item.sortKey = keys.map SortKey.text)
    (hranks : ∀ key ∈ keys, key.rank ≤ 1) (hkeys : keys.Pairwise (· < ·)) (h : HostOrder items sorted) :
    sorted = items ↔ keys.Pairwise SortKey.Aligned := by
  have hitems : ∀ (R : String → String → Prop), items.Pairwise (fun a b => R a.sortKey b.sortKey) ↔
      keys.Pairwise (fun a b => R a.text b.text) := by
    intro R
    rw [← List.pairwise_map (f := Item.sortKey), htexts, List.pairwise_map]
  rw [← SortKey.pairwise_text_lt_iff hranks hkeys]
  constructor
  · rintro rfl
    have hle := (hitems (· ≤ ·)).mp h.pairwise
    refine (hle.and hkeys).imp_of_mem fun {a b} ha hb hab => lt_of_le_of_ne hab.1 fun heq => ?_
    obtain rfl := SortKey.eq_of_text_eq (hranks a ha) (hranks b hb) heq
    have := SortKey.lt_iff.mp hab.2
    omega
  · intro hlt
    have hsorted := (hitems (· < ·)).mpr hlt
    have hnodup : (items.map Item.sortKey).Nodup := List.pairwise_map.mpr (hsorted.imp ne_of_lt)
    refine h.perm.eq_of_pairwise ?_ h.pairwise (hsorted.imp le_of_lt)
    intro a b ha hb hab hba
    exact List.inj_on_of_nodup_map hnodup (h.perm.mem_iff.mp ha) hb (le_antisymm hab hba)

end sorting

namespace Source

variable {σ : Type}

theorem exists_sortKeys (s : Source σ) (r : Request) : ∃ keys : List SortKey,
    (s.handle r).1.items.map Item.sortKey = keys.map SortKey.text ∧ (∀ key ∈ keys, key.rank ≤ 1) ∧
      keys.Pairwise (· < ·) ∧ ∀ ref tree, r.chart? = some ref → (s.handle r).2.cache.get? ref = some tree →
        ∀ key ∈ keys, key.sequence < tree.flatten.length := by
  by_cases hitems : (s.handle r).1.items = []
  · exact ⟨[], by simp [hitems], by simp, List.Pairwise.nil, by simp⟩
  obtain ⟨block, ref, path, tree, hcancelled, hplan, hget, hresponse⟩ := items_handle hitems
  have hsublist := sortKeys_candidates_sublist tree.flatten path block.topKey
  have hkey : ∀ key ∈ (candidates tree.flatten path block.topKey).map Candidate.sortKey,
      key.rank ≤ 1 ∧ key.sequence < tree.flatten.length := by
    intro key hmem
    obtain ⟨e, he, rfl⟩ := List.mem_map.mp (hsublist.subset hmem)
    exact Tree.sortKey_of_mem_flatten he
  refine ⟨_, ?_, fun key hmem => (hkey key hmem).1, ?_, ?_⟩
  · rw [hresponse, itemsIn, List.map_map, List.map_map]
    rfl
  · exact (List.pairwise_map.mpr (Tree.pairwise_sortKey_flatten tree)).sublist hsublist
  · intro ref' tree' hchart hget' key hmem
    obtain rfl : ref = ref' :=
      Option.some.inj ((Request.chart?_eq_some_iff.mpr ⟨hcancelled, _, _, hplan⟩).symm.trans hchart)
    obtain rfl : tree = tree' := Option.some.inj (hget.symm.trans hget')
    exact (hkey key hmem).2

end Source

/-! ## Large charts -/

theorem exists_hostOrder (items : List Item) : ∃ sorted, HostOrder items sorted := by
  refine ⟨items.mergeSort fun a b => a.sortKey ≤ b.sortKey, List.mergeSort_perm _ _, ?_⟩
  have hsorted : (items.mergeSort fun a b => a.sortKey ≤ b.sortKey).Pairwise
      fun a b => decide (a.sortKey ≤ b.sortKey) = true := by
    apply List.pairwise_mergeSort
    · intro a b c hab hbc
      exact decide_eq_true (le_trans (of_decide_eq_true hab) (of_decide_eq_true hbc))
    · intro a b
      simpa using le_total a.sortKey b.sortKey
  exact hsorted.imp of_decide_eq_true

/-- The fields of a chart that holds a value for each of the keys. -/
def Tree.values (keys : List String) : List (String × Tree) := keys.map fun key => (key, .number "1")

theorem Tree.entriesOf_values (start : Nat) (keys : List String) : entriesOf [] start (values keys) =
    (keys.zipIdx start).map fun key => Entry.ofNode [key.1] (.number "1") key.2 := by
  induction keys generalizing start with
  | nil => rfl
  | cons key keys ih =>
    rw [List.zipIdx_cons, List.map_cons, ← ih (start + 1)]
    rfl

theorem Tree.flatten_values (keys : List String) : (object (values keys)).flatten =
    (keys.zipIdx 0).map fun key => Entry.ofNode [key.1] (.number "1") key.2 := by
  have hvalue : ∀ e ∈ entriesOf [] 0 (values keys), e.isObject = false := by
    intro e he
    rw [entriesOf_values] at he
    obtain ⟨key, -, rfl⟩ := List.mem_map.mp he
    rfl
  rw [flatten_object, ordered, List.filter_eq_nil_iff.mpr fun e he => by simp [hvalue e he],
    List.filter_eq_self.mpr fun e he => by simp [hvalue e he], List.nil_append, entriesOf_values]

theorem Entry.sortKeys_values (keys seen : List String) (start : Nat) (hkeys : keys.Nodup)
    (hseen : ∀ key ∈ keys, key ∉ seen) :
    (candidatesBelow [] seen ((keys.zipIdx start).map fun key => Entry.ofNode [key.1] (.number "1") key.2)).map
      Candidate.sortKey = (List.range' start keys.length).map fun n => ⟨1, n⟩ := by
  induction keys generalizing seen start with
  | nil => rfl
  | cons key keys ih =>
    obtain ⟨hkey, hrest⟩ := List.nodup_cons.mp hkeys
    have hlater : ∀ key' ∈ keys, key' ∉ key :: seen := by
      intro key' hmem
      rw [List.mem_cons, not_or]
      exact ⟨fun heq => hkey (heq ▸ hmem), hseen key' (List.mem_cons_of_mem _ hmem)⟩
    have hlabel : labelBelow [] (Entry.ofNode [key] (.number "1") start).path = some key := rfl
    rw [List.zipIdx_cons, List.map_cons, candidatesBelow, hlabel]
    simp only [if_neg (hseen key List.mem_cons_self)]
    rw [List.map_cons, ih _ _ hrest hlater, List.length_cons, List.range'_succ, List.map_cons]
    rfl

theorem SortKey.not_pairwise_aligned {n : Nat} (hn : 1000000 < n) :
    ¬ ((List.range' 0 n).map fun i => (⟨1, i⟩ : SortKey)).Pairwise Aligned := by
  intro h
  rw [List.pairwise_map, List.pairwise_iff_getElem] at h
  have hlast := h 999999 1000000 (by rw [List.length_range']; omega) (by rw [List.length_range']; omega) (by decide)
  simp only [List.getElem_range', Nat.zero_add, Nat.one_mul] at hlast
  exact absurd hlast (by decide)

namespace Source

variable {σ : Type} {s : Source σ} {r : Request} {block : Block} {ref : String} {path : CursorPath} {keys : List String}

theorem ne_of_hostOrder_values (hcancelled : r.cancelled = false)
    (hplan : r.document.plan r.position = .needs block ref path) (hroot : path.relativeTo block.topKey = some [])
    (hget : s.cache.get? ref = some (.object (Tree.values keys))) (hkeys : keys.Nodup)
    (hlength : 1000000 < keys.length) {sorted : List Item} (h : HostOrder (s.handle r).1.items sorted) :
    sorted ≠ (s.handle r).1.items := by
  have hchart : r.chart? = some ref := Request.chart?_eq_some_iff.mpr ⟨hcancelled, _, _, hplan⟩
  have hnumbers := Entry.sortKeys_values keys [] 0 hkeys (by simp)
  have htexts : (s.handle r).1.items.map Item.sortKey =
      ((List.range' 0 keys.length).map fun n => (⟨1, n⟩ : SortKey)).map SortKey.text := by
    rw [handle_of_hit hchart hget, Request.answer_ok hplan, itemsIn, candidates, hroot, ← hnumbers,
      Tree.flatten_values, List.map_map, List.map_map]
    rfl
  have hincreasing : ((List.range' 0 keys.length).map fun n => (⟨1, n⟩ : SortKey)).Pairwise (· < ·) := by
    rw [List.pairwise_map]
    refine List.Pairwise.imp ?_ List.pairwise_lt_range'
    intro i j hlt
    exact SortKey.lt_iff.mpr (Or.inr ⟨rfl, hlt⟩)
  rw [Ne, eq_of_hostOrder_iff htexts (by simp) hincreasing h]
  exact SortKey.not_pairwise_aligned hlength

/-! ## The main statement -/

/-- **The text of a sort key sorts like the key if and only if the keys are aligned.** For two keys this is an
equivalence. For a response it decides what a host has after sorting the items by text: the order of the response
exactly if the keys of the items are aligned, as they are for a chart of at most a million entries. -/
theorem handle_hostOrder (s : Source σ) (r : Request) :
    (∀ a b : SortKey, a.rank ≤ 1 → b.rank ≤ 1 → ((a.text < b.text ↔ a < b) ↔ a.Aligned b)) ∧
    ∃ keys : List SortKey, (s.handle r).1.items.map Item.sortKey = keys.map SortKey.text ∧
      (∀ key ∈ keys, key.rank ≤ 1) ∧ keys.Pairwise (· < ·) ∧
      (∀ sorted, HostOrder (s.handle r).1.items sorted →
        (sorted = (s.handle r).1.items ↔ keys.Pairwise SortKey.Aligned)) ∧
      ∀ ref tree, r.chart? = some ref → (s.handle r).2.cache.get? ref = some tree →
        tree.flatten.length ≤ 1000000 → keys.Pairwise SortKey.Aligned := by
  refine ⟨fun a b => SortKey.text_lt_iff_lt_iff, ?_⟩
  obtain ⟨keys, htexts, hranks, hkeys, hsequence⟩ := s.exists_sortKeys r
  refine ⟨keys, htexts, hranks, hkeys, fun sorted => eq_of_hostOrder_iff htexts hranks hkeys, ?_⟩
  intro ref tree hchart hget hlength
  have hbelow := hsequence ref tree hchart hget
  refine List.Pairwise.imp_of_mem ?_ hkeys
  intro a b ha hb _
  have := hbelow a ha
  have := hbelow b hb
  exact SortKey.aligned_of_lt (by omega) (by omega)

/-- A key below a hundred thousand and one of a million are aligned although one is written with more digits, and
the two items of a small chart stay in their order. -/
theorem handle_hostOrder_auth :
    let r : Request := ⟨⟨"values.yaml", "# @a/b\nx:\n  "⟩, ⟨3, 2⟩, false⟩
    let tree : Tree := .object [("port", .number "80"), ("auth", .object [])]
    let s : Source Unit := { provider := .ofCharts [], state := (), cache := { trees := [("a/b", tree)], misses := 1 } }
    ((⟨0, 99999⟩ : SortKey).text < (⟨0, 1000000⟩ : SortKey).text ↔ (⟨0, 99999⟩ : SortKey) < ⟨0, 1000000⟩) ∧
      r.chart? = some "a/b" ∧ (s.handle r).2.cache.get? "a/b" = some tree ∧ tree.flatten.length ≤ 1000000 ∧
      ∀ sorted, HostOrder (s.handle r).1.items sorted → sorted = (s.handle r).1.items := by
  intro r tree s
  obtain ⟨htexts, keys, -, -, -, hsorted, haligned⟩ := s.handle_hostOrder r
  have hchart : r.chart? = some "a/b" := by decide +kernel
  have hget : (s.handle r).2.cache.get? "a/b" = some tree := s.keeps_handle r "a/b" tree rfl
  have hlength : tree.flatten.length ≤ 1000000 := by
    rw [Tree.flatten_object]
    decide
  refine ⟨(htexts _ _ (by decide) (by decide)).mpr (by decide), hchart, hget, hlength, fun sorted h => ?_⟩
  exact (hsorted sorted h).mpr (haligned "a/b" tree hchart hget hlength)

/-- With a million entries and one more, the last two are in another order as texts, and a host has the values of such
a chart in another order than the response. -/
theorem hostOrder_million :
    let r : Request := ⟨⟨"values.yaml", "# @a/b\nx:\n  "⟩, ⟨3, 2⟩, false⟩
    let tree : Tree := .object (Tree.values ((List.range 1000001).map SortKey.sixDigits))
    let s : Source Unit := { provider := .ofCharts [], state := (), cache := { trees := [("a/b", tree)], misses := 1 } }
    ¬ ((⟨0, 999999⟩ : SortKey).text < (⟨0, 1000000⟩ : SortKey).text ↔ (⟨0, 999999⟩ : SortKey) < ⟨0, 1000000⟩) ∧
      ∃ sorted, HostOrder (s.handle r).1.items sorted ∧ sorted ≠ (s.handle r).1.items := by
  intro r tree s
  constructor
  · rw [SortKey.text_lt_iff_lt_iff (by decide) (by decide)]
    decide
  · obtain ⟨sorted, hsorted⟩ := exists_hostOrder (s.handle r).1.items
    have hplan : r.document.plan r.position = .needs ⟨"x", some "a/b", 1, 2, 0⟩ "a/b" ⟨["x"], none⟩ := by
      decide +kernel
    have hget : s.cache.get? "a/b" = some tree := rfl
    refine ⟨sorted, hsorted, ne_of_hostOrder_values rfl hplan rfl hget ?_ ?_ hsorted⟩
    · exact List.Nodup.map SortKey.sixDigits_injective List.nodup_range
    · rw [List.length_map, List.length_range]
      decide

end Source

end ChartValues
