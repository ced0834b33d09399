import Mathlib.Data.Finset.Card
import ChartValues.Proofs.Block.Store

/-!
# Blocks after any commits

Whatever blocks are committed one after the other, the store can be told from the list of commits alone
(`commitAll_blocks`): keys come in the order of their first commits, each with the last block committed under it,
and each commit gives back the block that was last committed under its key. What `locate` finds holds of every store;
a key that is committed again keeps its place, which is what decides between blocks of one rank.
-/

namespace ChartValues.Blocks

/-- Store blocks one after the other. -/
def commitAll (bs : Blocks) (blocks : List Block) : Blocks := blocks.foldl commit bs

/-- What each of the commits gives back: the block that it replaces. -/
def replacements (bs : Blocks) : List Block → List (Option Block)
  | [] => []
  | b :: rest => bs.replaced b :: (bs.commit b).replacements rest

/-- The last of some blocks that has the key `key`. -/
def lastUnder (key : String) (blocks : List Block) : Option Block :=
  (blocks.filter fun b => b.topKey == key).getLast?

variable {bs : Blocks} {blocks : List Block} {b : Block}

/-! ## One more commit -/

theorem commitAll_concat (bs : Blocks) (blocks : List Block) (b : Block) :
    bs.commitAll (blocks ++ [b]) = (bs.commitAll blocks).commit b := by
  rw [commitAll, commitAll, List.foldl_append]
  rfl

theorem lastUnder_concat (key : String) (blocks : List Block) (b : Block) :
    lastUnder key (blocks ++ [b]) = if b.topKey = key then some b else lastUnder key blocks := by
  by_cases hkey : b.topKey = key <;> simp [lastUnder, List.filter_append, hkey]

theorem eraseDups_concat (keys : List String) (key : String) :
    (keys ++ [key]).eraseDups = if key ∈ keys then keys.eraseDups else keys.eraseDups ++ [key] := by
  rw [List.eraseDups_append]
  by_cases hkey : key ∈ keys <;> simp [List.removeAll, List.eraseDups_cons, hkey]

theorem nodup_keys_commit (h : bs.keys.Nodup) (b : Block) : (bs.commit b).keys.Nodup := by
  rw [keys_commit]
  split_ifs with hmem
  · exact h
  · exact h.append (List.nodup_singleton _) (by simpa using hmem)

/-! ## All commits -/

theorem nodup_keys_commitAll (blocks : List Block) : (empty.commitAll blocks).keys.Nodup := by
  induction blocks using List.reverseRecOn with
  | nil => exact List.nodup_nil
  | append_singleton blocks b ih =>
    rw [commitAll_concat]
    exact nodup_keys_commit ih b

theorem keys_commitAll (blocks : List Block) :
    (empty.commitAll blocks).keys = (blocks.map Block.topKey).eraseDups := by
  induction blocks using List.reverseRecOn with
  | nil => rfl
  | append_singleton blocks b ih =>
    rw [commitAll_concat, keys_commit, ih, List.map_append, List.map_singleton, eraseDups_concat]
    simp only [List.mem_eraseDups]

theorem get?_commitAll (blocks : List Block) (key : String) :
    (empty.commitAll blocks).get? key = lastUnder key blocks := by
  induction blocks using List.reverseRecOn with
  | nil => rfl
  | append_singleton blocks b ih => rw [commitAll_concat, get?_commit, lastUnder_concat, ih]

theorem toList_eq_filterMap (h : bs.keys.Nodup) : bs.toList = bs.keys.filterMap bs.get? := by
  rw [keys, List.filterMap_map]
  have hget : ∀ b ∈ bs.toList, (bs.get? ∘ Block.topKey) b = some b := fun b hb => get?_of_mem h hb
  rw [List.filterMap_congr hget, List.filterMap_some]

theorem size_commitAll (blocks : List Block) :
    (empty.commitAll blocks).size = (blocks.map Block.topKey).toFinset.card := by
  have hsize : (empty.commitAll blocks).size = (empty.commitAll blocks).keys.length := by
    rw [keys, List.length_map, size]
  rw [hsize, ← List.toFinset_card_of_nodup (nodup_keys_commitAll blocks)]
  congr 1
  ext key
  rw [keys_commitAll, List.mem_toFinset, List.mem_toFinset, List.mem_eraseDups]

theorem getElem?_replacements (bs : Blocks) (blocks : List Block) (i : Nat) :
    (bs.replacements blocks)[i]? = blocks[i]?.map fun b => (bs.commitAll (blocks.take i)).replaced b := by
  induction blocks generalizing bs i with
  | nil => rfl
  | cons b rest ih =>
    cases i with
    | zero => rfl
    | succ i => exact ih (bs.commit b) i

/-- **Blocks as a store.** After any commits on an empty store the keys are the distinct keys committed, in the order
of their first commits, and each holds the last block committed under it; each commit gives back the last block
committed before it under its key. `locate` finds nothing if and only if every stored block starts below the line, and
else the block of greatest start line and ordinal among the others, the last one in the store's order if several have
these. -/
theorem commitAll_blocks (blocks : List Block) :
    (empty.commitAll blocks).keys = (blocks.map Block.topKey).eraseDups ∧
    (∀ key, (empty.commitAll blocks).get? key = lastUnder key blocks) ∧
    (empty.commitAll blocks).toList =
      ((blocks.map Block.topKey).eraseDups.filterMap fun key => lastUnder key blocks) ∧
    (∀ i, (empty.replacements blocks)[i]? =
      blocks[i]?.map fun b => lastUnder b.topKey (blocks.take i)) ∧
    (empty.commitAll blocks).size = (blocks.map Block.topKey).toFinset.card ∧
    (∀ line, (empty.commitAll blocks).locate line = none ↔
      ∀ b ∈ (empty.commitAll blocks).toList, line < b.startLine) ∧
    ∀ line b, (empty.commitAll blocks).locate line = some b ↔
      Latest (empty.commitAll blocks).toList line b := by
  refine ⟨keys_commitAll blocks, get?_commitAll blocks, ?_, fun i => ?_, size_commitAll blocks,
    fun line => locate_eq_none_iff, fun line b => locate_eq_some_iff⟩
  · rw [toList_eq_filterMap (nodup_keys_commitAll blocks), keys_commitAll]
    exact List.filterMap_congr fun key _ => get?_commitAll blocks key
  · rw [getElem?_replacements]
    simp only [replaced, get?_commitAll]

end ChartValues.Blocks
