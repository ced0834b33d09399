import Mathlib.Data.List.Induction
import Mathlib.Data.List.Nodup
import Mathlib.Data.Prod.Lex
import ChartValues.Block.Basic

/-!
# Blocks as a map

What one commit does to the block of a key (`get?_commit`) and to the keys (`keys_commit`), and what
`locate` finds: of the stored blocks at or above the line the one of greatest rank, the last one if several
have it (`locate_eq_some_iff`). Ties are told by places in the list, so the argument goes along the list from
its front, one block more at a time (`locate_concat`).
-/

namespace ChartValues.Blocks

variable {bs : Blocks} {b : Block} {key : String}

/-! ## Keys and blocks -/

theorem get?_empty (key : String) : ({} : Blocks).get? key = none := rfl

theorem topKey_of_get? (h : bs.get? key = some b) : b.topKey = key := by
  simpa using List.find?_some h

theorem mem_of_get? (h : bs.get? key = some b) : b ∈ bs.toList := List.mem_of_find?_eq_some h

theorem mem_keys_iff : key ∈ bs.keys ↔ ∃ b, bs.get? key = some b := by
  constructor
  · intro h
    obtain ⟨c, hc, rfl⟩ := List.mem_map.mp h
    exact Option.isSome_iff_exists.mp (List.find?_isSome.mpr ⟨c, hc, by simp⟩)
  · rintro ⟨b, hb⟩
    exact List.mem_map.mpr ⟨b, mem_of_get? hb, topKey_of_get? hb⟩

theorem get?_of_mem (hnd : bs.keys.Nodup) (h : b ∈ bs.toList) : bs.get? b.topKey = some b := by
  obtain ⟨c, hc⟩ := mem_keys_iff.mp (List.mem_map_of_mem h : b.topKey ∈ bs.keys)
  have hcb : c = b :=
    List.inj_on_of_nodup_map hnd (mem_of_get? hc) h (topKey_of_get? hc)
  rw [hc, hcb]

/-! ## Commits -/

theorem find?_put (b : Block) (key : String) (blocks : List Block) :
    (put b blocks).find? (·.topKey == key) =
      if b.topKey = key then some b else blocks.find? (·.topKey == key) := by
  induction blocks with
  | nil => by_cases hb : b.topKey = key <;> simp [put, hb]
  | cons c rest ih =>
    by_cases hc : c.topKey = b.topKey
    · by_cases hb : b.topKey = key <;> simp [put, hc, hb]
    · rw [put, if_neg hc, List.find?_cons, List.find?_cons, ih]
      by_cases hb : b.topKey = key
      · have hck : (c.topKey == key) = false := by simpa [hb] using hc
        simp [hb, hck]
      · simp [hb]

theorem get?_commit (bs : Blocks) (b : Block) (key : String) :
    (bs.commit b).get? key = if b.topKey = key then some b else bs.get? key :=
  find?_put b key bs.toList

theorem map_topKey_put (b : Block) (blocks : List Block) :
    (put b blocks).map Block.topKey =
      if b.topKey ∈ blocks.map Block.topKey then blocks.map Block.topKey
      else blocks.map Block.topKey ++ [b.topKey] := by
  induction blocks with
  | nil => simp [put]
  | cons c rest ih =>
    by_cases hc : c.topKey = b.topKey
    · simp [put, hc]
    · simp only [put, if_neg hc, List.map_cons, ih, List.mem_cons, Ne.symm hc, false_or]
      split_ifs <;> rfl

theorem keys_commit (bs : Blocks) (b : Block) :
    (bs.commit b).keys = if b.topKey ∈ bs.keys then bs.keys else bs.keys ++ [b.topKey] :=
  map_topKey_put b bs.toList

/-! ## Locating -/

theorem precedes_iff {a b : Block} :
    precedes a b = true ↔
      a.startLine < b.startLine ∨ a.startLine = b.startLine ∧ a.ordinal ≤ b.ordinal := by
  simp [precedes]

/-- What blocks are compared by: the start line, then the ordinal. -/
def rank (b : Block) : ℕ ×ₗ ℕ := toLex (b.startLine, b.ordinal)

theorem precedes_iff_rank_le {a b : Block} : precedes a b = true ↔ rank a ≤ rank b := by
  rw [precedes_iff, rank, rank, Prod.Lex.toLex_le_toLex]

/-- Of the blocks that start at or above `line`, `b` has the greatest rank, and it is the last one that has
it. -/
def Latest (blocks : List Block) (line : Nat) (b : Block) : Prop :=
  ∃ before behind, blocks = before ++ b :: behind ∧ b.startLine ≤ line ∧
    (∀ c ∈ before, c.startLine ≤ line → rank c ≤ rank b) ∧
    ∀ c ∈ behind, c.startLine ≤ line → rank c < rank b

theorem eq_of_between {between behind behind' : List Block} {line : Nat} {b b' : Block}
    (hcons : b :: behind = between ++ b' :: behind') (hline : b.startLine ≤ line) (hline' : b'.startLine ≤ line)
    (hbetween : ∀ c ∈ between, c.startLine ≤ line → rank c ≤ rank b')
    (hbehind : ∀ c ∈ behind, c.startLine ≤ line → rank c < rank b) : b = b' := by
  cases between with
  | nil => exact (List.cons.inj hcons).1
  | cons c between =>
    obtain ⟨rfl, rfl⟩ := List.cons.inj hcons
    have hle : rank b ≤ rank b' := hbetween b List.mem_cons_self hline
    have hlt : rank b' < rank b := hbehind b' (by simp) hline'
    exact absurd hlt (not_lt.mpr hle)

theorem Latest.unique {blocks : List Block} {line : Nat} {b b' : Block} (h : Latest blocks line b)
    (h' : Latest blocks line b') : b = b' := by
  obtain ⟨before, behind, rfl, hline, hbefore, hbehind⟩ := h
  obtain ⟨before', behind', heq, hline', hbefore', hbehind'⟩ := h'
  rcases List.append_eq_append_iff.mp heq with ⟨between, rfl, hcons⟩ | ⟨between, rfl, hcons⟩
  · exact eq_of_between hcons hline hline'
      (fun c hc => hbefore' c (List.mem_append_right _ hc)) hbehind
  · exact (eq_of_between hcons hline' hline
      (fun c hc => hbefore c (List.mem_append_right _ hc)) hbehind').symm

section concat

variable {blocks : List Block} {line : Nat} {b c : Block}

theorem locate_concat (blocks : List Block) (c : Block) (line : Nat) :
    locate ⟨blocks ++ [c]⟩ line =
      if c.startLine ≤ line then later (locate ⟨blocks⟩ line) c else locate ⟨blocks⟩ line := by
  by_cases hc : c.startLine ≤ line <;> simp [locate, List.filter_append, hc]

theorem Latest.concat_of_lt (h : Latest blocks line b) (hlt : c.startLine ≤ line → rank c < rank b) :
    Latest (blocks ++ [c]) line b := by
  obtain ⟨before, behind, rfl, hline, hbefore, hbehind⟩ := h
  refine ⟨before, behind ++ [c], by simp, hline, hbefore, fun x hx => ?_⟩
  rcases List.mem_append.mp hx with hx | hx
  · exact hbehind x hx
  · rw [List.mem_singleton.mp hx]
    exact hlt

theorem latest_concat (hline : c.startLine ≤ line)
    (hle : ∀ x ∈ blocks, x.startLine ≤ line → rank x ≤ rank c) : Latest (blocks ++ [c]) line c :=
  ⟨blocks, [], rfl, hline, hle, by simp⟩

theorem Latest.rank_le (h : Latest blocks line b) : ∀ x ∈ blocks, x.startLine ≤ line → rank x ≤ rank b := by
  obtain ⟨before, behind, rfl, -, hbefore, hbehind⟩ := h
  intro x hx hline
  rcases List.mem_append.mp hx with hx | hx
  · exact hbefore x hx hline
  · rcases List.mem_cons.mp hx with rfl | hx
    · exact le_refl _
    · exact le_of_lt (hbehind x hx hline)

end concat

theorem locate_cases (blocks : List Block) (line : Nat) :
    locate ⟨blocks⟩ line = none ∧ (∀ b ∈ blocks, line < b.startLine) ∨
      ∃ b, locate ⟨blocks⟩ line = some b ∧ Latest blocks line b := by
  induction blocks using List.reverseRecOn with
  | nil => exact Or.inl ⟨rfl, by simp⟩
  | append_singleton blocks c ih =>
    rw [locate_concat]
    by_cases hline : c.startLine ≤ line
    · rw [if_pos hline]
      refine Or.inr ?_
      rcases ih with ⟨hnone, hall⟩ | ⟨a, ha, hlatest⟩
      · refine ⟨c, by rw [hnone, later], latest_concat hline fun x hx hle => ?_⟩
        exact absurd hle (not_le.mpr (hall x hx))
      · -- of equals the new block wins: it stands behind all that were seen
        rw [ha, later]
        by_cases hprecedes : precedes a c = true
        · rw [if_pos hprecedes]
          rw [precedes_iff_rank_le] at hprecedes
          exact ⟨c, rfl, latest_concat hline fun x hx hle => (hlatest.rank_le x hx hle).trans hprecedes⟩
        · rw [if_neg hprecedes]
          rw [precedes_iff_rank_le] at hprecedes
          exact ⟨a, rfl, hlatest.concat_of_lt fun _ => not_le.mp hprecedes⟩
    · rw [if_neg hline]
      rcases ih with ⟨hnone, hall⟩ | ⟨a, ha, hlatest⟩
      · refine Or.inl ⟨hnone, fun b hb => ?_⟩
        rcases List.mem_append.mp hb with hb | hb
        · exact hall b hb
        · rw [List.mem_singleton.mp hb]
          exact not_le.mp hline
      · exact Or.inr ⟨a, ha, hlatest.concat_of_lt fun hle => absurd hle hline⟩

theorem locate_eq_none_iff {line : Nat} : bs.locate line = none ↔ ∀ b ∈ bs.toList, line < b.startLine := by
  rcases locate_cases bs.toList line with ⟨hnone, hall⟩ | ⟨b, hb, _, _, hlist, hline, -⟩
  · exact ⟨fun _ => hall, fun _ => hnone⟩
  · refine ⟨fun hnone => absurd (hb.symm.trans hnone) (by simp), fun hall => ?_⟩
    have hmem : b ∈ bs.toList := by simp [hlist]
    exact absurd hline (not_le.mpr (hall b hmem))

theorem locate_eq_some_iff {line : Nat} : bs.locate line = some b ↔ Latest bs.toList line b := by
  rcases locate_cases bs.toList line with ⟨hnone, hall⟩ | ⟨a, ha, hlatest⟩
  · refine ⟨fun h => absurd (hnone.symm.trans h) (by simp), ?_⟩
    rintro ⟨_, _, hlist, hline, -⟩
    exact absurd hline (not_le.mpr (hall b (by simp [hlist])))
  · constructor
    · intro h
      obtain rfl : a = b := Option.some.inj (ha.symm.trans h)
      exact hlatest
    · intro h
      rw [h.unique hlatest]
      exact ha

theorem locate_eq_some {line : Nat} (h : bs.locate line = some b) :
    b ∈ bs.toList ∧ b.startLine ≤ line ∧
      ∀ c ∈ bs.toList, c.startLine ≤ line → precedes c b = true := by
  have hrank := (locate_eq_some_iff.mp h).rank_le
  obtain ⟨before, behind, hlist, hline, -⟩ := locate_eq_some_iff.mp h
  exact ⟨by simp [hlist], hline, fun c hc hle => precedes_iff_rank_le.mpr (hrank c hc hle)⟩

end ChartValues.Blocks
