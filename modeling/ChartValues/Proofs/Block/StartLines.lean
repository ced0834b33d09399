import ChartValues.Proofs.Block.Locate

/-!
# Start lines of a scan

A block starts on the line of its key or on the line above it, and that line has no key of its own. So the
blocks of a scan start and have their keys in turns (`turns_of_mem_scan`): a later block starts below the key of
every earlier one, and no two start on one line. Locating in a scan therefore never compares ordinals: it finds
the newest block that has started (`locate_scan_eq_some_iff_newest`), and a line further down never finds an
older one.
-/

namespace ChartValues

/-- `b` comes before `c`: its ordinal is smaller, and `c` starts below its key. -/
def Block.Before (b c : Block) : Prop := b.ordinal < c.ordinal ∧ b.keyLine < c.startLine

/-- Of the stored blocks that start at or above `line`, `b` is the one of greatest ordinal. -/
structure Blocks.Newest (bs : Blocks) (line : Nat) (b : Block) : Prop where
  mem : b ∈ bs.toList
  startLine_le : b.startLine ≤ line
  ordinal_lt : ∀ c ∈ bs.toList, c.startLine ≤ line → c ≠ b → c.ordinal < b.ordinal

theorem Blocks.Newest.unique {bs : Blocks} {line : Nat} {b c : Block} (hb : bs.Newest line b)
    (hc : bs.Newest line c) : b = c := by
  by_contra hne
  have hlt := hc.ordinal_lt b hb.mem hb.startLine_le hne
  have hgt := hb.ordinal_lt c hc.mem hc.startLine_le (Ne.symm hne)
  omega

namespace Document

/-- Where a block lies in a document: it starts on the line of its key or, with an annotation, on the line
above. -/
structure Places (d : Document) (b : Block) : Prop where
  one_le : 1 ≤ b.startLine
  startLine_le : b.startLine ≤ b.keyLine
  keyLine_le : b.keyLine ≤ b.startLine + 1
  keyLine_le_lineCount : b.keyLine ≤ d.lineCount
  plain : b.isAnnotated = false → b.startLine = b.keyLine

variable {d : Document} {n m line : Nat} {key : String} {b c : Block}

/-! ## One block -/

theorem one_le_startLine_blockAt (h : d.keyAt n = some key) : 1 ≤ (d.blockAt n key).startLine := by
  show 1 ≤ ((d.annotationAt n).map Pending.line).getD n
  cases hannotated : d.annotationAt n with
  | none => exact (bounds_of_keyAt h).1
  | some p =>
    obtain ⟨text, htext, -⟩ := Option.bind_eq_some_iff.mp (refAt_of_annotationAt hannotated)
    exact (bounds_of_line? htext).1

theorem startLine_blockAt_of_plain (h : (d.blockAt n key).isAnnotated = false) :
    (d.blockAt n key).startLine = n := by
  have hannotated : d.annotationAt n = none := by
    simpa [Block.isAnnotated, blockAt] using h
  show ((d.annotationAt n).map Pending.line).getD n = n
  rw [hannotated]
  rfl

theorem places_blockAt (h : d.keyAt n = some key) : d.Places (d.blockAt n key) where
  one_le := one_le_startLine_blockAt h
  startLine_le := d.startLine_blockAt_le n key
  keyLine_le := by
    rw [keyLine_blockAt]
    rcases d.startLine_blockAt n key with hstart | ⟨-, hstart⟩ <;> omega
  keyLine_le_lineCount := (bounds_of_keyAt h).2
  plain := startLine_blockAt_of_plain

/-! ## Several blocks -/

theorem keysBefore_mono (h : m ≤ n) : d.keysBefore m ≤ d.keysBefore n := by
  refine monotone_nat_of_le_succ (fun i => ?_) h
  rw [keysBefore_succ]
  exact Nat.le_add_right _ _

theorem keysBefore_lt (hm : d.keyAt m = some key) (hlt : m < n) : d.keysBefore m < d.keysBefore n := by
  have hsucc := d.keysBefore_succ m
  rw [hm] at hsucc
  have hle : d.keysBefore (m + 1) ≤ d.keysBefore n := keysBefore_mono hlt
  simp only [Option.isSome_some, if_true] at hsucc
  omega

theorem before_blockAt {key' : String} (hm : d.keyAt m = some key) (hlt : m < n) :
    (d.blockAt m key).Before (d.blockAt n key') :=
  ⟨keysBefore_lt hm hlt, lt_startLine_blockAt hm hlt key'⟩

theorem turns_of_mem_scan (hb : b ∈ d.scan.toList) (hc : c ∈ d.scan.toList) :
    b = c ∨ b.Before c ∨ c.Before b := by
  obtain ⟨key, n, hn, rfl⟩ := mem_scan.mp hb
  obtain ⟨key', m, hm, rfl⟩ := mem_scan.mp hc
  rcases Nat.lt_trichotomy n m with hlt | rfl | hlt
  · exact Or.inr (Or.inl (before_blockAt hn.1 hlt))
  · obtain rfl : key = key' := Option.some.inj (hn.1.symm.trans hm.1)
    exact Or.inl rfl
  · exact Or.inr (Or.inr (before_blockAt hm.1 hlt))

theorem places_of_mem_scan (hb : b ∈ d.scan.toList) : d.Places b := by
  obtain ⟨key, n, hn, rfl⟩ := mem_scan.mp hb
  exact places_blockAt hn.1

theorem before_of_ordinal_lt (hb : b ∈ d.scan.toList) (hc : c ∈ d.scan.toList)
    (hlt : b.ordinal < c.ordinal) : b.Before c := by
  rcases turns_of_mem_scan hb hc with rfl | hbc | hcb
  · omega
  · exact hbc
  · have := hcb.1
    omega

theorem before_of_startLine_le (hb : b ∈ d.scan.toList) (hc : c ∈ d.scan.toList) (hne : b ≠ c)
    (hle : b.startLine ≤ c.startLine) : b.Before c := by
  rcases turns_of_mem_scan hb hc with heq | hbc | hcb
  · exact absurd heq hne
  · exact hbc
  · have hstart := (places_of_mem_scan hc).startLine_le
    have := hcb.2
    omega

theorem nodup_startLine_scan (d : Document) : (d.scan.toList.map Block.startLine).Nodup := by
  have hnodup : d.scan.toList.Nodup := List.Nodup.of_map Block.topKey d.nodup_keys_scan
  refine hnodup.map_on fun b hb c hc hstart => ?_
  by_contra hne
  have hbc := before_of_startLine_le hb hc hne (le_of_eq hstart)
  have hcb := before_of_startLine_le hc hb (Ne.symm hne) (le_of_eq hstart.symm)
  exact absurd hbc.1 (not_lt.mpr (le_of_lt hcb.1))

/-! ## Locating -/

theorem newest_of_locate_scan (h : d.scan.locate line = some b) : d.scan.Newest line b := by
  obtain ⟨hb, hline, hgreatest⟩ := Blocks.locate_eq_some h
  refine ⟨hb, hline, fun c hc hle hne => ?_⟩
  -- whether the start lines differ or the ordinals decide, `c` starts no further down
  have hprecedes := Blocks.precedes_iff.mp (hgreatest c hc hle)
  exact (before_of_startLine_le hc hb hne (by omega)).1

theorem locate_scan_eq_some_iff_newest : d.scan.locate line = some b ↔ d.scan.Newest line b := by
  refine ⟨newest_of_locate_scan, fun h => ?_⟩
  obtain ⟨b', hb'⟩ := Blocks.exists_locate h.mem h.startLine_le
  rw [h.unique (newest_of_locate_scan hb')]
  exact hb'

theorem locate_scan_mono {line' : Nat} (hle : line ≤ line') (h : d.scan.locate line = some b) :
    ∃ c, d.scan.locate line' = some c ∧ b.ordinal ≤ c.ordinal := by
  have hb := newest_of_locate_scan h
  have hline : b.startLine ≤ line' := hb.startLine_le.trans hle
  obtain ⟨c, hc⟩ := Blocks.exists_locate hb.mem hline
  refine ⟨c, hc, ?_⟩
  by_cases hbc : b = c
  · rw [hbc]
  · exact le_of_lt ((newest_of_locate_scan hc).ordinal_lt b hb.mem hline hbc)

/-- **Start lines of one scan never collide.** Every block starts on its key's line or, if it is annotated, possibly
on the line above; a block of greater ordinal starts below the key of every block of smaller ordinal; and no two
start on one line. So the located block is the one of greatest ordinal among those that start at or above the line,
and further down a block of at least that ordinal is located. -/
theorem scan_startLines (d : Document) :
    (∀ b ∈ d.scan.toList, d.Places b) ∧
    (∀ b ∈ d.scan.toList, ∀ c ∈ d.scan.toList, b.ordinal < c.ordinal → b.keyLine < c.startLine) ∧
    (d.scan.toList.map Block.startLine).Nodup ∧
    (∀ line b, d.scan.locate line = some b ↔ d.scan.Newest line b) ∧
    ∀ line line' b, line ≤ line' → d.scan.locate line = some b →
      ∃ c, d.scan.locate line' = some c ∧ b.ordinal ≤ c.ordinal := by
  refine ⟨fun b hb => places_of_mem_scan hb, ?_, d.nodup_startLine_scan,
    fun line b => locate_scan_eq_some_iff_newest, fun line line' b => locate_scan_mono⟩
  intro b hb c hc hlt
  exact (before_of_ordinal_lt hb hc hlt).2

/-- The block of `x` is that of line 5, annotated on line 4, and comes after that of `y`. -/
theorem scan_startLines_repeated :
    let d : Document := ⟨"values.yaml", "# @a/b\nx:\ny:\n# @c/d\nx:\n"⟩
    let x : Block := ⟨"x", some "c/d", 4, 5, 2⟩
    let y : Block := ⟨"y", none, 3, 3, 1⟩
    d.scan.toList = [x, y] ∧ d.Places x ∧ d.Places y ∧ y.ordinal < x.ordinal ∧ y.keyLine < x.startLine ∧
      d.scan.locate 3 = some y ∧ ∃ c, d.scan.locate 9 = some c ∧ y.ordinal ≤ c.ordinal := by
  intro d x y
  have hscan : d.scan.toList = [x, y] := by decide +kernel
  have hx : x ∈ d.scan.toList := by simp [hscan]
  have hy : y ∈ d.scan.toList := by simp [hscan]
  have hlocate : d.scan.locate 3 = some y := by decide +kernel
  obtain ⟨hplaces, hlt, -, -, hmono⟩ := scan_startLines d
  exact ⟨hscan, hplaces x hx, hplaces y hy, by decide, hlt y hy x hx (by decide), hlocate,
    hmono 3 9 y (by decide) hlocate⟩

end Document

end ChartValues
