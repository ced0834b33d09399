import ChartValues.Proofs.Block.Scan

/-!
# Where blocks end

A block is meant to run up to the line before the next top-level key. The scan keeps only the last block of
each key, so a key that occurs again further down leaves no block at its earlier lines, and a cursor there
is given to the block before it. `locate_scan_open_iff` says exactly when this happens: when the nearest
top-level key at or above the cursor occurs again below, unless the cursor stands on the annotation of the
located block.
-/

namespace ChartValues.Document

variable {d : Document} {n m line : Nat} {key : String} {b : Block}

/-! ## Start lines -/

theorem startLine_blockAt (d : Document) (n : Nat) (key : String) :
    (d.blockAt n key).startLine = n ∨
      d.keyAt (n - 1) = none ∧ (d.blockAt n key).startLine = n - 1 := by
  show ((d.annotationAt n).map Pending.line).getD n = n ∨
    _ ∧ ((d.annotationAt n).map Pending.line).getD n = n - 1
  rw [annotationAt]
  cases d.refAt n with
  | some chartRef => exact Or.inl rfl
  | none =>
    by_cases hkey : d.keyAt (n - 1) = none
    · simp only [if_pos hkey]
      cases d.refAt (n - 1) with
      | some chartRef => exact Or.inr ⟨hkey, rfl⟩
      | none => exact Or.inl rfl
    · simp only [if_neg hkey]
      exact Or.inl rfl

theorem startLine_blockAt_le (d : Document) (n : Nat) (key : String) :
    (d.blockAt n key).startLine ≤ n := by
  rcases d.startLine_blockAt n key with h | ⟨-, h⟩ <;> omega

theorem lt_startLine_blockAt {k : String} (hm : d.keyAt m = some k) (hlt : m < n) (key : String) :
    m < (d.blockAt n key).startLine := by
  rcases d.startLine_blockAt n key with h | ⟨hnone, h⟩
  · omega
  · have hne : m ≠ n - 1 := by
      rintro rfl
      simp [hm] at hnone
    omega

/-! ## The blocks of a scan -/

theorem nodup_keys_scan (d : Document) : d.scan.keys.Nodup := by
  refine d.after_scan.order.imp ?_
  rintro j k ⟨m, n, -, hj, hk, hlt⟩ rfl
  have := hk.2 m hj.1
  omega

theorem mem_scan : b ∈ d.scan.toList ↔ ∃ key n, d.LastLine key n ∧ b = d.blockAt n key := by
  constructor
  · intro h
    exact ⟨b.topKey, get?_scan.mp (Blocks.get?_of_mem d.nodup_keys_scan h)⟩
  · rintro ⟨key, h⟩
    exact Blocks.mem_of_get? (get?_scan.mpr h)

theorem lastLine_of_locate (h : d.scan.locate line = some b) :
    ∃ key, d.LastLine key b.keyLine ∧ b = d.blockAt b.keyLine key := by
  obtain ⟨key, n, hlast, rfl⟩ := mem_scan.mp (Blocks.locate_eq_some h).1
  exact ⟨key, hlast, rfl⟩

theorem le_keyLine_of_locate (h : d.scan.locate line = some b) (hlast : d.LastLine key n)
    (hn : n ≤ line) : n ≤ b.keyLine := by
  obtain ⟨key', hlast', hb⟩ := lastLine_of_locate h
  obtain ⟨-, -, hgreatest⟩ := Blocks.locate_eq_some h
  by_contra hlt
  have hafter : b.keyLine < (d.blockAt n key).startLine :=
    lt_startLine_blockAt hlast'.1 (by omega) key
  have hle : (d.blockAt n key).startLine ≤ line := Nat.le_trans (d.startLine_blockAt_le n key) hn
  have hprecedes := Blocks.precedes_iff.mp (hgreatest _ (mem_scan.mpr ⟨key, n, hlast, rfl⟩) hle)
  have hstart : b.startLine ≤ b.keyLine := by
    rw [hb]
    exact d.startLine_blockAt_le _ _
  omega

/-! ## The span of a block -/

/-- Line `n`, with the key `key`, is the nearest line at or above `line` that has a top-level key. -/
def NearestKey (d : Document) (line n : Nat) (key : String) : Prop :=
  n ≤ line ∧ d.keyAt n = some key ∧ ∀ m, n < m → m ≤ line → d.keyAt m = none

theorem exists_nearestKey (hn : n ≤ line) (h : d.keyAt n = some key) :
    ∃ m k, n ≤ m ∧ d.NearestKey line m k := by
  induction line with
  | zero => exact ⟨n, key, le_refl _, hn, h, fun m hlt hle => by omega⟩
  | succ line ih =>
    cases hkey : d.keyAt (line + 1) with
    | some k => exact ⟨line + 1, k, hn, le_refl _, hkey, fun m hlt hle => by omega⟩
    | none =>
      have hne : n ≠ line + 1 := by
        rintro rfl
        simp [h] at hkey
      obtain ⟨m, k, hnm, hm, hk, hnone⟩ := ih (by omega)
      refine ⟨m, k, hnm, by omega, hk, fun i hlt hle => ?_⟩
      rcases Nat.lt_or_ge line i with hi | hi
      · obtain rfl : i = line + 1 := by omega
        exact hkey
      · exact hnone i hlt hi

/-- **When the located block is still open.** No top-level key stands between the key of the located block
and the cursor if and only if the cursor stands above that key, on its annotation, or the nearest
top-level key at or above the cursor does not occur again below. -/
theorem locate_scan_open_iff (d : Document) (line : Nat) (b : Block)
    (h : d.scan.locate line = some b) :
    (∀ n, b.keyLine < n → n ≤ line → d.keyAt n = none) ↔
      line < b.keyLine ∨ ∀ n key, d.NearestKey line n key → ∀ m, d.keyAt m = some key → m ≤ n := by
  obtain ⟨key', hlast', -⟩ := lastLine_of_locate h
  constructor
  · intro hopen
    rcases Nat.lt_or_ge line b.keyLine with hlt | hge
    · exact Or.inl hlt
    · -- the nearest key is that of the located block, whose line is the last one of its key
      refine Or.inr fun n key ⟨hn, hkey, hnone⟩ => ?_
      have hle : n ≤ b.keyLine := by
        by_contra hgt
        simp [hopen n (by omega) hn] at hkey
      have hge' : b.keyLine ≤ n := by
        by_contra hgt
        exact absurd hlast'.1 (by simp [hnone b.keyLine (by omega) hge])
      obtain rfl : n = b.keyLine := by omega
      obtain rfl : key = key' := Option.some.inj (hkey.symm.trans hlast'.1)
      exact hlast'.2
  · rintro (hlt | hrepeat) n hn hline
    · omega
    · by_contra hsome
      obtain ⟨key, hkey⟩ := Option.ne_none_iff_exists'.mp hsome
      obtain ⟨m, k, hnm, hnearest⟩ := exists_nearestKey hline hkey
      have := le_keyLine_of_locate h ⟨hnearest.2.1, hrepeat m k hnearest⟩ hnearest.1
      omega

/-- The condition at a cursor inside `y:`, whose key occurs again on line 5. -/
theorem locate_scan_open_iff_repeated :
    let d : Document := ⟨"values.yaml", "# @a/b\nx:\ny:\n  k: 1\ny:\n"⟩
    let b : Block := ⟨"x", some "a/b", 1, 2, 0⟩
    d.scan.locate 4 = some b ∧
      ((∀ n, b.keyLine < n → n ≤ 4 → d.keyAt n = none) ↔
        4 < b.keyLine ∨ ∀ n key, d.NearestKey 4 n key → ∀ m, d.keyAt m = some key → m ≤ n) := by
  intro d b
  have hlocate : d.scan.locate 4 = some b := by decide +kernel
  exact ⟨hlocate, locate_scan_open_iff d 4 b hlocate⟩

/-- Inside `y:`, the cursor on line 4 is given to the block of `x`, since `y` occurs again on line 5. -/
theorem locate_scan_repeated_key :
    let d : Document := ⟨"values.yaml", "# @a/b\nx:\ny:\n  k: 1\ny:\n"⟩
    ∃ b, d.scan.locate 4 = some b ∧ b.topKey = "x" ∧
      ¬ ∀ n, b.keyLine < n → n ≤ 4 → d.keyAt n = none := by
  intro d
  have hlocate : d.scan.locate 4 = some ⟨"x", some "a/b", 1, 2, 0⟩ := by decide +kernel
  have hkey : d.keyAt 3 = some "y" := by decide +kernel
  refine ⟨_, hlocate, rfl, fun hopen => ?_⟩
  simp [hopen 3 (by decide) (by decide)] at hkey

end ChartValues.Document
