import ChartValues.Proofs.Block.Span

/-!
# Locating by key lines

Blocks are located by their start lines, which may lie above their keys. On a line without an annotation
this makes no difference: the located block is that of the nearest line at or above that is the last one of
its key (`locate_scan_eq_some_iff`). Whatever stands on lines further down matters only for which lines are
the last of their keys.
-/

namespace ChartValues

theorem Blocks.exists_locate {bs : Blocks} {b : Block} {line : Nat} (h : b ∈ bs.toList)
    (hline : b.startLine ≤ line) : ∃ b', bs.locate line = some b' := by
  refine Option.ne_none_iff_exists'.mp fun hnone => ?_
  exact absurd hline (not_le.mpr (locate_eq_none_iff.mp hnone b h))

namespace Document

variable {d d' : Document} {n m line : Nat} {key : String} {b : Block}

theorem startLine_blockAt_of_refAt (h : d.refAt (n - 1) = none) (key : String) :
    (d.blockAt n key).startLine = n := by
  show ((d.annotationAt n).map Pending.line).getD n = n
  rw [annotationAt, h]
  cases d.refAt n with
  | some chartRef => rfl
  | none => simp

theorem startLine_blockAt_le_iff (h : d.refAt line = none) :
    (d.blockAt n key).startLine ≤ line ↔ n ≤ line := by
  constructor
  · intro hle
    rcases d.startLine_blockAt n key with hstart | ⟨-, hstart⟩
    · omega
    · by_contra hgt
      obtain rfl : line = n - 1 := by omega
      have := startLine_blockAt_of_refAt h key
      omega
  · exact fun hle => Nat.le_trans (d.startLine_blockAt_le n key) hle

theorem locate_scan_eq_some_iff (h : d.refAt line = none) :
    d.scan.locate line = some b ↔ ∃ key n, d.LastLine key n ∧ n ≤ line ∧ b = d.blockAt n key ∧
      ∀ key' m, d.LastLine key' m → m ≤ line → m ≤ n := by
  have hlocated : ∀ b, d.scan.locate line = some b → ∃ key n, d.LastLine key n ∧ n ≤ line ∧
      b = d.blockAt n key ∧ ∀ key' m, d.LastLine key' m → m ≤ line → m ≤ n := by
    intro b hb
    obtain ⟨key, hlast, hblock⟩ := lastLine_of_locate hb
    have hstart : b.startLine ≤ line := (Blocks.locate_eq_some hb).2.1
    rw [hblock, startLine_blockAt_le_iff h] at hstart
    exact ⟨key, b.keyLine, hlast, hstart, hblock,
      fun key' m hm hle => le_keyLine_of_locate hb hm hle⟩
  constructor
  · exact hlocated b
  · rintro ⟨key, n, hlast, hle, rfl, hnearest⟩
    obtain ⟨b', hb'⟩ := Blocks.exists_locate (mem_scan.mpr ⟨key, n, hlast, rfl⟩)
      ((startLine_blockAt_le_iff h).mpr hle)
    obtain ⟨key', n', hlast', hle', rfl, hnearest'⟩ := hlocated b' hb'
    obtain rfl : n' = n := by
      have := hnearest key' n' hlast' hle'
      have := hnearest' key n hlast hle
      omega
    obtain rfl : key' = key := Option.some.inj (hlast'.1.symm.trans hlast.1)
    exact hb'

theorem refAt_of_annotationAt {p : Pending} (h : d.annotationAt n = some p) :
    d.refAt p.line = some p.chartRef := by
  unfold annotationAt at h
  cases href : d.refAt n with
  | some ref =>
    simp only [href, Option.some.injEq] at h
    rw [← h]
    exact href
  | none =>
    simp only [href] at h
    split_ifs at h
    obtain ⟨ref, href', rfl⟩ := Option.map_eq_some_iff.mp h
    exact href'

theorem refAt_startLine {ref : String} (h : d.scan.locate line = some b) (href : b.chartRef = some ref) :
    d.refAt b.startLine = some ref := by
  obtain ⟨key, -, hblock⟩ := lastLine_of_locate h
  rw [hblock] at href ⊢
  obtain ⟨p, hp, rfl⟩ := Option.map_eq_some_iff.mp href
  have hstart : (d.blockAt b.keyLine key).startLine = p.line := by simp [blockAt, hp]
  rw [hstart]
  exact refAt_of_annotationAt hp

theorem blockAt_congr (h : ∀ m ≤ n, d'.line? m = d.line? m) (key : String) :
    d'.blockAt n key = d.blockAt n key := by
  have hkey : ∀ m ≤ n, d'.keyAt m = d.keyAt m := fun m hm => by rw [keyAt, keyAt, h m hm]
  have href : ∀ m ≤ n, d'.refAt m = d.refAt m := fun m hm => by rw [refAt, refAt, h m hm]
  have hannotation : d'.annotationAt n = d.annotationAt n := by
    rw [annotationAt, annotationAt, href n (le_refl _), href (n - 1) (Nat.sub_le _ _),
      hkey (n - 1) (Nat.sub_le _ _)]
  have hcount : d'.keysBefore n = d.keysBefore n := by
    refine List.countP_congr fun m hm => ?_
    rw [hkey m (Nat.le_of_lt (List.mem_range.mp hm))]
  rw [blockAt, blockAt, hannotation, hcount]

end Document

end ChartValues
