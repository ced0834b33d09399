import ChartValues.Proofs.Block.Locate
import ChartValues.Proofs.Document.KeyLine
import ChartValues.Proofs.Document.Text
import ChartValues.Proofs.Path.Enclosing

/-!
# Opening a line

Accepting a completion that opens an object changes one line and adds another one below it (`Opens`). All
lines above stay, all lines below move down by one. If neither the old nor the new lines have a top-level key,
and only the first of the new lines may look like an annotation, the cursor on the new line is given to the
same block as before (`Opens.locate_scan`): an annotation on the first new line reaches no further than the
second.
-/

namespace ChartValues.Document

/-- `d'` reads as `d` with line `n` replaced by `first` and the line `second` inserted after it. -/
structure Opens (d : Document) (n : Nat) (first second : String) (d' : Document) : Prop where
  above : ∀ m < n, d'.line? m = d.line? m
  first : d'.line? n = some first
  second : d'.line? (n + 1) = some second
  below : ∀ m > n, d'.line? (m + 1) = d.line? m

variable {d d' : Document} {n m : Nat} {text first second key : String} {b : Block}

theorem exists_opens (htext : d.line? n = some text) (hfirst : '\n' ∉ first.toList)
    (hsecond : '\n' ∉ second.toList) : ∃ d', d.Opens n first second d' := by
  obtain ⟨k, rfl⟩ : ∃ k, n = k + 1 := ⟨n - 1, by have := (bounds_of_line? htext).1; omega⟩
  rw [line?_succ_eq] at htext
  obtain ⟨hk, -⟩ := List.getElem?_eq_some_iff.mp htext
  let texts := d.texts.take k ++ first :: second :: d.texts.drop (k + 1)
  have hlength : (d.texts.take k).length = k := by rw [List.length_take]; omega
  have hfeed : ∀ text ∈ texts, '\n' ∉ text.toList := by
    intro text hmem
    rcases List.mem_append.mp hmem with hmem | hmem
    · exact d.noFeed_texts text (List.mem_of_mem_take hmem)
    · rcases List.mem_cons.mp hmem with rfl | hmem
      · exact hfirst
      · rcases List.mem_cons.mp hmem with rfl | hmem
        · exact hsecond
        · exact d.noFeed_texts text (List.mem_of_mem_drop hmem)
  have hlines : ∀ i, (ofTexts d.name texts).line? (i + 1) = texts[i]? := by
    intro i
    rw [line?_succ_eq, texts_ofTexts d.name hfeed]
  refine ⟨ofTexts d.name texts, ?_, ?_, ?_, ?_⟩
  · intro m hm
    cases m with
    | zero => rfl
    | succ i =>
      rw [hlines, line?_succ_eq, List.getElem?_append_left (by omega), List.getElem?_take_of_lt (by omega)]
  · rw [hlines, List.getElem?_append_right (by omega), hlength, Nat.sub_self]
    rfl
  · rw [hlines, List.getElem?_append_right (by omega), hlength, Nat.add_sub_cancel_left]
    rfl
  · intro m hm
    obtain ⟨i, rfl⟩ : ∃ i, m = k + 2 + i := ⟨m - (k + 2), by omega⟩
    rw [hlines, List.getElem?_append_right (by omega), hlength,
      show k + 2 + i - k = i + 2 by omega, show k + 2 + i = (k + 1 + i) + 1 by omega, line?_succ_eq]
    simp [List.getElem?_drop]

namespace Opens

theorem keyAt_first (h : d.Opens n first second d') : d'.keyAt n = Line.topLevelKey first := by
  rw [keyAt, h.first]
  rfl

theorem keyAt_second (h : d.Opens n first second d') :
    d'.keyAt (n + 1) = Line.topLevelKey second := by
  rw [keyAt, h.second]
  rfl

theorem keyAt_above (h : d.Opens n first second d') (hm : m < n) : d'.keyAt m = d.keyAt m := by
  rw [keyAt, keyAt, h.above m hm]

theorem keyAt_below (h : d.Opens n first second d') (hm : n < m) :
    d'.keyAt (m + 1) = d.keyAt m := by
  rw [keyAt, keyAt, h.below m hm]

theorem lastLine_iff (h : d.Opens n first second d') (hkey : d.keyAt n = none)
    (hfirst : Line.topLevelKey first = none) (hsecond : Line.topLevelKey second = none)
    (hm : m < n) : d'.LastLine key m ↔ d.LastLine key m := by
  rw [LastLine, LastLine, h.keyAt_above hm]
  refine and_congr_right fun _ => ⟨fun hlast i hi => ?_, fun hlast i hi => ?_⟩
  · rcases Nat.lt_trichotomy i n with hlt | rfl | hgt
    · exact hlast i ((h.keyAt_above hlt).trans hi)
    · simp [hkey] at hi
    · have := hlast (i + 1) ((h.keyAt_below hgt).trans hi)
      omega
  · rcases Nat.lt_trichotomy i n with hlt | rfl | hgt
    · exact hlast i ((h.keyAt_above hlt).symm.trans hi)
    · simp [h.keyAt_first, hfirst] at hi
    · obtain ⟨j, rfl⟩ : ∃ j, i = j + 1 := ⟨i - 1, by omega⟩
      rcases Nat.eq_or_lt_of_le (show n ≤ j by omega) with rfl | hj
      · simp [h.keyAt_second, hsecond] at hi
      · have := hlast j ((h.keyAt_below hj).symm.trans hi)
        omega

theorem locate_scan (h : d.Opens n first second d') (hkey : d.keyAt n = none)
    (href : d.refAt n = none) (hfirst : Line.topLevelKey first = none)
    (hsecond : Line.topLevelKey second = none) (hsecondRef : Line.chartRef second = none)
    (hlocate : d.scan.locate n = some b) : d'.scan.locate (n + 1) = some b := by
  have href' : d'.refAt (n + 1) = none := by
    rw [refAt, h.second]
    exact hsecondRef
  obtain ⟨key, k, hlast, hle, rfl, hnearest⟩ := (locate_scan_eq_some_iff href).mp hlocate
  have hk : k < n := by
    refine Nat.lt_of_le_of_ne hle ?_
    rintro rfl
    have := hlast.1
    simp [hkey] at this
  have hsame : d'.blockAt k key = d.blockAt k key :=
    blockAt_congr (fun m hm => h.above m (Nat.lt_of_le_of_lt hm hk)) key
  refine (locate_scan_eq_some_iff href').mpr
    ⟨key, k, (h.lastLine_iff hkey hfirst hsecond hk).mpr hlast, by omega, hsame.symm, ?_⟩
  intro key' m hm hmle
  -- the two new lines have no key, so a last line this far up lies above them
  have hmn : m ≠ n := by
    rintro rfl
    have := hm.1
    simp [h.keyAt_first, hfirst] at this
  have hmn' : m ≠ n + 1 := by
    rintro rfl
    have := hm.1
    simp [h.keyAt_second, hsecond] at this
  have hlt : m < n := by omega
  exact hnearest key' m ((h.lastLine_iff hkey hfirst hsecond hlt).mp hm) (by omega)

theorem upFrom_eq (h : d.Opens n first second d') (hn : 0 < n) :
    d'.upFrom n = first :: d.upFrom (n - 1) := by
  obtain ⟨k, rfl⟩ : ∃ k, n = k + 1 := ⟨n - 1, by omega⟩
  have hsame : ∀ i ≤ k, d'.upFrom i = d.upFrom i := by
    intro i hi
    induction i with
    | zero => rfl
    | succ i ih =>
      obtain ⟨text, htext⟩ := exists_line? (show i < d'.lineCount by
        have := (bounds_of_line? h.first).2
        omega)
      have htext' : d.line? (i + 1) = some text := (h.above (i + 1) (by omega)).symm.trans htext
      rw [upFrom_succ htext, upFrom_succ htext', ih (by omega)]
  rw [upFrom_succ h.first, hsame k (le_refl _)]
  rfl

end Opens

/-! ## A cursor at the end of a line of spaces -/

theorem pathAt_spaces {c : Nat} (h : d.line? n = some (Tree.spaces c)) :
    d.pathAt ⟨n, c⟩ = .ok ⟨(CursorPath.climb c (d.upFrom (n - 1))).reverse, none⟩ := by
  obtain ⟨hpos, hle⟩ := bounds_of_line? h
  have htext : d.lineText n = Tree.spaces c := by rw [lineText, h]; rfl
  have hlength : (Tree.spaces c).length = c := by
    rw [← String.length_toList, Line.toList_spaces, List.length_replicate]
  have htyped : d.typed ⟨n, c⟩ = Tree.spaces c := by
    rw [typed, htext, Line.toList_spaces, List.take_of_length_le (by simp)]
    rfl
  have hpath : CursorPath.enclosing (Tree.spaces c) (d.upFrom (n - 1)) =
      ⟨(CursorPath.climb c (d.upFrom (n - 1))).reverse, none⟩ := by
    have hsegments := CursorPath.segments_enclosing (Tree.spaces c) (d.upFrom (n - 1))
    rw [Line.indentation_spaces] at hsegments
    rw [← hsegments, ← Line.bareKey_spaces c]
    rfl
  rw [pathAt_eq, htyped, hpath, htext, hlength, if_neg (by simp only; omega), if_neg (by simp)]

theorem Opens.pathAt_second {c c₂ : Nat} {rest : String} {path : CursorPath}
    (h : d.Opens n (Tree.spaces c ++ (key ++ (":" ++ rest))) (Tree.spaces c₂) d')
    (htext : d.line? n = some (Tree.spaces c)) (hkey : Line.PlainKey key) (hc : c < c₂)
    (hpath : d.pathAt ⟨n, c⟩ = .ok path) :
    d'.pathAt ⟨n + 1, c₂⟩ = .ok ⟨path.segments ++ [key], none⟩ := by
  have hindent := hkey.indentation_append c (":" ++ rest)
  have hclimb : CursorPath.climb c₂
      ((Tree.spaces c ++ (key ++ (":" ++ rest))) :: d.upFrom (n - 1)) =
        key :: CursorPath.climb c (d.upFrom (n - 1)) := by
    rw [CursorPath.climb_of_take (hkey.isBlankOrComment_append c (":" ++ rest))
      (hkey.key_append c rest) (by omega), hindent]
  obtain rfl : _ = path := Except.ok.inj ((pathAt_spaces htext).symm.trans hpath)
  rw [pathAt_spaces h.second, Nat.add_sub_cancel, h.upFrom_eq (bounds_of_line? htext).1, hclimb,
    List.reverse_cons]

end ChartValues.Document
