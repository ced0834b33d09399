import ChartValues.CursorPath

/-!
# Lines by number

A document is read in two ways: line by line from the top, and upwards from a cursor. Both are told here
in terms of `line?`, one line at a time.
-/

namespace ChartValues.Document

variable {d : Document} {n : Nat} {text : String}

theorem line?_zero (d : Document) : d.line? 0 = none := rfl

theorem line?_succ (d : Document) (n : Nat) : d.line? (n + 1) = d.lines[n]?.map Line.text := rfl

theorem bounds_of_line? (h : d.line? n = some text) : 1 ≤ n ∧ n ≤ d.lineCount := by
  cases n with
  | zero =>
    rw [line?_zero] at h
    cases h
  | succ n =>
    rw [line?_succ, Option.map_eq_some_iff] at h
    obtain ⟨line, hline, -⟩ := h
    have hlt : n < d.lines.length := (List.getElem?_eq_some_iff.mp hline).1
    exact ⟨by omega, hlt⟩

theorem exists_line? (hn : n < d.lineCount) : ∃ text, d.line? (n + 1) = some text := by
  rw [line?_succ, List.getElem?_eq_getElem hn]
  exact ⟨_, rfl⟩

/-! ## Downwards -/

theorem length_numbered (d : Document) : d.numbered.length = d.lineCount := by
  simp [numbered, lineCount]

theorem take_numbered_succ (h : d.line? (n + 1) = some text) :
    d.numbered.take (n + 1) = d.numbered.take n ++ [(n + 1, text)] := by
  rw [line?_succ, Option.map_eq_some_iff] at h
  obtain ⟨line, hline, rfl⟩ := h
  rw [List.take_add_one, numbered, List.getElem?_mapIdx, hline]
  rfl

/-! ## Upwards -/

/-- The texts of lines `n`, `n - 1`, …, `1`. -/
def upFrom (d : Document) (n : Nat) : List String := ((d.lines.take n).map Line.text).reverse

theorem above_eq_upFrom (d : Document) (p : Position) : d.above p = d.upFrom (p.line - 1) := rfl

theorem upFrom_succ (h : d.line? (n + 1) = some text) : d.upFrom (n + 1) = text :: d.upFrom n := by
  rw [line?_succ, Option.map_eq_some_iff] at h
  obtain ⟨line, hline, rfl⟩ := h
  simp [upFrom, List.take_add_one, hline]

end ChartValues.Document
