import Mathlib.Data.List.Forall2
import Mathlib.Data.List.Nodup
import ChartValues.Proofs.Document.Key
import ChartValues.Proofs.Document.Lines

/-!
# The lines that enclose a cursor

The path at a cursor is found by walking upwards with a depth that shrinks at every key taken. Without the
walk: a line above the cursor is taken if and only if it carries a key, is indented less than the cursor,
and is indented less than every line between it and the cursor that carries a key (`Encloses`).
`pathAt_spec` states this for the path as a whole, together with the positions that have none.
-/

namespace ChartValues

namespace Document

/-- The text of line `n`; a line that is not there counts as empty. -/
def lineText (d : Document) (n : Nat) : String := (d.line? n).getD ""

def indentAt (d : Document) (n : Nat) : Nat := Line.indentation (d.lineText n)

/-- What stands before the cursor on its line. -/
def typed (d : Document) (p : Position) : String :=
  String.ofList ((d.lineText p.line).toList.take p.column)

/-- Line `n` is neither blank nor a comment and has the key `key`. -/
def CarriesKey (d : Document) (n : Nat) (key : String) : Prop :=
  ∃ text, d.line? n = some text ∧ Line.isBlankOrComment text = false ∧ Line.HasKey text key

/-- Line `j` encloses a cursor at depth `depth` on line `line`. -/
structure Encloses (d : Document) (line depth j : Nat) : Prop where
  above : j < line
  carriesKey : ∃ key, d.CarriesKey j key
  lt_depth : d.indentAt j < depth
  lt_between : ∀ i, j < i → i < line → (∃ key, d.CarriesKey i key) → d.indentAt j < d.indentAt i

/-- The path at a position: the keys of the enclosing lines in the order of the document, and the key
being typed. -/
structure IsPathAt (d : Document) (p : Position) (path : CursorPath) : Prop where
  segments : ∃ lines : List Nat, lines.Pairwise (fun i j => i < j ∧ d.indentAt i < d.indentAt j) ∧
    (∀ j ∈ lines.tail, 0 < d.indentAt j) ∧
    (∀ j, j ∈ lines ↔ d.Encloses p.line (Line.indentation (d.typed p)) j) ∧
    List.Forall₂ d.CarriesKey lines path.segments
  inProgress : ∀ key, path.inProgress = some key ↔ ':' ∉ (d.typed p).toList ∧
    key = Text.trimmed (d.typed p) ∧ key ≠ "" ∧ key.toList.head? ≠ some '#'

variable {d : Document} {n line depth j : Nat} {text key : String}

theorem carriesKey_iff (htext : d.line? n = some text) :
    d.CarriesKey n key ↔ Line.isBlankOrComment text = false ∧ Line.key text = some key := by
  rw [Line.key_eq_some_iff]
  constructor
  · rintro ⟨text', htext', h⟩
    obtain rfl : text' = text := Option.some.inj (htext'.symm.trans htext)
    exact h
  · exact fun h => ⟨text, htext, h⟩

theorem CarriesKey.unique {key' : String} (h : d.CarriesKey n key) (h' : d.CarriesKey n key') :
    key = key' := by
  obtain ⟨text, htext, -, hkey⟩ := h
  obtain ⟨text', htext', -, hkey'⟩ := h'
  obtain rfl : text = text' := Option.some.inj (htext.symm.trans htext')
  exact hkey.unique hkey'

theorem indentAt_eq (htext : d.line? n = some text) : d.indentAt n = Line.indentation text := by
  rw [indentAt, lineText, htext]
  rfl

/-! ## One line up -/

theorem encloses_succ_of_skip (h : (∀ key, ¬ d.CarriesKey n key) ∨ depth ≤ d.indentAt n) :
    d.Encloses (n + 1) depth j ↔ d.Encloses n depth j := by
  constructor
  · rintro ⟨habove, ⟨key, hkey⟩, hdepth, hbetween⟩
    have hne : j ≠ n := by
      rintro rfl
      rcases h with h | h
      · exact h key hkey
      · omega
    exact ⟨by omega, ⟨key, hkey⟩, hdepth, fun i hi hlt => hbetween i hi (by omega)⟩
  · rintro ⟨habove, hkey, hdepth, hbetween⟩
    refine ⟨by omega, hkey, hdepth, fun i hi hlt hcarries => ?_⟩
    rcases Nat.lt_or_ge i n with hin | hin
    · exact hbetween i hi hin hcarries
    · obtain rfl : i = n := by omega
      rcases h with h | h
      · obtain ⟨key, hkey⟩ := hcarries
        exact absurd hkey (h key)
      · omega

theorem encloses_succ_of_take (hkey : d.CarriesKey n key) (hdepth : d.indentAt n < depth) :
    d.Encloses (n + 1) depth j ↔ j = n ∨ d.Encloses n (d.indentAt n) j := by
  constructor
  · rintro ⟨habove, hcarries, -, hbetween⟩
    rcases Nat.lt_or_ge j n with hjn | hjn
    · exact Or.inr ⟨hjn, hcarries, hbetween n hjn (by omega) ⟨key, hkey⟩,
        fun i hi hlt => hbetween i hi (by omega)⟩
    · exact Or.inl (by omega)
  · rintro (rfl | ⟨habove, hcarries, hlt, hbetween⟩)
    · exact ⟨by omega, ⟨key, hkey⟩, hdepth, fun i hi hlt => by omega⟩
    · refine ⟨by omega, hcarries, by omega, fun i hi hi' hi'' => ?_⟩
      rcases Nat.lt_or_ge i n with hin | hin
      · exact hbetween i hi hin hi''
      · obtain rfl : i = n := by omega
        exact hlt

end Document

namespace CursorPath

variable {depth : Nat} {text key : String} {above : List String}

theorem climb_zero (above : List String) : climb 0 above = [] := by
  induction above with
  | nil => rfl
  | cons text above ih => simp [climb, ih]

theorem climb_of_skip (h : Line.isBlankOrComment text = true ∨ depth ≤ Line.indentation text ∨
    Line.key text = none) : climb depth (text :: above) = climb depth above := by
  rcases h with h | h | h <;> simp [climb, h]

theorem climb_of_take (hblank : Line.isBlankOrComment text = false) (hkey : Line.key text = some key)
    (hdepth : Line.indentation text < depth) :
    climb depth (text :: above) = key :: climb (Line.indentation text) above := by
  rw [climb, if_neg (by simp [hblank, hdepth]), hkey]
  by_cases hzero : Line.indentation text = 0
  · simp only [hzero, if_true, climb_zero]
  · simp only [if_neg hzero]

theorem segments_enclosing (typed : String) (above : List String) :
    (enclosing typed above).segments = (climb (Line.indentation typed) above).reverse := by
  by_cases hzero : Line.indentation typed = 0
  · simp [enclosing, hzero, climb_zero]
  · simp [enclosing, hzero]

theorem enclosing_eq (typed : String) (above : List String) :
    enclosing typed above = ⟨(climb (Line.indentation typed) above).reverse, Line.bareKey typed⟩ := by
  rw [← segments_enclosing]
  rfl

end CursorPath

namespace Document

open CursorPath (climb)

variable {d : Document} {n line depth j : Nat} {text : String}

/-- What climbing does at line `n`: it takes a key that is indented less than `depth` and goes on with
that indentation, or it passes the line by. -/
theorem climb_cons_cases (htext : d.line? n = some text) (depth : Nat) (above : List String) :
    (∃ key, d.CarriesKey n key ∧ d.indentAt n < depth ∧
      climb depth (text :: above) = key :: climb (d.indentAt n) above) ∨
    ((∀ key, ¬ d.CarriesKey n key) ∨ depth ≤ d.indentAt n) ∧
      climb depth (text :: above) = climb depth above := by
  have hindent := indentAt_eq htext
  rcases Nat.lt_or_ge (d.indentAt n) depth with hlt | hge
  · by_cases hcarries : ∃ key, d.CarriesKey n key
    · obtain ⟨key, hkey⟩ := hcarries
      obtain ⟨hblank, hkey'⟩ := (carriesKey_iff htext).mp hkey
      rw [hindent] at hlt ⊢
      exact Or.inl ⟨key, hkey, hlt, CursorPath.climb_of_take hblank hkey' hlt⟩
    · have hnone : ∀ key, ¬ d.CarriesKey n key := fun key hkey => hcarries ⟨key, hkey⟩
      refine Or.inr ⟨Or.inl hnone, CursorPath.climb_of_skip ?_⟩
      cases hblank : Line.isBlankOrComment text with
      | true => exact Or.inl rfl
      | false =>
        refine Or.inr (Or.inr (Option.eq_none_iff_forall_ne_some.mpr fun key hkey => ?_))
        exact hnone key ((carriesKey_iff htext).mpr ⟨hblank, hkey⟩)
  · exact Or.inr ⟨Or.inr hge, CursorPath.climb_of_skip (Or.inr (Or.inl (hindent ▸ hge)))⟩

theorem climb_upFrom (d : Document) (n : Nat) (hn : n ≤ d.lineCount) : ∀ depth, ∃ lines : List Nat,
    lines.Pairwise (fun i j => j < i) ∧ (∀ j, j ∈ lines ↔ d.Encloses (n + 1) depth j) ∧
      List.Forall₂ d.CarriesKey lines (climb depth (d.upFrom n)) := by
  induction n with
  | zero =>
    intro depth
    refine ⟨[], List.Pairwise.nil, fun j => ?_, List.Forall₂.nil⟩
    simp only [List.not_mem_nil, false_iff]
    rintro ⟨habove, ⟨key, text, htext, -⟩, -, -⟩
    have := (bounds_of_line? htext).1
    omega
  | succ n ih =>
    intro depth
    obtain ⟨text, htext⟩ := exists_line? (show n < d.lineCount by omega)
    rw [upFrom_succ htext]
    rcases climb_cons_cases htext depth (d.upFrom n) with ⟨key, hkey, hdepth, hclimb⟩ | ⟨hskip, hclimb⟩
    · obtain ⟨lines, hsorted, hmem, hkeys⟩ := ih (by omega) (d.indentAt (n + 1))
      rw [hclimb]
      refine ⟨(n + 1) :: lines, ?_, fun j => ?_, List.Forall₂.cons hkey hkeys⟩
      · exact List.pairwise_cons.mpr ⟨fun j hj => ((hmem j).mp hj).above, hsorted⟩
      · rw [List.mem_cons, hmem, encloses_succ_of_take hkey hdepth]
    · obtain ⟨lines, hsorted, hmem, hkeys⟩ := ih (by omega) depth
      rw [hclimb]
      exact ⟨lines, hsorted, fun j => by rw [hmem, encloses_succ_of_skip hskip], hkeys⟩

theorem Encloses.indentAt_lt {i : Nat} (hi : d.Encloses line depth i) (hj : d.Encloses line depth j)
    (hlt : i < j) : d.indentAt i < d.indentAt j :=
  hi.lt_between j hlt hj.above hj.carriesKey

/-! ## Positions -/

theorem prefixAt_eq (d : Document) (p : Position) :
    d.prefixAt p =
      if p.line = 0 ∨ d.lineCount + 1 < p.line then .error (.lineOutOfRange p.line d.lineCount)
      else if (d.lineText p.line).length < p.column then
        .error (.columnOutOfRange p.line p.column (d.lineText p.line).length)
      else .ok (d.typed p) := by
  simp only [prefixAt, ← String.length_toList]
  rfl

theorem pathAt_eq (d : Document) (p : Position) :
    d.pathAt p =
      if p.line = 0 ∨ d.lineCount + 1 < p.line then .error (.lineOutOfRange p.line d.lineCount)
      else if (d.lineText p.line).length < p.column then
        .error (.columnOutOfRange p.line p.column (d.lineText p.line).length)
      else .ok (CursorPath.enclosing (d.typed p) (d.upFrom (p.line - 1))) := by
  rw [pathAt, prefixAt_eq, above_eq_upFrom]
  split_ifs <;> rfl

theorem isPathAt_enclosing (d : Document) (p : Position) (hzero : p.line ≠ 0)
    (hline : p.line ≤ d.lineCount + 1) :
    d.IsPathAt p (CursorPath.enclosing (d.typed p) (d.upFrom (p.line - 1))) := by
  obtain ⟨lines, hsorted, hmem, hkeys⟩ := d.climb_upFrom (p.line - 1) (by omega)
    (Line.indentation (d.typed p))
  rw [Nat.sub_add_cancel (Nat.pos_of_ne_zero hzero)] at hmem
  have hmem' : ∀ j, j ∈ lines.reverse ↔ d.Encloses p.line (Line.indentation (d.typed p)) j :=
    fun j => by rw [List.mem_reverse, hmem]
  have hpairwise : lines.reverse.Pairwise fun i j => i < j ∧ d.indentAt i < d.indentAt j := by
    refine List.Pairwise.imp_of_mem ?_ (List.pairwise_reverse.mpr hsorted)
    intro i j hi hj hlt
    exact ⟨hlt, ((hmem' i).mp hi).indentAt_lt ((hmem' j).mp hj) hlt⟩
  refine ⟨⟨lines.reverse, hpairwise, ?_, hmem', ?_⟩, fun key => Line.bareKey_eq_some_iff⟩
  · cases hlines : lines.reverse with
    | nil => simp
    | cons i rest =>
      rw [hlines] at hpairwise
      exact fun j hj => Nat.zero_lt_of_lt ((List.pairwise_cons.mp hpairwise).1 j hj).2
  · rw [CursorPath.segments_enclosing]
    exact List.rel_reverse hkeys

/-- Lines in the order of the document, each one indented more than those before it. -/
def Deepens (d : Document) (lines : List Nat) : Prop :=
  lines.Pairwise fun i j => i < j ∧ d.indentAt i < d.indentAt j

theorem Deepens.eq_of_mem_iff {lines lines' : List Nat} (h : d.Deepens lines) (h' : d.Deepens lines')
    (hmem : ∀ j, j ∈ lines ↔ j ∈ lines') : lines = lines' := by
  have hnodup : ∀ {l : List Nat}, d.Deepens l → l.Nodup := fun hl =>
    List.Pairwise.imp (fun hij => Nat.ne_of_lt hij.1) hl
  have hperm : lines.Perm lines' := (List.perm_ext_iff_of_nodup (hnodup h) (hnodup h')).mpr hmem
  refine hperm.eq_of_pairwise (fun i j _ _ hij hji => ?_) h h'
  have := hij.1
  have := hji.1
  omega

theorem IsPathAt.unique {p : Position} {path path' : CursorPath} (h : d.IsPathAt p path)
    (h' : d.IsPathAt p path') : path = path' := by
  obtain ⟨lines, hsorted, -, hmem, hkeys⟩ := h.segments
  obtain ⟨lines', hsorted', -, hmem', hkeys'⟩ := h'.segments
  obtain rfl : lines = lines' := Deepens.eq_of_mem_iff hsorted hsorted' fun j => by rw [hmem, hmem']
  have honce : Relator.RightUnique d.CarriesKey := fun _ _ _ hk hk' => hk.unique hk'
  have hsegments : path.segments = path'.segments :=
    List.right_unique_forall₂' honce hkeys hkeys'
  have hinProgress : path.inProgress = path'.inProgress :=
    Option.ext fun key => by rw [h.inProgress, h'.inProgress]
  cases path
  cases path'
  simp only at hsegments hinProgress
  rw [hsegments, hinProgress]

/-- **The path at a position.** There is none exactly if the position is out of range, which the error
tells. Else the segments are the keys of the enclosing lines, and the key being typed is what stands
before the cursor, if that has no colon and is neither blank nor a comment. -/
theorem pathAt_spec (d : Document) (p : Position) :
    (∀ e, d.pathAt p = .error e ↔
      (p.line = 0 ∨ d.lineCount + 1 < p.line) ∧ e = .lineOutOfRange p.line d.lineCount ∨
      ¬ (p.line = 0 ∨ d.lineCount + 1 < p.line) ∧ (d.lineText p.line).length < p.column ∧
        e = .columnOutOfRange p.line p.column (d.lineText p.line).length) ∧
    ∀ path, d.pathAt p = .ok path ↔
      ¬ (p.line = 0 ∨ d.lineCount + 1 < p.line) ∧ p.column ≤ (d.lineText p.line).length ∧
        d.IsPathAt p path := by
  rw [pathAt_eq]
  by_cases hline : p.line = 0 ∨ d.lineCount + 1 < p.line
  · simp [hline, eq_comm]
  · by_cases hcolumn : (d.lineText p.line).length < p.column
    · simp [hline, hcolumn, Nat.not_le.mpr hcolumn, eq_comm]
    · have hpath := d.isPathAt_enclosing p (by omega) (by omega)
      rw [if_neg hline, if_neg hcolumn]
      refine ⟨fun e => by simp [hline, hcolumn], fun path => ⟨fun hok => ?_, fun h => ?_⟩⟩
      · obtain rfl := Except.ok.inj hok
        exact ⟨hline, Nat.not_lt.mp hcolumn, hpath⟩
      · rw [hpath.unique h.2.2]

end Document

end ChartValues
