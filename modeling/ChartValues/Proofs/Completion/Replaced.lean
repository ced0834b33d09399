import Mathlib.Data.List.TakeWhile
import ChartValues.Proofs.Block.Locate
import ChartValues.Proofs.Completion.Request
import ChartValues.Proofs.Path.Column
import ChartValues.Proofs.Tree.Flatten

/-!
# What an accepted item replaces

All items of a response replace one range of the cursor's line, which ends at the cursor. It starts where the
blanks before the cursor end if a key is being typed, and at the cursor if not. Since the key being typed is the
trimmed text before the cursor, the range holds this key and the blanks behind it, and only blanks stand before it
(`EditRange.covers_editRange`). Lines are counted from one in documents and from zero in ranges; no block is
located at line zero, so a request at such a position asks for no range (`handle_editRange`).
-/

namespace ChartValues

/-! ## Blanks before the cursor -/

namespace Line

theorem take_indentation (text : String) :
    text.toList.take (indentation text) = text.toList.takeWhile Text.isBlank := by
  have hparts := List.takeWhile_append_dropWhile (p := Text.isBlank) (l := text.toList)
  calc text.toList.take (indentation text)
      = (text.toList.takeWhile Text.isBlank ++ text.toList.dropWhile Text.isBlank).take
          (text.toList.takeWhile Text.isBlank).length := by rw [hparts, indentation]
    _ = text.toList.takeWhile Text.isBlank := List.take_left

theorem drop_indentation (text : String) :
    text.toList.drop (indentation text) = Text.trimStart text.toList := by
  have hparts := List.takeWhile_append_dropWhile (p := Text.isBlank) (l := text.toList)
  calc text.toList.drop (indentation text)
      = (text.toList.takeWhile Text.isBlank ++ text.toList.dropWhile Text.isBlank).drop
          (text.toList.takeWhile Text.isBlank).length := by rw [hparts, indentation]
    _ = Text.trimStart text.toList := List.drop_left

end Line

/-- The range lies on the line of `p` and ends at `p`, within the line. Before it there are only blanks, and
in it stand the key being typed and blanks behind it; without such a key the range is empty. -/
structure EditRange.Covers (range : EditRange) (d : Document) (p : Position) (inProgress : Option String) :
    Prop where
  line : range.line + 1 = p.line
  start_le : range.start ≤ range.stop
  stop : range.stop = p.column
  stop_le : range.stop ≤ (d.lineText p.line).length
  blank : ∀ key, inProgress = some key → ∀ c ∈ (d.lineText p.line).toList.take range.start, Text.isBlank c = true
  key : ∀ key, inProgress = some key →
    key = String.ofList (Text.trimEnd (((d.lineText p.line).toList.take range.stop).drop range.start))
  empty : inProgress = none → range.start = range.stop

namespace Document

variable {d : Document} {p : Position} {path : CursorPath}

theorem editRange_eq (h : d.InRange p) (path : CursorPath) :
    d.editRange p path = ⟨p.line - 1, if path.inProgress = none then p.column else Line.indentation (d.typed p),
      p.column⟩ := by
  rw [editRange, prefixAt_of_inRange h]
  cases path.inProgress <;> rfl

theorem covers_editRange (h : d.pathAt p = .ok path) : (d.editRange p path).Covers d p path.inProgress := by
  have hrange := inRange_of_pathAt h
  have hpos := hrange.line_pos
  have hline : p.line - 1 + 1 = p.line := by omega
  have hkey : path.inProgress = Line.bareKey (d.typed p) := by
    rw [← Except.ok.inj ((pathAt_of_inRange hrange).symm.trans h)]
    rfl
  rw [editRange_eq hrange]
  cases htyped : path.inProgress with
  | none =>
    rw [if_pos rfl]
    exact ⟨hline, Nat.le_refl _, rfl, hrange.column_le, by simp, by simp, fun _ => rfl⟩
  | some key =>
    rw [if_neg (by simp)]
    have hindent : Line.indentation (d.typed p) ≤ p.column := by
      rw [indentation_typed]
      omega
    have hchars : (d.typed p).toList = (d.lineText p.line).toList.take p.column := String.toList_ofList
    have hblanks : (d.lineText p.line).toList.take (Line.indentation (d.typed p)) =
        (d.typed p).toList.takeWhile Text.isBlank := by
      rw [← Line.take_indentation, hchars, List.take_take, Nat.min_eq_left hindent]
    refine ⟨hline, hindent, rfl, hrange.column_le, ?_, ?_, by simp⟩
    · intro _ _ c hc
      rw [hblanks] at hc
      exact List.mem_takeWhile_imp hc
    · rintro _ ⟨⟩
      obtain ⟨-, htrimmed, -, -⟩ := Line.bareKey_eq_some_iff.mp (hkey.symm.trans htyped)
      rw [← hchars, Line.drop_indentation, htrimmed, Text.trimmed, Text.trim]

theorem locate_scan_zero (d : Document) : d.scan.locate 0 = none := by
  rw [Option.eq_none_iff_forall_ne_some]
  intro b hb
  have hzero : d.refAt 0 = none := rfl
  obtain ⟨key, n, hlast, hle, -⟩ := (locate_scan_eq_some_iff hzero).mp hb
  have := (bounds_of_keyAt hlast.1).1
  omega

end Document

/-! ## The range of a response -/

namespace Source

variable {σ : Type}

/-- **The items of a response replace the key being typed.** They have one range, which covers the key being typed
at the path of the cursor. A request that needs values, so that a range is computed, has a line of one or more,
since no block is located at line zero. -/
theorem handle_editRange (s : Source σ) (r : Request) :
    r.document.scan.locate 0 = none ∧ (∀ ref, r.chart? = some ref → 1 ≤ r.position.line) ∧
      ∀ item ∈ (s.handle r).1.items, (∀ item' ∈ (s.handle r).1.items, item'.editRange = item.editRange) ∧
        ∃ path, r.document.pathAt r.position = .ok path ∧
          item.editRange.Covers r.document r.position path.inProgress := by
  refine ⟨r.document.locate_scan_zero, fun ref href => ?_, fun item hitem => ?_⟩
  · obtain ⟨-, block, path, hplan⟩ := Request.chart?_eq_some_iff.mp href
    obtain ⟨-, -, hpath, -⟩ := Document.plan_eq_needs_iff.mp hplan
    exact (Document.inRange_of_pathAt hpath).line_pos
  · obtain ⟨block, ref, path, tree, -, hplan, -, hresponse⟩ := items_handle (List.ne_nil_of_mem hitem)
    obtain ⟨-, -, hpath, -⟩ := Document.plan_eq_needs_iff.mp hplan
    have hrange : ∀ item ∈ (s.handle r).1.items, item.editRange = r.document.editRange r.position path := by
      intro item hitem
      rw [hresponse] at hitem
      obtain ⟨c, -, rfl⟩ := List.mem_map.mp hitem
      rfl
    refine ⟨fun item' hitem' => (hrange item' hitem').trans (hrange item hitem).symm, path, hpath, ?_⟩
    rw [hrange item hitem]
    exact Document.covers_editRange hpath

/-- On a line that is indented by a tabulator and an ideographic space, the key `au` being typed and the blank
behind it are replaced. -/
theorem handle_editRange_blanks :
    let r : Request := ⟨⟨"values.yaml", "# @a/b\nx:\n\t\u3000au z"⟩, ⟨3, 5⟩, false⟩
    let tree : Tree := .object [("au", .object [("k", .number "1")])]
    let s : Source Unit := { provider := { fetch := fun _ _ state => (.ok tree, state) }, state := () }
    ∃ item ∈ (s.handle r).1.items, item.editRange = ⟨2, 2, 5⟩ ∧
      item.editRange.Covers r.document r.position (some "au") := by
  intro r tree s
  have hplan : r.document.plan r.position = .needs ⟨"x", some "a/b", 1, 2, 0⟩ "a/b" ⟨["x"], some "au"⟩ := by
    decide +kernel
  have hrange : r.document.editRange r.position ⟨["x"], some "au"⟩ = ⟨2, 2, 5⟩ := by decide +kernel
  have hitems : (s.handle r).1.items = itemsIn tree ⟨["x"], some "au"⟩ "x" "a/b" ⟨2, 2, 5⟩ := by
    rw [handle_of_some (Request.chart?_eq_some_iff.mpr ⟨rfl, _, _, hplan⟩)]
    show (r.answer (.ok tree)).items = _
    rw [Request.answer_ok hplan, hrange]
  have hranges : (s.handle r).1.items.map Item.editRange = [⟨2, 2, 5⟩] := by
    rw [hitems, itemsIn, Tree.flatten_object]
    decide +kernel
  have hpath : r.document.pathAt r.position = .ok ⟨["x"], some "au"⟩ :=
    (Document.plan_eq_needs_iff.mp hplan).2.2.1
  obtain ⟨item, hitem, hitemRange⟩ := List.mem_map.mp (hranges ▸ List.mem_singleton_self (⟨2, 2, 5⟩ : EditRange))
  obtain ⟨-, path, hpath', hcovers⟩ := (s.handle_editRange r).2.2 item hitem
  obtain rfl := Except.ok.inj (hpath.symm.trans hpath')
  exact ⟨item, hitem, hitemRange, hcovers⟩

end Source

end ChartValues
