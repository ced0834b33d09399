import ChartValues.Proofs.Block.Locate
import ChartValues.Proofs.Completion.Outcome
import ChartValues.Proofs.Document.Slice

/-!
# What a notice points at

When a fetch fails, the response is a notice with the span of the line on which the located block starts. That
line is the one that names the chart (`Document.refAt_startLine`), and its span marks its text in the source
(`Document.liesIn_source`), so the notice underlines the annotation (`handle_underlines`). The notice for a
position that does not fit the document points at nothing.
-/

namespace ChartValues

theorem Document.exists_line_of_refAt {d : Document} {n : Nat} {ref : String} (h : d.refAt n = some ref) :
    ∃ line ∈ d.lines, d.line? n = some line.text ∧ d.span? n = some line.span ∧
      Line.chartRef line.text = some ref := by
  obtain ⟨text, htext, href⟩ := Option.bind_eq_some_iff.mp h
  obtain ⟨line, hline, rfl⟩ := Option.map_eq_some_iff.mp htext
  have hmem : line ∈ d.lines := by
    cases n with
    | zero => simp [nth?] at hline
    | succ n => exact List.mem_of_getElem? hline
  refine ⟨line, hmem, htext, ?_, href⟩
  rw [span?, hline]
  rfl

namespace Notice

/-- What a notice says of a chart whose values could not be had. -/
def failureMessage (ref : String) (kind : FetchErrorKind) : String :=
  if kind = .parseFailed then "values of chart `" ++ ref ++ "` could not be parsed"
  else "values of chart `" ++ ref ++ "` are unavailable (" ++ kind.name ++ ")"

theorem message_ofFetchError (e : FetchError) (span : Option Span) :
    (ofFetchError e span).message = failureMessage e.chartRef e.kind := by
  unfold ofFetchError failureMessage
  by_cases hkind : e.kind = .parseFailed
  · rw [if_pos hkind, if_pos hkind]
  · rw [if_neg hkind, if_neg hkind]

theorem span_ofFetchError (e : FetchError) (span : Option Span) : (ofFetchError e span).span = span := by
  unfold ofFetchError
  split_ifs <;> rfl

end Notice

namespace Request

theorem answer_failed {r : Request} {ref : String} {e : FetchError} (h : r.chart? = some ref)
    (hkind : e.kind ≠ .cancelled) :
    ∃ n, r.document.refAt n = some ref ∧
      r.answer (.error e) = .ofNotice (Notice.ofFetchError e (r.document.span? n)) := by
  obtain ⟨-, block, path, hplan⟩ := chart?_eq_some_iff.mp h
  obtain ⟨hlocate, href, -, -⟩ := Document.plan_eq_needs_iff.mp hplan
  refine ⟨block.startLine, Document.refAt_startLine hlocate href, ?_⟩
  rw [answer, hplan]
  exact if_neg hkind

theorem idle_of_outOfRange {r : Request} {error : PositionError}
    (h : r.document.pathAt r.position = .error error) :
    r.idle.notices = [] ∨ r.idle.notices = [{ severity := .warning, message := error.message }] := by
  unfold idle
  by_cases hcancelled : r.cancelled = true
  · rw [if_pos hcancelled]
    exact Or.inl rfl
  rw [if_neg hcancelled]
  unfold Document.plan
  split
  · exact Or.inl rfl
  split
  · exact Or.inl rfl
  rw [h]
  exact Or.inr rfl

end Request

namespace Source

variable {σ : Type}

theorem namesChart_of_config {c : Config} {files : FileTree} {run : Runner} {s : Source Unit}
    (h : c.source files run = .ok s) : s.provider.NamesChart := by
  rcases (of_config h).2 with hcommand | ⟨dir, hfixture⟩
  · exact hcommand ▸ Provider.valuesCommand_namesChart _ _
  · exact hfixture ▸ Provider.fixture_namesChart _ _

/-- **A notice of a failed fetch underlines the annotation.** Its span is that of one line of the document,
marks exactly the text of this line in the source, and the line names the chart that the provider was asked for
and that the message names. A notice about a position out of range has no span. -/
theorem handle_underlines (s : Source σ) (hprovider : s.provider.NamesChart) (r : Request) :
    (∀ ref e, (⟨ref, .error e⟩ : Call) ∈ s.calls r → e.kind ≠ .cancelled →
      ∃ (notice : Notice) (n : Nat) (line : Line) (before after : List Char),
        (s.handle r).1.notices = [notice] ∧ notice.span = some line.span ∧
        r.document.line? n = some line.text ∧
        line.LiesIn 0 r.document.source.toList before after ∧
        Line.chartRef line.text = some ref ∧ notice.message = Notice.failureMessage ref e.kind) ∧
    ∀ error, r.document.pathAt r.position = .error error → ∀ notice ∈ (s.handle r).1.notices,
      notice.message = error.message ∧ notice.span = none := by
  constructor
  · intro ref e hcall hkind
    obtain ⟨hchart, hresponse, -⟩ := handle_of_failed_call hcall
    have hname : e.chartRef = ref := hprovider _ _ _ _ (mem_calls_iff.mp hcall).2.2.symm
    obtain ⟨n, href, hanswer⟩ := Request.answer_failed hchart hkind
    obtain ⟨line, hmem, htext, hspan, hline⟩ := Document.exists_line_of_refAt href
    obtain ⟨before, after, hlies⟩ := Document.liesIn_source hmem
    refine ⟨_, n, line, before, after, by rw [hresponse, hanswer]; rfl, ?_, htext, hlies, hline, ?_⟩
    · rw [Notice.span_ofFetchError, hspan]
    · rw [Notice.message_ofFetchError, hname]
  · intro error herror notice hnotice
    have hchart := Request.chart?_eq_none_of_idle (.outOfRange error herror)
    rw [handle_of_none hchart] at hnotice
    rcases Request.idle_of_outOfRange herror with hnone | hone
    · simp [hnone] at hnotice
    · simp only [hone, List.mem_singleton] at hnotice
      rw [hnotice]
      exact ⟨rfl, rfl⟩

/-- Behind a line of two bytes a letter, the notice about a chart that is not there underlines the bytes 7 to 13
of the annotation, without the carriage return behind it. -/
theorem handle_underlines_crlf :
    let e : FetchError := ⟨.executionFailed, "a/b", "chart not found"⟩
    let r : Request := ⟨⟨"values.yaml", "éé:\r\n# @a/b\r\nx:\r\n  "⟩, ⟨4, 2⟩, false⟩
    let s : Source Unit := Source.ofProvider (.ofCharts []) ()
    s.provider.NamesChart ∧ (⟨"a/b", .error e⟩ : Call) ∈ s.calls r ∧ e.kind ≠ .cancelled ∧
      ∃ (notice : Notice) (line : Line), (s.handle r).1.notices = [notice] ∧
        notice.span = some line.span ∧ line.span = ⟨7, 13⟩ ∧ Line.chartRef line.text = some "a/b" := by
  intro e r s
  have hprovider : s.provider.NamesChart := Provider.ofCharts_namesChart []
  have hcall : (⟨"a/b", .error e⟩ : Call) ∈ s.calls r := by
    refine mem_calls_iff.mpr ⟨?_, rfl, rfl⟩
    decide +kernel
  have hkind : e.kind ≠ .cancelled := by decide
  obtain ⟨notice, n, line, before, after, hnotices, hspan, -, -, hline, -⟩ :=
    (handle_underlines s hprovider r).1 "a/b" e hcall hkind
  have hbytes : (s.handle r).1.notices.map Notice.span = [some ⟨7, 13⟩] := by decide +kernel
  rw [hnotices, List.map_singleton, hspan] at hbytes
  exact ⟨hprovider, hcall, hkind, notice, line, hnotices, hspan, by simpa using hbytes, hline⟩

end Source

end ChartValues
