import Mathlib.Data.List.DropRight
import ChartValues.Proofs.Completion.Delivered
import ChartValues.Proofs.Markdown.Document
import ChartValues.Proofs.Tree.Rendered

/-!
# Documentation as a terminal shows it

The documentation of an item is Markdown, into which reference, path and values go as they are. A terminal shows them
again without the marks (`Source.shownText`), as long as no character of theirs is a mark itself. For a path on one
line in which no backtick stands alone, and values without carriage returns, that is **exactly if no two runs of
underscores in the reference make emphasis, the path does not lose a blank at both ends, and no line of the values ends
the code** (`Source.resolve_shown_iff`). A reference such as `_a_` loses its underscores
(`Source.resolve_loses_underscores`).
-/

namespace ChartValues

theorem Tree.exists_toList_toYaml (key : String) (node : Tree) :
    ∃ cs, (toYaml 0 (.object [(key, node)])).toList = cs ++ ['\n'] ∧ ':' ∈ cs := by
  have htext : (toYaml 0 (.object [(key, node)])).toList =
      (fieldLines 0 [(key, node)]).flatMap fun line => line.toList ++ ['\n'] := toList_fieldsYaml 0 _
  obtain ⟨init, last, hlines⟩ : ∃ init last, fieldLines 0 [(key, node)] = init ++ [last] :=
    ⟨_, _, (List.dropLast_append_getLast (List.cons_ne_nil _ _)).symm⟩
  have hend : (toYaml 0 (.object [(key, node)])).toList =
      (init.flatMap fun line => line.toList ++ ['\n']) ++ last.toList ++ ['\n'] := by
    rw [htext, hlines, List.flatMap_append, List.flatMap_singleton, List.append_assoc]
  refine ⟨_, hend, ?_⟩
  have hcolon : ':' ∈ (toYaml 0 (.object [(key, node)])).toList := by
    rw [htext, fieldLines, List.flatMap_cons]
    simp [fieldLine]
  rw [hend] at hcolon
  exact (List.mem_append.mp hcolon).resolve_right (by decide)

namespace Source

open Markdown

variable {σ : Type} {s : Source σ} {item : Item} {node : Tree}

/-- What stands behind the path of a node: its kind, if it is a scalar. -/
def kindText (node : Tree) : String :=
  match node.kind? with
  | some kind => " (" ++ kind.name ++ ")"
  | none => ""

theorem isTailText_kindText (node : Tree) : IsTailText (kindText node).toList := by
  rw [kindText]
  split
  · rename_i kind _
    have hwords : ∀ kind : Kind, ∃ ws, (" (" ++ kind.name ++ ")").toList = ' ' :: ws ∧ ∀ c ∈ ws, isPlain c = true := by
      intro kind
      refine ⟨(" (" ++ kind.name ++ ")").toList.tail, by cases kind <;> rfl, List.all_eq_true.mp ?_⟩
      cases kind <;> decide
    exact ⟨.inr (hwords kind), ⟨by cases kind <;> decide, by cases kind <;> decide⟩, by cases kind <;> decide⟩
  · exact ⟨.inl rfl, oneLine_nil, rfl⟩

/-- A node as it is shown: its chart, its path between backticks and its kind, an empty line, and its values, each line
behind four blanks. White space at the end is left out. -/
def shownText (origin : Origin) (node : Tree) (yaml : String) : String :=
  Text.trimmedEnd (origin.chartRef ++ " `" ++ ".".intercalate origin.path ++ "`" ++ kindText node ++ "\n\n" ++
    String.ofList (indented (linesOf yaml)))

/-- A path that stands between backticks as it is, but for blanks at its ends: on one line, and with no backtick alone
or at an end. -/
structure StaysPath (dotted : String) : Prop where
  oneLine : OneLine dotted.toList
  enclosable : Enclosable dotted.toList

theorem toList_documentation {origin : Origin} {yaml : String} {cs : List Char} (hyaml : yaml.toList = cs ++ ['\n']) :
    (heading origin node ++ "\n\n```yaml\n" ++ yaml ++ "```\n").toList =
      documentChars (headingChars origin.chartRef.toList (".".intercalate origin.path).toList (kindText node).toList)
        (linesOf yaml ++ ["\x60\x60\x60".toList]) := by
  have hlines : joined (linesOf yaml ++ ["\x60\x60\x60".toList]) = yaml.toList ++ "\x60\x60\x60\n".toList := by
    rw [← joined_linesOf hyaml, joined, List.flatMap_append]
    rfl
  rw [documentChars, hlines, heading, kindText]
  cases node.kind? <;> simp [headingChars]

theorem toList_shownText {origin : Origin} {yaml : String}
    (hsome : ∃ c ∈ indented (linesOf yaml), Text.isBlank c = false) :
    (shownText origin node yaml).toList =
      shownHeading origin.chartRef.toList (".".intercalate origin.path).toList (kindText node).toList ++
        '\n' :: '\n' :: Text.trimEnd (indented (linesOf yaml)) := by
  have hkeep := Text.trimEnd_append (shownHeading origin.chartRef.toList (".".intercalate origin.path).toList
    (kindText node).toList ++ ['\n', '\n']) hsome
  rw [shownText, Text.trimmedEnd, String.toList_ofList]
  simpa [shownHeading] using hkeep

section documentation
variable {origin : Origin} {yaml : String} {cs : List Char}

theorem exists_toTerminalText (hyaml : yaml.toList = cs ++ ['\n']) (href : IsReference origin.chartRef.toList)
    (hdotted : StaysPath (".".intercalate origin.path)) (hlines : ∀ l ∈ linesOf yaml, OneLine l)
    {ls rest : List (List Char)} {stop : List Char}
    (hsplit : linesOf yaml ++ ["\x60\x60\x60".toList] = ls ++ stop :: rest) (hls : ∀ l ∈ ls, ¬EndsCode l) (hstop : EndsCode stop) :
    ∃ shown behind, (toTerminalText (heading origin node ++ "\n\n```yaml\n" ++ yaml ++ "```\n")).toList =
        Text.trimEnd (shown ++ '\n' :: '\n' :: (indented ls ++ '\n' :: behind)) ∧ (rest = [] → behind = []) ∧
      (shown = shownHeading origin.chartRef.toList (".".intercalate origin.path).toList (kindText node).toList ↔
        KeepsUnderscores origin.chartRef.toList ∧ ¬Padded (".".intercalate origin.path).toList) ∧
      shown.length ≤
        (shownHeading origin.chartRef.toList (".".intercalate origin.path).toList (kindText node).toList).length := by
  have htail := isTailText_kindText node
  have hall : ∀ l ∈ linesOf yaml ++ ["\x60\x60\x60".toList], OneLine l := by
    intro l hl
    rcases List.mem_append.mp hl with hl | hl
    · exact hlines l hl
    · rw [List.mem_singleton.mp hl]
      exact ⟨by decide, by decide⟩
  rw [hsplit] at hall
  obtain ⟨defined, behind, hshown, hbehind⟩ := toTerminalText_document (isStrongLine_headingChars href htail)
    (oneLine_headingChars href hdotted.oneLine htail) hall hls hstop
  rw [← hsplit, ← toList_documentation hyaml, String.ofList_toList] at hshown
  exact ⟨_, behind, hshown, hbehind,
    chars_spans_heading_iff defined href hdotted.enclosable hdotted.oneLine.noFeed htail.words⟩

/-- **If no line of the values ends the code, all that can be lost is of the heading.** -/
theorem toTerminalText_iff_of_stays (hyaml : yaml.toList = cs ++ ['\n']) (hcolon : ':' ∈ cs)
    (href : IsReference origin.chartRef.toList) (hdotted : StaysPath (".".intercalate origin.path))
    (hlines : ∀ l ∈ linesOf yaml, OneLine l) (hcode : ∀ l ∈ linesOf yaml, ¬EndsCode l) :
    toTerminalText (heading origin node ++ "\n\n```yaml\n" ++ yaml ++ "```\n") = shownText origin node yaml ↔
      KeepsUnderscores origin.chartRef.toList ∧ ¬Padded (".".intercalate origin.path).toList := by
  obtain ⟨shown, behind, htext, hbehind, hshown, -⟩ := @exists_toTerminalText node origin yaml cs hyaml href hdotted
    hlines _ [] _ rfl hcode (by decide)
  have hsome : ∃ c ∈ indented (linesOf yaml), Text.isBlank c = false := by
    have hmem : ':' ∈ joined (linesOf yaml) := by
      rw [joined_linesOf hyaml, hyaml]
      exact List.mem_append_left _ hcolon
    exact ⟨':', mem_indented hmem, by decide⟩
  have hbehind : shown ++ '\n' :: '\n' :: (indented (linesOf yaml) ++ '\n' :: behind) =
      shown ++ ['\n', '\n'] ++ indented (linesOf yaml) ++ ['\n'] := by simp [hbehind]
  rw [hbehind, Text.trimEnd_append_blank _ (by decide), Text.trimEnd_append _ hsome, List.append_assoc] at htext
  rw [← String.toList_inj, htext, toList_shownText hsome, ← hshown]
  exact List.append_left_inj _

/-- **If a line of the values ends the code, something is lost**: behind the lines before it stands an empty one. -/
theorem toTerminalText_ne_of_ends (hyaml : yaml.toList = cs ++ ['\n']) (href : IsReference origin.chartRef.toList)
    (hdotted : StaysPath (".".intercalate origin.path)) (hlines : ∀ l ∈ linesOf yaml, OneLine l)
    (hends : ∃ l ∈ linesOf yaml, EndsCode l) :
    toTerminalText (heading origin node ++ "\n\n```yaml\n" ++ yaml ++ "```\n") ≠ shownText origin node yaml := by
  obtain ⟨ls, stop, rest, hsplit, hls, hstop⟩ := exists_first_endsCode hends
  obtain ⟨shown, behind, htext, -, -, hlength⟩ := @exists_toTerminalText node origin yaml cs hyaml href hdotted
    hlines ls (rest ++ ["\x60\x60\x60".toList]) stop (by rw [hsplit, List.append_assoc, List.cons_append]) hls hstop
  obtain ⟨hsome, more, hmore⟩ := trimEnd_indented ls rest hstop
  rw [← hsplit] at hsome hmore
  obtain ⟨blanks, hblanks⟩ := List.rdropWhile_prefix Text.isBlank
    (shown ++ '\n' :: '\n' :: (indented ls ++ '\n' :: behind))
  have hfeed := (oneLine_shownHeading href hdotted.oneLine (isTailText_kindText node)).noFeed
  intro heq
  have hall : (shownText origin node yaml).toList ++ blanks =
      shown ++ '\n' :: '\n' :: (indented ls ++ '\n' :: behind) := by
    rw [← heq, htext]
    exact hblanks
  rw [toList_shownText hsome, hmore, List.append_assoc, List.cons_append] at hall
  have hbehind := List.cons.inj (eq_of_append_feed hfeed hlength hall).2
  simp at hbehind

end documentation

/-- **When the documentation of an item is shown as it is**: if its path stands between backticks as it is and its
values hold no carriage return, exactly if its reference keeps its underscores, its path its blanks, and no line of its
values ends the code. -/
theorem resolve_shown_iff {line : String} (hnode : s.lookup item.origin = some node) (hpath : item.origin.path ≠ [])
    (href : Line.chartRef line = some item.origin.chartRef) :
    ∃ documentation action, (s.resolve item).documentation = some documentation ∧ s.execute item = some action ∧
      (StaysPath (".".intercalate item.origin.path) → '\r' ∉ action.yaml.toList →
        (toTerminalText documentation = shownText item.origin node action.yaml ↔
          KeepsUnderscores item.origin.chartRef.toList ∧ ¬Padded (".".intercalate item.origin.path).toList ∧
            ∀ l ∈ linesOf action.yaml, ¬EndsCode l)) := by
  have hkey := List.getLast?_eq_some_getLast hpath
  obtain ⟨cs, hyaml, hcolon⟩ := Tree.exists_toList_toYaml (item.origin.path.getLast hpath) node
  refine ⟨_, _, congrArg Item.documentation (resolve_of_lookup hnode hkey), execute_of_lookup hnode hkey,
    fun hdotted hreturn => ?_⟩
  have href := isReference_of_chartRef href
  have hlines := oneLine_of_mem_linesOf hyaml hreturn
  by_cases hcode : ∀ l ∈ linesOf (Tree.toYaml 0 (.object [(item.origin.path.getLast hpath, node)])), ¬EndsCode l
  · rw [toTerminalText_iff_of_stays hyaml hcolon href hdotted hlines hcode, and_iff_left hcode]
  · refine iff_of_false (toTerminalText_ne_of_ends hyaml href hdotted hlines ?_) fun h => hcode h.2.2
    simpa using hcode

/-- Of `a/my_chart` the port of a service is shown as it is. -/
theorem resolve_shown_iff_port :
    let node : Tree := .scalar "80" .number
    let s : Source Unit := { Source.ofProvider (.ofCharts []) () with
      cache := { trees := [("a/my_chart", .object [("svc", .object [("port", node)])])] } }
    let item : Item := ⟨"port", "port: 80", .value, some "80 (number)", ⟨2, 2, 2⟩, none, "1000000",
      ⟨"a/my_chart", ["svc", "port"]⟩⟩
    s.lookup item.origin = some node ∧ item.origin.path ≠ [] ∧
      Line.chartRef "# @a/my_chart" = some item.origin.chartRef ∧
      ∃ documentation action, (s.resolve item).documentation = some documentation ∧ s.execute item = some action ∧
        StaysPath (".".intercalate item.origin.path) ∧ '\r' ∉ action.yaml.toList ∧
        toTerminalText documentation = shownText item.origin node action.yaml ∧
        shownText item.origin node action.yaml = "a/my_chart `svc.port` (number)\n\n    port: 80" := by
  intro node s item
  have hnode : s.lookup item.origin = some node := by rfl
  have hpath : item.origin.path ≠ [] := List.cons_ne_nil _ _
  have href : Line.chartRef "# @a/my_chart" = some item.origin.chartRef := by decide +kernel
  obtain ⟨documentation, action, hdocumentation, haction, hiff⟩ := resolve_shown_iff hnode hpath href
  obtain rfl : ⟨"a/my_chart", ["svc", "port"], "port: 80\n"⟩ = action := Option.some.inj haction
  have hdotted : StaysPath (".".intercalate item.origin.path) :=
    ⟨⟨by decide, by decide⟩, by decide, by decide, NoLoneBacktick.of_not_mem (by decide)⟩
  have hreturn : '\r' ∉ "port: 80\n".toList := by decide
  have hwords : List.IsChain InWord ('*' :: (item.origin.chartRef.toList ++ ['*'])) := by decide +kernel
  have hshown := (hiff hdotted hreturn).mpr
    ⟨keepsUnderscores_of_inWord hwords, by decide +kernel, by decide +kernel⟩
  exact ⟨hnode, hpath, href, documentation, _, hdocumentation, haction, hdotted, hreturn, hshown, by decide +kernel⟩

/-- The reference `_a_` is shown without its underscores. -/
theorem resolve_loses_underscores :
    let node : Tree := .scalar "1" .number
    let s : Source Unit := { Source.ofProvider (.ofCharts []) () with
      cache := { trees := [("_a_", .object [("k", node)])] } }
    let item : Item := ⟨"k", "k: 1", .value, some "1 (number)", ⟨2, 2, 2⟩, none, "1000000", ⟨"_a_", ["k"]⟩⟩
    s.lookup item.origin = some node ∧ Line.chartRef "# @_a_" = some item.origin.chartRef ∧
      ∃ documentation action, (s.resolve item).documentation = some documentation ∧ s.execute item = some action ∧
        shownText item.origin node action.yaml = "_a_ `k` (number)\n\n    k: 1" ∧
        toTerminalText documentation = "a `k` (number)\n\n    k: 1" ∧
        toTerminalText documentation ≠ shownText item.origin node action.yaml := by
  exact ⟨rfl, by decide +kernel, "**_a_** `k` (number)\n\n```yaml\nk: 1\n```\n", ⟨"_a_", ["k"], "k: 1\n"⟩,
    by decide +kernel, by decide +kernel, by decide +kernel, by decide +kernel, by decide +kernel⟩

end Source

end ChartValues
