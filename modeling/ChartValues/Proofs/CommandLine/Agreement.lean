import ChartValues.CommandLine.Run

/-!
# Two commands at one cursor

`complete` and `resolve` ask the same source for an answer at a cursor, the one to list all of its items, the
other to show the one with a given label. Both are told here in terms of the items of that answer
(`World.items`): `resolve` succeeds if one of them has the label (`exitCode_resolve`), and `complete` writes a
line for each of them (`outputs_complete`), but only for a document whose name matches a pattern. `resolve`
does not look at the name, so the two commands agree on a label exactly if the name matches or no item has the
label (`resolve_agrees_iff`).
-/

namespace ChartValues

/-! ## Output -/

/-- The line of output that an emission is. -/
def Emission.output? : Emission → Option String
  | .output line => some line
  | .message _ => none
  | .event _ => none

namespace Report

def outputs (r : Report) : List String := r.emissions.filterMap Emission.output?

theorem standardOutput_eq (r : Report) : r.standardOutput = String.join (r.outputs.map (· ++ "\n")) := by
  unfold standardOutput outputs
  induction r.emissions with
  | nil => rfl
  | cons e rest ih =>
    rw [List.map_cons, String.join_cons, ih]
    cases e with
    | output line => simp [Emission.output?]
    | message text => exact String.empty_append
    | event event => exact String.empty_append

theorem outputs_events (es : List Log.Event) : (events es).filterMap Emission.output? = [] := by
  rw [List.filterMap_eq_nil_iff]
  intro e he
  obtain ⟨event, -, rfl⟩ := List.mem_map.mp he
  rfl

end Report

/-- The line that `complete` writes for an item. -/
def Item.line (i : Item) : String := "\t".intercalate ([i.label, i.insertText] ++ i.detail.toList)

namespace CommandLine

namespace World

/-- Whether a file's name matches a pattern of the configuration. -/
def isApplicable (w : World) (config : Option String) (file : String) : Bool :=
  match w.source config with
  | .ok source => Source.isApplicable source.patterns file
  | .error _ => false

/-- The items of the answer at a cursor of a file, whatever the file is called. Without a source, or without a
text, there are none. -/
def items (w : World) (config : Option String) (file : String) (p : Position) : List Item :=
  match w.source config, w.files.readText file with
  | .ok source, .ok text => (source.complete ⟨file, text⟩ p false).1.items
  | _, _ => []

/-- The items at a cursor of a file whose name matches a pattern. -/
def listed (w : World) (config : Option String) (file : String) (p : Position) : List Item :=
  if w.isApplicable config file then w.items config file p else []

end World

variable {w : World} {config : Option String} {file : String} {p : Position}

/-! ## Listing -/

theorem outputs_deliver (d : Document) (response : Response) (es : List Log.Event) :
    (deliver d false response { emissions := Report.events es }).outputs = response.items.map Item.line := by
  have hlines : (answerLines false response).filterMap Emission.output? = response.items.map Item.line := by
    rw [answerLines, if_neg Bool.false_ne_true, List.filterMap_map, ← List.filterMap_eq_map]
    rfl
  have hnotices : (response.notices.map fun n => Emission.message (Diagnostic.render d n)).filterMap
      Emission.output? = [] := by
    rw [List.filterMap_eq_nil_iff]
    intro e he
    obtain ⟨n, -, rfl⟩ := List.mem_map.mp he
    rfl
  unfold Report.outputs deliver
  rw [List.filterMap_append, List.filterMap_append, Report.outputs_events, hlines, hnotices,
    List.nil_append, List.append_nil]

theorem outputs_complete (w : World) (config : Option String) (file : String) (p : Position) :
    (complete w config file p false).outputs = (w.listed config file p).map Item.line := by
  unfold complete World.listed World.isApplicable World.items
  cases w.source config with
  | error e => rfl
  | ok source =>
    dsimp only
    by_cases hname : Source.isApplicable source.patterns file = true
    · rw [if_neg (by simpa using hname), if_pos hname]
      unfold World.withDocument
      cases w.files.readText file with
      | error e => rfl
      | ok text =>
        exact outputs_deliver ⟨file, text⟩ (source.complete ⟨file, text⟩ p false).1
          (source.completeEvents ⟨file, text⟩ p false)
    · rw [if_pos (by simpa using hname), if_neg hname]
      rfl

/-! ## Showing one -/

theorem exitCode_resolve (label : String) (json : Bool) :
    (resolve w config file p label json).exitCode = 0 ↔
      ∃ item ∈ w.items config file p, item.label = label := by
  unfold resolve World.items
  cases w.source config with
  | error e => simp [Report.failure]
  | ok source =>
    dsimp only
    unfold World.withDocument
    cases w.files.readText file with
    | error e => simp [Report.failure]
    | ok text =>
      dsimp only
      cases hfind : (source.complete ⟨file, text⟩ p false).1.items.find? (·.label = label) with
      | none =>
        have hnone := List.find?_eq_none.mp hfind
        simpa [Report.failure] using hnone
      | some item =>
        have hlabel := List.find?_some hfind
        have hmem := List.mem_of_find?_eq_some hfind
        simpa using ⟨item, hmem, by simpa using hlabel⟩

/-! ## Agreement -/

theorem mem_listed_iff {item : Item} :
    item ∈ w.listed config file p ↔ w.isApplicable config file = true ∧ item ∈ w.items config file p := by
  unfold World.listed
  by_cases hname : w.isApplicable config file = true
  · simp [hname]
  · simp [hname]

/-- **When `resolve` and `complete` see the same candidates.** Called for one cursor of one file with one
configuration, `complete` writes a line for each listed item, and `resolve` finds a label if and only if a
listed item has it, exactly when the file's name matches a pattern or no item at the cursor has the label. -/
theorem resolve_agrees_iff (w : World) (args args' : List String) (environment environment' : Option String)
    (settings settings' : Settings) (file : String) (p : Position) (label : String) (json : Bool)
    (hresolve : Invocation.ofArgs args = .ok ⟨settings, .resolve file p label json⟩)
    (hcomplete : Invocation.ofArgs args' = .ok ⟨settings', .complete file p false⟩)
    (hconfig : settings'.config = settings.config) :
    (run args' w environment').output =
      String.join ((w.listed settings.config file p).map (·.line ++ "\n")) ∧
    (((run args w environment).exitCode = 0 ↔
        ∃ item ∈ w.listed settings.config file p, item.label = label) ↔
      w.isApplicable settings.config file = true ∨
        ∀ item ∈ w.items settings.config file p, item.label ≠ label) := by
  have houtput : (run args' w environment').output = (complete w settings'.config file p false).standardOutput := by
    rw [run, hcomplete]
    rfl
  have hexit : (run args w environment).exitCode = (resolve w settings.config file p label json).exitCode := by
    rw [run, hresolve]
    rfl
  constructor
  · rw [houtput, Report.standardOutput_eq, outputs_complete, hconfig, List.map_map]
    rfl
  rw [hexit, exitCode_resolve]
  simp only [mem_listed_iff]
  constructor
  · intro hagree
    by_cases hname : w.isApplicable settings.config file = true
    · exact Or.inl hname
    · refine Or.inr fun item hitem hlabel => hname ?_
      obtain ⟨_, ⟨happlicable, -⟩, -⟩ := hagree.mp ⟨item, hitem, hlabel⟩
      exact happlicable
  · rintro (hname | hnone)
    · simp only [hname, true_and]
    · constructor
      · rintro ⟨item, hitem, hlabel⟩
        exact absurd hlabel (hnone item hitem)
      · rintro ⟨item, ⟨-, hitem⟩, hlabel⟩
        exact absurd hlabel (hnone item hitem)

/-- A directory with a configuration that reads charts from `charts`, one chart `a`, and a document of the given
name that is annotated with it. -/
def chartDirectory (file : String) : World where
  files := .directory
    [("chartcomp.toml", .file (Text.Utf8.encode
      "[provider]\nkind = \"fixtures\"\nfixtures_dir = \"charts\"\n")),
      ("charts", .directory [("a.yaml", .file (Text.Utf8.encode "port: 80\n"))]),
      (file, .file (Text.Utf8.encode "# @a\nx:\n  \n"))]
  run _ _ := .error .notFound

theorem eq_ok_of_toOption {ε α : Type} {x : Except ε α} {a : α} (h : x.toOption = some a) : x = .ok a := by
  cases x with
  | error e => simp [Except.toOption] at h
  | ok b => rw [Option.some.inj h]

/-- In a document named `values.yaml` both commands find the key `port`. -/
theorem resolve_agrees_iff_values :
    let w := chartDirectory "values.yaml"
    let cursor := ["values.yaml", "--line", "3", "--column", "2", "--config", "chartcomp.toml"]
    let args := "resolve" :: cursor ++ ["--label", "port"]
    let args' := "complete" :: cursor
    let settings : Settings := { config := some "chartcomp.toml" }
    Invocation.ofArgs args = .ok ⟨settings, .resolve "values.yaml" ⟨3, 2⟩ "port" false⟩ ∧
      Invocation.ofArgs args' = .ok ⟨settings, .complete "values.yaml" ⟨3, 2⟩ false⟩ ∧
      (run args' w none).output = "port\tport: 80\t80 (number)\n" ∧
      ((run args w none).exitCode = 0 ↔
        ∃ item ∈ w.listed settings.config "values.yaml" ⟨3, 2⟩, item.label = "port") := by
  intro w cursor args args' settings
  have hresolve := eq_ok_of_toOption (by decide +kernel : (Invocation.ofArgs args).toOption =
    some ⟨settings, .resolve "values.yaml" ⟨3, 2⟩ "port" false⟩)
  have hcomplete := eq_ok_of_toOption (by decide +kernel : (Invocation.ofArgs args').toOption =
    some ⟨settings, .complete "values.yaml" ⟨3, 2⟩ false⟩)
  have hworld : w.isApplicable settings.config "values.yaml" = true ∧
      (w.listed settings.config "values.yaml" ⟨3, 2⟩).map (·.line ++ "\n") =
        ["port\tport: 80\t80 (number)\n"] := by decide +kernel
  obtain ⟨houtput, hagree⟩ := resolve_agrees_iff w args args' none none settings settings "values.yaml" ⟨3, 2⟩
    "port" false hresolve hcomplete rfl
  rw [hworld.2, String.join_cons, String.join_nil, String.append_empty] at houtput
  exact ⟨hresolve, hcomplete, houtput, hagree.mpr (Or.inl hworld.1)⟩

/-- In a document named `notes.txt`, which no pattern matches, `resolve` finds the key `port`, although
`complete` lists nothing there. -/
theorem resolve_unmatched_name :
    let w := chartDirectory "notes.txt"
    let cursor := ["notes.txt", "--line", "3", "--column", "2", "--config", "chartcomp.toml"]
    let args := "resolve" :: cursor ++ ["--label", "port"]
    let args' := "complete" :: cursor
    w.isApplicable (some "chartcomp.toml") "notes.txt" = false ∧ (run args' w none).output = "" ∧
      (run args w none).exitCode = 0 ∧
      ¬((run args w none).exitCode = 0 ↔
        ∃ item ∈ w.listed (some "chartcomp.toml") "notes.txt" ⟨3, 2⟩, item.label = "port") := by
  intro w cursor args args'
  have hruns : w.isApplicable (some "chartcomp.toml") "notes.txt" = false ∧ (run args' w none).output = "" ∧
      (run args w none).exitCode = 0 := by decide +kernel
  refine ⟨hruns.1, hruns.2.1, hruns.2.2, fun hagree => ?_⟩
  obtain ⟨item, hitem, -⟩ := hagree.mp hruns.2.2
  simp [mem_listed_iff, hruns.1] at hitem

end CommandLine

end ChartValues
