import ChartValues.Config
import ChartValues.Proofs.File.FileName
import ChartValues.Proofs.File.Glob

/-!
# Applicability

What leads to a file does not matter for whether a document gets completions (`isApplicable_append`). Under patterns
that are a star with a text behind it, only the ending of the file's name does (`isApplicable_endings_iff`): a name
without a file ends in a slash or a dot, and none of the texts does. `isApplicable_default` is about the patterns of a
run that is told none.
-/

namespace ChartValues

variable {name file directory : String} {texts : List String}

/-! ## Patterns of endings -/

namespace Config

theorem readPatterns_endingIn (h : ∀ text ∈ texts, Glob.Plain text.toList) :
    readPatterns (texts.map ("*" ++ ·)) = .ok (texts.map Glob.endingIn) := by
  induction texts with
  | nil => rfl
  | cons text texts ih =>
    rw [List.map_cons, readPatterns, Glob.ofString_endingIn (h text List.mem_cons_self),
      ih fun t ht => h t (List.mem_cons_of_mem _ ht)]
    rfl

theorem documentPatterns_default :
    ({} : Config).documentPatterns = .ok (["values.yaml", "values.yml"].map Glob.endingIn) := by
  have hplain : ∀ text ∈ ["values.yaml", "values.yml"], Glob.Plain text.toList := by simp [Glob.Plain]
  exact readPatterns_endingIn hplain

theorem defaultPatterns_eq : defaultPatterns = ["values.yaml", "values.yml"].map Glob.endingIn := by
  rw [defaultPatterns, documentPatterns_default]

end Config

namespace Source

/-! ## What applicability looks at -/

theorem isApplicable_of_hasFileName (patterns : List Glob) (h : Path.HasFileName name file) :
    isApplicable patterns name = patterns.any (·.accepts file) := by
  rw [isApplicable, Path.fileName?_eq_some_iff.mpr h]
  rfl

theorem isApplicable_of_unnamed (patterns : List Glob) (h : Path.Unnamed name) :
    isApplicable patterns name = patterns.any (·.accepts name) := by
  rw [isApplicable, Path.fileName?_eq_none_iff.mpr h]
  rfl

theorem isApplicable_append (patterns : List Glob) (directory : String) (h : Path.IsName file) (hup : file ≠ "..") :
    isApplicable patterns (directory ++ "/" ++ file) = isApplicable patterns file := by
  rw [isApplicable_of_hasFileName patterns (Path.hasFileName_append directory h hup),
    isApplicable_of_hasFileName patterns (Path.hasFileName_self h hup)]

theorem any_accepts_endingIn : (texts.map Glob.endingIn).any (·.accepts name) = true ↔
    ∃ text ∈ texts, text.toList <:+ name.toList := by
  simp [Glob.accepts_endingIn_iff]

/-- A text that could end the name of a file: its last character is neither a slash nor a dot. -/
def IsEnding (text : String) : Prop := ∃ c, text.toList.getLast? = some c ∧ c ≠ '/' ∧ c ≠ '.'

theorem isApplicable_endings_of_unnamed (htexts : ∀ text ∈ texts, IsEnding text) (h : Path.Unnamed name) :
    isApplicable (texts.map Glob.endingIn) name = false := by
  rw [isApplicable_of_unnamed _ h, Bool.eq_false_iff, Ne, any_accepts_endingIn]
  rintro ⟨text, htext, base, hbase⟩
  obtain ⟨c, hc, hslash, hdot⟩ := htexts text htext
  have hlast : name.toList.getLast? = some c := by
    rw [← hbase, List.getLast?_append, hc, Option.some_or]
  exact (h.getLast? hlast).elim hslash hdot

/-- **Under patterns of endings, a document is applicable if its file's name ends so.** -/
theorem isApplicable_endings_iff (htexts : ∀ text ∈ texts, IsEnding text) :
    isApplicable (texts.map Glob.endingIn) name = true ↔
      ∃ file, Path.HasFileName name file ∧ ∃ text ∈ texts, text.toList <:+ file.toList := by
  cases hfile : Path.fileName? name with
  | some file =>
    have hname := Path.fileName?_eq_some_iff.mp hfile
    rw [isApplicable_of_hasFileName _ hname, any_accepts_endingIn]
    constructor
    · exact fun h => ⟨file, hname, h⟩
    · rintro ⟨file', hname', h⟩
      have heq := Path.fileName?_eq_some_iff.mpr hname'
      rw [hfile] at heq
      exact Option.some.inj heq ▸ h
  | none =>
    rw [isApplicable_endings_of_unnamed htexts (Path.fileName?_eq_none_iff.mp hfile)]
    refine iff_of_false Bool.false_ne_true ?_
    rintro ⟨file, hname, -⟩
    rw [Path.fileName?_eq_some_iff.mpr hname] at hfile
    cases hfile

/-! ## The default patterns -/

theorem isEnding_default : ∀ text ∈ ["values.yaml", "values.yml"], IsEnding text := by
  simp [IsEnding]

/-- **By default, documents whose file name ends in `values.yaml` or `values.yml` get completions.** The name of the
file is the last component of the document's name; names without one never apply, and the directory does not matter. -/
theorem isApplicable_default :
    ({} : Config).documentPatterns = .ok Config.defaultPatterns ∧
    (∀ name, isApplicable Config.defaultPatterns name = true ↔
      ∃ file, Path.HasFileName name file ∧
        ("values.yaml".toList <:+ file.toList ∨ "values.yml".toList <:+ file.toList)) ∧
    (∀ name, (¬∃ file, Path.HasFileName name file) ↔ Path.Unnamed name) ∧
    (∀ name, Path.Unnamed name → isApplicable Config.defaultPatterns name = false) ∧
    ∀ directory file, Path.IsName file → file ≠ ".." →
      isApplicable Config.defaultPatterns (directory ++ "/" ++ file) = isApplicable Config.defaultPatterns file := by
  refine ⟨?_, fun name => ?_, fun name => ?_, fun name h => ?_, fun directory file h hup => ?_⟩
  · rw [Config.defaultPatterns_eq, Config.documentPatterns_default]
  · rw [Config.defaultPatterns_eq, isApplicable_endings_iff isEnding_default]
    simp
  · rw [← Path.fileName?_eq_none_iff, Option.eq_none_iff_forall_ne_some, not_exists]
    simp only [Ne, Path.fileName?_eq_some_iff]
  · rw [Config.defaultPatterns_eq]
    exact isApplicable_endings_of_unnamed isEnding_default h
  · exact isApplicable_append _ directory h hup

/-- An ending that stands in a name twice, and a path that ends in `..` behind it. -/
theorem isApplicable_default_twice :
    let file := ".values.yaml-é-values.yml"
    Path.IsName file ∧ file ≠ ".." ∧ isApplicable Config.defaultPatterns ("values.json/." ++ "/" ++ file) = true ∧
      Path.Unnamed "values.yaml/../" ∧ isApplicable Config.defaultPatterns "values.yaml/../" = false := by
  intro file
  have hname : Path.IsName file := by decide
  have hup : file ≠ ".." := by decide
  have hunnamed : Path.Unnamed "values.yaml/../" :=
    .inr (.inr ⟨"values.yaml/".toList, ['/'], by decide, by simp, by simp, by decide, .slash .nil⟩)
  obtain ⟨-, -, -, hfalse, hdirectory⟩ := isApplicable_default
  refine ⟨hname, hup, ?_, hunnamed, hfalse _ hunnamed⟩
  rw [hdirectory _ file hname hup]
  decide +kernel

end Source

end ChartValues
