import ChartValues.Document.Line
import ChartValues.Fetch.Fixture
import ChartValues.Proofs.File.Joined
import ChartValues.Proofs.Yaml.Loaded

/-!
# Files of charts

The file of a chart lies in the directory itself, since its name has no slash. The name spells each slash of the
reference as two underscores, which a reference may hold as well: **two references have one file exactly if they
turn into each other by exchanging slashes with pairs of underscores** (`path_eq_iff_alike`). References in which no
underscore stands before another one or before a slash are told apart by their files.
-/

namespace ChartValues.Fixture

/-- The characters of a reference as a file's name spells them. -/
def spelled (cs : List Char) : List Char := cs.flatMap fun c => if c = '/' then ['_', '_'] else [c]

/-- One slash of a reference is two underscores in the other. -/
def SpellsSlash (r r' : String) : Prop :=
  ∃ before after, r.toList = before ++ '/' :: after ∧ r'.toList = before ++ '_' :: '_' :: after

/-- References that turn into each other by exchanging slashes with pairs of underscores. -/
def Alike : String → String → Prop := Relation.EqvGen SpellsSlash

/-- No underscore stands before another one or before a slash. -/
def Separated (r : String) : Prop := r.toList.IsChain fun c d => c = '_' → d ≠ '_' ∧ d ≠ '/'

instance (r : String) : Decidable (Separated r) := inferInstanceAs (Decidable (List.IsChain _ _))

/-! ## Spelling -/

theorem spelled_append (cs ds : List Char) : spelled (cs ++ ds) = spelled cs ++ spelled ds := List.flatMap_append

theorem spelled_cons (c : Char) (cs : List Char) :
    spelled (c :: cs) = (if c = '/' then ['_', '_'] else [c]) ++ spelled cs := List.flatMap_cons

theorem slash_notMem_spelled (cs : List Char) : '/' ∉ spelled cs := by
  intro h
  obtain ⟨c, -, hc⟩ := List.mem_flatMap.mp h
  by_cases hslash : c = '/'
  · simp [hslash] at hc
  · simp [hslash] at hc
    exact hslash hc.symm

theorem alike_spelled (before cs : List Char) :
    Alike (String.ofList (before ++ cs)) (String.ofList (before ++ spelled cs)) := by
  unfold Alike at *
  induction cs generalizing before with
  | nil => exact .refl _
  | cons c cs ih =>
    by_cases hc : c = '/'
    · subst hc
      refine .trans _ (String.ofList (before ++ '_' :: '_' :: cs)) _ (.rel _ _ ⟨before, cs, ?_, ?_⟩) ?_
      · rw [String.toList_ofList]
      · rw [String.toList_ofList]
      · simpa [spelled_cons] using ih (before ++ ['_', '_'])
    · simpa [spelled_cons, hc] using ih (before ++ [c])

/-- **Texts are spelled in one way exactly if they turn into each other.** -/
theorem spelled_eq_iff {r r' : String} : spelled r.toList = spelled r'.toList ↔ Alike r r' := by
  constructor
  · intro h
    have hr := alike_spelled [] r.toList
    have hr' := alike_spelled [] r'.toList
    rw [List.nil_append, List.nil_append, String.ofList_toList] at hr hr'
    rw [← h] at hr'
    exact .trans _ _ _ hr (.symm _ _ hr')
  · intro h
    induction h with
    | rel r r' h =>
      obtain ⟨before, after, hr, hr'⟩ := h
      rw [hr, hr', spelled_append, spelled_append]
      simp [spelled_cons]
    | refl r => rfl
    | symm r r' _ ih => exact ih.symm
    | trans r r' r'' _ _ ih ih' => exact ih.trans ih'

theorem not_separated_of_spelled {cs rest : List Char} (h : spelled cs = '_' :: rest) :
    ¬('_' :: cs).IsChain fun c d => c = '_' → d ≠ '_' ∧ d ≠ '/' := by
  intro hchain
  cases cs with
  | nil => cases h
  | cons c cs =>
    obtain ⟨hunderscore, hslash⟩ := (List.isChain_cons_cons.mp hchain).1 rfl
    rw [spelled_cons, if_neg hslash] at h
    exact hunderscore (List.cons.inj h).1

theorem eq_of_spelled_eq {cs ds : List Char} (hcs : cs.IsChain fun c d => c = '_' → d ≠ '_' ∧ d ≠ '/')
    (hds : ds.IsChain fun c d => c = '_' → d ≠ '_' ∧ d ≠ '/') (h : spelled cs = spelled ds) : cs = ds := by
  induction cs generalizing ds with
  | nil =>
    cases ds with
    | nil => rfl
    | cons d ds =>
      rw [spelled_cons] at h
      split_ifs at h <;> cases h
  | cons c cs ih =>
    cases ds with
    | nil =>
      rw [spelled_cons] at h
      split_ifs at h <;> cases h
    | cons d ds =>
      have htail := ih hcs.of_cons hds.of_cons
      rw [spelled_cons, spelled_cons] at h
      by_cases hc : c = '/' <;> by_cases hd : d = '/'
      · rw [if_pos hc, if_pos hd] at h
        rw [hc, hd, htail (List.append_cancel_left h)]
      · -- the pair of underscores of the slash is read as two characters, or as one and the start of a second pair
        rw [if_pos hc, if_neg hd] at h
        obtain ⟨rfl, hrest⟩ := List.cons.inj h
        exact absurd hds (not_separated_of_spelled hrest.symm)
      · rw [if_neg hc, if_pos hd] at h
        obtain ⟨rfl, hrest⟩ := List.cons.inj h
        exact absurd hcs (not_separated_of_spelled hrest)
      · rw [if_neg hc, if_neg hd] at h
        obtain ⟨rfl, hrest⟩ := List.cons.inj h
        rw [htail hrest]

/-! ## Paths -/

theorem fileName_eq (r : String) : fileName r = String.ofList (spelled r.toList) ++ ".yaml" := rfl

theorem fileName_eq_iff {r r' : String} : fileName r = fileName r' ↔ Alike r r' := by
  rw [fileName_eq, fileName_eq, ← spelled_eq_iff, ← String.toList_inj, String.toList_append, String.toList_append,
    List.append_left_inj, String.toList_ofList, String.toList_ofList]

theorem toList_fileName (r : String) : (fileName r).toList = spelled r.toList ++ ".yaml".toList := by
  rw [fileName_eq, String.toList_append, String.toList_ofList]

theorem fileName_ne (r : String) {name : String} (h : name.toList.length < 5) : fileName r ≠ name := by
  rintro rfl
  rw [toList_fileName, List.length_append] at h
  exact absurd h (Nat.not_lt.mpr (Nat.le_add_left 5 _))

theorem isName_fileName (r : String) : Path.IsName (fileName r) := by
  refine ⟨fileName_ne r (by decide), fileName_ne r (by decide), ?_⟩
  rw [toList_fileName, List.mem_append, not_or]
  exact ⟨slash_notMem_spelled _, by decide⟩

/-- **The files of two charts.** The path of a chart's file leads from the directory to an entry right in it. Two
references have one path exactly if they turn into each other by exchanging slashes with pairs of underscores, so
references without an underscore before another one or before a slash have one path only if they are the same. In the
directory, what is fetched for a chart depends on the file at its path alone. -/
theorem path_eq_iff_alike (directory r r' : String) :
    Path.components (path directory r) = Path.components directory ++ [fileName r] ∧
    (path directory r = path directory r' ↔ Alike r r') ∧
    (Path.components (path directory r) = Path.components (path directory r') ↔ Alike r r') ∧
    (Separated r → Separated r' → r ≠ r' → path directory r ≠ path directory r') ∧
    ∀ (files files' : FileTree) entries entries', files.find directory = .ok (.directory entries) →
      files'.find directory = .ok (.directory entries') →
      FileTree.child? (fileName r) entries = FileTree.child? (fileName r) entries' →
      ∀ cancelled, fetch files directory r cancelled = fetch files' directory r cancelled := by
  have hcomponents : ∀ r, Path.components (path directory r) = Path.components directory ++ [fileName r] :=
    fun r => Path.components_join directory (isName_fileName r)
  have hsame : Path.components (path directory r) = Path.components (path directory r') ↔ Alike r r' := by
    rw [hcomponents, hcomponents, List.append_right_inj, List.singleton_inj, fileName_eq_iff]
  have hpath : path directory r = path directory r' ↔ Alike r r' := by
    refine ⟨fun h => hsame.mp (by rw [h]), fun h => ?_⟩
    rw [path, path, fileName_eq_iff.mpr h]
  refine ⟨hcomponents r, hpath, hsame, ?_, ?_⟩
  · intro hr hr' hne heq
    have hspelled := spelled_eq_iff.mpr (hpath.mp heq)
    exact hne (String.toList_inj.mp (eq_of_spelled_eq hr hr' hspelled))
  · intro files files' entries entries' hfind hfind' hchild cancelled
    have hsame := FileTree.find_join_congr (isName_fileName r) (fileName_ne r (by decide)) hfind hfind' hchild
    simp only [fetch, FileTree.readText, FileTree.readBytes, path, hsame]

/-- Single underscores are no danger, and what the file of the other chart holds does not matter. -/
theorem path_eq_iff_alike_underscore :
    let files (bytes : List UInt8) := FileTree.directory
      [("charts", .directory [("a__b.yaml", .file [107, 58, 49]), ("a_b.yaml", .file bytes)])]
    Separated "a/b" ∧ Separated "a_b" ∧ path "charts" "a/b" ≠ path "charts" "a_b" ∧
      ∀ bytes, fetch (files bytes) "charts" "a/b" false = fetch (files []) "charts" "a/b" false := by
  intro files
  have hseparated : Separated "a/b" ∧ Separated "a_b" := by decide
  obtain ⟨-, -, -, hdistinct, hfetch⟩ := path_eq_iff_alike "charts" "a/b" "a_b"
  refine ⟨hseparated.1, hseparated.2, hdistinct hseparated.1 hseparated.2 (by decide), fun bytes => ?_⟩
  have hfind : ∀ bytes, (files bytes).find "charts" =
      .ok (.directory [("a__b.yaml", .file [107, 58, 49]), ("a_b.yaml", .file bytes)]) := by
    intro bytes
    rfl
  exact hfetch _ _ _ _ (hfind bytes) (hfind []) rfl false

/-- Annotations can name charts whose references differ only in how a slash is written; they have one file, and each
gets the values in it. -/
theorem path_slash_underscores :
    let files := FileTree.directory [("charts", .directory [("a__b.yaml", .file [107, 58, 32, 49])])]
    Line.chartRef "# @a/b" = some "a/b" ∧ Line.chartRef "# @a__b" = some "a__b" ∧ "a/b" ≠ "a__b" ∧
      path "charts" "a/b" = path "charts" "a__b" ∧
      ∀ r ∈ ["a/b", "a__b"], fetch files "charts" r false = .ok (.object [("k", .number "1")]) := by
  intro files
  have hparse : Yaml.parse "k: 1" = some (.mapping [(.string "k", .number (.integer 1))]) := by decide +kernel
  have hread : ∀ r ∈ ["a/b", "a__b"], files.readText (path "charts" r) = .ok "k: 1" := by decide +kernel
  refine ⟨by decide +kernel, by decide +kernel, by decide, by decide +kernel, fun r hr => ?_⟩
  simp only [fetch, hread r hr, parseValues, hparse, Bool.false_eq_true, if_false]
  rfl

end ChartValues.Fixture
