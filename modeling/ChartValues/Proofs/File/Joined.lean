import ChartValues.Proofs.File.Names

/-!
# Paths of entries

The path of a directory joined with a name is the path of an entry of that directory: it has one component
more (`components_join`), and what it leads to is the entry that the directory has under this name, so nothing
else in the directory matters (`find_join_congr`).
-/

namespace ChartValues

namespace Path

variable {directory name : String}

theorem IsName.isAbsolute_eq_false (h : IsName name) : isAbsolute name = false := by
  unfold isAbsolute
  cases hcs : name.toList with
  | nil => rfl
  | cons c cs =>
    have hc : c ≠ '/' := fun hc => h.2.2 (by rw [hcs, hc]; exact List.mem_cons_self)
    simpa using hc

theorem pieces_name (h : IsName name) : pieces name = [name] := by
  have hslash : ∀ c ∈ name.toList, (c == '/') = false := by
    intro c hc
    exact beq_eq_false_iff_ne.mpr fun heq => h.2.2 (heq ▸ hc)
  rw [pieces, List.splitOnP_eq_singleton hslash, List.map_singleton, String.ofList_toList]

theorem pieces_append_name (base : List Char) {path : String} (h : IsName name)
    (hpath : path.toList = base ++ '/' :: name.toList) :
    pieces path = pieces (String.ofList base) ++ [name] := by
  have hname := pieces_name h
  rw [pieces] at hname
  rw [pieces, pieces, hpath, List.splitOnP_append_cons _ _ (by rfl), List.map_append, hname, String.toList_ofList]

theorem join_of_slash (h : IsName name) (hslash : directory.toList.getLast? = some '/') :
    join directory name = directory ++ name := by
  simp [join, h.isAbsolute_eq_false, hslash]

theorem join_of_not_slash (hne : directory ≠ "") (h : IsName name) (hslash : directory.toList.getLast? ≠ some '/') :
    join directory name = directory ++ "/" ++ name := by
  simp [join, h.isAbsolute_eq_false, hslash, hne]

theorem isAbsolute_append (hne : directory ≠ "") (rest : String) :
    isAbsolute (directory ++ rest) = isAbsolute directory := by
  obtain ⟨c, cs, hcs⟩ := List.exists_cons_of_ne_nil (mt String.toList_eq_nil_iff.mp hne)
  simp [isAbsolute, hcs]

/-- A name is joined behind the pieces of the directory; where those end with a slash, it takes the place of
the empty piece behind it. -/
theorem pieces_join (hne : directory ≠ "") (h : IsName name) :
    ∃ first names, (pieces directory = first :: names ∨ pieces directory = first :: names ++ [""]) ∧
      pieces (join directory name) = first :: names ++ [name] := by
  have hpieces : ∀ path, ∃ first names, pieces path = first :: names := by
    intro path
    exact List.exists_cons_of_ne_nil (by simp [pieces])
  by_cases hslash : directory.toList.getLast? = some '/'
  · obtain ⟨base, hbase⟩ := List.getLast?_eq_some_iff.mp hslash
    obtain ⟨first, names, hnames⟩ := hpieces (String.ofList base)
    refine ⟨first, names, .inr ?_, ?_⟩
    · rw [← hnames, pieces, hbase, List.splitOnP_append_cons _ _ (by rfl), List.map_append, pieces,
        String.toList_ofList]
      rfl
    · rw [join_of_slash h hslash, pieces_append_name base h (by simp [hbase]), hnames]
  · obtain ⟨first, names, hnames⟩ := hpieces directory
    refine ⟨first, names, .inl hnames, ?_⟩
    rw [join_of_not_slash hne h hslash, pieces_append_name directory.toList h (by simp),
      String.ofList_toList, hnames]

theorem isAbsolute_join (hne : directory ≠ "") (h : IsName name) :
    isAbsolute (join directory name) = isAbsolute directory := by
  by_cases hslash : directory.toList.getLast? = some '/'
  · rw [join_of_slash h hslash, isAbsolute_append hne]
  · rw [join_of_not_slash hne h hslash, String.append_assoc, isAbsolute_append hne]

theorem isAbsolute_of_pieces {rest : List String} (hne : directory ≠ "") (h : pieces directory = "" :: rest) :
    isAbsolute directory = true := by
  obtain ⟨c, cs, hcs⟩ := List.exists_cons_of_ne_nil (mt String.toList_eq_nil_iff.mp hne)
  by_contra hrelative
  have hc : (c == '/') = false := by simpa [isAbsolute, hcs] using hrelative
  obtain ⟨run, runs, hruns⟩ := List.exists_cons_of_ne_nil (List.splitOnP_ne_nil (· == '/') cs)
  rw [pieces, hcs, List.splitOnP_cons_eq_if_modifyHead, hc] at h
  simp [hruns] at h

/-- **A joined name is one component more.** -/
theorem components_join (directory : String) (h : IsName name) :
    components (join directory name) = components directory ++ [name] := by
  have hproper : name ≠ "" ∧ name ≠ "." := ⟨h.1, h.2.1⟩
  by_cases hne : directory = ""
  · have hjoin : join "" name = name := by simp [join, h.isAbsolute_eq_false]
    have hempty : components "" = [] := by decide
    rw [hne, hjoin, hempty]
    simp [components, pieces_name h, hproper]
  obtain ⟨first, names, hdirectory, hjoin⟩ := pieces_join hne h
  have habsolute := isAbsolute_join hne h
  by_cases hfirst : first = ""
  · subst hfirst
    have hroot : isAbsolute directory = true := by
      rcases hdirectory with hdirectory | hdirectory
      · exact isAbsolute_of_pieces hne hdirectory
      · exact isAbsolute_of_pieces hne hdirectory
    rcases hdirectory with hdirectory | hdirectory <;>
      simp [components, hdirectory, hjoin, habsolute, hroot, hproper]
  by_cases hdot : first = "."
  · subst hdot
    rcases hdirectory with hdirectory | hdirectory <;> simp [components, hdirectory, hjoin, hproper]
  · rcases hdirectory with hdirectory | hdirectory <;> simp [components, hdirectory, hjoin, hproper, hfirst, hdot]

end Path

namespace FileTree

/-! ## What a joined path leads to -/

theorem walk_append (parents : List FileTree) (here : FileTree) (names : List String) :
    (∃ e, ∀ more, walk parents here (names ++ more) = .error e) ∨
      ∃ parents' t, walk parents here names = .ok t ∧
        ∀ more, walk parents here (names ++ more) = walk parents' t more := by
  induction names generalizing parents here with
  | nil => exact .inr ⟨parents, here, rfl, fun more => rfl⟩
  | cons name names ih =>
    cases here with
    | file bytes => exact .inl ⟨.notDirectory, fun more => rfl⟩
    | directory entries =>
      simp only [List.cons_append, walk]
      by_cases hdot : name = "" ∨ name = "."
      · simpa only [if_pos hdot] using ih parents (directory entries)
      simp only [if_neg hdot]
      by_cases hup : name = ".."
      · simp only [if_pos hup]
        cases parents with
        | nil => exact .inl ⟨.notFound, fun more => rfl⟩
        | cons parent parents => exact ih parents parent
      simp only [if_neg hup]
      by_cases hlong : 255 < name.utf8ByteSize
      · exact .inl ⟨.nameTooLong, fun more => if_pos hlong⟩
      simp only [if_neg hlong]
      cases child? name entries with
      | none => exact .inl ⟨.notFound, fun more => rfl⟩
      | some child => exact ih (directory entries :: parents) child

theorem walk_name_congr {name : String} {parents parents' : List FileTree} {entries entries' : List (String × FileTree)}
    (h : Path.IsName name) (hup : name ≠ "..") (hchild : child? name entries = child? name entries') :
    walk parents (directory entries) [name] = walk parents' (directory entries') [name] := by
  have hdot : ¬(name = "" ∨ name = ".") := by simp [h.1, h.2.1]
  simp only [walk, if_neg hdot, if_neg hup, hchild]

theorem walk_pieces_join {t : FileTree} {directory name : String} {entries : List (String × FileTree)}
    (hne : directory ≠ "") (h : Path.IsName name)
    (hwalk : walk [] t (Path.pieces directory) = .ok (.directory entries)) :
    ∃ parents, walk [] t (Path.pieces (Path.join directory name)) = walk parents (.directory entries) [name] := by
  obtain ⟨first, names, hdirectory, hjoin⟩ := Path.pieces_join hne h
  rw [hjoin]
  rcases walk_append [] t (first :: names) with ⟨e, herror⟩ | ⟨parents, u, hu, hmore⟩
  · rcases hdirectory with hdirectory | hdirectory
    · rw [hdirectory, ← List.append_nil (first :: names), herror] at hwalk
      cases hwalk
    · rw [hdirectory, herror] at hwalk
      cases hwalk
  · refine ⟨parents, ?_⟩
    rw [hmore]
    rcases hdirectory with hdirectory | hdirectory
    · rw [hdirectory, hu] at hwalk
      rw [Except.ok.inj hwalk]
    · rw [hdirectory, hmore] at hwalk
      cases u with
      | file bytes => cases hwalk
      | directory entries' => rw [← Except.ok.inj hwalk]

/-- **What a joined path leads to depends, in the directory, on the entry of that name alone.** -/
theorem find_join_congr {files files' : FileTree} {directory name : String}
    {entries entries' : List (String × FileTree)}
    (h : Path.IsName name) (hup : name ≠ "..") (hfind : files.find directory = .ok (.directory entries))
    (hfind' : files'.find directory = .ok (.directory entries')) (hchild : child? name entries = child? name entries') :
    files.find (Path.join directory name) = files'.find (Path.join directory name) := by
  have hne : directory ≠ "" := by
    rintro rfl
    cases hfind
  have hwalk : ∀ {t : FileTree} {entries}, t.find directory = .ok (.directory entries) →
      ¬Path.isAbsolute directory = true → walk [] t (Path.pieces directory) = .ok (.directory entries) := by
    intro t entries hfind hrelative
    unfold find at hfind
    split_ifs at hfind
    exact hfind
  unfold find
  by_cases habsolute : Path.isAbsolute directory = true
  · rw [Path.isAbsolute_join hne h, if_pos habsolute, if_pos habsolute]
  · obtain ⟨parents, hparents⟩ := walk_pieces_join hne h (hwalk hfind habsolute)
    obtain ⟨parents', hparents'⟩ := walk_pieces_join hne h (hwalk hfind' habsolute)
    rw [hparents, hparents', walk_name_congr h hup hchild]

end FileTree

end ChartValues
