import ChartValues.Suite.Basic
import Mathlib.Data.List.Nodup

/-!
# Names of files

In a tree of directories whose entries have proper and distinct names (`FileTree.WellNamed`), the names that
lead to an entry are its own: no other entry below the same directory has them (`descendants_nodup`), and
neither has another entry the path that is written from them (`foldl_under_inj`). So the case files below a
directory are listed without repetition (`caseFiles_nodup`).
-/

namespace ChartValues

/-! ## Written paths -/

namespace Path

/-- A name that an entry of a directory can have. -/
def IsName (name : String) : Prop := name ≠ "" ∧ name ≠ "." ∧ '/' ∉ name.toList

instance (name : String) : Decidable (IsName name) := inferInstanceAs (Decidable (_ ∧ _))

/-- The path of an entry of the directory at a path. -/
def under (path name : String) : String := if path = "." then name else join path name

/-- What stands before a name in the path of an entry of the directory at a path. -/
def lead (path : String) : List Char :=
  if path = "." ∨ path = "" then []
  else if path.toList.getLast? = some '/' then path.toList
  else path.toList ++ ['/']

theorem IsName.toList_ne_nil {name : String} (h : IsName name) : name.toList ≠ [] := by
  intro hnil
  exact h.1 (String.toList_eq_nil_iff.mp hnil)

theorem toList_under (path : String) {name : String} (h : IsName name) :
    (under path name).toList = lead path ++ name.toList := by
  have hrelative : isAbsolute name = false := by
    unfold isAbsolute
    cases hcs : name.toList with
    | nil => rfl
    | cons c cs =>
      have hc : c ≠ '/' := fun hc => h.2.2 (by rw [hcs, hc]; exact List.mem_cons_self)
      simpa using hc
  unfold under lead join
  by_cases hdot : path = "."
  · simp [hdot]
  by_cases hempty : path = ""
  · simp [hempty, hrelative]
  by_cases hslash : path.toList.getLast? = some '/'
  · simp [hdot, hempty, hslash, hrelative]
  · simp [hdot, hempty, hslash, hrelative]

theorem lead_under (path : String) {name : String} (h : IsName name) :
    lead (under path name) = (under path name).toList ++ ['/'] := by
  have htext := toList_under path h
  have hdot : under path name ≠ "." := by
    intro hdot
    rw [hdot] at htext
    have hone : lead path ++ name.toList = ['.'] := htext.symm
    rcases List.append_eq_singleton_iff.mp hone with ⟨-, hname⟩ | ⟨-, hname⟩
    · exact h.2.1 (String.toList_inj.mp hname)
    · exact h.toList_ne_nil hname
  have hempty : under path name ≠ "" := by
    intro hempty
    rw [hempty] at htext
    exact h.toList_ne_nil (List.append_eq_nil_iff.mp htext.symm).2
  have hslash : (under path name).toList.getLast? ≠ some '/' := by
    rw [htext, List.getLast?_append, List.getLast?_eq_some_getLast h.toList_ne_nil, Option.some_or,
      ← List.getLast?_eq_some_getLast h.toList_ne_nil]
    intro hlast
    exact h.2.2 (List.mem_of_getLast? hlast)
  simp [lead, hdot, hempty, hslash]

theorem toList_foldl_under (path : String) {names : List String} (hne : names ≠ [])
    (h : ∀ name ∈ names, IsName name) :
    (names.foldl under path).toList = lead path ++ ['/'].intercalate (names.map String.toList) := by
  induction names generalizing path with
  | nil => exact absurd rfl hne
  | cons name rest ih =>
    have hname := h name List.mem_cons_self
    rw [List.foldl_cons]
    cases rest with
    | nil => simpa using toList_under path hname
    | cons next rest =>
      rw [ih (under path name) (List.cons_ne_nil _ _) fun n hn => h n (List.mem_cons_of_mem _ hn),
        lead_under path hname, toList_under path hname]
      simp [List.intercalate]

theorem foldl_under_inj (path : String) {names names' : List String} (hne : names ≠ [])
    (hne' : names' ≠ []) (h : ∀ name ∈ names, IsName name) (h' : ∀ name ∈ names', IsName name)
    (heq : names.foldl under path = names'.foldl under path) : names = names' := by
  have hsplit : ∀ names : List String, names ≠ [] → (∀ name ∈ names, IsName name) →
      (['/'].intercalate (names.map String.toList)).splitOn '/' = names.map String.toList := by
    intro names hne h
    refine List.splitOn_intercalate '/' ?_ (by simpa using hne)
    intro cs hcs
    obtain ⟨name, hname, rfl⟩ := List.mem_map.mp hcs
    exact (h name hname).2.2
  -- both texts go on behind the same characters, and splitting the rest gives the names back
  have htext := congrArg String.toList heq
  rw [toList_foldl_under path hne h, toList_foldl_under path hne' h'] at htext
  have hmap := congrArg (List.splitOn '/') (List.append_cancel_left htext)
  rw [hsplit names hne h, hsplit names' hne' h'] at hmap
  exact List.map_injective_iff.mpr (fun _ _ heq => String.toList_inj.mp heq) hmap

end Path

/-! ## Trees -/

namespace FileTree

mutual

/-- The entries of each directory have proper names, each its own. -/
def WellNamed : FileTree → Prop
  | file _ => True
  | directory entries => (entries.map Prod.fst).Nodup ∧ WellNamedIn entries

/-- `WellNamed` for the trees of the entries of a directory, whose names are proper. -/
def WellNamedIn : List (String × FileTree) → Prop
  | [] => True
  | (name, t) :: rest => Path.IsName name ∧ WellNamed t ∧ WellNamedIn rest

end

theorem child?_wellNamed {name : String} {entries : List (String × FileTree)} {t : FileTree}
    (h : WellNamedIn entries) (hchild : child? name entries = some t) : WellNamed t := by
  induction entries with
  | nil => cases hchild
  | cons entry rest ih =>
    obtain ⟨n, u⟩ := entry
    obtain ⟨-, hu, hrest⟩ := h
    unfold child? at hchild
    by_cases hn : n = name
    · rw [if_pos hn] at hchild
      exact Option.some.inj hchild ▸ hu
    · rw [if_neg hn] at hchild
      exact ih hrest hchild

theorem walk_wellNamed {names : List String} {parents : List FileTree} {here t : FileTree}
    (hparents : ∀ parent ∈ parents, parent.WellNamed) (hhere : here.WellNamed)
    (hwalk : walk parents here names = .ok t) : t.WellNamed := by
  induction names generalizing parents here with
  | nil => exact Except.ok.inj hwalk ▸ hhere
  | cons name rest ih =>
    cases here with
    | file bytes => cases hwalk
    | directory entries =>
      unfold walk at hwalk
      dsimp only at hwalk
      by_cases hdot : name = "" ∨ name = "."
      · rw [if_pos hdot] at hwalk
        exact ih hparents hhere hwalk
      rw [if_neg hdot] at hwalk
      by_cases hup : name = ".."
      · rw [if_pos hup] at hwalk
        cases parents with
        | nil => cases hwalk
        | cons parent parents =>
          exact ih (fun p hp => hparents p (List.mem_cons_of_mem _ hp))
            (hparents parent List.mem_cons_self) hwalk
      rw [if_neg hup] at hwalk
      by_cases hlong : 255 < name.utf8ByteSize
      · rw [if_pos hlong] at hwalk
        cases hwalk
      rw [if_neg hlong] at hwalk
      cases hchild : child? name entries with
      | none => simp [hchild] at hwalk
      | some child =>
        rw [hchild] at hwalk
        refine ih ?_ (child?_wellNamed hhere.2 hchild) hwalk
        intro parent hparent
        rcases List.mem_cons.mp hparent with rfl | hparent
        · exact hhere
        · exact hparents parent hparent

theorem find_wellNamed {files t : FileTree} {path : String} (h : files.WellNamed)
    (hfind : files.find path = .ok t) : t.WellNamed := by
  unfold find at hfind
  split at hfind
  · cases hfind
  split at hfind
  · cases hfind
  split at hfind
  · cases hfind
  split at hfind
  · split at hfind
    · exact Except.ok.inj hfind ▸ ⟨List.nodup_nil, trivial⟩
    · cases hfind
  · exact walk_wellNamed (by simp) h hfind

/-! ## Descendants -/

theorem head?_of_mem_descendantsIn {names : List String} {entries : List (String × FileTree)}
    (h : names ∈ descendantsIn entries) : ∃ name ∈ entries.map Prod.fst, names.head? = some name := by
  induction entries with
  | nil => cases h
  | cons entry rest ih =>
    obtain ⟨name, t⟩ := entry
    rw [descendantsIn, List.cons_append, List.mem_cons, List.mem_append, List.mem_map] at h
    rcases h with rfl | ⟨below, -, rfl⟩ | h
    · exact ⟨name, List.mem_cons_self, rfl⟩
    · exact ⟨name, List.mem_cons_self, rfl⟩
    · obtain ⟨n, hn, hhead⟩ := ih h
      exact ⟨n, List.mem_cons_of_mem _ hn, hhead⟩

theorem ne_nil_of_mem_descendants {names : List String} {t : FileTree} (h : names ∈ t.descendants) :
    names ≠ [] := by
  rintro rfl
  cases t with
  | file bytes => cases h
  | directory entries =>
    obtain ⟨name, -, hhead⟩ := head?_of_mem_descendantsIn h
    cases hhead

mutual

theorem isName_of_mem_descendants : {t : FileTree} → t.WellNamed → {names : List String} →
    names ∈ t.descendants → ∀ name ∈ names, Path.IsName name
  | file _, _, _, h => by cases h
  | directory _, ht, _, h => isName_of_mem_descendantsIn ht.2 h

theorem isName_of_mem_descendantsIn : {entries : List (String × FileTree)} → WellNamedIn entries →
    {names : List String} → names ∈ descendantsIn entries → ∀ name ∈ names, Path.IsName name
  | [], _, _, h => by cases h
  | (name, t) :: rest, hentries, names, h => by
    obtain ⟨hname, ht, hrest⟩ := hentries
    rw [descendantsIn, List.cons_append, List.mem_cons, List.mem_append, List.mem_map] at h
    rcases h with rfl | ⟨below, hbelow, rfl⟩ | h
    · simpa using hname
    · have hnames := isName_of_mem_descendants ht hbelow
      simpa using ⟨hname, hnames⟩
    · exact isName_of_mem_descendantsIn hrest h

end

mutual

theorem descendants_nodup : {t : FileTree} → t.WellNamed → t.descendants.Nodup
  | file _, _ => List.nodup_nil
  | directory _, ht => descendantsIn_nodup ht.1 ht.2

theorem descendantsIn_nodup : {entries : List (String × FileTree)} → (entries.map Prod.fst).Nodup →
    WellNamedIn entries → (descendantsIn entries).Nodup
  | [], _, _ => List.nodup_nil
  | (name, t) :: rest, hnodup, hentries => by
    obtain ⟨-, ht, hrest⟩ := hentries
    obtain ⟨hfresh, hnodup⟩ := List.nodup_cons.mp hnodup
    -- the names of a later entry start with another name
    have hlater : ∀ below, name :: below ∉ descendantsIn rest := by
      intro below hmem
      obtain ⟨n, hn, hhead⟩ := head?_of_mem_descendantsIn hmem
      exact hfresh (Option.some.inj hhead ▸ hn)
    rw [descendantsIn, List.cons_append, List.nodup_cons, List.mem_append, List.mem_map]
    refine ⟨?_, List.Nodup.append ?_ (descendantsIn_nodup hnodup hrest) ?_⟩
    · rintro (⟨below, hbelow, hcons⟩ | hmem)
      · exact ne_nil_of_mem_descendants hbelow (List.cons.inj hcons).2
      · exact hlater [] hmem
    · exact (descendants_nodup ht).map fun _ _ hcons => (List.cons.inj hcons).2
    · intro names hhere hmem
      obtain ⟨below, -, rfl⟩ := List.mem_map.mp hhere
      exact hlater below hmem

end

end FileTree

/-! ## Case files -/

theorem Suite.caseFiles_nodup {files : FileTree} (h : files.WellNamed) (directory : String) :
    (caseFiles files directory).Nodup := by
  unfold caseFiles
  split
  · rename_i tree base hfind _
    have htree := FileTree.find_wellNamed h hfind
    refine List.Nodup.map_on ?_ ((FileTree.descendants_nodup htree).filter _)
    intro names hnames names' hnames' heq
    have hmem := (List.mem_filter.mp hnames).1
    have hmem' := (List.mem_filter.mp hnames').1
    exact Path.foldl_under_inj base (FileTree.ne_nil_of_mem_descendants hmem)
      (FileTree.ne_nil_of_mem_descendants hmem') (FileTree.isName_of_mem_descendants htree hmem)
      (FileTree.isName_of_mem_descendants htree hmem') heq
  · exact List.nodup_nil

end ChartValues
