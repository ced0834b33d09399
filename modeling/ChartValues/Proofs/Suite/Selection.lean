import ChartValues.Proofs.File.Names
import ChartValues.Proofs.Suite.Categories

/-!
# Selected files

A suite keeps its files by category. Grouping loses no file and repeats none: the files of the selected
categories are the case files whose category is requested (`filesOf_selected`), or the one file that the
path names. Each of them is there once (`filesOf_selected_nodup`).
-/

namespace ChartValues.Suite

/-- The files of categories, one category after the other. -/
def filesOf (categories : List (String × List String)) : List String := categories.flatMap Prod.snd

theorem filesOf_cons (entry : String × List String) (categories : List (String × List String)) :
    filesOf (entry :: categories) = entry.2 ++ filesOf categories := List.flatMap_cons

/-- The categories that a run selects: for a file all of them, which is one, whatever is requested. -/
def selected (files : FileTree) (path : String) (requested : List String) : List (String × List String) :=
  (load files path).select (if files.isFile path then [] else requested)

/-- The files that a path and the requested categories mean. -/
def selection (files : FileTree) (path : String) (requested : List String) : List String :=
  if files.isFile path then [path]
  else (caseFiles files path).filter fun file => isRequested requested (category path file)

/-! ## Groups -/

/-- Every category has files, and they all belong to it. -/
def Grouped (key : String → String) (categories : List (String × List String)) : Prop :=
  ∀ entry ∈ categories, entry.2 ≠ [] ∧ ∀ file ∈ entry.2, key file = entry.1

theorem grouped_nil (key : String → String) : Grouped key [] := by
  intro entry hentry
  cases hentry

theorem grouped_cons {key : String → String} {entry : String × List String}
    {categories : List (String × List String)} :
    Grouped key (entry :: categories) ↔
      (entry.2 ≠ [] ∧ ∀ file ∈ entry.2, key file = entry.1) ∧ Grouped key categories :=
  List.forall_mem_cons

theorem grouped_insert {key : String → String} {categories : List (String × List String)}
    (h : Grouped key categories) (file : String) : Grouped key (insert (key file) file categories) := by
  have hone : [file] ≠ [] ∧ ∀ f ∈ [file], key f = key file := by simp
  induction categories with
  | nil => exact grouped_cons.mpr ⟨hone, grouped_nil key⟩
  | cons entry rest ih =>
    obtain ⟨c, paths⟩ := entry
    obtain ⟨hentry, hrest⟩ := grouped_cons.mp h
    unfold insert
    by_cases hc : c = key file
    · rw [if_pos hc]
      refine grouped_cons.mpr ⟨⟨by simp, ?_⟩, hrest⟩
      intro f hf
      rcases List.mem_append.mp hf with hf | hf
      · exact hentry.2 f hf
      · rw [List.mem_singleton.mp hf, hc]
    rw [if_neg hc]
    by_cases hlt : key file < c
    · rw [if_pos hlt]
      exact grouped_cons.mpr ⟨hone, h⟩
    · rw [if_neg hlt]
      exact grouped_cons.mpr ⟨hentry, ih hrest⟩

theorem filesOf_insert (c file : String) (categories : List (String × List String)) :
    (filesOf (insert c file categories)).Perm (file :: filesOf categories) := by
  induction categories with
  | nil => exact List.Perm.refl _
  | cons entry rest ih =>
    obtain ⟨d, paths⟩ := entry
    unfold insert
    by_cases hd : d = c
    · rw [if_pos hd, filesOf_cons, filesOf_cons, List.append_assoc]
      exact List.perm_middle
    rw [if_neg hd]
    by_cases hlt : c < d
    · rw [if_pos hlt]
      exact List.Perm.refl _
    · rw [if_neg hlt, filesOf_cons, filesOf_cons]
      exact (ih.append_left paths).trans List.perm_middle

theorem grouped_foldl (key : String → String) (files : List String) {categories : List (String × List String)}
    (h : Grouped key categories) :
    let grouped := files.foldl (fun categories file => insert (key file) file categories) categories
    Grouped key grouped ∧ (filesOf grouped).Perm (files ++ filesOf categories) := by
  induction files generalizing categories with
  | nil => exact ⟨h, List.Perm.refl _⟩
  | cons file rest ih =>
    obtain ⟨hgrouped, hperm⟩ := ih (grouped_insert h file)
    refine ⟨hgrouped, hperm.trans ?_⟩
    exact ((filesOf_insert (key file) file categories).append_left rest).trans List.perm_middle

theorem grouped_sort {key : String → String} {categories : List (String × List String)}
    (h : Grouped key categories) :
    let sorted := categories.map fun (c, paths) => (c, paths.mergeSort pathLe)
    Grouped key sorted ∧ (filesOf sorted).Perm (filesOf categories) := by
  induction categories with
  | nil => exact ⟨grouped_nil key, List.Perm.refl _⟩
  | cons entry rest ih =>
    obtain ⟨c, paths⟩ := entry
    obtain ⟨⟨hne, hkey⟩, hrest⟩ := grouped_cons.mp h
    obtain ⟨hgrouped, hperm⟩ := ih hrest
    have hsort := List.mergeSort_perm paths pathLe
    refine ⟨grouped_cons.mpr ⟨⟨?_, ?_⟩, hgrouped⟩, ?_⟩
    · intro hnil
      exact hne (List.Perm.eq_nil (hnil ▸ hsort.symm))
    · intro file hfile
      exact hkey file (hsort.mem_iff.mp hfile)
    · rw [List.map_cons, filesOf_cons, filesOf_cons]
      exact hsort.append hperm

theorem filesOf_filter {key : String → String} {categories : List (String × List String)}
    (h : Grouped key categories) (q : String → Bool) :
    filesOf (categories.filter fun (c, _) => q c) = (filesOf categories).filter fun file => q (key file) := by
  induction categories with
  | nil => rfl
  | cons entry rest ih =>
    obtain ⟨c, paths⟩ := entry
    obtain ⟨⟨-, hkey⟩, hrest⟩ := grouped_cons.mp h
    -- a category is picked with all of its files or with none, since they all have its key
    have hpaths : (paths.filter fun file => q (key file)) = if q c then paths else [] := by
      by_cases hc : q c = true
      · rw [if_pos hc, List.filter_eq_self]
        intro file hfile
        rw [hkey file hfile, hc]
      · rw [if_neg hc, List.filter_eq_nil_iff]
        intro file hfile
        rwa [hkey file hfile]
    rw [filesOf_cons, List.filter_append, hpaths, ← ih hrest, List.filter_cons]
    by_cases hc : q c = true
    · simp only [hc, if_true, filesOf_cons]
    · simp only [hc, if_false, List.nil_append, Bool.false_eq_true]

theorem filesOf_eq_nil_iff {key : String → String} {categories : List (String × List String)}
    (h : Grouped key categories) : filesOf categories = [] ↔ categories = [] := by
  cases categories with
  | nil => exact ⟨fun _ => rfl, fun _ => rfl⟩
  | cons entry rest =>
    have hne := (grouped_cons.mp h).1.1
    simp [filesOf_cons, hne]

/-! ## The suite of a path -/

theorem load_file {files : FileTree} {path : String} (h : files.isFile path = true) :
    (load files path).categories = [("", [path])] := by
  rw [load, if_pos h]

theorem load_directory {files : FileTree} {path : String} (h : ¬files.isFile path = true) :
    Grouped (category path) (load files path).categories ∧
      (filesOf (load files path).categories).Perm (caseFiles files path) := by
  rw [load, if_neg h]
  obtain ⟨hgrouped, hperm⟩ := grouped_foldl (category path) (caseFiles files path) (grouped_nil _)
  obtain ⟨hsorted, hsort⟩ := grouped_sort hgrouped
  refine ⟨hsorted, hsort.trans (hperm.trans ?_)⟩
  rw [filesOf, List.flatMap_nil, List.append_nil]

theorem grouped_load (files : FileTree) (path : String) :
    ∃ key, Grouped key (load files path).categories := by
  by_cases h : files.isFile path = true
  · refine ⟨fun _ => "", ?_⟩
    rw [load_file h]
    simp [Grouped]
  · exact ⟨category path, (load_directory h).1⟩

theorem ordered_load (files : FileTree) (path : String) : Ordered (load files path).categories := by
  by_cases h : files.isFile path = true
  · rw [load_file h]
    exact List.pairwise_singleton _ _
  · rw [load, if_neg h]
    have hgrouped : Ordered ((caseFiles files path).foldl
        (fun categories file => insert (category path file) file categories) []) :=
      List.foldlRecOn _ _ (motive := Ordered) List.Pairwise.nil fun _ hordered file _ =>
        ordered_insert hordered _ file
    rwa [Ordered, List.map_map]

theorem selected_eq (files : FileTree) (path : String) (requested : List String) :
    selected files path requested = (load files path).categories.filter fun (c, _) =>
      isRequested (if files.isFile path then [] else requested) c :=
  select_eq_isRequested (ordered_load files path) _

theorem filesOf_selected_eq_nil_iff (files : FileTree) (path : String) (requested : List String) :
    filesOf (selected files path requested) = [] ↔ selected files path requested = [] := by
  obtain ⟨key, hgrouped⟩ := grouped_load files path
  have hselected : Grouped key (selected files path requested) := by
    intro entry hentry
    rw [selected_eq] at hentry
    exact hgrouped entry (List.mem_filter.mp hentry).1
  exact filesOf_eq_nil_iff hselected

theorem filesOf_selected (files : FileTree) (path : String) (requested : List String) :
    (filesOf (selected files path requested)).Perm (selection files path requested) := by
  rw [selected_eq, selection]
  by_cases h : files.isFile path = true
  · rw [if_pos h, if_pos h, load_file h]
    exact List.Perm.refl _
  · obtain ⟨hgrouped, hperm⟩ := load_directory h
    rw [if_neg h, if_neg h, filesOf_filter hgrouped]
    exact hperm.filter _

theorem filesOf_selected_nodup {files : FileTree} (h : files.WellNamed) (path : String)
    (requested : List String) : (filesOf (selected files path requested)).Nodup := by
  rw [(filesOf_selected files path requested).nodup_iff, selection]
  by_cases hfile : files.isFile path = true
  · rw [if_pos hfile]
    exact List.nodup_singleton path
  · rw [if_neg hfile]
    exact (caseFiles_nodup h path).filter _

end ChartValues.Suite
