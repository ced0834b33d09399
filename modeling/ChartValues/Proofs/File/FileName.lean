import ChartValues.Proofs.File.Names
import ChartValues.Proofs.Text.Run

/-!
# The name of a path's file

A path ends in a component if nothing follows it that names another one: only slashes, each with a dot behind it or
without (`Path.Idle`). The file's name is the component that the path ends in, unless that is `.` or `..`
(`fileName?_eq_some_iff`); so a path names no file if it is empty, leads to the root or to where it starts, or ends in
`..` (`fileName?_eq_none_iff`).
-/

namespace ChartValues.Path

/-! ## What a path ends in -/

/-- Slashes and dots at the end of a path that name nothing. -/
inductive Idle : List Char → Prop where
  | nil : Idle []
  | slash {tail} (h : Idle tail) : Idle ('/' :: tail)
  | slashDot {tail} (h : Idle tail) : Idle ('/' :: '.' :: tail)

/-- A component stands in a path behind a slash or at its start, and nothing named follows it. -/
def EndsIn (path last : List Char) : Prop :=
  ∃ before tail, path = before ++ last ++ tail ∧ (∀ c, before.getLast? = some c → c = '/') ∧
    last ≠ [] ∧ '/' ∉ last ∧ Idle tail

/-- The last component of the path is the name of a file. -/
def HasFileName (path file : String) : Prop := EndsIn path.toList file.toList ∧ file ≠ "." ∧ file ≠ ".."

/-- The path leads to the root or to where it starts, or its last component is `..`. -/
def Unnamed (path : String) : Prop :=
  Idle path.toList ∨ (∃ tail, path.toList = '.' :: tail ∧ Idle tail) ∨ EndsIn path.toList ['.', '.']

variable {path file : String} {cs last before tail rest : List Char}

theorem Idle.append (h : Idle cs) (htail : Idle tail) : Idle (cs ++ tail) := by
  induction h with
  | nil => exact htail
  | slash h ih => exact .slash ih
  | slashDot h ih => exact .slashDot ih

theorem Idle.slash_or_dot (h : Idle tail) : ∀ c ∈ tail, c = '/' ∨ c = '.' := by
  induction h with
  | nil => simp
  | slash h ih => simpa using ih
  | slashDot h ih => simpa using ih

theorem Unnamed.getLast? (h : Unnamed path) {c : Char} (hc : path.toList.getLast? = some c) : c = '/' ∨ c = '.' := by
  obtain hidle | ⟨tail, hpath, hidle⟩ | ⟨before, tail, hpath, -, -, -, hidle⟩ := h
  · exact hidle.slash_or_dot c (List.mem_of_getLast? hc)
  · rw [hpath] at hc
    rcases List.mem_cons.mp (List.mem_of_getLast? hc) with hdot | htail
    · exact .inr hdot
    · exact hidle.slash_or_dot c htail
  · rw [hpath, List.append_assoc, List.getLast?_append_of_ne_nil _ (by simp)] at hc
    rcases List.mem_append.mp (List.mem_of_getLast? hc) with hdots | htail
    · exact .inr (by simpa using hdots)
    · exact hidle.slash_or_dot c htail

theorem exists_idle (cs : List Char) : ∃ tail rest, cs = tail.reverse ++ rest ∧ Idle tail ∧
    rest.head? ≠ some '/' ∧ ¬['.', '/'] <+: rest := by
  by_cases hslash : cs.head? = some '/'
  · obtain ⟨cs, rfl⟩ := List.head?_eq_some_iff.mp hslash
    obtain ⟨tail, rest, rfl, htail, hrest⟩ := exists_idle cs
    exact ⟨tail ++ ['/'], rest, by simp, htail.append (.slash .nil), hrest⟩
  by_cases hdot : ['.', '/'] <+: cs
  · obtain ⟨cs, rfl⟩ := hdot
    obtain ⟨tail, rest, rfl, htail, hrest⟩ := exists_idle cs
    exact ⟨tail ++ ['/', '.'], rest, by simp, htail.append (.slashDot .nil), hrest⟩
  exact ⟨[], cs, rfl, .nil, hslash, hdot⟩
termination_by cs.length

theorem cases_end (path : List Char) : Idle path ∨ (∃ tail, path = '.' :: tail ∧ Idle tail) ∨
    ∃ last, EndsIn path last ∧ last ≠ ['.'] := by
  obtain ⟨tail, rest, hreverse, htail, hslash, hdot⟩ := exists_idle path.reverse
  obtain ⟨run, before, rfl, hrun, hbefore⟩ := Text.exists_run (fun c => c ≠ '/') rest
  have hpath : path = before.reverse ++ run.reverse ++ tail := by
    rw [← List.reverse_reverse path, hreverse]
    simp
  have hlead : ∀ c, before.head? = some c → c = '/' := by simpa using hbefore
  -- a slash behind nothing or behind a dot alone would be idle
  have hshort : before = [] ∨ (run ≠ [] ∧ run ≠ ['.']) := by
    cases before with
    | nil => exact .inl rfl
    | cons c before =>
      obtain rfl := hlead c rfl
      refine .inr ⟨?_, ?_⟩
      · rintro rfl
        exact hslash rfl
      · rintro rfl
        exact hdot ⟨before, rfl⟩
  by_cases hlast : run ≠ [] ∧ run ≠ ['.']
  · refine .inr (.inr ⟨run.reverse, ⟨before.reverse, tail, hpath, ?_, ?_, ?_, htail⟩, ?_⟩)
    · simpa using hlead
    · simpa using hlast.1
    · simpa using fun hmem => hrun '/' hmem
    · simpa [List.reverse_eq_iff] using hlast.2
  · obtain rfl := hshort.resolve_right hlast
    by_cases hnil : run = []
    · exact .inl (by simpa [hpath, hnil] using htail)
    · have hone : run = ['.'] := not_not.mp fun hne => hlast ⟨hnil, hne⟩
      exact .inr (.inl ⟨tail, by simp [hpath, hone], htail⟩)

/-! ## Trimming -/

theorem trimReversed_slash (hne : rest ≠ []) : trimReversed ('/' :: rest) = trimReversed rest := by
  obtain ⟨c, cs, rfl⟩ := List.exists_cons_of_ne_nil hne
  rw [trimReversed]

theorem trimReversed_append (h : Idle tail) (hne : rest ≠ []) :
    trimReversed (tail.reverse ++ rest) = trimReversed rest := by
  induction h generalizing rest with
  | nil => rfl
  | slash h ih => rw [List.reverse_cons, List.append_assoc, ih (by simp), List.singleton_append, trimReversed_slash hne]
  | slashDot h ih =>
    rw [List.reverse_cons, List.reverse_cons, List.append_assoc, List.append_assoc, ih (by simp),
      List.singleton_append, List.singleton_append, trimReversed, trimReversed_slash hne]

theorem trimReversed_eq_self (hslash : rest.head? ≠ some '/') (hdot : ¬['.', '/'] <+: rest) :
    trimReversed rest = rest := by
  unfold trimReversed
  split
  · exact absurd rfl hslash
  · exact absurd (by simp) hdot
  · rfl

theorem takeWhile_trimReversed (h : EndsIn cs last) (hdot : last ≠ ['.']) :
    (trimReversed cs.reverse).takeWhile (· ≠ '/') = last.reverse := by
  obtain ⟨before, tail, rfl, hbefore, hne, hslash, htail⟩ := h
  obtain ⟨c, run, hlast⟩ := List.exists_cons_of_ne_nil (List.reverse_ne_nil_iff.mpr hne)
  have hrun : ∀ d ∈ c :: run, d ≠ '/' := by
    rintro d hd rfl
    exact hslash (List.mem_reverse.mp (hlast ▸ hd))
  -- the component does not start with a slash from behind, and a dot is not all of it
  have hself : trimReversed (c :: run ++ before.reverse) = c :: run ++ before.reverse := by
    refine trimReversed_eq_self (by simpa using hrun c) fun hprefix => ?_
    obtain ⟨rfl, htail⟩ := List.cons_prefix_cons.mp hprefix
    cases run with
    | nil => exact hdot (by simpa using congrArg List.reverse hlast)
    | cons d run => exact hrun d (by simp) (List.cons_prefix_cons.mp htail).1.symm
  have hcs : (before ++ last ++ tail).reverse = tail.reverse ++ (c :: run ++ before.reverse) := by simp [hlast]
  rw [hcs, trimReversed_append htail (by simp), hself, hlast]
  exact (Text.takeWhile_run (by simpa using hrun) (by simpa using hbefore)).1

theorem takeWhile_trimReversed_idle (h : Idle cs) : (trimReversed cs.reverse).takeWhile (· ≠ '/') = [] := by
  cases h with
  | nil => rfl
  | slash h =>
    rw [List.reverse_cons, trimReversed_append h (by simp)]
    rfl
  | slashDot h =>
    rw [List.reverse_cons, List.reverse_cons, List.append_assoc, trimReversed_append h (by simp)]
    rfl

theorem takeWhile_trimReversed_dot (h : Idle tail) :
    (trimReversed ('.' :: tail).reverse).takeWhile (· ≠ '/') = ['.'] := by
  rw [List.reverse_cons, trimReversed_append h (by simp)]
  rfl

/-! ## The file's name -/

theorem fileName?_of_endsIn (h : EndsIn path.toList last) (hdot : last ≠ ['.']) :
    fileName? path = if last = ['.', '.'] then none else some (String.ofList last) := by
  have hne : last ≠ [] := by
    obtain ⟨_, _, _, _, hne, _⟩ := h
    exact hne
  rw [fileName?, takeWhile_trimReversed h hdot, List.reverse_reverse]
  simp [hne, hdot]

theorem fileName?_of_idle (h : Idle path.toList ∨ ∃ tail, path.toList = '.' :: tail ∧ Idle tail) :
    fileName? path = none := by
  rcases h with h | ⟨tail, hpath, h⟩
  · rw [fileName?, takeWhile_trimReversed_idle h]
    rfl
  · rw [fileName?, hpath, takeWhile_trimReversed_dot h]
    rfl

/-- **The name of a path's file is the path's last component.** -/
theorem fileName?_eq_some_iff : fileName? path = some file ↔ HasFileName path file := by
  constructor
  · intro h
    rcases cases_end path.toList with hidle | hidle | ⟨last, hends, hdot⟩
    · rw [fileName?_of_idle (.inl hidle)] at h
      cases h
    · rw [fileName?_of_idle (.inr hidle)] at h
      cases h
    · rw [fileName?_of_endsIn hends hdot] at h
      split at h
      · cases h
      · rename_i hup
        obtain rfl := Option.some.inj h
        exact ⟨by rwa [String.toList_ofList], fun heq => hdot (String.ofList_injective heq),
          fun heq => hup (String.ofList_injective heq)⟩
  · rintro ⟨hends, hdot, hup⟩
    have hdot' : file.toList ≠ ['.'] := fun heq => hdot (String.toList_inj.mp heq)
    have hup' : file.toList ≠ ['.', '.'] := fun heq => hup (String.toList_inj.mp heq)
    rw [fileName?_of_endsIn hends hdot', if_neg hup', String.ofList_toList]

/-- **A path names no file if it leads to the root or to where it starts, or ends in `..`.** -/
theorem fileName?_eq_none_iff : fileName? path = none ↔ Unnamed path := by
  constructor
  · intro h
    rcases cases_end path.toList with hidle | hidle | ⟨last, hends, hdot⟩
    · exact .inl hidle
    · exact .inr (.inl hidle)
    · rw [fileName?_of_endsIn hends hdot] at h
      split at h
      · rename_i hup
        exact .inr (.inr (hup ▸ hends))
      · cases h
  · rintro (hidle | hidle | hends)
    · exact fileName?_of_idle (.inl hidle)
    · exact fileName?_of_idle (.inr hidle)
    · rw [fileName?_of_endsIn hends (by decide)]
      rfl

theorem hasFileName_append (directory : String) (h : IsName file) (hup : file ≠ "..") :
    HasFileName (directory ++ "/" ++ file) file :=
  ⟨⟨directory.toList ++ ['/'], [], by simp, by simp, h.toList_ne_nil, h.2.2, .nil⟩, h.2.1, hup⟩

theorem hasFileName_self (h : IsName file) (hup : file ≠ "..") : HasFileName file file :=
  ⟨⟨[], [], by simp, by simp, h.toList_ne_nil, h.2.2, .nil⟩, h.2.1, hup⟩

end ChartValues.Path
