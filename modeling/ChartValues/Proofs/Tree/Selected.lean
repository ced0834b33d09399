import ChartValues.Proofs.Tree.Level

/-!
# Candidates of any entries

Selecting candidates asks nothing of the entries: they may come in any order, with repeated, empty or deeper paths.
The candidates are then those of the entries one level below the cursor's path, without an entry whose last key an
earlier one of them has (`candidates_entries`). The labels already seen are the last keys of exactly these earlier
entries, which is what the induction along the list carries. Read as accesses to the path, the selection takes a
front part and one key of it; both are there whenever they are asked for (`checkedBelow_eq`).
-/

namespace ChartValues

namespace Entry

/-- The entry lies one level below `parent`: its path has one key more, and before that it is `parent`. -/
def IsBelow (parent : List String) (e : Entry) : Prop :=
  e.path.length = parent.length + 1 ∧ e.path.take parent.length = parent

instance (parent : List String) (e : Entry) : Decidable (e.IsBelow parent) :=
  inferInstanceAs (Decidable (_ ∧ _))

/-- The entry at number `i` lies below `parent`, and no earlier one that does has its last key. -/
def IsFirstBelow (parent : List String) (entries : List Entry) (i : Nat) (e : Entry) : Prop :=
  e.IsBelow parent ∧ ∀ e' ∈ entries.take i, e'.IsBelow parent → e'.key ≠ e.key

instance (parent : List String) (entries : List Entry) (i : Nat) (e : Entry) :
    Decidable (e.IsFirstBelow parent entries i) :=
  inferInstanceAs (Decidable (_ ∧ _))

/-- The entries below `parent`, of those with one last key the first, in order. -/
def firstBelow (parent : List String) (entries : List Entry) : List Entry :=
  (entries.zipIdx.filter fun p => decide (p.1.IsFirstBelow parent entries p.2)).map Prod.fst

def candidate (e : Entry) : Candidate := Candidate.ofEntry e e.key

theorem label_candidate (e : Entry) : e.candidate.label = e.key := rfl

variable {parent seen : List String} {entries : List Entry} {e : Entry} {label : String}

/-! ## One entry -/

theorem isBelow_iff : e.IsBelow parent ↔ e.path = parent ++ [e.key] := by
  constructor
  · rintro ⟨hlength, htake⟩
    have hdrop : (e.path.drop parent.length).length = 1 := by
      rw [List.length_drop]
      omega
    obtain ⟨label, hlabel⟩ := List.length_eq_one_iff.mp hdrop
    have hpath : e.path = parent ++ [label] := by
      rw [← List.take_append_drop parent.length e.path, htake, hlabel]
    rw [key, hpath]
    simp
  · intro hpath
    rw [IsBelow, hpath]
    simp

theorem labelBelow_of_isBelow (h : e.IsBelow parent) : labelBelow parent e.path = some e.key :=
  labelBelow_eq_some.mpr (isBelow_iff.mp h)

theorem labelBelow_of_not_isBelow (h : ¬ e.IsBelow parent) : labelBelow parent e.path = none := by
  rw [Option.eq_none_iff_forall_ne_some]
  intro label hlabel
  have hpath := labelBelow_eq_some.mp hlabel
  have hkey : e.key = label := by
    rw [key, hpath]
    simp
  exact h (isBelow_iff.mpr (hkey.symm ▸ hpath))

/-! ## One step of the selection -/

theorem candidatesBelow_of_skip (h : ¬ (e.IsBelow parent ∧ e.key ∉ seen)) :
    candidatesBelow parent seen (e :: entries) = candidatesBelow parent seen entries := by
  rw [candidatesBelow]
  by_cases hbelow : e.IsBelow parent
  · have hseen : e.key ∈ seen := by
      by_contra hnew
      exact h ⟨hbelow, hnew⟩
    rw [labelBelow_of_isBelow hbelow]
    exact if_pos hseen
  · rw [labelBelow_of_not_isBelow hbelow]

theorem candidatesBelow_of_new (h : e.IsBelow parent ∧ e.key ∉ seen) :
    candidatesBelow parent seen (e :: entries) =
      e.candidate :: candidatesBelow parent (e.key :: seen) entries := by
  rw [candidatesBelow, labelBelow_of_isBelow h.1]
  exact if_neg h.2

/-! ## Which entries are selected -/

/-- `seen` has the last keys of those of the entries `before` that lie below `parent`. -/
def Seen (parent : List String) (before : List Entry) (seen : List String) : Prop :=
  ∀ label, label ∈ seen ↔ ∃ e ∈ before, e.IsBelow parent ∧ e.key = label

variable {before : List Entry}

theorem Seen.skip (h : Seen parent before seen) (hskip : ¬ (e.IsBelow parent ∧ e.key ∉ seen)) :
    Seen parent (before ++ [e]) seen := by
  intro label
  constructor
  · intro hlabel
    obtain ⟨e', he', hbelow⟩ := (h label).mp hlabel
    exact ⟨e', List.mem_append_left _ he', hbelow⟩
  · rintro ⟨e', he', hbelow, hkey⟩
    rcases List.mem_append.mp he' with he' | he'
    · exact (h label).mpr ⟨e', he', hbelow, hkey⟩
    · obtain rfl := List.mem_singleton.mp he'
      by_contra hnew
      exact hskip ⟨hbelow, hkey ▸ hnew⟩

theorem Seen.add (h : Seen parent before seen) (hbelow : e.IsBelow parent) :
    Seen parent (before ++ [e]) (e.key :: seen) := by
  intro label
  rw [List.mem_cons, h label]
  constructor
  · rintro (rfl | ⟨e', he', hbelow'⟩)
    · exact ⟨e, by simp, hbelow, rfl⟩
    · exact ⟨e', List.mem_append_left _ he', hbelow'⟩
  · rintro ⟨e', he', hbelow', hkey⟩
    rcases List.mem_append.mp he' with he' | he'
    · exact Or.inr ⟨e', he', hbelow', hkey⟩
    · obtain rfl := List.mem_singleton.mp he'
      exact Or.inl hkey.symm

/-- Behind the entries `before`, the selection goes on with the entries that are the first of their last keys in the
whole list. -/
theorem candidatesBelow_behind (entries : List Entry) : ∀ (before : List Entry) (seen : List String),
    Seen parent before seen → candidatesBelow parent seen entries =
      ((entries.zipIdx before.length).filter fun p =>
        decide (p.1.IsFirstBelow parent (before ++ entries) p.2)).map fun p => p.1.candidate := by
  induction entries with
  | nil => intro before seen _; rfl
  | cons e rest ih =>
    intro before seen hseen
    -- `e` has the number `before.length`, so exactly `before` stands in front of it
    have hfirst : e.IsFirstBelow parent (before ++ e :: rest) before.length ↔
        e.IsBelow parent ∧ e.key ∉ seen := by
      rw [IsFirstBelow, List.take_left, hseen]
      simp
    have hlength : before.length + 1 = (before ++ [e]).length := by simp
    rw [List.zipIdx_cons, hlength]
    by_cases hnew : e.IsBelow parent ∧ e.key ∉ seen
    · rw [candidatesBelow_of_new hnew, List.filter_cons_of_pos (by exact decide_eq_true (hfirst.mpr hnew)), List.map_cons,
        List.append_cons]
      exact congrArg _ (ih _ _ (hseen.add hnew.1))
    · have hnot : ¬ e.IsFirstBelow parent (before ++ e :: rest) before.length := mt hfirst.mp hnew
      rw [candidatesBelow_of_skip hnew, List.filter_cons_of_neg (by simpa using hnot), List.append_cons]
      exact ih _ _ (hseen.skip hnew)

theorem candidatesBelow_eq_firstBelow (parent : List String) (entries : List Entry) :
    candidatesBelow parent [] entries = (firstBelow parent entries).map candidate := by
  rw [firstBelow, List.map_map]
  exact candidatesBelow_behind entries [] [] (by simp [Seen])

/-! ## Labels -/

theorem find?_candidatesBelow (parent : List String) (label : String) (entries : List Entry) : ∀ seen, label ∉ seen →
    (candidatesBelow parent seen entries).find? (fun c => c.label == label) =
      (entries.find? fun e => decide (e.IsBelow parent ∧ e.key = label)).map candidate := by
  induction entries with
  | nil => intro seen _; rfl
  | cons e rest ih =>
    intro seen hlabel
    by_cases hfound : e.IsBelow parent ∧ e.key = label
    · have hnew : e.IsBelow parent ∧ e.key ∉ seen := ⟨hfound.1, hfound.2.symm ▸ hlabel⟩
      rw [candidatesBelow_of_new hnew, List.find?_cons_of_pos (by rw [label_candidate, hfound.2, beq_self_eq_true]),
        List.find?_cons_of_pos (by exact decide_eq_true hfound), Option.map_some]
    · rw [List.find?_cons_of_neg (by simpa using hfound)]
      by_cases hnew : e.IsBelow parent ∧ e.key ∉ seen
      · have hne : e.key ≠ label := fun hkey => hfound ⟨hnew.1, hkey⟩
        rw [candidatesBelow_of_new hnew, List.find?_cons_of_neg (by rwa [label_candidate, beq_iff_eq])]
        exact ih _ (by simp [hlabel, Ne.symm hne])
      · rw [candidatesBelow_of_skip hnew]
        exact ih seen hlabel

theorem label_notMem (entries : List Entry) : ∀ seen,
    ∀ c ∈ candidatesBelow parent seen entries, c.label ∉ seen := by
  induction entries with
  | nil => intro seen c hc; simp [candidatesBelow] at hc
  | cons e rest ih =>
    intro seen c hc
    by_cases hnew : e.IsBelow parent ∧ e.key ∉ seen
    · rw [candidatesBelow_of_new hnew] at hc
      rcases List.mem_cons.mp hc with rfl | hc
      · exact hnew.2
      · exact fun hseen => ih _ c hc (List.mem_cons_of_mem _ hseen)
    · rw [candidatesBelow_of_skip hnew] at hc
      exact ih seen c hc

theorem nodup_labels (entries : List Entry) : ∀ seen,
    ((candidatesBelow parent seen entries).map Candidate.label).Nodup := by
  induction entries with
  | nil => intro seen; exact List.nodup_nil
  | cons e rest ih =>
    intro seen
    by_cases hnew : e.IsBelow parent ∧ e.key ∉ seen
    · rw [candidatesBelow_of_new hnew, List.map_cons, List.nodup_cons]
      refine ⟨fun hmem => ?_, ih _⟩
      obtain ⟨c, hc, hlabel⟩ := List.mem_map.mp hmem
      exact label_notMem rest _ c hc (hlabel ▸ List.mem_cons_self)
    · rw [candidatesBelow_of_skip hnew]
      exact ih seen

theorem mem_labels_iff : label ∈ (candidatesBelow parent [] entries).map Candidate.label ↔
    ∃ e ∈ entries, e.IsBelow parent ∧ e.key = label := by
  have hfind := congrArg Option.isSome (find?_candidatesBelow parent label entries [] (by simp))
  rw [Option.isSome_map, Bool.eq_iff_iff, List.find?_isSome, List.find?_isSome] at hfind
  simpa using hfind

/-! ## Checked accesses -/

/-- The first `n` keys of a path, if it has as many. -/
def front? (path : List String) (n : Nat) : Option (List String) :=
  if n ≤ path.length then some (path.take n) else none

/-- The label of an entry below `parent`, read from its path access by access: the test of the length comes first, and
only then the front of the path and the key behind it are asked for. Nothing at all comes out where the path has
no such part. -/
def checkedLabel (parent : List String) (e : Entry) : Option (Option String) :=
  if e.path.length = parent.length + 1 then
    (front? e.path parent.length).bind fun front =>
      if front = parent then e.path[parent.length]?.map some else some none
  else some none

/-- The candidates below `parent`, with every access to a path checked. -/
def checkedBelow (parent : List String) (seen : List String) : List Entry → Option (List Candidate)
  | [] => some []
  | e :: rest =>
    (checkedLabel parent e).bind fun
      | none => checkedBelow parent seen rest
      | some label =>
        if label ∈ seen then checkedBelow parent seen rest
        else (checkedBelow parent (label :: seen) rest).map (Candidate.ofEntry e label :: ·)

theorem checkedLabel_eq (parent : List String) (e : Entry) :
    checkedLabel parent e = some (labelBelow parent e.path) := by
  by_cases hlength : e.path.length = parent.length + 1
  · have hfront : front? e.path parent.length = some (e.path.take parent.length) := if_pos (by omega)
    rw [checkedLabel, if_pos hlength, hfront, Option.bind_some]
    by_cases htake : e.path.take parent.length = parent
    · have hbelow : e.IsBelow parent := ⟨hlength, htake⟩
      have hkey : e.path[parent.length]? = some e.key := by
        rw [isBelow_iff.mp hbelow]
        simp
      rw [if_pos htake, hkey, labelBelow_of_isBelow hbelow, Option.map_some]
    · rw [if_neg htake, labelBelow_of_not_isBelow fun h => htake h.2]
  · rw [checkedLabel, if_neg hlength, labelBelow_of_not_isBelow fun h => hlength h.1]

theorem checkedBelow_eq (parent : List String) (entries : List Entry) : ∀ seen,
    checkedBelow parent seen entries = some (candidatesBelow parent seen entries) := by
  induction entries with
  | nil => intro seen; rfl
  | cons e rest ih =>
    intro seen
    rw [checkedBelow, checkedLabel_eq, Option.bind_some, candidatesBelow]
    cases labelBelow parent e.path with
    | none => exact ih seen
    | some label =>
      by_cases hseen : label ∈ seen
      · simp only [if_pos hseen, ih]
      · simp only [if_neg hseen, ih, Option.map_some]

end Entry

/-! ## The main statement -/

/-- The candidates at a cursor, with every access to a path checked. -/
def checkedCandidates (entries : List Entry) (path : CursorPath) (topKey : String) : Option (List Candidate) :=
  match path.relativeTo topKey with
  | none => some []
  | some parent => Entry.checkedBelow parent [] entries

/-- **Candidates of any entries.** Selecting them asks for no part that a path does not have. Under a path with another
root there are none. Else `relative` is the path without the block's key, and the candidates are those of the entries
one level below `relative`, in order, without the entries whose last key an earlier one of them has. So labels are
distinct, each last key of such an entry is one, and its candidate is that of the first such entry. -/
theorem candidates_entries (entries : List Entry) (p : CursorPath) (topKey : String) :
    checkedCandidates entries p topKey = some (candidates entries p topKey) ∧
    (∀ root rest, p.elements = root :: rest → root ≠ topKey → candidates entries p topKey = []) ∧
    ∀ relative, (p.elements = [] ∧ relative = [] ∨ p.elements = topKey :: relative) →
      candidates entries p topKey = (Entry.firstBelow relative entries).map Entry.candidate ∧
      ((candidates entries p topKey).map Candidate.label).Nodup ∧
      (∀ label, label ∈ (candidates entries p topKey).map Candidate.label ↔
        ∃ e ∈ entries, e.IsBelow relative ∧ e.key = label) ∧
      ∀ label, (candidates entries p topKey).find? (fun c => c.label == label) =
        (entries.find? fun e => decide (e.IsBelow relative ∧ e.key = label)).map Entry.candidate := by
  refine ⟨?_, fun root rest hp hroot => candidates_eq_nil hp hroot entries, fun relative hrelative => ?_⟩
  · rw [checkedCandidates, candidates]
    cases p.relativeTo topKey with
    | none => rfl
    | some parent => exact Entry.checkedBelow_eq parent entries []
  · rw [candidates_eq_candidatesBelow hrelative]
    exact ⟨Entry.candidatesBelow_eq_firstBelow relative entries, Entry.nodup_labels entries [],
      fun label => Entry.mem_labels_iff, fun label => Entry.find?_candidatesBelow relative label entries [] (by simp)⟩

/-- Of the entries `auth.users` the first one counts, wherever the empty, the shorter and the deeper paths stand. -/
theorem candidates_entries_auth :
    let entry : List String → String → Entry := fun path text => ⟨path, false, some text, some .string, ⟨1, 0⟩⟩
    let entries := [entry [] "0", entry ["auth", "users", "a"] "1", entry ["auth", "users"] "2", entry ["auth"] "3",
      entry ["auth", "name"] "4", entry ["auth", "users"] "5", entry ["port", "users"] "6"]
    let path : CursorPath := ⟨["redis"], some "auth"⟩
    path.elements = "redis" :: ["auth"] ∧ "redis" ≠ "web" ∧ candidates entries path "web" = [] ∧
      candidates entries path "redis" =
        [(entry ["auth", "users"] "2").candidate, (entry ["auth", "name"] "4").candidate] ∧
      "name" ∈ (candidates entries path "redis").map Candidate.label := by
  intro entry entries path
  obtain ⟨-, hroot, hbelow⟩ := candidates_entries entries path "redis"
  obtain ⟨hfirst, -, hlabels, -⟩ := hbelow ["auth"] (Or.inr rfl)
  refine ⟨rfl, by decide, (candidates_entries entries path "web").2.1 "redis" ["auth"] rfl (by decide), ?_, ?_⟩
  · rw [hfirst]
    decide
  · exact (hlabels "name").mpr ⟨entry ["auth", "name"] "4", by simp [entries], by decide, by decide⟩

end ChartValues
