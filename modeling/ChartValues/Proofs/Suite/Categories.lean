import Mathlib.Data.List.DropRight
import Mathlib.Data.List.Nodup
import Mathlib.Data.String.Basic
import ChartValues.Proofs.Text.Run
import ChartValues.Suite.Basic

/-!
# Requested categories

A run collects its categories name by name: what a name asks for is put among what was asked for before. Since all
of it comes from one suite, whose categories are in order, the order of the names and their repetitions leave no
trace: **what is selected are the categories of the suite that some name asks for** (`select_eq_filter`), which are
those it names and those below (`covers_trimSlashes_iff`). All that is said of a selection follows from this
(`select_requested`).
-/

namespace ChartValues.Suite

/-! ## Names -/

/-- A name without the slashes at its ends. -/
def IsBare (name bare : String) : Prop :=
  ∃ before after, name.toList = before ++ (bare.toList ++ after) ∧ (∀ c ∈ before, c = '/') ∧ (∀ c ∈ after, c = '/') ∧
    bare.toList.head? ≠ some '/' ∧ bare.toList.getLast? ≠ some '/'

/-- A requested name asks for a category: without the slashes at its ends it is the category or lies above it. -/
def AsksFor (name category : String) : Prop :=
  ∃ bare, IsBare name bare ∧ (category = bare ∨ ∃ below, category = bare ++ "/" ++ below)

theorem rdropWhile_slashes {cs after : List Char} (hafter : ∀ c ∈ after, c = '/') (h : cs.getLast? ≠ some '/') :
    (cs ++ after).rdropWhile (· == '/') = cs := by
  have hrun := Text.takeWhile_repeated (fun c hc => hafter c (List.mem_reverse.mp hc))
    (show cs.reverse.head? ≠ some '/' by rwa [List.head?_reverse])
  rw [List.rdropWhile, List.reverse_append, hrun.2, List.reverse_reverse]

theorem trimSlashes_eq (name : String) : trimSlashes name =
    String.ofList ((name.toList.dropWhile (· == '/')).rdropWhile (· == '/')) := rfl

theorem isBare_trimSlashes (name : String) : IsBare name (trimSlashes name) := by
  have hbefore : ∀ c ∈ name.toList.takeWhile (· == '/'), (c == '/') = true := fun c => List.mem_takeWhile_imp
  have hafter : ∀ c ∈ (name.toList.dropWhile (· == '/')).rtakeWhile (· == '/'), (c == '/') = true :=
    fun c => List.mem_rtakeWhile_imp
  rw [trimSlashes_eq, IsBare, String.toList_ofList]
  refine ⟨_, _, ?_, fun c hc => eq_of_beq (hbefore c hc), fun c hc => eq_of_beq (hafter c hc), ?_, ?_⟩
  · rw [List.rdropWhile_append_rtakeWhile, List.takeWhile_append_dropWhile]
  · intro hhead
    obtain ⟨rest, hrest⟩ := List.rdropWhile_prefix (· == '/') (name.toList.dropWhile (· == '/'))
    have hnot := List.head?_dropWhile_not (· == '/') name.toList
    rw [← hrest, List.head?_append_of_ne_nil _ (List.ne_nil_of_mem (List.mem_of_mem_head? hhead)), hhead] at hnot
    simp at hnot
  · intro hlast
    have hne := List.ne_nil_of_mem (List.mem_of_getLast? hlast)
    rw [List.getLast?_eq_some_getLast hne] at hlast
    exact List.rdropWhile_last_not (· == '/') _ hne (by simp [Option.some.inj hlast])

theorem IsBare.eq_trimSlashes {name bare : String} (h : IsBare name bare) : bare = trimSlashes name := by
  obtain ⟨before, after, hname, hbefore, hafter, hhead, hlast⟩ := h
  rw [trimSlashes_eq, hname]
  by_cases hbare : bare.toList = []
  · have hnil : (before ++ (bare.toList ++ after)).dropWhile (· == '/') = [] := by
      rw [hbare, List.dropWhile_eq_nil_iff]
      intro c hc
      rcases List.mem_append.mp hc with hc | hc
      · exact beq_iff_eq.mpr (hbefore c hc)
      · exact beq_iff_eq.mpr (hafter c hc)
    rw [hnil, List.rdropWhile_nil, String.toList_eq_nil_iff.mp hbare]
  · have hfirst : (bare.toList ++ after).head? ≠ some '/' := by rwa [List.head?_append_of_ne_nil _ hbare]
    rw [(Text.takeWhile_repeated hbefore hfirst).2, rdropWhile_slashes hafter hlast, String.ofList_toList]

theorem covers_iff {name category : String} :
    covers name category = true ↔ category = name ∨ ∃ below, category = name ++ "/" ++ below := by
  rw [covers, Bool.or_eq_true, decide_eq_true_iff, List.isPrefixOf_iff_prefix]
  refine or_congr_right ⟨?_, ?_⟩
  · rintro ⟨below, hbelow⟩
    exact ⟨String.ofList below, by rw [← String.toList_inj, String.toList_append, String.toList_ofList, hbelow]⟩
  · rintro ⟨below, rfl⟩
    exact ⟨below.toList, (String.toList_append ..).symm⟩

theorem covers_trimSlashes_iff {name category : String} :
    covers (trimSlashes name) category = true ↔ AsksFor name category := by
  rw [covers_iff]
  constructor
  · exact fun h => ⟨_, isBare_trimSlashes name, h⟩
  · rintro ⟨bare, hbare, h⟩
    rwa [← hbare.eq_trimSlashes]

instance (name category : String) : Decidable (AsksFor name category) :=
  decidable_of_iff _ covers_trimSlashes_iff

/-- Whether any of the requested names asks for a category; no names ask for all. -/
def isRequested (requested : List String) (category : String) : Bool :=
  requested.isEmpty || requested.any fun name => covers (trimSlashes name) category

theorem isRequested_eq {requested : List String} (hne : requested ≠ []) (category : String) :
    isRequested requested category = decide (∃ name ∈ requested, AsksFor name category) := by
  rw [Bool.eq_iff_iff, isRequested, List.isEmpty_eq_false_iff.mpr hne, Bool.false_or, List.any_eq_true]
  simp only [covers_trimSlashes_iff, decide_eq_true_eq]

/-! ## Categories in order -/

/-- The categories rise, so that none is there twice. -/
def Ordered (categories : List (String × List String)) : Prop := (categories.map Prod.fst).Pairwise (· < ·)

instance (categories : List (String × List String)) : Decidable (Ordered categories) :=
  inferInstanceAs (Decidable (List.Pairwise _ _))

section ordered
variable {c : String} {paths : List String} {entry : String × List String}
  {categories selected more : List (String × List String)}

theorem ordered_cons : Ordered (entry :: categories) ↔
    (∀ other ∈ categories, entry.1 < other.1) ∧ Ordered categories := by
  rw [Ordered, List.map_cons, List.pairwise_cons, List.forall_mem_map]
  rfl

theorem Ordered.sublist (h : Ordered categories) (hsub : selected.Sublist categories) : Ordered selected :=
  List.Pairwise.sublist (hsub.map _) h

theorem Ordered.eq_of_fst_eq (h : Ordered categories) {entry' : String × List String} (hentry : entry ∈ categories)
    (hentry' : entry' ∈ categories) (heq : entry.1 = entry'.1) : entry = entry' :=
  List.inj_on_of_nodup_map (h.imp ne_of_lt) hentry hentry' heq

theorem Ordered.eq_of_mem_iff (h : Ordered selected) (h' : Ordered more) (hmem : ∀ e, e ∈ selected ↔ e ∈ more) :
    selected = more := by
  have hnodup : ∀ {l : List (String × List String)}, Ordered l → l.Nodup :=
    fun hl => List.Nodup.of_map _ (hl.imp ne_of_lt)
  have hperm := (List.perm_ext_iff_of_nodup (hnodup h) (hnodup h')).mpr hmem
  exact hperm.eq_of_pairwise (fun _ _ _ _ hab hba => absurd hba hab.asymm) (List.pairwise_map.mp h)
    (List.pairwise_map.mp h')

theorem mem_place (h : Ordered selected) :
    entry ∈ place c paths selected ↔ entry = (c, paths) ∨ entry ∈ selected ∧ entry.1 ≠ c := by
  induction selected with
  | nil => simp [place]
  | cons other rest ih =>
    obtain ⟨d, qs⟩ := other
    obtain ⟨hrest, hordered⟩ := ordered_cons.mp h
    unfold place
    by_cases hd : d = c
    · have hne : ∀ e ∈ rest, e.1 ≠ c := fun e he => hd ▸ (hrest e he).ne'
      rw [if_pos hd, List.mem_cons, List.mem_cons]
      grind
    rw [if_neg hd]
    by_cases hlt : c < d
    · have hne : ∀ e ∈ rest, e.1 ≠ c := fun e he => (hlt.trans (hrest e he)).ne'
      rw [if_pos hlt, List.mem_cons, List.mem_cons]
      grind
    · rw [if_neg hlt, List.mem_cons, List.mem_cons, ih hordered]
      grind

theorem ordered_place (h : Ordered selected) (c : String) (paths : List String) : Ordered (place c paths selected) := by
  induction selected with
  | nil => exact List.pairwise_singleton _ _
  | cons other rest ih =>
    obtain ⟨d, qs⟩ := other
    obtain ⟨hrest, hordered⟩ := ordered_cons.mp h
    unfold place
    by_cases hd : d = c
    · rw [if_pos hd]
      exact ordered_cons.mpr ⟨hd ▸ hrest, hordered⟩
    rw [if_neg hd]
    by_cases hlt : c < d
    · rw [if_pos hlt]
      refine ordered_cons.mpr ⟨fun e he => ?_, h⟩
      rcases List.mem_cons.mp he with rfl | he
      · exact hlt
      · exact hlt.trans (hrest e he)
    · rw [if_neg hlt]
      refine ordered_cons.mpr ⟨fun e he => ?_, ih hordered⟩
      rcases (mem_place hordered).mp he with rfl | ⟨he, -⟩
      · exact lt_of_le_of_ne (not_lt.mp hlt) hd
      · exact hrest e he

theorem map_fst_insert (c file : String) (categories : List (String × List String)) :
    (insert c file categories).map Prod.fst = (place c paths categories).map Prod.fst := by
  induction categories with
  | nil => rfl
  | cons other rest ih =>
    obtain ⟨d, qs⟩ := other
    unfold insert place
    by_cases hd : d = c
    · rw [if_pos hd, if_pos hd, hd]
      rfl
    rw [if_neg hd, if_neg hd]
    by_cases hlt : c < d
    · rw [if_pos hlt, if_pos hlt]
      rfl
    · rw [if_neg hlt, if_neg hlt, List.map_cons, List.map_cons, ih]

theorem ordered_insert (h : Ordered categories) (c file : String) : Ordered (insert c file categories) := by
  have hplace := ordered_place h c []
  rwa [Ordered, ← map_fst_insert c file] at hplace

/-! ## Collecting

Everything that is put together comes from one list of categories in order, `categories`. -/

theorem extend_spec (h : Ordered categories) (hselected : Ordered selected) (hall : ∀ e ∈ selected, e ∈ categories)
    (hmore : ∀ e ∈ more, e ∈ categories) :
    Ordered (extend selected more) ∧ ∀ e, e ∈ extend selected more ↔ e ∈ selected ∨ e ∈ more := by
  induction more generalizing selected with
  | nil => simp [extend, hselected]
  | cons entry more ih =>
    obtain ⟨c, paths⟩ := entry
    rw [List.forall_mem_cons] at hmore
    -- a category that is there already has the same files
    have hmem : ∀ e, e ∈ place c paths selected ↔ e = (c, paths) ∨ e ∈ selected := by
      intro e
      rw [mem_place hselected]
      refine ⟨fun he => he.imp_right And.left, ?_⟩
      rintro (rfl | he)
      · exact .inl rfl
      · by_cases hc : e.1 = c
        · exact .inl (h.eq_of_fst_eq (hall e he) hmore.1 hc)
        · exact .inr ⟨he, hc⟩
    have hall' : ∀ e ∈ place c paths selected, e ∈ categories := by
      intro e he
      rcases (hmem e).mp he with rfl | he
      · exact hmore.1
      · exact hall e he
    obtain ⟨hordered, hextend⟩ := ih (ordered_place hselected c paths) hall' hmore.2
    refine ⟨hordered, fun e => ?_⟩
    have hstep : extend selected ((c, paths) :: more) = extend (place c paths selected) more := rfl
    rw [hstep, hextend, hmem, List.mem_cons, or_comm (a := e = _), or_assoc]

end ordered

theorem collect_spec {s : Suite} (h : Ordered s.categories) (requested : List String)
    {selected : List (String × List String)} (hselected : Ordered selected)
    (hall : ∀ e ∈ selected, e ∈ s.categories) :
    let collected := requested.foldl (fun selected name => extend selected (s.matching name)) selected
    Ordered collected ∧ ∀ e, e ∈ collected ↔
      e ∈ selected ∨ e ∈ s.categories ∧ ∃ name ∈ requested, AsksFor name e.1 := by
  induction requested generalizing selected with
  | nil => simp [hselected]
  | cons name rest ih =>
    have hmatching : ∀ e, e ∈ s.matching name ↔ e ∈ s.categories ∧ AsksFor name e.1 := by
      intro e
      rw [matching, List.mem_filter, covers_trimSlashes_iff]
    obtain ⟨hordered, hmem⟩ := extend_spec h hselected hall fun e he => ((hmatching e).mp he).1
    have hall' : ∀ e ∈ extend selected (s.matching name), e ∈ s.categories := by
      intro e he
      rcases (hmem e).mp he with he | he
      · exact hall e he
      · exact ((hmatching e).mp he).1
    obtain ⟨hordered', hmem'⟩ := ih hordered hall'
    refine ⟨hordered', fun e => ?_⟩
    rw [List.foldl_cons, hmem', hmem, hmatching, List.exists_mem_cons_iff, or_assoc, ← and_or_left]

/-- **What is selected are the categories of the suite that some requested name asks for**, in their order. -/
theorem select_eq_filter {s : Suite} (h : Ordered s.categories) {requested : List String} (hne : requested ≠ []) :
    s.select requested = s.categories.filter fun entry => ∃ name ∈ requested, AsksFor name entry.1 := by
  have hnil : Ordered [] := List.Pairwise.nil
  obtain ⟨hordered, hmem⟩ := collect_spec h requested hnil (by simp)
  rw [select, if_neg (by simpa using hne)]
  refine hordered.eq_of_mem_iff (h.sublist List.filter_sublist) fun e => ?_
  simp [hmem]

theorem select_nil (s : Suite) : s.select [] = s.categories := rfl

theorem select_eq_isRequested {s : Suite} (h : Ordered s.categories) (requested : List String) :
    s.select requested = s.categories.filter fun (c, _) => isRequested requested c := by
  by_cases hne : requested = []
  · rw [hne, select_nil]
    exact (List.filter_eq_self.mpr fun _ _ => rfl).symm
  · rw [select_eq_filter h hne]
    exact List.filter_congr fun entry _ => (isRequested_eq hne entry.1).symm

/-- **Selecting categories.** With no names requested, all categories are selected. Else those are selected that some
name asks for, each once with its files. So neither the order of the names nor their repetitions matter, a name that
asks for nothing changes nothing, and two lists of names together select what either of them selects. -/
theorem select_requested {s : Suite} (h : Ordered s.categories) :
    s.select [] = s.categories ∧ ∀ requested ≠ [],
      (s.select requested = s.categories.filter fun entry => ∃ name ∈ requested, AsksFor name entry.1) ∧
      (∀ requested', (∀ name, name ∈ requested' ↔ name ∈ requested) →
        s.select requested' = s.select requested) ∧
      (∀ before after name, requested = before ++ after → (∀ entry ∈ s.categories, ¬AsksFor name entry.1) →
        s.select (before ++ name :: after) = s.select requested) ∧
      ∀ requested' ≠ [], s.select (requested ++ requested') =
        s.categories.filter fun entry => entry ∈ s.select requested ∨ entry ∈ s.select requested' := by
  refine ⟨select_nil s, fun requested hne => ⟨select_eq_filter h hne, ?_, ?_, ?_⟩⟩
  · intro requested' hsame
    have hne' : requested' ≠ [] := by
      obtain ⟨name, hname⟩ := List.exists_mem_of_ne_nil requested hne
      exact List.ne_nil_of_mem ((hsame name).mpr hname)
    rw [select_eq_filter h hne, select_eq_filter h hne']
    simp only [hsame]
  · intro before after name heq hunknown
    rw [select_eq_filter h (by simp), select_eq_filter h hne, heq]
    refine List.filter_congr fun entry hentry => ?_
    have hnot := hunknown entry hentry
    simp [or_and_right, exists_or, hnot]
  · intro requested' hne'
    rw [select_eq_filter h (by simp [hne]), select_eq_filter h hne, select_eq_filter h hne']
    refine List.filter_congr fun entry hentry => ?_
    simp [hentry, or_and_right, exists_or]

/-- A category and one below it are requested, the first with slashes and again without them; `keys` only starts with
the same letters, and `ke` names nothing. -/
theorem select_requested_key :
    let s : Suite := ⟨[("", ["a"]), ("key", ["b"]), ("key/deep", ["c"]), ("keys", ["d"])]⟩
    Ordered s.categories ∧ (∀ entry ∈ s.categories, ¬AsksFor "ke" entry.1) ∧
      s.select ["/key/", "key/deep", "key"] = [("key", ["b"]), ("key/deep", ["c"])] ∧
      s.select ["key"] = s.select ["/key/", "key/deep", "key"] ∧
      s.select ["/key/", "ke", "key/deep", "key"] = s.select ["/key/", "key/deep", "key"] := by
  intro s
  have hordered : Ordered s.categories := by decide +kernel
  have hunknown : ∀ entry ∈ s.categories, ¬AsksFor "ke" entry.1 := by decide +kernel
  obtain ⟨-, hselect⟩ := select_requested hordered
  obtain ⟨hkey, -, hskip, -⟩ := hselect ["/key/", "key/deep", "key"] (by simp)
  have hboth : s.select ["/key/", "key/deep", "key"] = [("key", ["b"]), ("key/deep", ["c"])] := by
    rw [hkey]
    decide +kernel
  refine ⟨hordered, hunknown, hboth, ?_, hskip ["/key/"] _ _ rfl hunknown⟩
  rw [hboth, (hselect ["key"] (by simp)).1]
  decide +kernel

end ChartValues.Suite
