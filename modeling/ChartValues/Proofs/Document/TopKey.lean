import ChartValues.Proofs.Block.Scan
import ChartValues.Proofs.Document.KeyLine
import ChartValues.Proofs.Path.Enclosing

/-!
# Keys at column zero

A line at column zero is read twice: a scan takes what stands before the last colon of its first word
(`topLevelKey`), the walk to a cursor what stands before its first colon (`key`). The two agree exactly if
the first word has at most one colon, and has one if the line has (`topLevelKey_eq_key_iff`). Where a key has
two words, as in `a b:`, a scan sees none: a top-level key is one word.

`topLevelKey_agrees` draws the consequence for documents: a path whose outermost key stands on such a line
starts with the key of a block.
-/

namespace ChartValues

namespace Line

open ChartValues.Text

/-- The first word of a line that starts with one. -/
def firstWord (text : String) : List Char := text.toList.takeWhile fun c => !isBlank c

/-- The first word has at most one colon, and it has one if the line has. -/
structure PlainColon (text : String) : Prop where
  atMostOne : (firstWord text).count ':' ≤ 1
  inFirstWord : ':' ∈ text.toList → ':' ∈ firstWord text

variable {text : String} {cs key : List Char}

/-! ## The last colon -/

theorem beforeLastColon_eq_none_iff : beforeLastColon cs = none ↔ ':' ∉ cs := by
  induction cs with
  | nil => simp [beforeLastColon]
  | cons c cs ih =>
    rw [beforeLastColon]
    cases htail : beforeLastColon cs with
    | some before =>
      have hmem : ':' ∈ cs := Decidable.not_not.mp fun hcs => by simp [ih.mpr hcs] at htail
      simp [hmem]
    | none =>
      have hcs : ':' ∉ cs := ih.mp htail
      by_cases hc : c = ':'
      · simp [hc]
      · simp [hc, hcs, Ne.symm hc]

theorem beforeLastColon_append (h : beforeLastColon cs = some key) (before : List Char) :
    beforeLastColon (before ++ cs) = some (before ++ key) := by
  induction before with
  | nil => exact h
  | cons c before ih => rw [List.cons_append, beforeLastColon, ih, List.cons_append]

theorem beforeLastColon_colon (h : ':' ∉ cs) : beforeLastColon (':' :: cs) = some [] := by
  rw [beforeLastColon, beforeLastColon_eq_none_iff.mpr h]
  rfl

theorem beforeLastColon_eq_some_iff :
    beforeLastColon cs = some key ↔ ∃ rest, cs = key ++ ':' :: rest ∧ ':' ∉ rest := by
  constructor
  · intro h
    induction cs generalizing key with
    | nil => cases h
    | cons c cs ih =>
      rw [beforeLastColon] at h
      cases htail : beforeLastColon cs with
      | some before =>
        rw [htail] at h
        obtain ⟨rest, rfl, hrest⟩ := ih htail
        obtain rfl := Option.some.inj h
        exact ⟨rest, rfl, hrest⟩
      | none =>
        rw [htail] at h
        split_ifs at h with hc
        obtain rfl := Option.some.inj h
        exact ⟨cs, by rw [hc, List.nil_append], beforeLastColon_eq_none_iff.mp htail⟩
  · rintro ⟨rest, rfl, hrest⟩
    have hlast := beforeLastColon_append (beforeLastColon_colon hrest) key
    rwa [List.append_nil] at hlast

/-! ## The two readings of a line -/

theorem exists_cons_of_indentation_eq_zero (hblank : isBlankOrComment text = false)
    (hindent : indentation text = 0) :
    ∃ c cs, text.toList = c :: cs ∧ isBlank c = false ∧ c ≠ '#' := by
  rw [isBlankOrComment] at hblank
  rw [indentation] at hindent
  cases htext : text.toList with
  | nil => simp [htext, trimStart] at hblank
  | cons c cs =>
    rw [htext] at hblank hindent
    have hc : isBlank c = false := by
      rw [List.takeWhile_cons] at hindent
      split at hindent
      · simp at hindent
      · rename_i hc
        simpa using hc
    rw [trimStart, List.dropWhile_cons, if_neg (by simp [hc])] at hblank
    exact ⟨c, cs, rfl, hc, by simpa using hblank⟩

theorem topLevelKey_eq (hblank : isBlankOrComment text = false) (hindent : indentation text = 0) :
    topLevelKey text =
      ((beforeLastColon (firstWord text)).filter (· ≠ [])).map String.ofList := by
  obtain ⟨c, cs, htext, -, hhash⟩ := exists_cons_of_indentation_eq_zero hblank hindent
  rw [topLevelKey, topLevelKeyChars, if_neg (by simp [htext, hhash]), firstWord]
  rcases beforeLastColon (text.toList.takeWhile fun c => !isBlank c) with _ | (_ | ⟨k, key⟩)
  · rfl
  · rfl
  · rfl

theorem isBlank_of_mem_firstWord {c : Char} (h : c ∈ firstWord text) : isBlank c = false := by
  have hall := List.all_eq_true.mp (List.all_takeWhile (l := text.toList) (p := fun c => !isBlank c)) c h
  simpa using hall

theorem toList_eq_firstWord_append (text : String) :
    text.toList = firstWord text ++ text.toList.dropWhile fun c => !isBlank c :=
  List.takeWhile_append_dropWhile.symm

theorem key_of_firstWord {before rest : List Char} (hword : firstWord text = before ++ ':' :: rest)
    (hbefore : ':' ∉ before) :
    Line.key text = ((some before).filter (· ≠ [])).map String.ofList := by
  have hnonblank : ∀ c ∈ before, isBlank c = false := by
    intro c hc
    have hmem : c ∈ firstWord text := by simp [hword, hc]
    exact isBlank_of_mem_firstWord hmem
  have htrim : trim before = before :=
    trim_eq_self (fun c hc => hnonblank c (List.mem_of_mem_head? hc))
      fun c hc => hnonblank c (List.mem_of_getLast? hc)
  have hline := toList_eq_firstWord_append text
  rw [hword, List.append_assoc, List.cons_append] at hline
  rw [Line.key.eq_def, beforeColon_eq_some_iff.mpr ⟨hbefore, _, hline⟩]
  cases before with
  | nil => rfl
  | cons b before =>
    simp only [htrim]
    rfl

theorem key_eq_none (hcolon : ':' ∉ text.toList) : Line.key text = none := by
  have hnone : beforeColon text.toList = none := by
    refine Option.eq_none_iff_forall_ne_some.mpr fun before hbefore => ?_
    obtain ⟨-, rest, hsplit⟩ := beforeColon_eq_some_iff.mp hbefore
    exact hcolon (by simp [hsplit])
  rw [Line.key.eq_def, hnone]

/-- A colon behind the first word ends a key of the walk to a cursor. The scan does not look past the word. -/
theorem key_ne_none_of_behind (hblank : isBlankOrComment text = false) (hindent : indentation text = 0)
    (hcolon : ':' ∈ text.toList) (hword : ':' ∉ firstWord text) : Line.key text ≠ none := by
  obtain ⟨before, rest, hsplit, hbefore⟩ := List.eq_append_cons_of_mem hcolon
  rw [Line.key.eq_def, beforeColon_eq_some_iff.mpr ⟨hbefore, rest, hsplit⟩]
  cases before with
  | nil =>
    obtain ⟨c, cs, htext, hc, -⟩ := exists_cons_of_indentation_eq_zero hblank hindent
    obtain ⟨rfl, -⟩ := List.cons.inj (htext.symm.trans hsplit)
    exact absurd (by simp [firstWord, htext, hc]) hword
  | cons b before => simp

theorem lastColon_ne_key {before rest : List Char} (hword : firstWord text = before ++ ':' :: rest)
    (hbefore : ':' ∉ before) (hmore : ':' ∈ rest) :
    ((beforeLastColon (firstWord text)).filter (· ≠ [])).map String.ofList ≠ Line.key text := by
  obtain ⟨key, hlast⟩ := Option.ne_none_iff_exists'.mp (mt beforeLastColon_eq_none_iff.mp (not_not.mpr hmore))
  have hkey := beforeLastColon_append (beforeLastColon_append hlast [':']) before
  rw [List.singleton_append] at hkey
  rw [key_of_firstWord hword hbefore, hword, hkey]
  cases before with
  | nil => simp [Option.filter]
  | cons b before => simp [Option.filter]

theorem count_colon_firstWord {before rest : List Char} (hword : firstWord text = before ++ ':' :: rest)
    (hbefore : ':' ∉ before) : (firstWord text).count ':' = rest.count ':' + 1 := by
  rw [hword, List.count_append, List.count_cons_self, List.count_eq_zero.mpr hbefore, Nat.zero_add]

/-- The scan and the walk to a cursor read the same key from a line at column zero, or both none, exactly if
its first word has at most one colon, and has one if the line has. -/
theorem topLevelKey_eq_key_iff (hblank : isBlankOrComment text = false)
    (hindent : indentation text = 0) : topLevelKey text = Line.key text ↔ PlainColon text := by
  rw [topLevelKey_eq hblank hindent]
  by_cases hcolon : ':' ∈ text.toList
  · by_cases hword : ':' ∈ firstWord text
    · obtain ⟨before, rest, hrest, hbefore⟩ := List.eq_append_cons_of_mem hword
      have hcount := count_colon_firstWord hrest hbefore
      by_cases hmore : ':' ∈ rest
      · refine iff_of_false (lastColon_ne_key hrest hbefore hmore) fun h => ?_
        have hpos := List.count_pos_iff.mpr hmore
        have hone := h.atMostOne
        omega
      · have hlast := beforeLastColon_eq_some_iff.mpr ⟨rest, hrest, hmore⟩
        rw [List.count_eq_zero.mpr hmore] at hcount
        rw [key_of_firstWord hrest hbefore, hlast]
        exact iff_of_true rfl ⟨Nat.le_of_eq hcount, fun _ => hword⟩
    · rw [beforeLastColon_eq_none_iff.mpr hword]
      exact iff_of_false (key_ne_none_of_behind hblank hindent hcolon hword).symm fun h =>
        hword (h.inFirstWord hcolon)
  · have hword : ':' ∉ firstWord text := fun h => hcolon (List.takeWhile_subset _ h)
    rw [beforeLastColon_eq_none_iff.mpr hword, key_eq_none hcolon]
    refine iff_of_true rfl ⟨?_, fun h => absurd h hcolon⟩
    rw [List.count_eq_zero.mpr hword]
    exact Nat.zero_le 1

end Line

/-! ## Paths and blocks -/

namespace Document

variable {d : Document} {p : Position} {path : CursorPath} {j : Nat} {text key : String}

theorem isPathAt_of_pathAt (h : d.pathAt p = .ok path) : d.IsPathAt p path := by
  rw [pathAt_eq] at h
  split_ifs at h with hline hcolumn
  obtain rfl := Except.ok.inj h
  exact d.isPathAt_enclosing p (by omega) (by omega)

theorem IsPathAt.first?_eq (h : d.IsPathAt p path)
    (hencloses : d.Encloses p.line (Line.indentation (d.typed p)) j) (hindent : d.indentAt j = 0)
    (hkey : d.CarriesKey j key) : path.first? = some key := by
  obtain ⟨lines, -, hdeeper, hmem, hkeys⟩ := h.segments
  have hj : j ∈ lines := (hmem j).mpr hencloses
  cases lines with
  | nil => simp at hj
  | cons i lines =>
    have hji : j = i := by
      rcases List.mem_cons.mp hj with hji | htail
      · exact hji
      · have := hdeeper j htail
        omega
    obtain ⟨segment, segments, hsegment, -, hpath⟩ := List.forall₂_cons_left_iff.mp hkeys
    rw [CursorPath.first?, CursorPath.elements, hpath, hkey.unique (hji ▸ hsegment)]
    rfl

/-- **One key, two readings.** The scan and the walk to a cursor read the same key, or both none, from every
line at column zero that is neither blank nor a comment and whose first word has at most one colon, and has
one if the line has. So a path whose outermost key stands on such a line at column zero starts with the key
of a block. -/
theorem topLevelKey_agrees :
    (∀ text, Line.isBlankOrComment text = false → Line.indentation text = 0 → Line.PlainColon text →
      Line.topLevelKey text = Line.key text) ∧
    ∀ (d : Document) (p : Position) (path : CursorPath), d.pathAt p = .ok path →
      ∀ j text, d.Encloses p.line (Line.indentation (d.typed p)) j → d.line? j = some text →
        Line.indentation text = 0 → Line.PlainColon text →
        ∃ block, d.scan.get? block.topKey = some block ∧ path.first? = some block.topKey := by
  refine ⟨fun text hblank hindent hplain => (Line.topLevelKey_eq_key_iff hblank hindent).mpr hplain,
    fun d p path hpath j text hencloses htext hindent hplain => ?_⟩
  have hisPath : d.IsPathAt p path := isPathAt_of_pathAt hpath
  obtain ⟨key, hkey⟩ := hencloses.carriesKey
  obtain ⟨hblank, hkey'⟩ := (carriesKey_iff htext).mp hkey
  have hkeyAt : d.keyAt j = some key := by
    rw [keyAt, htext, Option.bind_some, (Line.topLevelKey_eq_key_iff hblank hindent).mpr hplain, hkey']
  obtain ⟨block, hblock⟩ := Blocks.mem_keys_iff.mp (mem_keys_scan.mpr ⟨j, hkeyAt⟩)
  have htopKey : block.topKey = key := Blocks.topKey_of_get? hblock
  refine ⟨block, htopKey.symm ▸ hblock, ?_⟩
  rw [htopKey]
  exact hisPath.first?_eq hencloses ((indentAt_eq htext).trans hindent) hkey

/-- A colon behind the first word does not matter if the first word has one: the path below `x: # y: z`
starts with the key of a block. -/
theorem topLevelKey_agrees_comment :
    let d : Document := ⟨"values.yaml", "# @a/b\nx: # y: z\n  k"⟩
    d.Encloses 3 (Line.indentation (d.typed ⟨3, 3⟩)) 2 ∧ Line.PlainColon "x: # y: z" ∧
      ∃ block, d.scan.get? block.topKey = some block ∧ block.topKey = "x" := by
  intro d
  have hindent : d.indentAt 2 = 0 := by decide +kernel
  have hdepth : Line.indentation (d.typed ⟨3, 3⟩) = 2 := by decide +kernel
  have htext : d.line? 2 = some "x: # y: z" := by decide +kernel
  have hkey : d.CarriesKey 2 "x" := (carriesKey_iff htext).mpr (by decide +kernel)
  have hencloses : d.Encloses 3 (Line.indentation (d.typed ⟨3, 3⟩)) 2 :=
    ⟨by omega, ⟨"x", hkey⟩, by omega, fun i hi hlt => by omega⟩
  have hplain : Line.PlainColon "x: # y: z" := ⟨by decide +kernel, by decide +kernel⟩
  have hpath : d.pathAt ⟨3, 3⟩ = .ok ⟨["x"], some "k"⟩ := by decide +kernel
  obtain ⟨block, hblock, hfirst⟩ := topLevelKey_agrees.2 d ⟨3, 3⟩ _ hpath 2 _ hencloses htext
    (by decide +kernel) hplain
  exact ⟨hencloses, hplain, block, hblock, (Option.some.inj hfirst).symm⟩

/-- A key of two words is read by the walk to a cursor and not by the scan: the path starts with a key that
has no block. -/
theorem topLevelKey_two_words :
    let d : Document := ⟨"values.yaml", "a b:\n  k"⟩
    Line.isBlankOrComment "a b:" = false ∧ Line.indentation "a b:" = 0 ∧
      Line.topLevelKey "a b:" = none ∧ Line.key "a b:" = some "a b" ∧
      d.pathAt ⟨2, 3⟩ = .ok ⟨["a b"], some "k"⟩ ∧ d.scan.keys = [] := by
  decide +kernel

end Document

end ChartValues
