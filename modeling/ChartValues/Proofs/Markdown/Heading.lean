import ChartValues.Proofs.Markdown.Reading

/-!
# The heading of a documentation

A heading names a chart between stars and a path between backticks. Its text **is shown as it is exactly if no two
runs of underscores in the reference make emphasis and the path does not lose a blank at both ends**
(`chars_spans_heading_iff`). References whose underscores all stand inside of words keep them
(`keepsUnderscores_of_inWord`).
-/

namespace ChartValues.Markdown

open Text

theorem flanking_opening {c : Char} (hc : isBlank c = false) : flanking '*' '\n' c = (true, false) := by
  simp [flanking, hc, show isBlank '\n' = true from rfl]

theorem flanking_closing {c : Char} (hc : isBlank c = false) : flanking '*' c ' ' = (false, true) := by
  simp [flanking, hc, show isBlank ' ' = true from rfl]

/-- No run of underscores in the reference opens emphasis that a later one closes. -/
def KeepsUnderscores (ref : List Char) : Prop :=
  (underscoreRuns '*' 0 ref).Pairwise fun d e => ¬d.Emphasizes e

instance (ref : List Char) : Decidable (KeepsUnderscores ref) := inferInstanceAs (Decidable (List.Pairwise _ _))

/-- A character of a word: neither a blank nor punctuation. -/
def isLetter (c : Char) : Bool := !isBlank c && !isPunctuation c

/-- Of two neighbours, beside an underscore there is another one or a letter. -/
def InWord (a b : Char) : Prop :=
  (a = '_' → b = '_' ∨ isLetter b = true) ∧ (b = '_' → a = '_' ∨ isLetter a = true)

instance (a b : Char) : Decidable (InWord a b) := inferInstanceAs (Decidable (_ ∧ _))

theorem canOpen_between_letters {before after : Char} (hbefore : isLetter before = true)
    (hafter : isLetter after = true) (n : Nat) : (Delimiter.between '_' n before after).canOpen = false := by
  simp only [isLetter, Bool.and_eq_true, Bool.not_eq_true'] at hbefore hafter
  simp [Delimiter.between, flanking, hbefore, hafter]

theorem canOpen_of_mem_run {n : Nat} {before after : Char} (hbefore : n ≠ 0 → isLetter before = true)
    (hafter : n ≠ 0 → isLetter after = true) : ∀ d ∈ underscoreRuns.run n before after, d.canOpen = false := by
  intro d hd
  rw [underscoreRuns.run] at hd
  split_ifs at hd with hn
  · cases hd
  · rw [List.mem_singleton.mp hd]
    exact canOpen_between_letters (hbefore hn) (hafter hn) n

/-- Runs of underscores between letters open nothing. The induction carries that a run that has begun stands behind a
letter. -/
theorem canOpen_of_mem_underscoreRuns {previous : Char} {n : Nat} {cs : List Char}
    (hbegun : n ≠ 0 → isLetter previous = true) (hprevious : previous ≠ '_')
    (hchain : List.IsChain InWord ((if n = 0 then previous else '_') :: (cs ++ ['*']))) :
    ∀ d ∈ underscoreRuns previous n cs, d.canOpen = false := by
  induction cs generalizing previous n with
  | nil =>
    refine canOpen_of_mem_run hbegun fun hn => ?_
    rw [if_neg hn] at hchain
    exact ((List.isChain_cons_cons.mp hchain).1.1 rfl).resolve_left (by decide)
  | cons c cs ih =>
    rw [List.cons_append, List.isChain_cons_cons] at hchain
    obtain ⟨hpair, hchain⟩ := hchain
    rw [underscoreRuns]
    split_ifs with hc
    · refine ih (fun _ => ?_) hprevious (by rwa [if_neg (Nat.succ_ne_zero n), ← hc])
      by_cases hn : n = 0
      · rw [if_pos hn] at hpair
        exact (hpair.2 hc).resolve_left hprevious
      · exact hbegun hn
    · have hrun : ∀ d ∈ underscoreRuns.run n previous c, d.canOpen = false := by
        refine canOpen_of_mem_run hbegun fun hn => ?_
        rw [if_neg hn] at hpair
        exact (hpair.1 rfl).resolve_left hc
      have hrest := @ih c 0 (absurd rfl) hc hchain
      intro d hd
      exact (List.mem_append.mp hd).elim (hrun d) (hrest d)

/-- **A reference keeps its underscores if all of them stand inside of words.** -/
theorem keepsUnderscores_of_inWord {ref : List Char} (h : List.IsChain InWord ('*' :: (ref ++ ['*']))) :
    KeepsUnderscores ref := by
  refine List.pairwise_of_forall_mem_list fun d hd e _ => not_emphasizes_of_not_canOpen ?_ e
  exact @canOpen_of_mem_underscoreRuns '*' 0 ref (absurd rfl) (by decide) h d hd

/-- A reference between stars. -/
structure IsReference (ref : List Char) : Prop where
  ne_nil : ref ≠ []
  chars : ∀ c ∈ ref, isPlain c = true ∨ c = '_'
  noBlank : ∀ c ∈ ref, isBlank c = false

theorem reads_strong (defined : List Char → Bool) {ref : List Char} (href : IsReference ref) (rest : List Char) :
    ∃ ns, delimiters ns = underscoreRuns '*' 0 ref ∧ ns.flatMap Node.chars = ref ∧
      Reads defined {} ('*' :: '*' :: (ref ++ '*' :: '*' :: ' ' :: rest))
        (Reading.extend {} (.delimiter ⟨'*', 2, 2, true, false⟩ :: ns ++ [.delimiter ⟨'*', 2, 2, false, true⟩]) '*')
        (' ' :: rest) := by
  obtain ⟨c, cs, hcs⟩ := List.exists_cons_of_ne_nil href.ne_nil
  have hstar : c ≠ '*' := by
    rcases href.chars c (by simp [hcs]) with hc | rfl
    · exact ne_of_isPlain hc (by decide)
    · decide
  have hopen : Delimiter.between '*' 2 '\n' ((ref ++ '*' :: '*' :: ' ' :: rest).head?.getD '\n') =
      ⟨'*', 2, 2, true, false⟩ := by
    rw [Delimiter.between, hcs, List.cons_append, List.head?_cons, Option.getD_some,
      flanking_opening (href.noBlank c (by simp [hcs]))]
  have hlast : isBlank (ref.getLast?.getD '*') = false := by
    rw [List.getLast?_eq_some_getLast href.ne_nil]
    exact href.noBlank _ (List.getLast_mem _)
  have hstart := reads_run defined {} (.inl rfl) (Nat.succ_ne_zero 1)
    (show (ref ++ '*' :: '*' :: ' ' :: rest).head? ≠ some '*' by simpa [hcs] using hstar)
  obtain ⟨ns, hruns, hchars, hreads⟩ := readsRuns defined
    (Reading.extend {} [.delimiter ⟨'*', 2, 2, true, false⟩] '*') href.chars
    (show ('*' :: '*' :: ' ' :: rest).head? = some '*' from rfl)
  have hend := reads_run defined (Reading.extend {} (.delimiter ⟨'*', 2, 2, true, false⟩ :: ns)
    (ref.getLast?.getD '*')) (.inl rfl) (Nat.succ_ne_zero 1) (show (' ' :: rest).head? ≠ some '*' by simp)
  have hclose : Delimiter.between '*' 2 (ref.getLast?.getD '*') ((' ' :: rest).head?.getD '\n') =
      ⟨'*', 2, 2, false, true⟩ := by
    rw [Delimiter.between, List.head?_cons, Option.getD_some, flanking_closing hlast]
  refine ⟨ns, hruns, hchars, ?_⟩
  rw [show (({} : Reading).previous) = '\n' from rfl, hopen] at hstart
  rw [Reading.extend_extend] at hreads
  rw [Reading.extend_extend] at hend
  exact (hstart.trans hreads).trans (hclose ▸ hend)

/-- What stands behind the mark of a heading: nothing, or words behind a blank. -/
def IsTail (cs : List Char) : Prop := cs = [] ∨ ∃ ws, cs = ' ' :: ws ∧ ∀ c ∈ ws, isPlain c = true

theorem IsTail.backtick_notMem {cs : List Char} (h : IsTail cs) : '\x60' ∉ cs := by
  rcases h with rfl | ⟨ws, rfl, hws⟩
  · simp
  · intro hmem
    rcases List.mem_cons.mp hmem with hmem | hmem
    · exact absurd hmem (by decide)
    · exact ne_of_isPlain (hws _ hmem) (by decide) rfl

theorem reads_tail (defined : List Char → Bool) (r : Reading) {tail : List Char} (h : IsTail tail) :
    ∃ ns previous, delimiters ns = [] ∧ ns.flatMap Node.chars = tail ∧
      Reads defined r tail (r.extend ns previous) [] := by
  rcases h with rfl | ⟨ws, rfl, hws⟩
  · exact ⟨[], r.previous, rfl, rfl, Reads.refl _ _⟩
  · exact reads_words defined r hws

theorem reads_behind_stars (defined : List Char → Bool) (r : Reading) {dotted tail : List Char}
    (hdotted : Enclosable dotted) (htail : IsTail tail) :
    ∃ ns previous, delimiters ns = [] ∧
      ns.flatMap Node.chars = ' ' :: '\x60' :: (codeContent dotted ++ '\x60' :: tail) ∧
      Reads defined r (' ' :: '\x60' :: (dotted ++ '\x60' :: tail)) (r.extend ns previous) [] := by
  have hblank := reads_blank defined r
    (show ∀ c, ('\x60' :: (dotted ++ '\x60' :: tail)).head? = some c → isSpace c = false by simp; decide)
  obtain ⟨n, hn, hncode, hcode⟩ := reads_enclosed defined (r.extend [.span (.text [' '])] ' ') hdotted
    htail.backtick_notMem
  obtain ⟨ms, previous, hms, hmschars, hend⟩ :=
    reads_tail defined ((r.extend [.span (.text [' '])] ' ').extend [n] '\x60') htail
  have hall := (hblank.trans hcode).trans hend
  rw [Reading.extend_extend, Reading.extend_extend] at hall
  refine ⟨_, previous, ?_, ?_, hall⟩
  · rw [delimiters_append, delimiters_append, hn, hms]
    rfl
  · have hspace : Node.chars (.span (.text [' '])) = [' '] := rfl
    rw [List.flatMap_append, List.flatMap_append, List.flatMap_singleton, List.flatMap_singleton, hspace, hncode,
      hmschars]
    simp

def headingChars (ref dotted tail : List Char) : List Char :=
  '*' :: '*' :: (ref ++ '*' :: '*' :: ' ' :: '\x60' :: (dotted ++ '\x60' :: tail))

/-- The characters of a heading without its stars. -/
def shownHeading (ref dotted tail : List Char) : List Char := ref ++ ' ' :: '\x60' :: (dotted ++ '\x60' :: tail)

/-- **What a heading shows**: its reference as emphasis leaves it, its path as code, and the rest. -/
theorem chars_spans_heading (defined : List Char → Bool) {ref dotted tail : List Char} (href : IsReference ref)
    (hdotted : Enclosable dotted) (htail : IsTail tail) :
    ∃ ns, delimiters ns = underscoreRuns '*' 0 ref ∧ ns.flatMap Node.chars = ref ∧
      (spans defined (headingChars ref dotted tail)).flatMap Span.chars =
        (matchRuns [] ns).reverse.flatMap Node.chars ++ ' ' :: '\x60' :: (codeContent dotted ++ '\x60' :: tail) := by
  obtain ⟨ns, hruns, hchars, hstrong⟩ := reads_strong defined href ('\x60' :: (dotted ++ '\x60' :: tail))
  obtain ⟨ms, previous, hms, hmschars, hbehind⟩ := reads_behind_stars defined
    (Reading.extend {} (.delimiter ⟨'*', 2, 2, true, false⟩ :: ns ++ [.delimiter ⟨'*', 2, 2, false, true⟩]) '*')
    hdotted htail
  have hall := hstrong.trans hbehind
  rw [Reading.extend_extend] at hall
  have hunderscores : ∀ d ∈ delimiters ns, d.char = '_' := fun d hd => (of_mem_underscoreRuns (hruns ▸ hd)).1
  have hresolve := chars_resolve_strong hunderscores hms
  rw [hmschars] at hresolve
  refine ⟨ns, hruns, hchars, ?_⟩
  rw [spans, headingChars, hall.finish, List.flatMap_map]
  simp only [Reading.extend, List.append_nil, List.reverse_reverse, List.append_assoc, List.cons_append,
    List.nil_append] at hresolve ⊢
  exact hresolve

/-! ## What is lost -/

/-- A text with a blank at both ends and something else between. -/
def Padded (cs : List Char) : Prop := cs.head? = some ' ' ∧ cs.getLast? = some ' ' ∧ ∃ c ∈ cs, c ≠ ' '

instance (cs : List Char) : Decidable (Padded cs) := inferInstanceAs (Decidable (_ ∧ _ ∧ _))

theorem codeContent_eq {cs : List Char} (hline : '\n' ∉ cs) :
    codeContent cs = if Padded cs then cs.tail.dropLast else cs := by
  have hmap : cs.map (fun c => if c = '\n' then ' ' else c) = cs := by
    rw [List.map_congr_left (g := id), List.map_id]
    intro c hc
    have hne : c ≠ '\n' := fun heq => hline (heq ▸ hc)
    exact if_neg hne
  have hall : cs.all (· == ' ') = true ↔ ¬∃ c ∈ cs, c ≠ ' ' := by simp
  rw [codeContent, hmap]
  by_cases hblank : cs.all (· == ' ') = true
  · rw [if_pos hblank, if_neg fun h => hall.mp hblank h.2.2]
  · rw [if_neg hblank]
    have hsome : ∃ c ∈ cs, c ≠ ' ' := not_not.mp (mt hall.mpr hblank)
    split
    · rename_i rest hlast
      rw [if_pos ⟨rfl, hlast, hsome⟩, List.tail_cons]
    · rename_i hmatch
      rw [if_neg]
      rintro ⟨hhead, hlast, -⟩
      obtain ⟨rest, rfl⟩ := List.head?_eq_some_iff.mp hhead
      exact hmatch rest rfl hlast

theorem codeContent_eq_iff {cs : List Char} (hline : '\n' ∉ cs) :
    (codeContent cs = cs ↔ ¬Padded cs) ∧ (codeContent cs).length ≤ cs.length := by
  rw [codeContent_eq hline]
  by_cases hpadded : Padded cs
  · have hne : cs ≠ [] := by
      rintro rfl
      exact absurd hpadded.1 (by simp)
    have hlength : cs.tail.dropLast.length < cs.length := by
      rw [List.length_dropLast, List.length_tail]
      have := List.length_pos_of_ne_nil hne
      omega
    rw [if_pos hpadded]
    exact ⟨iff_of_false (fun h => absurd (congrArg List.length h) hlength.ne) (not_not_intro hpadded), hlength.le⟩
  · rw [if_neg hpadded]
    exact ⟨iff_of_true rfl hpadded, le_refl _⟩

theorem chars_reference_eq_iff {ref : List Char} {ns : List Node} (hruns : delimiters ns = underscoreRuns '*' 0 ref)
    (hchars : ns.flatMap Node.chars = ref) :
    ((matchRuns [] ns).reverse.flatMap Node.chars = ref ↔ KeepsUnderscores ref) ∧
      ((matchRuns [] ns).reverse.flatMap Node.chars).length ≤ ref.length := by
  have hcount : ∀ d ∈ delimiters ns, d.count ≠ 0 := fun d hd => (of_mem_underscoreRuns (hruns ▸ hd)).2
  have hwidth : ((matchRuns [] ns).reverse.flatMap Node.chars).length = width (matchRuns [] ns) := width_reverse _
  have href : width [] + width ns = ref.length := by rw [← hchars]; exact Nat.zero_add _
  have hemphasis : MakesEmphasis (delimiters []) (delimiters ns) ↔ ¬KeepsUnderscores ref := by
    rw [hruns, KeepsUnderscores, makesEmphasis_iff]
    simp [delimiters]
  by_cases hkeeps : KeepsUnderscores ref
  · have hall := chars_matchRuns [] hcount (mt hemphasis.mp (not_not_intro hkeeps))
    rw [hchars] at hall
    exact ⟨iff_of_true hall hkeeps, (congrArg List.length hall).le⟩
  · have hless := width_matchRuns_lt [] hcount (hemphasis.mpr hkeeps)
    rw [href, ← hwidth] at hless
    exact ⟨iff_of_false (fun h => absurd (congrArg List.length h) hless.ne) hkeeps, hless.le⟩

/-- **A heading is shown as it is exactly if the reference keeps its underscores and the path its blanks**, and else
there is less of it. -/
theorem chars_spans_heading_iff (defined : List Char → Bool) {ref dotted tail : List Char} (href : IsReference ref)
    (hdotted : Enclosable dotted) (hline : '\n' ∉ dotted) (htail : IsTail tail) :
    ((spans defined (headingChars ref dotted tail)).flatMap Span.chars = shownHeading ref dotted tail ↔
        KeepsUnderscores ref ∧ ¬Padded dotted) ∧
      ((spans defined (headingChars ref dotted tail)).flatMap Span.chars).length ≤
        (shownHeading ref dotted tail).length := by
  obtain ⟨ns, hruns, hchars, hspans⟩ := chars_spans_heading defined href hdotted htail
  obtain ⟨href, hreflength⟩ := chars_reference_eq_iff hruns hchars
  obtain ⟨hcode, hcodelength⟩ := codeContent_eq_iff hline
  rw [hspans, ← href, ← hcode, shownHeading]
  refine ⟨⟨fun h => ?_, ?_⟩, ?_⟩
  · -- neither part is longer than what it shows, so both have its length
    have hlength := congrArg List.length h
    simp only [List.length_append, List.length_cons] at hlength
    obtain ⟨href, hrest⟩ := List.append_inj h (by omega)
    obtain ⟨hcode, -⟩ := List.append_inj (List.cons.inj (List.cons.inj hrest).2).2 (by omega)
    exact ⟨href, hcode⟩
  · rintro ⟨href, hcode⟩
    rw [href, hcode]
  · simp only [List.length_append, List.length_cons]
    omega

end ChartValues.Markdown
