import ChartValues.Proofs.Markdown.Emphasis
import ChartValues.Proofs.Text.Run

/-!
# Reading text of paragraphs

Reading goes from one place of a text to the next with more nodes (`Reads`): over plain characters, runs of delimiters
and code between single backticks.
-/

namespace ChartValues.Markdown

open Text

variable {defined : List Char → Bool}

/-- Reading goes from one place to another, whatever fuel there is as long as it is enough. -/
def Reads (defined : List Char → Bool) (r : Reading) (cs : List Char) (r' : Reading) (cs' : List Char) : Prop :=
  ∀ fuel, cs.length < fuel → ∃ fuel', cs'.length < fuel' ∧ read defined fuel r cs = read defined fuel' r' cs'

def Reading.extend (r : Reading) (ns : List Node) (previous : Char) : Reading :=
  { r with nodes := ns.reverse ++ r.nodes, previous }

namespace Reads

variable {r r' r'' : Reading} {c : Char} {cs cs' cs'' : List Char}

theorem refl (r : Reading) (cs : List Char) : Reads defined r cs r cs := fun fuel h => ⟨fuel, h, rfl⟩

theorem trans (h : Reads defined r cs r' cs') (h' : Reads defined r' cs' r'' cs'') : Reads defined r cs r'' cs'' := by
  intro fuel hfuel
  obtain ⟨fuel', hfuel', heq⟩ := h fuel hfuel
  obtain ⟨fuel'', hfuel'', heq'⟩ := h' fuel' hfuel'
  exact ⟨fuel'', hfuel'', heq.trans heq'⟩

theorem step (hlength : cs'.length ≤ cs.length)
    (h : ∀ fuel, read defined (fuel + 1) r (c :: cs) = read defined fuel r' cs') :
    Reads defined r (c :: cs) r' cs' := by
  intro fuel hfuel
  obtain ⟨fuel, rfl⟩ : ∃ n, fuel = n + 1 := ⟨fuel - 1, by omega⟩
  refine ⟨fuel, ?_, h fuel⟩
  rw [List.length_cons] at hfuel
  omega

theorem finish (h : Reads defined r cs r' []) : read defined (cs.length + 1) r cs = r' := by
  obtain ⟨fuel, -, heq⟩ := h _ (Nat.lt_succ_self _)
  rw [heq]
  cases fuel <;> rfl

end Reads

theorem Reading.extend_extend (r : Reading) (ns ms : List Node) (c d : Char) :
    (r.extend ns c).extend ms d = r.extend (ns ++ ms) d := by
  simp [extend]

theorem getLast?_getD_append (cs ds : List Char) (c : Char) :
    ds.getLast?.getD (cs.getLast?.getD c) = (cs ++ ds).getLast?.getD c := by
  rw [List.getLast?_append]
  cases ds.getLast? <;> rfl

/-! ## Plain text -/

/-- A character that shows itself, whatever stands around it. -/
def isPlain (c : Char) : Bool := !"\\\x60<&*_![]\n\x00".toList.contains c && !isSpace c

theorem ne_of_isPlain {c d : Char} (hc : isPlain c = true) (hd : isPlain d = false) : c ≠ d := by
  rintro rfl
  rw [hc] at hd
  exact Bool.noConfusion hd

theorem read_plain (defined : List Char → Bool) {c : Char} (hc : isPlain c = true) (fuel : Nat) (r : Reading)
    (cs : List Char) :
    let plain := cs.takeWhile Char.isAlphanum
    read defined (fuel + 1) r (c :: cs) =
      read defined fuel (r.pushText (c :: plain) (plain.getLast?.getD c)) (cs.drop plain.length) := by
  have hspace : isSpace c = false := by
    simp only [isPlain, Bool.and_eq_true, Bool.not_eq_true'] at hc
    exact hc.2
  rw [read.eq_def]
  dsimp only
  rw [if_neg (ne_of_isPlain hc (by decide)), if_neg (ne_of_isPlain hc (by decide)),
    if_neg (ne_of_isPlain hc (by decide)), if_neg (ne_of_isPlain hc (by decide)),
    if_neg (not_or.mpr ⟨ne_of_isPlain hc (by decide), ne_of_isPlain hc (by decide)⟩),
    if_neg (fun h => ne_of_isPlain hc (by decide) h.1), if_neg (ne_of_isPlain hc (by decide)),
    if_neg (ne_of_isPlain hc (by decide)), if_neg (ne_of_isPlain hc (by decide)),
    if_neg (ne_of_isPlain hc (by decide)), if_neg (by simp [hspace])]

/-- **Plain characters are read as text that shows them.** -/
theorem reads_plain (defined : List Char → Bool) (r : Reading) {cs rest : List Char} (hcs : ∀ c ∈ cs, isPlain c = true)
    (hrest : ∀ c, rest.head? = some c → c.isAlphanum = false) :
    ∃ ns, delimiters ns = [] ∧ ns.flatMap Node.chars = cs ∧
      Reads defined r (cs ++ rest) (r.extend ns (cs.getLast?.getD r.previous)) rest := by
  induction hlength : cs.length using Nat.strongRecOn generalizing r cs with
  | ind n ih =>
    cases cs with
    | nil => exact ⟨[], rfl, rfl, Reads.refl _ _⟩
    | cons c cs =>
      obtain ⟨hc, hcs⟩ := List.forall_mem_cons.mp hcs
      obtain ⟨run, more, rfl, hrun, hmore⟩ := exists_run Char.isAlphanum cs
      have hstop : ∀ d, (more ++ rest).head? = some d → d.isAlphanum = false := by
        cases more with
        | nil => exact hrest
        | cons d more => exact hmore
      have hread : Reads defined r (c :: (run ++ more) ++ rest)
          (r.extend [.span (.text (c :: run))] (run.getLast?.getD c)) (more ++ rest) := by
        rw [List.cons_append, List.append_assoc]
        refine Reads.step (by simp) fun fuel => ?_
        rw [read_plain defined hc, (takeWhile_run hrun hstop).1, List.drop_left]
        rfl
      have hshorter : more.length < n := by
        rw [← hlength, List.length_cons, List.length_append]
        omega
      obtain ⟨ns, hdelimiters, hchars, hreads⟩ := ih more.length hshorter
        (r.extend [.span (.text (c :: run))] (run.getLast?.getD c))
        (fun d hd => hcs d (List.mem_append_right _ hd)) rfl
      refine ⟨.span (.text (c :: run)) :: ns, hdelimiters, ?_, ?_⟩
      · rw [List.flatMap_cons, hchars]
        rfl
      · have hlast : more.getLast?.getD (run.getLast?.getD c) = (c :: (run ++ more)).getLast?.getD r.previous := by
          rw [← List.cons_append, ← getLast?_getD_append, List.getLast?_cons]
          rfl
        rw [Reading.extend_extend] at hreads
        rw [← hlast]
        exact hread.trans hreads

/-! ## Runs of delimiters -/

/-- The run of `n` characters `c` between two others. -/
def Delimiter.between (c : Char) (n : Nat) (before after : Char) : Delimiter :=
  ⟨c, n, n, (flanking c before after).1, (flanking c before after).2⟩

theorem reads_run (defined : List Char → Bool) (r : Reading) {c : Char} (hc : c = '*' ∨ c = '_') {n : Nat}
    (hn : n ≠ 0) {rest : List Char} (hrest : rest.head? ≠ some c) :
    Reads defined r (List.replicate n c ++ rest)
      (r.extend [.delimiter (.between c n r.previous (rest.head?.getD '\n'))] c) rest := by
  obtain ⟨k, rfl⟩ := Nat.exists_eq_succ_of_ne_zero hn
  have hrun := takeWhile_replicate (k + 1) hrest
  rw [List.replicate_succ, List.cons_append] at hrun ⊢
  refine Reads.step (by simp) fun fuel => ?_
  rw [read.eq_def]
  dsimp only
  rw [hrun, ← List.cons_append, List.drop_left, List.length_cons, List.length_replicate]
  rcases hc with rfl | rfl <;> rfl

/-- The runs of underscores in a text behind `previous` and before a star, where `n` underscores have been read. -/
def underscoreRuns (previous : Char) : Nat → List Char → List Delimiter
  | n, [] => run n previous '*'
  | n, c :: cs => if c = '_' then underscoreRuns previous (n + 1) cs else run n previous c ++ underscoreRuns c 0 cs
where
  /-- The run of `n` underscores, if there are any. -/
  run (n : Nat) (before after : Char) : List Delimiter := if n = 0 then [] else [.between '_' n before after]

theorem underscoreRuns_replicate (previous : Char) (n k : Nat) (cs : List Char) :
    underscoreRuns previous n (List.replicate k '_' ++ cs) = underscoreRuns previous (n + k) cs := by
  induction k generalizing n with
  | zero => rfl
  | succ k ih => rw [List.replicate_succ, List.cons_append, underscoreRuns, if_pos rfl, ih, Nat.add_right_comm]; rfl

theorem underscoreRuns_of_head {cs : List Char} (h : cs.head? ≠ some '_') (previous previous' : Char) (n : Nat) :
    underscoreRuns previous n cs =
      underscoreRuns.run n previous (cs.head?.getD '*') ++ underscoreRuns previous' 0 cs := by
  cases cs with
  | nil => simp [underscoreRuns, underscoreRuns.run]
  | cons c cs =>
    have hc : c ≠ '_' := by simpa using h
    rw [underscoreRuns, underscoreRuns, if_neg hc, if_neg hc]
    rfl

theorem underscoreRuns_append {ws : List Char} (hws : ∀ c ∈ ws, c ≠ '_') (previous : Char) (cs : List Char) :
    underscoreRuns previous 0 (ws ++ cs) = underscoreRuns (ws.getLast?.getD previous) 0 cs := by
  induction ws generalizing previous with
  | nil => rfl
  | cons c ws ih =>
    obtain ⟨hc, hws⟩ := List.forall_mem_cons.mp hws
    rw [List.cons_append, underscoreRuns, if_neg hc, ih hws, List.getLast?_cons]
    rfl

theorem of_mem_underscoreRuns {previous : Char} {n : Nat} {cs : List Char} {d : Delimiter}
    (h : d ∈ underscoreRuns previous n cs) : d.char = '_' ∧ d.count ≠ 0 := by
  have hrun : ∀ {n before after}, d ∈ underscoreRuns.run n before after → d.char = '_' ∧ d.count ≠ 0 := by
    intro n before after h
    rw [underscoreRuns.run] at h
    split_ifs at h with hn
    · cases h
    · rw [List.mem_singleton.mp h]
      exact ⟨rfl, hn⟩
  induction cs generalizing previous n with
  | nil => exact hrun h
  | cons c cs ih =>
    rw [underscoreRuns] at h
    split_ifs at h
    · exact ih h
    · rcases List.mem_append.mp h with h | h
      · exact hrun h
      · exact ih h

/-- A text before a star is read as nodes that show it, and whose delimiters are its runs of underscores. -/
def ReadsRuns (defined : List Char → Bool) (r : Reading) (cs rest : List Char) : Prop :=
  ∃ ns, delimiters ns = underscoreRuns r.previous 0 cs ∧ ns.flatMap Node.chars = cs ∧
    Reads defined r (cs ++ rest) (r.extend ns (cs.getLast?.getD r.previous)) rest

section runs
variable {r : Reading} {more rest : List Char}

theorem ReadsRuns.append {run : List Char} {ns : List Node} (hchars : ns.flatMap Node.chars = run)
    (hruns : delimiters ns ++ underscoreRuns (run.getLast?.getD r.previous) 0 more =
      underscoreRuns r.previous 0 (run ++ more))
    (hreads : Reads defined r (run ++ (more ++ rest)) (r.extend ns (run.getLast?.getD r.previous)) (more ++ rest))
    (h : ReadsRuns defined (r.extend ns (run.getLast?.getD r.previous)) more rest) :
    ReadsRuns defined r (run ++ more) rest := by
  obtain ⟨ms, hruns', hchars', hreads'⟩ := h
  refine ⟨ns ++ ms, ?_, ?_, ?_⟩
  · rw [delimiters_append, hruns', ← hruns]
    rfl
  · rw [List.flatMap_append, hchars, hchars']
  · rw [Reading.extend_extend] at hreads'
    rw [← getLast?_getD_append, List.append_assoc]
    exact hreads.trans hreads'

theorem readsRuns_plain {ws : List Char} (hws : ∀ c ∈ ws, isPlain c = true)
    (hhead : ∀ c, (more ++ rest).head? = some c → c.isAlphanum = false)
    (h : ∀ ns, ReadsRuns defined (r.extend ns (ws.getLast?.getD r.previous)) more rest) :
    ReadsRuns defined r (ws ++ more) rest := by
  obtain ⟨ns, hdelimiters, hchars, hreads⟩ := reads_plain defined r hws hhead
  refine .append hchars ?_ hreads (h ns)
  rw [hdelimiters, underscoreRuns_append fun c hc => ne_of_isPlain (hws c hc) (by decide)]
  rfl

theorem readsRuns_run {k : Nat} (hk : k ≠ 0) (hmore : more.head? ≠ some '_') (hrest : rest.head? = some '*')
    (h : ∀ ns, ReadsRuns defined (r.extend ns '_') more rest) :
    ReadsRuns defined r (List.replicate k '_' ++ more) rest := by
  have hlast : (List.replicate k '_').getLast?.getD r.previous = '_' := by
    simp [List.getLast?_replicate, hk]
  have hstop : (more ++ rest).head? ≠ some '_' := by
    cases more with
    | nil => simp [hrest]
    | cons c more => exact hmore
  have hafter : (more ++ rest).head?.getD '\n' = more.head?.getD '*' := by
    cases more with
    | nil => simp [hrest]
    | cons c more => rfl
  have hreads := reads_run defined r (.inr rfl) hk hstop
  rw [hafter] at hreads
  refine @ReadsRuns.append _ r more rest _ [.delimiter (.between '_' k r.previous (more.head?.getD '*'))] ?_ ?_ ?_ ?_
  · rw [List.flatMap_singleton]
    rfl
  · rw [hlast, underscoreRuns_replicate, Nat.zero_add, underscoreRuns_of_head hmore r.previous '_' k,
      underscoreRuns.run, if_neg hk]
    rfl
  · rwa [hlast]
  · rw [hlast]
    exact h _

end runs

/-- **Plain characters and underscores are read as text and the runs of underscores.** -/
theorem readsRuns (defined : List Char → Bool) (r : Reading) {cs rest : List Char}
    (hcs : ∀ c ∈ cs, isPlain c = true ∨ c = '_') (hrest : rest.head? = some '*') : ReadsRuns defined r cs rest := by
  induction hlength : cs.length using Nat.strongRecOn generalizing r cs with
  | ind n ih =>
    cases cs with
    | nil => exact ⟨[], rfl, rfl, Reads.refl _ _⟩
    | cons c cs =>
      have hshorter : ∀ {run more : List Char}, c :: cs = run ++ more → run ≠ [] →
          ∀ r, ReadsRuns defined r more rest := by
        intro run more hsplit hne r
        refine ih more.length ?_ r (fun d hd => hcs d (hsplit ▸ List.mem_append_right _ hd)) rfl
        have hpos := List.length_pos_of_ne_nil hne
        rw [← hlength, hsplit, List.length_append]
        omega
      rcases hcs c List.mem_cons_self with hc | rfl
      · obtain ⟨ws, more, hsplit, hws, hmore⟩ := exists_run isPlain (c :: cs)
        have hne : ws ≠ [] := by
          rintro rfl
          rw [List.nil_append] at hsplit
          simp [hmore c (by rw [← hsplit]; rfl)] at hc
        have hhead : ∀ d, (more ++ rest).head? = some d → d.isAlphanum = false := by
          cases more with
          | nil => simp [hrest]
          | cons d more =>
            have hd := (hcs d (by simp [hsplit])).resolve_left (by simp [hmore d rfl])
            simp [hd]
        rw [hsplit]
        exact readsRuns_plain hws hhead fun ns => hshorter hsplit hne _
      · obtain ⟨k, more, hsplit, hmore, hk⟩ := exists_replicate '_' ('_' :: cs)
        rw [hsplit]
        exact readsRuns_run (hk rfl) hmore hrest fun ns => hshorter hsplit (by simp [hk rfl]) _

/-! ## Code -/

def NoLoneBacktick (cs : List Char) : Prop :=
  ∀ before after, cs = before ++ '\x60' :: after → before.getLast? = some '\x60' ∨ after.head? = some '\x60'

/-- A text in which single backticks can stand around it: no backtick alone, and none at the ends. -/
structure Enclosable (cs : List Char) : Prop where
  head : cs.head? ≠ some '\x60'
  last : cs.getLast? ≠ some '\x60'
  noLone : NoLoneBacktick cs

theorem NoLoneBacktick.of_not_mem {cs : List Char} (h : '\x60' ∉ cs) : NoLoneBacktick cs := by
  rintro before after rfl
  exact absurd (List.mem_append_right _ List.mem_cons_self) h

theorem NoLoneBacktick.of_append {run more : List Char} (h : NoLoneBacktick (run ++ more))
    (hstop : run.getLast? ≠ some '\x60' ∨ more.head? ≠ some '\x60') : NoLoneBacktick more := by
  rintro before after rfl
  have hlone := h (run ++ before) after (by rw [List.append_assoc])
  rw [List.getLast?_append] at hlone
  cases hlast : before.getLast? with
  | some c => rwa [hlast] at hlone
  | none =>
    rw [List.getLast?_eq_none_iff] at hlast
    subst hlast
    exact .inr (hlone.resolve_left (hstop.resolve_right (by simp)))

theorem NoLoneBacktick.of_run {k : Nat} {more : List Char} (h : NoLoneBacktick (List.replicate k '\x60' ++ more))
    (hlast : (List.replicate k '\x60' ++ more).getLast? ≠ some '\x60') (hk : k ≠ 0)
    (hstop : more.head? ≠ some '\x60') : k ≠ 1 ∧ more ≠ [] := by
  constructor
  · rintro rfl
    exact (h [] more rfl).elim (by simp) hstop
  · rintro rfl
    rw [List.append_nil, List.getLast?_replicate, if_neg hk] at hlast
    exact hlast rfl

theorem codeEnd_backticks (count fuel : Nat) (acc : List Char) {k : Nat} (hk : k ≠ 0) {rest : List Char}
    (hrest : rest.head? ≠ some '\x60') :
    codeEnd count (fuel + 1) acc (List.replicate k '\x60' ++ rest) =
      if k = count then some (acc.reverse, rest) else codeEnd count fuel (List.replicate k '\x60' ++ acc) rest := by
  obtain ⟨k, rfl⟩ := Nat.exists_eq_succ_of_ne_zero hk
  have hrun := takeWhile_replicate (k + 1) hrest
  rw [List.replicate_succ, List.cons_append] at hrun
  rw [List.replicate_succ, List.cons_append, codeEnd.eq_def]
  dsimp only
  rw [if_pos rfl, hrun, ← List.cons_append, List.drop_left, List.length_cons, List.length_replicate]
  rfl

theorem codeEnd_char {c : Char} (hc : c ≠ '\x60') (count fuel : Nat) (acc cs : List Char) :
    codeEnd count (fuel + 1) acc (c :: cs) = codeEnd count fuel (c :: acc) cs := by
  rw [codeEnd.eq_def]
  dsimp only
  rw [if_neg hc]

/-- **Code goes up to the next single backtick.** -/
theorem codeEnd_enclosed {cs rest : List Char} (hlast : cs.getLast? ≠ some '\x60') (hlone : NoLoneBacktick cs)
    (hrest : rest.head? ≠ some '\x60') (acc : List Char) {fuel : Nat} (hfuel : cs.length < fuel) :
    codeEnd 1 fuel acc (cs ++ '\x60' :: rest) = some (acc.reverse ++ cs, rest) := by
  induction hlength : cs.length using Nat.strongRecOn generalizing cs acc fuel with
  | ind n ih =>
    obtain ⟨fuel, rfl⟩ : ∃ n, fuel = n + 1 := ⟨fuel - 1, by omega⟩
    have hmore : ∀ {run more : List Char}, cs = run ++ more → run ≠ [] →
        run.getLast? ≠ some '\x60' ∨ more.head? ≠ some '\x60' →
        codeEnd 1 fuel (run.reverse ++ acc) (more ++ '\x60' :: rest) = some (acc.reverse ++ cs, rest) := by
      intro run more hsplit hne hstop
      have hpos := List.length_pos_of_ne_nil hne
      have hshorter : more.length < n ∧ more.length < fuel := by
        rw [hsplit, List.length_append] at hlength hfuel
        omega
      have hend := ih more.length hshorter.1 ?_ ((hsplit ▸ hlone).of_append hstop) (run.reverse ++ acc) hshorter.2 rfl
      · rw [hend, hsplit, List.reverse_append, List.reverse_reverse, List.append_assoc]
      · intro h
        rw [hsplit, List.getLast?_append, h] at hlast
        exact hlast rfl
    cases cs with
    | nil =>
      have hend := codeEnd_backticks 1 fuel acc Nat.one_ne_zero hrest
      rw [if_pos rfl] at hend
      rw [List.append_nil]
      exact hend
    | cons c cs =>
      by_cases hc : c = '\x60'
      · obtain ⟨k, more, hsplit, hstop, hk⟩ := exists_replicate '\x60' (c :: cs)
        replace hk : k ≠ 0 := hk (congrArg some hc)
        obtain ⟨hone, hne⟩ := (hsplit ▸ hlone).of_run (hsplit ▸ hlast) hk hstop
        have hbehind : (more ++ '\x60' :: rest).head? ≠ some '\x60' := by
          rwa [List.head?_append_of_ne_nil _ hne]
        have hend := hmore hsplit (by simp [hk]) (.inr hstop)
        rw [List.reverse_replicate] at hend
        rw [← hend, hsplit, List.append_assoc, codeEnd_backticks 1 fuel acc hk hbehind, if_neg hone]
      · rw [List.cons_append, codeEnd_char hc]
        exact @hmore [c] cs rfl (by simp) (.inl (by simpa using hc))

theorem codeEnd_eq_none {cs : List Char} (h : '\x60' ∉ cs) (count fuel : Nat) (acc : List Char) :
    codeEnd count fuel acc cs = none := by
  induction cs generalizing fuel acc with
  | nil => cases fuel <;> rfl
  | cons c cs ih =>
    obtain ⟨hc, hcs⟩ := not_or.mp (mt List.mem_cons.mpr h)
    cases fuel with
    | zero => rfl
    | succ fuel => rw [codeEnd_char (Ne.symm hc), ih hcs]

theorem reads_opening (defined : List Char → Bool) (r : Reading) {k : Nat} (hk : k ≠ 0) {cs : List Char}
    (hcs : cs.head? ≠ some '\x60') :
    (∀ content rest, rest.length ≤ cs.length → codeEnd k (cs.length + 1) [] cs = some (content, rest) →
      Reads defined r (List.replicate k '\x60' ++ cs) (r.extend [.span (.code (codeContent content))] '\x60') rest) ∧
    (codeEnd k (cs.length + 1) [] cs = none →
      Reads defined r (List.replicate k '\x60' ++ cs)
        (r.extend [.span (.text (List.replicate k '\x60'))] '\x60') cs) := by
  obtain ⟨k, rfl⟩ := Nat.exists_eq_succ_of_ne_zero hk
  have hrun := takeWhile_replicate (k + 1) hcs
  rw [List.replicate_succ, List.cons_append] at hrun ⊢
  refine ⟨fun content rest hlength hend => Reads.step ?shorter fun fuel => ?code,
    fun hend => Reads.step ?behind fun fuel => ?text⟩
  case shorter =>
    rw [List.length_append]
    omega
  case behind => simp
  case code | text =>
    rw [read.eq_def]
    dsimp only
    rw [if_neg (by decide), if_pos rfl, hrun, ← List.cons_append, List.drop_left, List.length_cons,
      List.length_replicate, hend]
    rfl

/-- **Code between single backticks is read as code.** -/
theorem reads_code (defined : List Char → Bool) (r : Reading) {cs rest : List Char} (hne : cs ≠ [])
    (hcs : Enclosable cs) (hrest : rest.head? ≠ some '\x60') :
    Reads defined r ('\x60' :: (cs ++ '\x60' :: rest)) (r.extend [.span (.code (codeContent cs))] '\x60') rest := by
  have hhead : (cs ++ '\x60' :: rest).head? ≠ some '\x60' := by
    rw [List.head?_append_of_ne_nil _ hne]
    exact hcs.head
  have hlength : (cs ++ '\x60' :: rest).length = cs.length + rest.length + 1 := by
    rw [List.length_append, List.length_cons, Nat.add_assoc]
  exact (reads_opening defined r Nat.one_ne_zero hhead).1 cs rest (by omega)
    (codeEnd_enclosed hcs.last hcs.noLone hrest [] (by omega))

theorem reads_backticks (defined : List Char → Bool) (r : Reading) {rest : List Char} (hrest : '\x60' ∉ rest) :
    Reads defined r ('\x60' :: '\x60' :: rest) (r.extend [.span (.text ['\x60', '\x60'])] '\x60') rest :=
  (reads_opening defined r (Nat.succ_ne_zero 1) fun h => hrest (List.mem_of_mem_head? h)).2
    (codeEnd_eq_none hrest _ _ _)

theorem reads_enclosed (defined : List Char → Bool) (r : Reading) {cs rest : List Char} (hcs : Enclosable cs)
    (hrest : '\x60' ∉ rest) :
    ∃ n, delimiters [n] = [] ∧ n.chars = '\x60' :: (codeContent cs ++ ['\x60']) ∧
      Reads defined r ('\x60' :: (cs ++ '\x60' :: rest)) (r.extend [n] '\x60') rest := by
  by_cases hne : cs = []
  · subst hne
    exact ⟨_, rfl, rfl, reads_backticks defined r hrest⟩
  · exact ⟨_, rfl, rfl, reads_code defined r hne hcs fun h => hrest (List.mem_of_mem_head? h)⟩

/-! ## Words -/

theorem reads_blank (defined : List Char → Bool) (r : Reading) {rest : List Char}
    (hrest : ∀ c, rest.head? = some c → isSpace c = false) :
    Reads defined r (' ' :: rest) (r.extend [.span (.text [' '])] ' ') rest := by
  have hrun := (@takeWhile_run _ isSpace [' '] rest (List.forall_mem_singleton.mpr rfl) hrest).1
  rw [List.singleton_append] at hrun
  refine Reads.step (Nat.le_refl _) fun fuel => ?_
  rw [read.eq_def]
  dsimp only
  rw [if_neg (by decide), if_neg (by decide), if_neg (by decide), if_neg (by decide), if_neg (by decide),
    if_neg (by simp), if_neg (by decide), if_neg (by decide), if_neg (by decide), if_neg (by decide),
    if_pos (by decide), hrun, if_neg (by simp)]
  rfl

theorem reads_words (defined : List Char → Bool) (r : Reading) {ws : List Char} (hws : ∀ c ∈ ws, isPlain c = true) :
    ∃ ns previous, delimiters ns = [] ∧ ns.flatMap Node.chars = ' ' :: ws ∧
      Reads defined r (' ' :: ws) (r.extend ns previous) [] := by
  have hspace : ∀ c, ws.head? = some c → isSpace c = false := by
    intro c hc
    have hplain := hws c (List.mem_of_mem_head? hc)
    simp only [isPlain, Bool.and_eq_true, Bool.not_eq_true'] at hplain
    exact hplain.2
  have hblank := reads_blank defined r hspace
  obtain ⟨ns, hdelimiters, hchars, hreads⟩ :=
    @reads_plain defined (r.extend [.span (.text [' '])] ' ') ws [] hws (by simp)
  rw [List.append_nil, Reading.extend_extend] at hreads
  refine ⟨.span (.text [' ']) :: ns, _, hdelimiters, ?_, hblank.trans hreads⟩
  rw [List.flatMap_cons, hchars]
  rfl

end ChartValues.Markdown
