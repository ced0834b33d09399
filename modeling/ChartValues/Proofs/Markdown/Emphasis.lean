import Mathlib.Data.List.Basic
import ChartValues.Markdown.Terminal

/-!
# Emphasis

Matching looks at the delimiters only, and emphasis shows the nodes between them without the characters it uses up.
So nodes **show all they hold if none of their delimiters closes what an earlier one opens** (`chars_matchRuns`), and
**less otherwise** (`width_matchRuns_lt`). A pair of delimiters of another character around them is matched apart from
them (`chars_resolve_strong`).
-/

namespace ChartValues.Markdown

/-- What a node shows if it is not matched. -/
def Node.chars (n : Node) : List Char := n.toSpan.chars

def delimiters (ns : List Node) : List Delimiter :=
  ns.filterMap fun n => match n with
    | .delimiter d => some d
    | _ => none

/-- A run opens emphasis that a later one closes. -/
def Delimiter.Emphasizes (opener closer : Delimiter) : Prop := closer.canClose = true ∧ opener.pairs closer = true

instance (opener closer : Delimiter) : Decidable (opener.Emphasizes closer) := inferInstanceAs (Decidable (_ ∧ _))

/-- Of runs behind the runs `before`, one closes what an earlier one opens. -/
def MakesEmphasis (before : List Delimiter) : List Delimiter → Prop
  | [] => False
  | d :: ds => (∃ d' ∈ before, d'.Emphasizes d) ∨ MakesEmphasis (d :: before) ds

/-- The number of characters that nodes hold. -/
def width (ns : List Node) : Nat := (ns.flatMap Node.chars).length

section nodes
variable {n : Node} {ns ms before bottom : List Node} {d : Delimiter}

theorem delimiters_append (ns ms : List Node) : delimiters (ns ++ ms) = delimiters ns ++ delimiters ms :=
  List.filterMap_append

theorem width_append (ns ms : List Node) : width (ns ++ ms) = width ns + width ms := by
  rw [width, List.flatMap_append, List.length_append, width, width]

theorem width_cons (n : Node) (ns : List Node) : width (n :: ns) = n.chars.length + width ns := by
  rw [width, List.flatMap_cons, List.length_append, width]

theorem width_reverse (ns : List Node) : width ns.reverse = width ns := by
  induction ns with
  | nil => rfl
  | cons n ns ih =>
    rw [List.reverse_cons, width_append, ih, width_cons, width_cons]
    exact Nat.add_comm _ _

@[simp] theorem chars_settle (n : Node) : n.settle.chars = n.chars := by
  cases n <;> rfl

theorem flatMap_chars_settle (ns : List Node) : (ns.map Node.settle).flatMap Node.chars = ns.flatMap Node.chars := by
  rw [List.flatMap_map]
  exact List.flatMap_congr fun n _ => chars_settle n

theorem width_settle (ns : List Node) : width (ns.map Node.settle) = width ns := by
  rw [width, flatMap_chars_settle, width]

@[simp] theorem length_chars_delimiter (d : Delimiter) : (Node.delimiter d).chars.length = d.count :=
  List.length_replicate

theorem delimiters_settle (ns : List Node) : delimiters (ns.map Node.settle) = [] := by
  induction ns with
  | nil => rfl
  | cons n ns ih => cases n <;> exact ih

end nodes

/-! ## The nearest opener -/

section nearestOpener
variable {closer d : Delimiter} {between before passed rest bottom : List Node}

theorem nearestOpener_eq_some (h : nearestOpener closer between before = some (passed, d, rest)) :
    ∃ skipped, before = skipped ++ .delimiter d :: rest ∧ passed = between.reverse ++ skipped ∧
      d.pairs closer = true := by
  induction before generalizing between with
  | nil => cases h
  | cons n before ih =>
    have hskip : nearestOpener closer (n :: between) before = some (passed, d, rest) →
        ∃ skipped, n :: before = skipped ++ .delimiter d :: rest ∧ passed = between.reverse ++ skipped ∧
          d.pairs closer = true := by
      intro h
      obtain ⟨skipped, rfl, rfl, hpairs⟩ := ih h
      exact ⟨n :: skipped, rfl, by simp, hpairs⟩
    cases n with
    | delimiter d' =>
      rw [nearestOpener] at h
      split_ifs at h with hpairs
      · obtain ⟨rfl, rfl, rfl⟩ : between.reverse = passed ∧ d' = d ∧ before = rest := by simpa using h
        exact ⟨[], rfl, by simp, hpairs⟩
      · exact hskip h
    | span s => exact hskip h
    | bracket image => exact hskip h

theorem nearestOpener_eq_none_iff :
    nearestOpener closer between before = none ↔ ∀ d ∈ delimiters before, d.pairs closer = false := by
  induction before generalizing between with
  | nil => simp [nearestOpener, delimiters]
  | cons n before ih =>
    cases n with
    | delimiter d =>
      have hcons : delimiters (.delimiter d :: before) = d :: delimiters before := rfl
      rw [nearestOpener, hcons, List.forall_mem_cons]
      by_cases hpairs : d.pairs closer = true
      · simp [hpairs]
      · rw [if_neg hpairs, ih]
        simp [hpairs]
    | span s => exact ih
    | bracket image => exact ih

theorem nearestOpener_append (hbottom : ∀ d ∈ delimiters bottom, d.pairs closer = false) :
    nearestOpener closer between (before ++ bottom) =
      (nearestOpener closer between before).map fun (passed, d, rest) => (passed, d, rest ++ bottom) := by
  induction before generalizing between with
  | nil => exact nearestOpener_eq_none_iff.mpr hbottom
  | cons n before ih =>
    cases n with
    | delimiter d =>
      rw [List.cons_append, nearestOpener, nearestOpener]
      split_ifs
      · rfl
      · exact ih
    | span s => exact ih
    | bracket image => exact ih

theorem nearestOpener_skip (between : List Node) (hbefore : ∀ d ∈ delimiters before, d.pairs closer = false) :
    nearestOpener closer between (before ++ rest) = nearestOpener closer (before.reverse ++ between) rest := by
  induction before generalizing between with
  | nil => rfl
  | cons n before ih =>
    rw [List.reverse_cons, List.append_assoc, List.singleton_append]
    cases n with
    | delimiter d =>
      obtain ⟨hd, hbefore⟩ := List.forall_mem_cons.mp hbefore
      rw [List.cons_append, nearestOpener, if_neg (by simp [hd]), ih _ hbefore]
    | span s => exact ih _ hbefore
    | bracket image => exact ih _ hbefore

end nearestOpener

/-! ## One closer -/

section closeRun
variable {closer d : Delimiter} {before bottom : List Node} {fuel : Nat}

theorem pairs_eq_false_of_char_ne (h : d.char ≠ closer.char) : d.pairs closer = false := by
  simp [Delimiter.pairs, h]

theorem closeRun_append (hbottom : ∀ d ∈ delimiters bottom, d.char ≠ closer.char) :
    closeRun fuel closer (before ++ bottom) = closeRun fuel closer before ++ bottom := by
  induction fuel generalizing closer before with
  | zero => rfl
  | succ fuel ih =>
    have hnearest := @nearestOpener_append closer [] before bottom fun d hd =>
      pairs_eq_false_of_char_ne (hbottom d hd)
    rw [closeRun, closeRun, hnearest]
    by_cases hcount : closer.count = 0
    · rw [if_pos hcount, if_pos hcount]
    · rw [if_neg hcount, if_neg hcount]
      cases nearestOpener closer [] before with
      | none => rfl
      | some found =>
        obtain ⟨passed, opener, rest⟩ := found
        simp only [Option.map_some]
        rw [← List.cons_append, ← List.append_assoc]
        exact ih hbottom

theorem char_closeRun {c : Char} (hcloser : closer.char = c) (hbefore : ∀ d ∈ delimiters before, d.char = c) :
    ∀ d ∈ delimiters (closeRun fuel closer before), d.char = c := by
  induction fuel generalizing closer before with
  | zero => exact List.forall_mem_cons.mpr ⟨hcloser, hbefore⟩
  | succ fuel ih =>
    rw [closeRun]
    by_cases hcount : closer.count = 0
    · rwa [if_pos hcount]
    · rw [if_neg hcount]
      cases hnearest : nearestOpener closer [] before with
      | none =>
        dsimp only
        split_ifs
        · exact List.forall_mem_cons.mpr ⟨hcloser, hbefore⟩
        · exact hbefore
      | some found =>
        obtain ⟨passed, opener, rest⟩ := found
        obtain ⟨skipped, rfl, rfl, -⟩ := nearestOpener_eq_some hnearest
        refine ih hcloser fun d hd => ?_
        rw [delimiters_append, delimiters_settle, List.nil_append] at hd
        rw [delimiters_append, List.forall_mem_append] at hbefore
        have hopener := List.forall_mem_cons.mp hbefore.2
        rcases List.mem_cons.mp hd with rfl | hd
        · exact hopener.1
        · exact hopener.2 d hd

theorem closeRun_of_unmatched (hcount : closer.count ≠ 0) (h : ∀ d ∈ delimiters before, d.pairs closer = false) :
    closeRun (fuel + 1) closer before =
      (if closer.canOpen then .delimiter closer else (Node.delimiter closer).settle) :: before := by
  rw [closeRun, if_neg hcount, nearestOpener_eq_none_iff.mpr h]

theorem width_match {passed rest : List Node} {opener : Delimiter} (hcloser : closer.count ≠ 0)
    (hopener : opener.pairs closer = true) :
    let used := if 2 ≤ opener.count ∧ 2 ≤ closer.count then 2 else 1
    closer.count - used +
        width (passed.map Node.settle ++ .delimiter { opener with count := opener.count - used } :: rest) <
      closer.count + width (passed ++ .delimiter opener :: rest) := by
  intro used
  have hcount : opener.count ≠ 0 := by
    simp only [Delimiter.pairs, Bool.and_eq_true, bne_iff_ne] at hopener
    exact hopener.1.2
  have hused : 1 ≤ used ∧ used ≤ opener.count ∧ used ≤ closer.count := by
    dsimp only [used]
    split_ifs <;> omega
  rw [width_append, width_append, width_settle, width_cons, width_cons, length_chars_delimiter,
    length_chars_delimiter]
  dsimp only
  omega

theorem width_closeRun_le (fuel : Nat) (closer : Delimiter) (before : List Node) :
    width (closeRun fuel closer before) ≤ closer.count + width before := by
  induction fuel generalizing closer before with
  | zero => exact Nat.le_of_eq (by rw [closeRun, width_cons, length_chars_delimiter])
  | succ fuel ih =>
    rw [closeRun]
    by_cases hcount : closer.count = 0
    · rw [if_pos hcount]
      exact Nat.le_add_left _ _
    · rw [if_neg hcount]
      cases hnearest : nearestOpener closer [] before with
      | none =>
        dsimp only
        have hchars : (if closer.canOpen = true then Node.delimiter closer else (Node.delimiter closer).settle).chars =
            (Node.delimiter closer).chars := by
          split_ifs
          · rfl
          · exact chars_settle _
        exact Nat.le_of_eq (by rw [width_cons, hchars, length_chars_delimiter])
      | some found =>
        obtain ⟨passed, opener, rest⟩ := found
        obtain ⟨skipped, rfl, rfl, hpairs⟩ := nearestOpener_eq_some hnearest
        exact Nat.le_trans (ih _ _) (Nat.le_of_lt (width_match hcount hpairs))

theorem width_closeRun_lt (fuel : Nat) (hcount : closer.count ≠ 0) (hd : d ∈ delimiters before)
    (hpairs : d.pairs closer = true) :
    width (closeRun (fuel + 1) closer before) < closer.count + width before := by
  rw [closeRun, if_neg hcount]
  cases hnearest : nearestOpener closer [] before with
  | none => simp [nearestOpener_eq_none_iff.mp hnearest d hd] at hpairs
  | some found =>
    obtain ⟨passed, opener, rest⟩ := found
    obtain ⟨skipped, rfl, rfl, hpairs⟩ := nearestOpener_eq_some hnearest
    exact Nat.lt_of_le_of_lt (width_closeRun_le _ _ _) (width_match hcount hpairs)

end closeRun

/-! ## Emphasis among runs -/

section makesEmphasis
variable {before ds : List Delimiter} {d : Delimiter}

theorem not_emphasizes_of_not_canOpen (h : d.canOpen = false) (e : Delimiter) : ¬d.Emphasizes e := by
  rintro ⟨-, hpairs⟩
  simp [Delimiter.pairs, h] at hpairs

theorem makesEmphasis_iff : MakesEmphasis before ds ↔
    (∃ d ∈ before, ∃ e ∈ ds, d.Emphasizes e) ∨ ¬ds.Pairwise fun d e => ¬d.Emphasizes e := by
  induction ds generalizing before with
  | nil => simp [MakesEmphasis]
  | cons d ds ih =>
    rw [MakesEmphasis, ih, List.pairwise_cons]
    grind

theorem makesEmphasis_of_not_canOpen (h : d.canOpen = false) :
    MakesEmphasis (d :: before) ds ↔ MakesEmphasis before ds := by
  simp [makesEmphasis_iff, not_emphasizes_of_not_canOpen h]

end makesEmphasis

/-! ## All nodes -/

section matchRuns
variable {before bottom ns : List Node} {c : Char} {d : Delimiter}

theorem matchRuns_append (before ns ms : List Node) :
    matchRuns before (ns ++ ms) = matchRuns (matchRuns before ns) ms := by
  induction ns generalizing before with
  | nil => rfl
  | cons n ns ih =>
    cases n with
    | delimiter d =>
      rw [List.cons_append, matchRuns, matchRuns]
      split_ifs
      · exact ih _
      · exact ih _
    | span s => exact ih _
    | bracket image => exact ih _

theorem matchRuns_of_delimiters_eq_nil (before : List Node) (h : delimiters ns = []) :
    matchRuns before ns = ns.reverse ++ before := by
  induction ns generalizing before with
  | nil => rfl
  | cons n ns ih =>
    rw [List.reverse_cons, List.append_assoc, List.singleton_append]
    cases n with
    | delimiter d => cases h
    | span s => exact ih _ h
    | bracket image => exact ih _ h

theorem matchRuns_bottom (before : List Node) (hns : ∀ d ∈ delimiters ns, d.char = c)
    (hbottom : ∀ d ∈ delimiters bottom, d.char ≠ c) :
    matchRuns (before ++ bottom) ns = matchRuns before ns ++ bottom := by
  induction ns generalizing before with
  | nil => rfl
  | cons n ns ih =>
    cases n with
    | delimiter d =>
      obtain ⟨hd, hns⟩ := List.forall_mem_cons.mp hns
      rw [matchRuns, matchRuns]
      split_ifs
      · rw [closeRun_append (by rwa [hd]), ih _ hns]
      · exact ih (.delimiter d :: before) hns
    | span s => exact ih (.span s :: before) hns
    | bracket image => exact ih (.bracket image :: before) hns

theorem char_matchRuns (before : List Node) (hns : ∀ d ∈ delimiters ns, d.char = c)
    (hbefore : ∀ d ∈ delimiters before, d.char = c) : ∀ d ∈ delimiters (matchRuns before ns), d.char = c := by
  induction ns generalizing before with
  | nil => exact hbefore
  | cons n ns ih =>
    cases n with
    | delimiter d =>
      obtain ⟨hd, hns⟩ := List.forall_mem_cons.mp hns
      rw [matchRuns]
      split_ifs
      · exact ih _ hns (char_closeRun hd hbefore)
      · exact ih _ hns (List.forall_mem_cons.mpr ⟨hd, hbefore⟩)
    | span s => exact ih (.span s :: before) hns hbefore
    | bracket image => exact ih (.bracket image :: before) hns hbefore

theorem matchRuns_of_unmatched (ns : List Node) (hcount : d.count ≠ 0)
    (h : ∀ d' ∈ delimiters before, ¬d'.Emphasizes d) :
    ∃ m : Node, m.chars = (Node.delimiter d).chars ∧
      matchRuns before (.delimiter d :: ns) = matchRuns (m :: before) ns ∧
      ∀ ds, MakesEmphasis (delimiters (m :: before)) ds ↔ MakesEmphasis (d :: delimiters before) ds := by
  rw [matchRuns]
  by_cases hclose : d.canClose = true
  · have hunmatched : ∀ d' ∈ delimiters before, d'.pairs d = false := by
      intro d' hd'
      rw [← Bool.not_eq_true]
      exact fun hpairs => h d' hd' ⟨hclose, hpairs⟩
    rw [if_pos hclose, closeRun_of_unmatched hcount hunmatched]
    by_cases hopen : d.canOpen = true
    · rw [if_pos hopen]
      exact ⟨.delimiter d, rfl, rfl, fun ds => Iff.rfl⟩
    · rw [if_neg hopen]
      exact ⟨(Node.delimiter d).settle, chars_settle _, rfl, fun ds =>
        (makesEmphasis_of_not_canOpen (Bool.not_eq_true _ ▸ hopen)).symm⟩
  · rw [if_neg hclose]
    exact ⟨.delimiter d, rfl, rfl, fun ds => Iff.rfl⟩

/-- **Without emphasis, nodes show all they hold.** -/
theorem chars_matchRuns (before : List Node) (hcount : ∀ d ∈ delimiters ns, d.count ≠ 0)
    (h : ¬MakesEmphasis (delimiters before) (delimiters ns)) :
    (matchRuns before ns).reverse.flatMap Node.chars =
      before.reverse.flatMap Node.chars ++ ns.flatMap Node.chars := by
  induction ns generalizing before with
  | nil => rw [List.flatMap_nil, List.append_nil, matchRuns]
  | cons n ns ih =>
    -- whatever is put on the stack shows the characters of `n`
    have hstep : ∀ m : Node, m.chars = n.chars → (m :: before).reverse.flatMap Node.chars ++ ns.flatMap Node.chars =
        before.reverse.flatMap Node.chars ++ (n :: ns).flatMap Node.chars := by
      intro m hm
      rw [List.reverse_cons, List.flatMap_append, List.flatMap_singleton, List.append_assoc, hm, List.flatMap_cons]
    cases n with
    | span s => exact (ih (.span s :: before) hcount h).trans (hstep _ rfl)
    | bracket image => exact (ih (.bracket image :: before) hcount h).trans (hstep _ rfl)
    | delimiter d =>
      obtain ⟨hd, hcount⟩ := List.forall_mem_cons.mp hcount
      obtain ⟨hnow, hlater⟩ := not_or.mp h
      obtain ⟨m, hm, hmatch, hiff⟩ := matchRuns_of_unmatched ns hd fun d' hd' h => hnow ⟨d', hd', h⟩
      rw [hmatch]
      exact (ih _ hcount (mt (hiff _).mp hlater)).trans (hstep m hm)

theorem width_matchRuns_le (before ns : List Node) : width (matchRuns before ns) ≤ width before + width ns := by
  induction ns generalizing before with
  | nil => exact Nat.le_refl _
  | cons n ns ih =>
    have hpush : width (matchRuns (n :: before) ns) ≤ width before + width (n :: ns) := by
      have hrest := ih (n :: before)
      rw [width_cons] at hrest ⊢
      omega
    cases n with
    | span s => exact hpush
    | bracket image => exact hpush
    | delimiter d =>
      rw [matchRuns]
      split_ifs
      · have hclose := width_closeRun_le (d.count + 1) d before
        have hrest := ih (closeRun (d.count + 1) d before)
        rw [width_cons, length_chars_delimiter]
        omega
      · exact hpush

/-- **With emphasis, nodes show less than they hold.** -/
theorem width_matchRuns_lt (before : List Node) (hcount : ∀ d ∈ delimiters ns, d.count ≠ 0)
    (h : MakesEmphasis (delimiters before) (delimiters ns)) :
    width (matchRuns before ns) < width before + width ns := by
  induction ns generalizing before with
  | nil => exact h.elim
  | cons n ns ih =>
    have hpush : ∀ m : Node, m.chars = n.chars → width (matchRuns (m :: before) ns) < width (m :: before) + width ns →
        width (matchRuns (m :: before) ns) < width before + width (n :: ns) := by
      intro m hm hless
      rw [width_cons, hm] at hless
      rw [width_cons]
      omega
    cases n with
    | span s => exact hpush (.span s) rfl (ih _ hcount h)
    | bracket image => exact hpush (.bracket image) rfl (ih _ hcount h)
    | delimiter d =>
      obtain ⟨hd, hcount⟩ := List.forall_mem_cons.mp hcount
      by_cases hnow : ∃ d' ∈ delimiters before, d'.Emphasizes d
      · -- the first match takes characters away, and the rest gives none back
        obtain ⟨d', hd', hclose, hpairs⟩ := hnow
        have hless := width_closeRun_lt d.count hd hd' hpairs
        have hrest := width_matchRuns_le (closeRun (d.count + 1) d before) ns
        rw [matchRuns, if_pos hclose, width_cons, length_chars_delimiter]
        omega
      · obtain ⟨m, hm, hmatch, hiff⟩ := matchRuns_of_unmatched ns hd fun d' hd' h => hnow ⟨d', hd', h⟩
        rw [hmatch]
        exact hpush m hm (ih _ hcount ((hiff _).mpr (h.resolve_left hnow)))

/-- **Strong emphasis is matched apart from the underscores in it**, and shows what they leave. -/
theorem chars_resolve_strong {tail : List Node} (hns : ∀ d ∈ delimiters ns, d.char = '_')
    (htail : delimiters tail = []) :
    (resolve (.delimiter ⟨'*', 2, 2, true, false⟩ :: ns ++ .delimiter ⟨'*', 2, 2, false, true⟩ :: tail)).flatMap
        Node.chars = (matchRuns [] ns).reverse.flatMap Node.chars ++ tail.flatMap Node.chars := by
  have hclose : closeRun 3 ⟨'*', 2, 2, false, true⟩ (matchRuns [] ns ++ [.delimiter ⟨'*', 2, 2, true, false⟩]) =
      (matchRuns [] ns).map Node.settle ++ [.delimiter ⟨'*', 0, 2, true, false⟩] := by
    have hskip : ∀ d ∈ delimiters (matchRuns [] ns), d.pairs ⟨'*', 2, 2, false, true⟩ = false := fun d hd =>
      pairs_eq_false_of_char_ne (by rw [char_matchRuns [] hns (by simp [delimiters]) d hd]; decide)
    have hnearest : nearestOpener ⟨'*', 2, 2, false, true⟩ []
        (matchRuns [] ns ++ [.delimiter ⟨'*', 2, 2, true, false⟩]) =
          some (matchRuns [] ns, ⟨'*', 2, 2, true, false⟩, []) := by
      rw [nearestOpener_skip [] hskip, List.append_nil, nearestOpener, List.reverse_reverse]
      rfl
    rw [closeRun, hnearest]
    rfl
  have hbottom : matchRuns [.delimiter ⟨'*', 2, 2, true, false⟩] ns =
      matchRuns [] ns ++ [.delimiter ⟨'*', 2, 2, true, false⟩] :=
    matchRuns_bottom [] hns (by simp [delimiters])
  have hall : matchRuns [] (.delimiter ⟨'*', 2, 2, true, false⟩ :: ns ++ .delimiter ⟨'*', 2, 2, false, true⟩ :: tail) =
      tail.reverse ++ ((matchRuns [] ns).map Node.settle ++ [.delimiter ⟨'*', 0, 2, true, false⟩]) := by
    rw [List.cons_append, matchRuns, if_neg (by decide), matchRuns_append, hbottom, matchRuns, if_pos rfl, hclose,
      matchRuns_of_delimiters_eq_nil _ htail]
  rw [resolve, hall, flatMap_chars_settle]
  simp only [List.reverse_append, List.reverse_reverse, List.flatMap_append, ← List.map_reverse, flatMap_chars_settle]
  rfl

end matchRuns

end ChartValues.Markdown
