import ChartValues.Document.Line
import ChartValues.Proofs.Text.Run

/-!
# Chart references

A line names the chart of the first `#` that is followed by a reference (`chartRef_eq_some_iff`): by blanks, an `@` and
a run of reference characters. So a reference is not empty and has reference characters only (`of_chartRef_eq_some`);
none of these is a blank (`isBlank_of_isRefChar`).
-/

namespace ChartValues.Line

open Text

/-! ## Characters -/

def blankCodes : List Nat :=
  [0x09, 0x0A, 0x0B, 0x0C, 0x0D, 0x20, 0x85, 0xA0, 0x1680, 0x2000, 0x2001, 0x2002, 0x2003, 0x2004, 0x2005, 0x2006,
    0x2007, 0x2008, 0x2009, 0x200A, 0x2028, 0x2029, 0x202F, 0x205F, 0x3000]

theorem mem_blankCodes {c : Char} (hc : isBlank c = true) : c.toNat ∈ blankCodes := by
  simp only [isBlank, Bool.or_eq_true, Bool.and_eq_true, decide_eq_true_eq, beq_iff_eq] at hc
  simp only [blankCodes, List.mem_cons, List.not_mem_nil, or_false]
  omega

theorem isBlank_of_isRefChar {c : Char} (hc : isRefChar c = true) : isBlank c = false := by
  have hcodes : ∀ n ∈ blankCodes, isRefChar (Char.ofNat n) = false := by decide +kernel
  refine Bool.eq_false_iff.mpr fun hblank => ?_
  have hnone := hcodes _ (mem_blankCodes hblank)
  rw [Char.ofNat_toNat, hc] at hnone
  exact Bool.noConfusion hnone

/-! ## The reference behind a hash -/

/-- What stands behind a `#` reads blanks, an `@`, and `ref` as the run of all reference characters from there on. -/
def RefFollows (after ref : List Char) : Prop :=
  ∃ blanks rest, after = blanks ++ '@' :: (ref ++ rest) ∧ (∀ c ∈ blanks, isBlank c = true) ∧
    ref ≠ [] ∧ (∀ c ∈ ref, isRefChar c = true) ∧ ∀ c, rest.head? = some c → isRefChar c = false

/-- A `#` of the text is followed by `ref`, and no earlier one is followed by a reference. -/
def FirstReference (cs ref : List Char) : Prop :=
  ∃ before after, cs = before ++ '#' :: after ∧ RefFollows after ref ∧
    ∀ before' after', cs = before' ++ '#' :: after' → before'.length < before.length →
      ¬∃ ref', RefFollows after' ref'

variable {c : Char} {cs ref : List Char}

theorem refAfterHash_eq_some_iff : refAfterHash cs = some ref ↔ RefFollows cs ref := by
  constructor
  · intro h
    obtain ⟨blanks, tail, rfl, hblanks, htail⟩ := exists_run isBlank cs
    rw [refAfterHash, trimStart, (takeWhile_run hblanks htail).2] at h
    split at h
    · rename_i rest
      obtain ⟨run, rest, rfl, hrun, hrest⟩ := exists_run isRefChar rest
      rw [(takeWhile_run hrun hrest).1] at h
      split at h
      · cases h
      · rename_i hne
        obtain rfl := Option.some.inj h
        exact ⟨blanks, rest, rfl, hblanks, hne, hrun, hrest⟩
    · cases h
  · rintro ⟨blanks, rest, rfl, hblanks, hne, href, hrest⟩
    rw [refAfterHash, trimStart, (takeWhile_run hblanks (by simp [isBlank])).2]
    simp only [(takeWhile_run href hrest).1]

/-! ## The first reference -/

theorem firstReference_hash (h : ∃ ref, RefFollows cs ref) :
    FirstReference ('#' :: cs) ref ↔ RefFollows cs ref := by
  constructor
  · rintro ⟨before, after, heq, href, hfirst⟩
    cases before with
    | nil => exact (List.cons.inj heq).2 ▸ href
    | cons b before => exact absurd h (hfirst [] cs rfl (by simp))
  · intro href
    exact ⟨[], cs, rfl, href, fun before' after' _ hlt => absurd hlt (by simp)⟩

theorem firstReference_cons (h : ¬(c = '#' ∧ ∃ ref, RefFollows cs ref)) :
    FirstReference (c :: cs) ref ↔ FirstReference cs ref := by
  constructor
  · rintro ⟨before, after, heq, href, hfirst⟩
    cases before with
    | nil =>
      obtain ⟨rfl, rfl⟩ := List.cons.inj heq
      exact absurd ⟨rfl, ref, href⟩ h
    | cons b before =>
      obtain ⟨rfl, rfl⟩ := List.cons.inj heq
      refine ⟨before, after, rfl, href, fun before' after' heq' hlt => ?_⟩
      exact hfirst (c :: before') after' (by rw [heq', List.cons_append]) (by simpa using hlt)
  · rintro ⟨before, after, rfl, href, hfirst⟩
    refine ⟨c :: before, after, rfl, href, fun before' after' heq' hlt => ?_⟩
    cases before' with
    | nil =>
      obtain ⟨rfl, rfl⟩ := List.cons.inj heq'
      exact fun href' => h ⟨rfl, href'⟩
    | cons b before' => exact hfirst before' after' (List.cons.inj heq').2 (by simpa using hlt)

theorem chartRefChars_eq_some_iff : chartRefChars cs = some ref ↔ FirstReference cs ref := by
  induction cs with
  | nil =>
    refine iff_of_false (by simp [chartRefChars]) ?_
    rintro ⟨before, after, heq, -⟩
    simp at heq
  | cons c cs ih =>
    by_cases hhere : c = '#' ∧ ∃ ref, RefFollows cs ref
    · obtain ⟨rfl, run, hrun⟩ := hhere
      rw [firstReference_hash ⟨run, hrun⟩, ← refAfterHash_eq_some_iff, chartRefChars, if_pos rfl,
        refAfterHash_eq_some_iff.mpr hrun]
    · rw [firstReference_cons hhere, ← ih, chartRefChars]
      split
      · rename_i hhash
        have hnone : refAfterHash cs = none := Option.eq_none_iff_forall_ne_some.mpr fun run hrun =>
          hhere ⟨hhash, run, refAfterHash_eq_some_iff.mp hrun⟩
        rw [hnone]
      · rfl

/-- **A line names a chart if a `#` is followed by its reference, and no earlier one is followed by any.** -/
theorem chartRef_eq_some_iff {text ref : String} :
    chartRef text = some ref ↔ FirstReference text.toList ref.toList := by
  rw [← chartRefChars_eq_some_iff, chartRef, Option.map_eq_some_iff]
  constructor
  · rintro ⟨run, hrun, rfl⟩
    rwa [String.toList_ofList]
  · exact fun h => ⟨ref.toList, h, String.ofList_toList⟩

example : chartRef "#@ # @a/b! #@c" = some "a/b" := by decide +kernel

/-- **A reference that an annotation names is not empty and has reference characters only.** -/
theorem of_chartRef_eq_some {text ref : String} (h : chartRef text = some ref) :
    ref.toList ≠ [] ∧ ∀ c ∈ ref.toList, isRefChar c = true := by
  obtain ⟨_, _, _, ⟨_, _, _, _, hne, hchars, _⟩, _⟩ := chartRef_eq_some_iff.mp h
  exact ⟨hne, hchars⟩

end ChartValues.Line
