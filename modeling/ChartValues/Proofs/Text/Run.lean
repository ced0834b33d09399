import Mathlib.Data.List.TakeWhile

/-!
# Runs

A reader takes the characters of a class up to the first one that is not of it, and the lines of a block up to the
first one that ends it.
-/

namespace ChartValues.Text

variable {α : Type*}

theorem exists_run (p : α → Bool) (cs : List α) : ∃ run rest, cs = run ++ rest ∧
    (∀ ch ∈ run, p ch = true) ∧ ∀ ch, rest.head? = some ch → p ch = false := by
  refine ⟨cs.takeWhile p, cs.dropWhile p, (List.takeWhile_append_dropWhile).symm,
    fun b hb => List.all_eq_true.mp List.all_takeWhile b hb, fun ch hch => ?_⟩
  simpa [hch] using List.head?_dropWhile_not p cs

theorem takeWhile_run {p : α → Bool} {run rest : List α} (hrun : ∀ ch ∈ run, p ch = true)
    (hrest : ∀ ch, rest.head? = some ch → p ch = false) :
    (run ++ rest).takeWhile p = run ∧ (run ++ rest).dropWhile p = rest := by
  rw [List.takeWhile_append_of_pos hrun, List.dropWhile_append_of_pos hrun]
  cases rest with
  | nil => simp
  | cons ch rest => simp [hrest ch rfl]

section repeated
variable [BEq α] [LawfulBEq α] {c : α} {rest : List α}

theorem exists_replicate (c : α) (cs : List α) : ∃ k rest, cs = List.replicate k c ++ rest ∧ rest.head? ≠ some c ∧
    (cs.head? = some c → k ≠ 0) := by
  obtain ⟨run, rest, rfl, hrun, hrest⟩ := exists_run (· == c) cs
  obtain ⟨k, rfl⟩ : ∃ k, run = List.replicate k c :=
    ⟨run.length, List.eq_replicate_of_mem fun d hd => beq_iff_eq.mp (hrun d hd)⟩
  have hstop : rest.head? ≠ some c := fun h => by simpa using hrest c h
  refine ⟨k, rest, rfl, hstop, ?_⟩
  rintro hhead rfl
  exact hstop hhead

theorem takeWhile_repeated {run : List α} (hrun : ∀ d ∈ run, d = c) (hrest : rest.head? ≠ some c) :
    (run ++ rest).takeWhile (· == c) = run ∧ (run ++ rest).dropWhile (· == c) = rest := by
  refine takeWhile_run (fun d hd => beq_iff_eq.mpr (hrun d hd)) fun d hd => beq_eq_false_iff_ne.mpr ?_
  rintro rfl
  exact hrest hd

theorem takeWhile_replicate (k : ℕ) (hrest : rest.head? ≠ some c) :
    (List.replicate k c ++ rest).takeWhile (· == c) = List.replicate k c :=
  (takeWhile_repeated (fun _ => List.eq_of_mem_replicate) hrest).1

end repeated

end ChartValues.Text
