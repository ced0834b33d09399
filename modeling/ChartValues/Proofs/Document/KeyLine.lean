import ChartValues.Proofs.Document.Key
import ChartValues.Tree.Basic

/-!
# Lines as they are written

A line is written as spaces and a text. If the text starts with a key that is free of colons, comments and
blanks at its ends (`PlainKey`), the line reads back as it was written: its indentation is the number of
spaces, and its key is that key. A line of spaces alone says nothing.
-/

namespace ChartValues

namespace Text

theorem dropWhile_isBlank_eq_self {cs : List Char} (h : ∀ c ∈ cs.head?, isBlank c = false) :
    cs.dropWhile isBlank = cs := by
  cases cs with
  | nil => rfl
  | cons c cs => rw [List.dropWhile_cons, h c rfl, if_neg Bool.false_ne_true]

theorem trim_eq_self {cs : List Char} (hhead : ∀ c ∈ cs.head?, isBlank c = false)
    (hlast : ∀ c ∈ cs.getLast?, isBlank c = false) : trim cs = cs := by
  rw [trim, trimStart, dropWhile_isBlank_eq_self hhead, trimEnd,
    dropWhile_isBlank_eq_self (by rwa [List.head?_reverse]), List.reverse_reverse]

theorem isBlank_of_mem_replicate {n : Nat} : ∀ c ∈ List.replicate n ' ', isBlank c = true := by
  intro c hc
  rw [List.eq_of_mem_replicate hc]
  rfl

end Text

namespace Line

open ChartValues.Text

/-- A key that can stand on a line and is read back as it is. -/
structure PlainKey (key : String) : Prop where
  ne_empty : key ≠ ""
  noColon : ':' ∉ key.toList
  noLineFeed : '\n' ∉ key.toList
  noLeadingBlank : ∀ c ∈ key.toList.head?, isBlank c = false
  noTrailingBlank : ∀ c ∈ key.toList.getLast?, isBlank c = false
  noComment : key.toList.head? ≠ some '#'

variable {n : Nat} {key text : String}

theorem toList_spaces (n : Nat) : (Tree.spaces n).toList = List.replicate n ' ' := by
  simp [Tree.spaces]

theorem toList_spaces_append (n : Nat) (text : String) :
    (Tree.spaces n ++ text).toList = List.replicate n ' ' ++ text.toList := by
  rw [String.toList_append, toList_spaces]

/-! ## A line of spaces -/

theorem indentation_spaces (n : Nat) : indentation (Tree.spaces n) = n := by
  have hblank : isBlank ' ' = true := rfl
  rw [indentation, toList_spaces, List.takeWhile_replicate, if_pos hblank, List.length_replicate]

theorem bareKey_spaces (n : Nat) : bareKey (Tree.spaces n) = none := by
  rw [Option.eq_none_iff_forall_ne_some]
  intro key hkey
  obtain ⟨-, htrimmed, hne, -⟩ := bareKey_eq_some_iff.mp hkey
  have htrim : trim (List.replicate n ' ') = [] := by
    have h := trim_append_of_blank (isBlank_of_mem_replicate (n := n)) []
    rwa [List.append_nil] at h
  rw [trimmed, toList_spaces, htrim] at htrimmed
  exact hne htrimmed

theorem chartRef_spaces (n : Nat) : chartRef (Tree.spaces n) = none := by
  have h : chartRefChars (List.replicate n ' ') = none := by
    induction n with
    | zero => rfl
    | succ n ih => rw [List.replicate_succ, chartRefChars, if_neg (by decide), ih]
  rw [chartRef, toList_spaces, h]
  rfl

/-! ## A line of spaces and a text -/

theorem topLevelKey_spaces_append (hn : 0 < n) (text : String) :
    topLevelKey (Tree.spaces n ++ text) = none := by
  obtain ⟨m, rfl⟩ : ∃ m, n = m + 1 := ⟨n - 1, by omega⟩
  rw [topLevelKey, toList_spaces_append, List.replicate_succ]
  rfl

theorem topLevelKey_spaces (hn : 0 < n) : topLevelKey (Tree.spaces n) = none := by
  have h := topLevelKey_spaces_append hn ""
  rwa [String.append_empty] at h

namespace PlainKey

theorem trim_eq (h : PlainKey key) : trim key.toList = key.toList :=
  trim_eq_self h.noLeadingBlank h.noTrailingBlank

theorem exists_cons (h : PlainKey key) :
    ∃ c cs, key.toList = c :: cs ∧ isBlank c = false ∧ c ≠ '#' := by
  cases hkey : key.toList with
  | nil => exact absurd (String.toList_eq_nil_iff.mp hkey) h.ne_empty
  | cons c cs =>
    refine ⟨c, cs, rfl, h.noLeadingBlank c (by simp [hkey]), fun hc => h.noComment ?_⟩
    rw [hkey, hc]
    rfl

theorem indentation_append (h : PlainKey key) (n : Nat) (rest : String) :
    indentation (Tree.spaces n ++ (key ++ rest)) = n := by
  obtain ⟨c, cs, hkey, hblank, -⟩ := h.exists_cons
  rw [indentation, toList_spaces_append, String.toList_append, hkey,
    List.takeWhile_append_of_pos isBlank_of_mem_replicate]
  simp [hblank]

theorem isBlankOrComment_append (h : PlainKey key) (n : Nat) (rest : String) :
    isBlankOrComment (Tree.spaces n ++ (key ++ rest)) = false := by
  obtain ⟨c, cs, hkey, hblank, hhash⟩ := h.exists_cons
  rw [isBlankOrComment, toList_spaces_append, String.toList_append, hkey, trimStart,
    List.dropWhile_append_of_pos isBlank_of_mem_replicate]
  simp [hblank, hhash]

theorem key_append (h : PlainKey key) (n : Nat) (rest : String) :
    Line.key (Tree.spaces n ++ (key ++ (":" ++ rest))) = some key := by
  obtain ⟨c, cs, hkey, -, -⟩ := h.exists_cons
  refine key_eq_some_iff.mpr ⟨List.replicate n ' ', key.toList, rest.toList, ?_,
    isBlank_of_mem_replicate, by simp [hkey], h.noColon, ?_⟩
  · simp [toList_spaces]
  · rw [h.trim_eq, String.ofList_toList]

end PlainKey

end Line

end ChartValues
