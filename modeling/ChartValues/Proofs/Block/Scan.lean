import Mathlib.Data.Nat.Find
import ChartValues.Block.Scan
import ChartValues.Proofs.Block.Store
import ChartValues.Proofs.Document.Lines

/-!
# What a scan finds

A scan reads a document once and carries an annotation from line to line. The blocks it finds can be told
without it: the block of a key is that of the key's last line (`blockAt`), where the annotation stands on
that line or on the one above it, and keys come in the order of their first lines. `scan_blocks` is this
statement; it follows from an invariant of the states between two lines (`Scan.After`).
-/

namespace ChartValues

namespace Document

/-- The top-level key of line `n`. -/
def keyAt (d : Document) (n : Nat) : Option String := (d.line? n).bind Line.topLevelKey

/-- The chart that line `n` names. -/
def refAt (d : Document) (n : Nat) : Option String := (d.line? n).bind Line.chartRef

/-- The number of lines before line `n` that have a top-level key. -/
def keysBefore (d : Document) (n : Nat) : Nat := (List.range n).countP fun m => (d.keyAt m).isSome

/-- The annotation of the key on line `n`: the one on the line itself, else the one on the line above,
unless that line has a key of its own. -/
def annotationAt (d : Document) (n : Nat) : Option Pending :=
  match d.refAt n with
  | some chartRef => some ⟨chartRef, n⟩
  | none =>
    if d.keyAt (n - 1) = none then (d.refAt (n - 1)).map fun chartRef => ⟨chartRef, n - 1⟩ else none

/-- The block that the key `key` on line `n` opens. -/
def blockAt (d : Document) (n : Nat) (key : String) : Block where
  topKey := key
  chartRef := (d.annotationAt n).map Pending.chartRef
  startLine := ((d.annotationAt n).map Pending.line).getD n
  keyLine := n
  ordinal := d.keysBefore n

@[simp] theorem topKey_blockAt (d : Document) (n : Nat) (key : String) :
    (d.blockAt n key).topKey = key := rfl

@[simp] theorem keyLine_blockAt (d : Document) (n : Nat) (key : String) :
    (d.blockAt n key).keyLine = n := rfl

/-- `n` is the first line whose top-level key is `key`. -/
def FirstLine (d : Document) (key : String) (n : Nat) : Prop :=
  d.keyAt n = some key ∧ ∀ m, d.keyAt m = some key → n ≤ m

/-- `n` is the last line whose top-level key is `key`. -/
def LastLine (d : Document) (key : String) (n : Nat) : Prop :=
  d.keyAt n = some key ∧ ∀ m, d.keyAt m = some key → m ≤ n

variable {d : Document} {n m : Nat} {key : String}

/-! ## Keys of lines -/

theorem bounds_of_keyAt (h : d.keyAt n = some key) : 1 ≤ n ∧ n ≤ d.lineCount := by
  obtain ⟨text, htext, -⟩ := Option.bind_eq_some_iff.mp h
  exact bounds_of_line? htext

theorem keysBefore_succ (d : Document) (n : Nat) :
    d.keysBefore (n + 1) = d.keysBefore n + if (d.keyAt n).isSome then 1 else 0 := by
  simp [keysBefore, List.range_succ, List.countP_append, List.countP_singleton]

theorem exists_firstLine (h : d.keyAt n = some key) : ∃ m ≤ n, d.FirstLine key m := by
  classical
  have hex : ∃ m, d.keyAt m = some key := ⟨n, h⟩
  exact ⟨Nat.find hex, Nat.find_min' hex h, Nat.find_spec hex, fun m hm => Nat.find_min' hex hm⟩

/-- Of the lines up to `n`, `m` is the last one whose top-level key is `key`. -/
def LastLineTo (d : Document) (n : Nat) (key : String) (m : Nat) : Prop :=
  m ≤ n ∧ d.keyAt m = some key ∧ ∀ i ≤ n, d.keyAt i = some key → i ≤ m

theorem lastLineTo_succ_of_ne (h : d.keyAt (n + 1) ≠ some key) :
    d.LastLineTo (n + 1) key m ↔ d.LastLineTo n key m := by
  constructor
  · rintro ⟨hle, hm, hlast⟩
    have hne : m ≠ n + 1 := fun he => h (he ▸ hm)
    exact ⟨by omega, hm, fun i hi => hlast i (by omega)⟩
  · rintro ⟨hle, hm, hlast⟩
    refine ⟨by omega, hm, fun i hi hkey => hlast i ?_ hkey⟩
    have hne : i ≠ n + 1 := fun he => h (he ▸ hkey)
    omega

theorem lastLineTo_succ_of_eq (h : d.keyAt (n + 1) = some key) :
    d.LastLineTo (n + 1) key m ↔ m = n + 1 := by
  constructor
  · rintro ⟨hle, -, hlast⟩
    have := hlast (n + 1) (le_refl _) h
    omega
  · rintro rfl
    exact ⟨le_refl _, h, fun i hi _ => hi⟩

theorem lastLineTo_lineCount : d.LastLineTo d.lineCount key n ↔ d.LastLine key n := by
  constructor
  · rintro ⟨-, hn, hlast⟩
    exact ⟨hn, fun m hm => hlast m (bounds_of_keyAt hm).2 hm⟩
  · rintro ⟨hn, hlast⟩
    exact ⟨(bounds_of_keyAt hn).2, hn, fun m _ hm => hlast m hm⟩

theorem exists_lastLineTo (hle : m ≤ n) (h : d.keyAt m = some key) :
    ∃ i, d.LastLineTo n key i := by
  induction n with
  | zero =>
    obtain rfl : m = 0 := by omega
    exact ⟨0, le_refl _, h, fun i hi _ => hi⟩
  | succ n ih =>
    by_cases hkey : d.keyAt (n + 1) = some key
    · exact ⟨n + 1, (lastLineTo_succ_of_eq hkey).mpr rfl⟩
    · have hne : m ≠ n + 1 := fun he => hkey (he ▸ h)
      obtain ⟨i, hi⟩ := ih (by omega)
      exact ⟨i, (lastLineTo_succ_of_ne hkey).mpr hi⟩

/-! ## Annotations -/

/-- The annotation that line `n` leaves for the next line. -/
def carried (d : Document) (n : Nat) : Option Pending :=
  if d.keyAt n = none then (d.refAt n).map fun chartRef => ⟨chartRef, n⟩ else none

theorem annotationAt_succ (d : Document) (n : Nat) :
    d.annotationAt (n + 1) = match d.refAt (n + 1) with
      | some chartRef => some ⟨chartRef, n + 1⟩
      | none => d.carried n := rfl

theorem filter_annotationAt (h : d.keyAt (n + 1) = none) :
    (d.annotationAt (n + 1)).filter (fun p => !Scan.isStale (n + 2) p) = d.carried (n + 1) := by
  have hcarried : (d.carried n).filter (fun p => !Scan.isStale (n + 2) p) = none := by
    rw [carried]
    split_ifs
    · cases d.refAt n <;> simp [Scan.isStale, Option.filter]
    · rfl
  rw [annotationAt_succ, carried.eq_def d (n + 1), if_pos h]
  cases d.refAt (n + 1) with
  | some chartRef => simp [Scan.isStale, Option.filter]
  | none => exact hcarried

end Document

/-! ## The states of a scan -/

namespace Scan

/-- What holds of the state of a scan after the first `n` lines of a document. -/
structure After (d : Document) (n : Nat) (s : Scan) : Prop where
  ordinal : s.ordinal = d.keysBefore (n + 1)
  pending : s.pending.filter (fun p => !isStale (n + 1) p) = d.carried n
  get? : ∀ key b, s.blocks.get? key = some b ↔ ∃ m, d.LastLineTo n key m ∧ b = d.blockAt m key
  order : s.blocks.keys.Pairwise fun j k =>
    ∃ m m', m' ≤ n ∧ d.FirstLine j m ∧ d.FirstLine k m' ∧ m < m'

variable {d : Document} {n : Nat} {s : Scan} {text : String}

theorem after_zero (d : Document) : After d 0 {} where
  ordinal := by simp [Document.keysBefore, Document.keyAt, Document.line?_zero]
  pending := by simp [Document.carried, Document.refAt, Document.line?_zero]
  get? key b := by
    constructor
    · intro h
      exact absurd (Blocks.get?_empty key ▸ h) (by simp)
    · rintro ⟨m, ⟨hle, hm, -⟩, -⟩
      have := (Document.bounds_of_keyAt hm).1
      omega
  order := List.Pairwise.nil

namespace After

theorem waiting (h : After d n s) (htext : d.line? (n + 1) = some text) :
    s.waiting (n + 1) text = d.annotationAt (n + 1) := by
  have href : d.refAt (n + 1) = Line.chartRef text := by simp [Document.refAt, htext]
  rw [Scan.waiting, Document.annotationAt_succ, href]
  cases Line.chartRef text with
  | some chartRef => rfl
  | none => exact h.pending

theorem block (h : After d n s) (htext : d.line? (n + 1) = some text) (key : String) :
    s.block (n + 1) text key = d.blockAt (n + 1) key := by
  rw [Scan.block, h.waiting htext, h.ordinal, Document.blockAt]
  cases d.annotationAt (n + 1) <;> rfl

theorem firstLine (h : After d n s) {key : String} (hkey : key ∈ s.blocks.keys) :
    ∃ m ≤ n, d.FirstLine key m := by
  obtain ⟨b, hb⟩ := Blocks.mem_keys_iff.mp hkey
  obtain ⟨m, hm, -⟩ := (h.get? key b).mp hb
  obtain ⟨i, hi, hfirst⟩ := Document.exists_firstLine hm.2.1
  exact ⟨i, Nat.le_trans hi hm.1, hfirst⟩

theorem keyAt_ne (h : After d n s) {key : String} (hkey : key ∉ s.blocks.keys) {m : Nat} (hm : m ≤ n) :
    d.keyAt m ≠ some key := by
  intro hmkey
  obtain ⟨i, hi⟩ := Document.exists_lastLineTo hm hmkey
  exact hkey (Blocks.mem_keys_iff.mpr ⟨_, (h.get? key _).mpr ⟨i, hi, rfl⟩⟩)

theorem order_succ (h : After d n s) : s.blocks.keys.Pairwise fun j k =>
    ∃ m m', m' ≤ n + 1 ∧ d.FirstLine j m ∧ d.FirstLine k m' ∧ m < m' :=
  h.order.imp fun ⟨m, m', hm', hfirst⟩ => ⟨m, m', Nat.le_succ_of_le hm', hfirst⟩

theorem step_of_none (h : After d n s) (htext : d.line? (n + 1) = some text)
    (hkey : Line.topLevelKey text = none) : After d (n + 1) (s.step (n + 1) text) := by
  have hkeyAt : d.keyAt (n + 1) = none := by simp [Document.keyAt, htext, hkey]
  have hstep : s.step (n + 1) text = { s with pending := d.annotationAt (n + 1) } := by
    rw [step, hkey, ← h.waiting htext]
  rw [hstep]
  refine ⟨?_, ?_, fun key b => ?_, h.order_succ⟩
  · rw [Document.keysBefore_succ, hkeyAt]
    exact h.ordinal
  · exact Document.filter_annotationAt hkeyAt
  · have hne : d.keyAt (n + 1) ≠ some key := by simp [hkeyAt]
    simp only [Document.lastLineTo_succ_of_ne hne]
    exact h.get? key b

theorem get?_commit (h : After d n s) {key : String} (hkeyAt : d.keyAt (n + 1) = some key)
    (k : String) (b : Block) : (s.blocks.commit (d.blockAt (n + 1) key)).get? k = some b ↔
      ∃ m, d.LastLineTo (n + 1) k m ∧ b = d.blockAt m k := by
  rw [Blocks.get?_commit, Document.topKey_blockAt]
  by_cases hk : key = k
  · subst hk
    simp [Document.lastLineTo_succ_of_eq hkeyAt, eq_comm]
  · have hne : d.keyAt (n + 1) ≠ some k := by simpa [hkeyAt] using hk
    simp only [Document.lastLineTo_succ_of_ne hne]
    rw [if_neg hk]
    exact h.get? k b

theorem order_commit (h : After d n s) {key : String} (hkeyAt : d.keyAt (n + 1) = some key) :
    (s.blocks.commit (d.blockAt (n + 1) key)).keys.Pairwise fun j k =>
      ∃ m m', m' ≤ n + 1 ∧ d.FirstLine j m ∧ d.FirstLine k m' ∧ m < m' := by
  rw [Blocks.keys_commit, Document.topKey_blockAt]
  split_ifs with hmem
  · exact h.order_succ
  · have hfirst : d.FirstLine key (n + 1) := by
      refine ⟨hkeyAt, fun m hm => ?_⟩
      by_contra hlt
      exact h.keyAt_ne hmem (by omega) hm
    refine List.pairwise_append.mpr ⟨h.order_succ, List.pairwise_singleton _ _, ?_⟩
    intro j hj k hk
    obtain rfl : k = key := List.mem_singleton.mp hk
    obtain ⟨m, hm, hj⟩ := h.firstLine hj
    exact ⟨m, n + 1, le_refl _, hj, hfirst, by omega⟩

theorem step_of_some (h : After d n s) (htext : d.line? (n + 1) = some text) {key : String}
    (hkey : Line.topLevelKey text = some key) : After d (n + 1) (s.step (n + 1) text) := by
  have hkeyAt : d.keyAt (n + 1) = some key := by simp [Document.keyAt, htext, hkey]
  have hstep : s.step (n + 1) text =
      ⟨s.blocks.commit (d.blockAt (n + 1) key), none, s.ordinal + 1⟩ := by
    rw [step, hkey, ← h.block htext]
  rw [hstep]
  refine ⟨?_, ?_, h.get?_commit hkeyAt, h.order_commit hkeyAt⟩
  · rw [Document.keysBefore_succ, hkeyAt]
    exact congrArg (· + 1) h.ordinal
  · simp [Document.carried, hkeyAt]

theorem step (h : After d n s) (htext : d.line? (n + 1) = some text) :
    After d (n + 1) (s.step (n + 1) text) := by
  cases hkey : Line.topLevelKey text with
  | none => exact h.step_of_none htext hkey
  | some key => exact h.step_of_some htext hkey

end After

theorem after_run (d : Document) (n : Nat) (hn : n ≤ d.lineCount) :
    After d n (run {} (d.numbered.take n)) := by
  induction n with
  | zero => exact after_zero d
  | succ n ih =>
    obtain ⟨text, htext⟩ := Document.exists_line? (show n < d.lineCount by omega)
    rw [Document.take_numbered_succ htext, run, List.foldl_append]
    exact (ih (by omega)).step htext

end Scan

namespace Document

theorem after_scan (d : Document) : Scan.After d d.lineCount (Scan.run {} d.numbered) := by
  have h := Scan.after_run d d.lineCount (le_refl _)
  rwa [← length_numbered, List.take_length, length_numbered] at h

theorem get?_scan {d : Document} {key : String} {b : Block} :
    d.scan.get? key = some b ↔ ∃ n, d.LastLine key n ∧ b = d.blockAt n key := by
  simp only [← lastLineTo_lineCount]
  exact d.after_scan.get? key b

theorem mem_keys_scan {d : Document} {key : String} :
    key ∈ d.scan.keys ↔ ∃ n, d.keyAt n = some key := by
  rw [Blocks.mem_keys_iff]
  constructor
  · rintro ⟨b, hb⟩
    obtain ⟨n, hn, -⟩ := get?_scan.mp hb
    exact ⟨n, hn.1⟩
  · rintro ⟨n, hn⟩
    obtain ⟨m, hm⟩ := exists_lastLineTo (bounds_of_keyAt hn).2 hn
    exact ⟨_, get?_scan.mpr ⟨m, lastLineTo_lineCount.mp hm, rfl⟩⟩

/-- **The blocks of a document, line by line.** A key has a block if and only if it is the top-level key of
some line; its block is that of the last such line; and keys are ordered by their first lines. -/
theorem scan_blocks (d : Document) :
    (∀ key, key ∈ d.scan.keys ↔ ∃ n, d.keyAt n = some key) ∧
    (∀ key b, d.scan.get? key = some b ↔ ∃ n, d.LastLine key n ∧ b = d.blockAt n key) ∧
    d.scan.keys.Pairwise fun j k => ∃ m n, d.FirstLine j m ∧ d.FirstLine k n ∧ m < n := by
  refine ⟨fun key => mem_keys_scan, fun key b => get?_scan, ?_⟩
  exact d.after_scan.order.imp fun ⟨m, n, _, hfirst⟩ => ⟨m, n, hfirst⟩

end Document

end ChartValues
