import Mathlib.Data.String.Basic
import ChartValues.Proofs.Document.Text

/-!
# Lines as slices of the source

Cutting a text into lines counts bytes as it goes. `Line.Cut` says without a loop how a text falls into
lines: each line ends at the first line feed behind it, and a carriage return before the line feed belongs to
the end. `cut_split` shows that this is what cutting does, and `Document.liesIn_source` draws the
conclusion that the span of a line marks exactly its characters in the source.
-/

namespace ChartValues

namespace Line

/-! ## Counting bytes -/

theorem byteLength_nil : byteLength [] = 0 := rfl

theorem byteLength_cons (c : Char) (cs : List Char) : byteLength (c :: cs) = c.utf8Size + byteLength cs := rfl

theorem byteLength_eq_utf8Len (cs : List Char) : byteLength cs = String.utf8Len cs := by
  induction cs with
  | nil => rfl
  | cons c cs ih => rw [byteLength_cons, String.utf8Len_cons, ← ih, Nat.add_comm]

theorem byteLength_append (cs ds : List Char) :
    byteLength (cs ++ ds) = byteLength cs + byteLength ds := by
  simp only [byteLength_eq_utf8Len, String.utf8Len_append]

theorem byteLength_reverse (cs : List Char) : byteLength cs.reverse = byteLength cs := by
  simp only [byteLength_eq_utf8Len, String.utf8Len_reverse]

/-! ## How a text falls into lines -/

/-- The line of the characters `cs` that starts at byte `start`. -/
def ofChars (start : Nat) (cs : List Char) : Line :=
  ⟨String.ofList cs, ⟨start, start + byteLength cs⟩⟩

/-- A text that starts at byte `start` falls into these lines. -/
inductive Cut : (start : Nat) → (text : List Char) → List Line → Prop where
  | empty (start : Nat) : Cut start [] []
  /-- The rest behind the last line feed. -/
  | rest (start : Nat) {cs : List Char} (hne : cs ≠ []) (hcs : '\n' ∉ cs) :
    Cut start cs [ofChars start cs]
  | feed (start : Nat) {cs text : List Char} {lines : List Line} (hcs : '\n' ∉ cs)
    (hreturn : cs.getLast? ≠ some '\r') (h : Cut (start + byteLength cs + 1) text lines) :
    Cut start (cs ++ '\n' :: text) (ofChars start cs :: lines)
  | returnFeed (start : Nat) {cs text : List Char} {lines : List Line} (hcs : '\n' ∉ cs)
    (h : Cut (start + byteLength cs + 2) text lines) :
    Cut start (cs ++ '\r' :: '\n' :: text) (ofChars start cs :: lines)

theorem ofReversed_eq (start : Nat) (reversed : List Char) :
    ofReversed start reversed = ofChars start reversed.reverse := by
  rw [ofReversed, ofChars, byteLength_reverse]

theorem dropReturn_of_ne {cs : List Char} (h : cs.head? ≠ some '\r') : dropReturn cs = cs := by
  unfold dropReturn
  split
  · exact absurd rfl h
  · rfl

theorem cut_feed {reversed text : List Char} {lines : List Line} (start : Nat) (hcs : '\n' ∉ reversed)
    (h : Cut (start + byteLength reversed + 1) text lines) :
    Cut start (reversed.reverse ++ '\n' :: text)
      (ofReversed start (dropReturn reversed) :: lines) := by
  by_cases hreturn : reversed.head? = some '\r'
  · obtain ⟨rest, rfl⟩ := List.head?_eq_some_iff.mp hreturn
    have hstart : start + byteLength ('\r' :: rest) + 1 = start + byteLength rest.reverse + 2 := by
      have hone : byteLength ('\r' :: rest) = 1 + byteLength rest := byteLength_cons '\r' rest
      rw [byteLength_reverse]
      omega
    rw [hstart] at h
    rw [ofReversed_eq, List.reverse_cons, List.append_assoc]
    exact Cut.returnFeed start (by simpa using hcs) h
  · rw [dropReturn_of_ne hreturn, ofReversed_eq]
    rw [← byteLength_reverse] at h
    refine Cut.feed start (by simpa using hcs) ?_ h
    rwa [List.getLast?_reverse]

theorem cut_split (cs : List Char) : ∀ (start : Nat) (reversed : List Char), '\n' ∉ reversed →
    Cut start (reversed.reverse ++ cs) (split start reversed cs) := by
  induction cs with
  | nil =>
    intro start reversed hcs
    rw [split, List.append_nil]
    by_cases hnil : reversed = []
    · subst hnil
      exact Cut.empty start
    · rw [if_neg (by simpa using hnil), ofReversed_eq]
      exact Cut.rest start (by simpa using hnil) (by simpa using hcs)
  | cons c cs ih =>
    intro start reversed hcs
    rw [split]
    by_cases hc : c = '\n'
    · rw [if_pos hc, hc]
      exact cut_feed start hcs (ih _ [] (by simp))
    · rw [if_neg hc]
      have hlater := ih start (c :: reversed) (by simp [hcs, Ne.symm hc])
      rwa [List.reverse_cons, List.append_assoc, List.singleton_append] at hlater

/-! ## Where lines lie -/

/-- A line lies in a text that starts at byte `start`: its characters stand between `before`, which is empty or
ends in a line feed, and `after`, which is empty or starts with the end of a line, and its span counts the
bytes up to them and of them. -/
structure LiesIn (line : Line) (start : Nat) (text before after : List Char) : Prop where
  text : text = before ++ line.text.toList ++ after
  start : line.span.start = start + byteLength before
  stop : line.span.stop = line.span.start + byteLength line.text.toList
  noFeed : '\n' ∉ line.text.toList
  before : before = [] ∨ before.getLast? = some '\n'
  after : after = [] ∨ ['\n'] <+: after ∨ ['\r', '\n'] <+: after

theorem liesIn_ofChars (start : Nat) {cs after : List Char} (hcs : '\n' ∉ cs)
    (hafter : after = [] ∨ ['\n'] <+: after ∨ ['\r', '\n'] <+: after) :
    (ofChars start cs).LiesIn start (cs ++ after) [] after := by
  refine ⟨by simp [ofChars], rfl, by simp [ofChars], by simpa [ofChars] using hcs, Or.inl rfl, hafter⟩

theorem LiesIn.behind {start : Nat} {cs text before after : List Char} {line : Line} (ending : List Char)
    (h : line.LiesIn (start + byteLength cs + byteLength ending) text before after)
    (hending : ending.getLast? = some '\n') :
    line.LiesIn start (cs ++ (ending ++ text)) (cs ++ (ending ++ before)) after := by
  refine ⟨by rw [h.text]; simp, ?_, h.stop, h.noFeed, Or.inr ?_, h.after⟩
  · rw [h.start, byteLength_append, byteLength_append]
    omega
  · rcases h.before with hbefore | hbefore
    · rw [hbefore, List.append_nil, List.getLast?_append, hending]
      rfl
    · rw [List.getLast?_append, List.getLast?_append, hbefore]
      rfl

theorem Cut.liesIn {start : Nat} {text : List Char} {lines : List Line} (h : Cut start text lines) :
    ∀ line ∈ lines, ∃ before after, line.LiesIn start text before after := by
  induction h with
  | empty start => simp
  | rest start hne hcs =>
    intro line hline
    rw [List.mem_singleton.mp hline]
    have hlies := liesIn_ofChars start hcs (Or.inl rfl)
    rw [List.append_nil] at hlies
    exact ⟨[], [], hlies⟩
  | feed start hcs hreturn h ih =>
    intro line hline
    rcases List.mem_cons.mp hline with rfl | hline
    · exact ⟨[], _, liesIn_ofChars start hcs (Or.inr (Or.inl ⟨_, rfl⟩))⟩
    · obtain ⟨before, after, hlies⟩ := ih line hline
      exact ⟨_, after, hlies.behind ['\n'] rfl⟩
  | returnFeed start hcs h ih =>
    intro line hline
    rcases List.mem_cons.mp hline with rfl | hline
    · exact ⟨[], _, liesIn_ofChars start hcs (Or.inr (Or.inr ⟨_, rfl⟩))⟩
    · obtain ⟨before, after, hlies⟩ := ih line hline
      exact ⟨_, after, hlies.behind ['\r', '\n'] rfl⟩

end Line

theorem Document.liesIn_source {d : Document} {line : Line} (h : line ∈ d.lines) :
    ∃ before after, line.LiesIn 0 d.source.toList before after :=
  (Line.cut_split d.source.toList 0 [] (by simp)).liesIn line h

end ChartValues
