import Mathlib.Data.List.Basic
import ChartValues.Markdown.Block

/-!
# Blocks that have been read stay

The outermost open block is the root of the text. Whatever line comes next, **the root keeps what it holds**
(`Builder.Keeps`, `keeps_readBlocks`): lines only add blocks behind. So what has been read at the root when some line
is over is the beginning of what `blocks` answers (`exists_blocks_of_keeps`).
-/

namespace ChartValues.Markdown

/-- The outermost frame is the root, and holds at least `bs`, the last first. -/
def Rooted (bs : List Block) : List Frame → Prop
  | [] => False
  | [f] => f.container = .root ∧ bs <:+ f.children
  | _ :: f :: rest => Rooted bs (f :: rest)

section rooted
variable {bs : List Block} {f : Frame} {rest stack : List Frame}

theorem Rooted.push (h : Rooted bs stack) (f : Frame) : Rooted bs (f :: stack) := by
  cases stack with
  | nil => exact h.elim
  | cons g rest => exact h

theorem Rooted.add (h : Rooted bs (f :: rest)) (block : Block) :
    Rooted bs ({ f with children := block :: f.children } :: rest) := by
  cases rest with
  | nil => exact ⟨h.1, h.2.trans (List.suffix_cons _ _)⟩
  | cons g rest => exact h

theorem Rooted.replace (h : Rooted bs (f :: rest)) (hf : f.container ≠ .root) (f' : Frame) :
    Rooted bs (f' :: rest) := by
  cases rest with
  | nil => exact absurd h.1 hf
  | cons g rest => exact h

end rooted

namespace Builder

/-- The root of the text holds at least `bs`, the last first. -/
def Keeps (bs : List Block) (b : Builder) : Prop := Rooted bs b.stack

variable {bs : List Block} {b : Builder}

theorem Keeps.add (h : b.Keeps bs) (block : Block) : (b.add block).Keeps bs := by
  rw [Keeps, Builder.add]
  cases hstack : b.stack with
  | nil => exact h
  | cons f rest =>
    rw [Keeps, hstack] at h
    exact Rooted.add h block

theorem Keeps.push (h : b.Keeps bs) (c : Container) : (b.push c).Keeps bs := Rooted.push h ⟨c, []⟩

theorem Keeps.pop (h : b.Keeps bs) : b.pop.Keeps bs := by
  rw [Keeps] at h
  rw [Builder.pop, Keeps]
  split
  · rename_i f g rest hstack
    rw [hstack] at h
    exact Rooted.add (f := g) h f.close
  · exact h

theorem Keeps.popTo (h : b.Keeps bs) (depth n : Nat) : (Builder.popTo depth n b).Keeps bs := by
  induction n generalizing b with
  | zero => exact h
  | succ n ih =>
    rw [Builder.popTo]
    split_ifs
    · exact ih h.pop
    · exact h

theorem Keeps.loosen (h : b.Keeps bs) : b.loosen.Keeps bs := by
  rw [Keeps] at h
  rw [Builder.loosen, Keeps]
  split
  · rename_i f mark tight items rest hstack
    rw [hstack] at h
    exact Rooted.push (Rooted.replace (f := ⟨.list mark tight, items⟩) h (by simp) _) f
  · exact h

theorem Keeps.finishEmptyItem (h : b.Keeps bs) : b.finishEmptyItem.Keeps bs := by
  rw [Builder.finishEmptyItem, Keeps]
  dsimp only
  split
  · split_ifs
    · exact h.pop
    · exact h
  · exact h

theorem Keeps.startBlock (h : b.Keeps bs) : b.startBlock.Keeps bs := by
  have hfinished := h.finishEmptyItem
  rw [Builder.startBlock]
  dsimp only
  generalize b.finishEmptyItem = b at hfinished ⊢
  split
  · split_ifs
    · exact hfinished.pop.loosen
    · exact hfinished.pop
  · split_ifs
    · exact hfinished.loosen
    · exact hfinished

theorem Keeps.startItem (h : b.Keeps bs) (mark : Char) : (b.startItem mark).Keeps bs := by
  have hfinished := h.finishEmptyItem
  have hfresh := hfinished.startBlock.push (.list mark true)
  rw [Builder.startItem]
  dsimp only
  split
  · rename_i m tight items rest hstack
    split_ifs
    · rw [Keeps, hstack] at hfinished
      exact Rooted.replace (f := ⟨.list m tight, items⟩) hfinished (by simp) _
    · exact hfresh
  · exact hfresh

theorem Keeps.noteBlank (h : b.Keeps bs) : b.noteBlank.Keeps bs := by
  rw [Keeps] at h
  rw [Builder.noteBlank, Keeps]
  split
  · exact h
  · rename_i indent children rest hstack
    rw [hstack] at h
    exact Rooted.replace (f := ⟨.item indent, children⟩) h (by simp) _
  · exact h

theorem length_pop (h : 1 < b.stack.length) : b.pop.stack.length + 1 = b.stack.length := by
  rcases hstack : b.stack with _ | ⟨f, _ | ⟨g, rest⟩⟩
  · simp [hstack] at h
  · simp [hstack] at h
  · simp [pop, hstack]

theorem length_popTo {n : Nat} (hn : b.stack.length ≤ n + 1) : (popTo 0 n b).stack.length ≤ 1 := by
  induction n generalizing b with
  | zero => exact hn
  | succ n ih =>
    rw [popTo]
    split_ifs with hmore
    · have hpop := length_pop (Nat.lt_of_add_left_lt hmore)
      exact ih (by omega)
    · omega

end Builder

open Builder

/-! ## Lines -/

section lines
variable {bs : List Block} {b : Builder}

theorem keeps_openBlocks (h : b.Keeps bs) (fuel : Nat) (c : Cursor) : (openBlocks fuel b c).1.Keeps bs := by
  induction fuel generalizing b c with
  | zero => exact h
  | succ fuel ih =>
    rw [openBlocks]
    dsimp only
    split_ifs
    · exact h
    · split
      · split_ifs
        · exact (h.startItem _).push _
        · exact ih ((h.startItem _).push _) _
      · split
        · exact ih (h.startBlock.push _) _
        · exact h

theorem keeps_readLeaf (h : b.Keeps bs) (c : Cursor) (indent : Nat) (l : Line) (ls : List Line) :
    (readLeaf b c indent l ls).1.Keeps bs := by
  have hstarted := h.startBlock
  rw [readLeaf]
  dsimp only
  generalize b.startBlock = b at hstarted ⊢
  split
  · exact hstarted
  · split
    · exact hstarted
    · split
      · exact hstarted.add _
      · split
        · exact hstarted.add _
        · split
          · exact hstarted
          · exact hstarted.add _

theorem keeps_readBlock (h : b.Keeps bs) (l : Line) (ls : List Line) : (readBlock b l ls).1.Keeps bs := by
  rw [readBlock]
  dsimp only
  have hopened := keeps_openBlocks (h.popTo (enter b.containers ⟨l.text, 0, 0⟩).1 b.stack.length) (l.text.length + 1)
    (enter b.containers ⟨l.text, 0, 0⟩).2
  split
  · rename_i b' heq
    rwa [heq] at hopened
  · rename_i b' c heq
    rw [heq] at hopened
    split_ifs
    · exact hopened.noteBlank
    · exact Keeps.add (b := { b'.startBlock with afterBlank := false }) hopened.startBlock _
    · exact keeps_readLeaf hopened _ _ _ _

/-- **Lines only add to what the root holds.** -/
theorem keeps_readBlocks (h : b.Keeps bs) (fuel : Nat) (ls : List Line) : (readBlocks fuel b ls).Keeps bs := by
  induction fuel generalizing b ls with
  | zero =>
    rw [readBlocks]
    exact h
  | succ fuel ih =>
    cases ls with
    | nil =>
      rw [readBlocks]
      · exact h
      · simp
    | cons l ls =>
      rw [readBlocks]
      exact ih (keeps_readBlock h l ls) _

/-- **What the root holds when some lines are read is the beginning of the answer.** -/
theorem exists_blocks_of_keeps {cs : List Char}
    (h : (readBlocks ((Line.ofText [] cs).length + 1) { stack := [⟨.root, []⟩] } (Line.ofText [] cs)).Keeps bs) :
    ∃ more, (blocks cs).1 = bs.reverse ++ more := by
  rw [blocks]
  generalize readBlocks ((Line.ofText [] cs).length + 1) { stack := [⟨.root, []⟩] } (Line.ofText [] cs) = b at h ⊢
  have hroot := h.popTo 0 b.stack.length
  have hlength := length_popTo (Nat.le_succ b.stack.length)
  generalize popTo 0 b.stack.length b = b at hroot hlength ⊢
  rw [Keeps] at hroot
  rcases hstack : b.stack with _ | ⟨f, _ | ⟨g, rest⟩⟩
  · rw [hstack] at hroot
    exact hroot.elim
  · rw [hstack] at hroot
    obtain ⟨more, hmore⟩ := hroot.2
    exact ⟨more.reverse, by simp [← hmore]⟩
  · simp [hstack] at hlength

end lines

end ChartValues.Markdown
