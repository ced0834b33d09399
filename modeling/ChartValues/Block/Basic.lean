/-!
# Blocks

A block is the region of a document that a top-level key opens. Blocks are stored by key: committing a
second block under a key replaces the first in its place, and keys keep the order of their first
commit. `locate` finds the block that a line belongs to.
-/

namespace ChartValues

/-- A region of a document. -/
structure Block where
  /-- The zero-indent key that opens the block. -/
  topKey : String
  /-- The chart its annotation names. -/
  chartRef : Option String
  /-- The line where the block starts: the annotation's if it has one, else the key's. -/
  startLine : Nat
  /-- The line of the key. -/
  keyLine : Nat
  /-- The number of blocks committed before it in the same scan. -/
  ordinal : Nat
  deriving DecidableEq, Repr

def Block.isAnnotated (b : Block) : Bool := b.chartRef.isSome

/-- Blocks by top-level key, in the order of the first commit of each key. -/
structure Blocks where
  toList : List Block := []
  deriving DecidableEq, Repr

namespace Blocks

def empty : Blocks := {}

def size (bs : Blocks) : Nat := bs.toList.length

def keys (bs : Blocks) : List String := bs.toList.map Block.topKey

def get? (bs : Blocks) (topKey : String) : Option Block :=
  bs.toList.find? fun b => b.topKey == topKey

/-- Put `b` in the place of the block with its key, or at the end. -/
def put (b : Block) : List Block → List Block
  | [] => [b]
  | c :: cs => if c.topKey = b.topKey then b :: cs else c :: put b cs

/-- Store a block; one with the same key is replaced. -/
def commit (bs : Blocks) (b : Block) : Blocks := ⟨put b bs.toList⟩

/-- The block that storing `b` replaces. -/
def replaced (bs : Blocks) (b : Block) : Option Block := bs.get? b.topKey

def annotated (bs : Blocks) : List Block := bs.toList.filter Block.isAnnotated

/-- The order by which `locate` chooses: by start line, then by ordinal. -/
def precedes (a b : Block) : Bool :=
  a.startLine < b.startLine || (a.startLine == b.startLine && a.ordinal ≤ b.ordinal)

/-- The later of the best block so far and a new one; of equals the new one. -/
def later (best : Option Block) (b : Block) : Option Block :=
  match best with
  | none => some b
  | some a => if precedes a b then some b else some a

/-- The block that line `line` belongs to: of the blocks that start at or above it the last one. -/
def locate (bs : Blocks) (line : Nat) : Option Block :=
  (bs.toList.filter fun b => b.startLine ≤ line).foldl later none

end Blocks

end ChartValues
