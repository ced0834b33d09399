/-!
# Bytes as text

Decoding UTF-8. A sequence of bytes that is not UTF-8 has a first fault: the index up to which it is
valid, and how many bytes from there belong to no character (none if the bytes merely end too early).
`decode` stops at the fault; `decodeLossy` puts the replacement character in its place and goes on.
-/

namespace ChartValues.Text.Utf8

/-- The first place where bytes fail to be UTF-8. -/
structure Fault where
  /-- The bytes before this index are valid. -/
  index : Nat
  /-- How many bytes the broken sequence has; `none` if the input ends inside it. -/
  length : Option Nat
  deriving DecidableEq, Repr

def Fault.message (fault : Fault) : String :=
  match fault.length with
  | some n => s!"invalid utf-8 sequence of {n} bytes from index {fault.index}"
  | none => s!"incomplete utf-8 byte sequence from index {fault.index}"

/-- One step of decoding: a character and the number of its bytes, or the length of a broken
sequence. -/
inductive Step where
  | char (c : Char) (width : Nat)
  | broken (length : Option Nat)

/-- A continuation byte. -/
def isTail (b : UInt8) : Bool := 0x80 ≤ b && b ≤ 0xBF

/-- The six value bits of a continuation byte. -/
def tailBits (b : UInt8) : Nat := b.toNat % 64

/-- Whether `b` may follow the lead byte `a` of a sequence of three or four bytes. -/
def isSecond (a b : UInt8) : Bool :=
  if a == 0xE0 then 0xA0 ≤ b && b ≤ 0xBF
  else if a == 0xED then 0x80 ≤ b && b ≤ 0x9F
  else if a == 0xF0 then 0x90 ≤ b && b ≤ 0xBF
  else if a == 0xF4 then 0x80 ≤ b && b ≤ 0x8F
  else isTail b

def two (a : UInt8) : List UInt8 → Step
  | [] => .broken none
  | b :: _ =>
    if isTail b then .char (Char.ofNat (a.toNat % 32 * 64 + tailBits b)) 2 else .broken (some 1)

def three (a : UInt8) : List UInt8 → Step
  | [] => .broken none
  | b :: rest =>
    if !isSecond a b then .broken (some 1)
    else match rest with
      | [] => .broken none
      | c :: _ =>
        if isTail c then
          .char (Char.ofNat (a.toNat % 16 * 4096 + tailBits b * 64 + tailBits c)) 3
        else .broken (some 2)

def four (a : UInt8) : List UInt8 → Step
  | [] => .broken none
  | b :: rest =>
    if !isSecond a b then .broken (some 1)
    else match rest with
      | [] => .broken none
      | c :: rest =>
        if !isTail c then .broken (some 2)
        else match rest with
          | [] => .broken none
          | d :: _ =>
            if isTail d then
              .char (Char.ofNat
                (a.toNat % 8 * 262144 + tailBits b * 4096 + tailBits c * 64 + tailBits d)) 4
            else .broken (some 3)

/-- The character that starts with byte `a`. -/
def step (a : UInt8) (rest : List UInt8) : Step :=
  if a < 0x80 then .char (Char.ofNat a.toNat) 1
  else if a < 0xC2 then .broken (some 1)
  else if a < 0xE0 then two a rest
  else if a < 0xF0 then three a rest
  else if a < 0xF5 then four a rest
  else .broken (some 1)

/-- Decode from index `index` on, `skip` bytes of the current character being still ahead. -/
def decodeFrom (index skip : Nat) (acc : List Char) : List UInt8 → Except Fault (List Char)
  | [] => .ok acc.reverse
  | a :: rest =>
    match skip with
    | k + 1 => decodeFrom (index + 1) k acc rest
    | 0 =>
      match step a rest with
      | .char c width => decodeFrom (index + 1) (width - 1) (c :: acc) rest
      | .broken length => .error ⟨index, length⟩

/-- The text of the bytes, or the first fault. -/
def decode (bytes : List UInt8) : Except Fault String :=
  (decodeFrom 0 0 [] bytes).map String.ofList

def lossyFrom (skip : Nat) (acc : List Char) : List UInt8 → List Char
  | [] => acc.reverse
  | a :: rest =>
    match skip with
    | k + 1 => lossyFrom k acc rest
    | 0 =>
      match step a rest with
      | .char c width => lossyFrom (width - 1) (c :: acc) rest
      | .broken (some n) => lossyFrom (n - 1) ('\uFFFD' :: acc) rest
      | .broken none => ('\uFFFD' :: acc).reverse

/-- The text of the bytes, with the replacement character for each broken sequence. -/
def decodeLossy (bytes : List UInt8) : String := String.ofList (lossyFrom 0 [] bytes)

def encode (s : String) : List UInt8 := s.toUTF8.toList

end ChartValues.Text.Utf8
