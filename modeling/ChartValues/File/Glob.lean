/-!
# Glob patterns

Patterns over file names and paths: `?` is any character, `*` any run of characters, `[..]` and
`[!..]` a character in or out of a set, and `**`, which has to be a whole path component, any run of
whole components. `ofString` reads a pattern, `accepts` matches a text against it.
-/

namespace ChartValues

inductive Glob.Spec where
  | single (c : Char)
  | range (first last : Char)
  deriving DecidableEq, Repr

inductive Glob.Part where
  | char (c : Char)
  | anyChar
  | anyRun
  | anyComponents
  | within (specs : List Glob.Spec)
  | except (specs : List Glob.Spec)
  deriving DecidableEq, Repr

structure Glob where
  parts : List Glob.Part
  deriving DecidableEq, Repr

namespace Glob

inductive Fault where
  | wildcards
  | recursiveWildcards
  | range
  deriving DecidableEq, Repr

structure Error where
  position : Nat
  fault : Fault
  deriving DecidableEq, Repr

def Fault.message : Fault → String
  | wildcards => "wildcards are either regular `*` or recursive `**`"
  | recursiveWildcards => "recursive wildcards must form a single path component"
  | range => "invalid range pattern"

def Error.message (e : Error) : String :=
  s!"Pattern syntax error near position {e.position}: {e.fault.message}"

/-! ## Reading a pattern -/

/-- The parts of a set: ranges where a dash stands between two characters, else single characters. -/
def specs : List Char → List Spec
  | a :: '-' :: b :: rest => .range a b :: specs rest
  | a :: rest => .single a :: specs rest
  | [] => []

/-- A character set that starts behind an opening bracket: the part and the number of characters it
takes. The first character of the set may be a closing bracket. -/
def readSet : List Char → Option (Part × Nat)
  | '!' :: first :: rest =>
    let inner := rest.takeWhile (· ≠ ']')
    if inner.length < rest.length then some (.except (specs (first :: inner)), inner.length + 3)
    else none
  | '!' :: [] => none
  | first :: rest =>
    let inner := rest.takeWhile (· ≠ ']')
    if inner.length < rest.length then some (.within (specs (first :: inner)), inner.length + 2)
    else none
  | [] => none

/-- Add a run of components unless the last of several parts is one already. -/
def pushComponents (before : List Part) : List Part :=
  match before with
  | .anyComponents :: _ :: _ => before
  | _ => .anyComponents :: before

/-- Read a pattern: `position` is the number of characters read, `previous` the last of them, and
`before` the parts so far, the last one first. -/
def read : Nat → (position : Nat) → (previous : Option Char) → (before : List Part) →
    List Char → Except Error (List Part)
  | 0, _, _, before, _ => .ok before.reverse
  | _, _, _, before, [] => .ok before.reverse
  | fuel + 1, position, previous, before, c :: cs =>
    if c = '?' then read fuel (position + 1) (some c) (.anyChar :: before) cs
    else if c = '*' then
      let stars := (c :: cs).takeWhile (· == '*')
      let rest := (c :: cs).dropWhile (· == '*')
      if 2 < stars.length then .error ⟨position + 2, .wildcards⟩
      else if stars.length = 2 then
        -- Two stars have to be a component of their own.
        if position = 0 ∨ previous = some '/' then
          match rest with
          | [] => .ok (pushComponents before).reverse
          | d :: rest =>
            if d = '/' then read fuel (position + 3) (some d) (pushComponents before) rest
            else .error ⟨position + 2, .recursiveWildcards⟩
        else .error ⟨position - 1, .recursiveWildcards⟩
      else read fuel (position + 1) (some c) (.anyRun :: before) rest
    else if c = '[' then
      match readSet cs with
      | some (part, count) =>
        read fuel (position + count + 1) (some ']') (part :: before) (cs.drop count)
      | none => .error ⟨position, .range⟩
    else read fuel (position + 1) (some c) (.char c :: before) cs

def ofString (text : String) : Except Error Glob :=
  (read (text.length + 1) 0 none [] text.toList).map Glob.mk

/-! ## Matching -/

def Spec.has : Spec → Char → Bool
  | single a, c => a == c
  | range a b, c => a ≤ c && c ≤ b

def Part.takes : Part → Char → Bool
  | char a, c => a == c
  | anyChar, _ => true
  | within specs, c => specs.any (·.has c)
  | except specs, c => !specs.any (·.has c)
  | anyRun, _ => false
  | anyComponents, _ => false

/-- What is left of a text behind each of its prefixes. -/
def suffixes : List Char → List (List Char)
  | [] => [[]]
  | c :: cs => (c :: cs) :: suffixes cs

/-- What is left of a text behind each run of whole components. -/
def afterComponents : List Char → List (List Char)
  | [] => [[]]
  | c :: cs => if c = '/' then cs :: afterComponents cs else afterComponents cs

/-- Whether the parts match the whole text. -/
def matchParts : List Part → List Char → Bool
  | [], cs => cs.isEmpty
  | .anyRun :: parts, cs => (suffixes cs).any (matchParts parts)
  | .anyComponents :: parts, cs => (cs :: afterComponents cs).any (matchParts parts)
  | part :: parts, c :: cs => part.takes c && matchParts parts cs
  | _ :: _, [] => false

def accepts (g : Glob) (text : String) : Bool := matchParts g.parts text.toList

end Glob

end ChartValues
