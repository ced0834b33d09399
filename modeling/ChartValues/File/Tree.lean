import ChartValues.File.Path
import ChartValues.Text.Utf8

/-!
# Files

The files a run of the program can see, as a tree of directories. Paths are taken from the working
directory, which is the root of the tree. Reading fails the way an operating system does, and reading
text fails on bytes that are no text.
-/

namespace ChartValues

inductive FileError where
  | notFound
  | permissionDenied
  | notDirectory
  | isDirectory
  | nameTooLong
  | nulByte
  /-- A zero byte in what a process is started with. -/
  | nulArgument
  | notText
  deriving DecidableEq, Repr

def FileError.message : FileError → String
  | notFound => "No such file or directory (os error 2)"
  | permissionDenied => "Permission denied (os error 13)"
  | notDirectory => "Not a directory (os error 20)"
  | isDirectory => "Is a directory (os error 21)"
  | nameTooLong => "File name too long (os error 36)"
  | nulByte => "file name contained an unexpected NUL byte"
  | nulArgument => "nul byte found in provided data"
  | notText => "stream did not contain valid UTF-8"

inductive FileTree where
  | file (bytes : List UInt8)
  | directory (entries : List (String × FileTree))
  deriving Repr, Inhabited

namespace FileTree

def empty : FileTree := directory []

def child? (name : String) : List (String × FileTree) → Option FileTree
  | [] => none
  | (n, t) :: rest => if n = name then some t else child? name rest

def putEntry (name : String) (t : FileTree) : List (String × FileTree) → List (String × FileTree)
  | [] => [(name, t)]
  | (n, u) :: rest => if n = name then (n, t) :: rest else (n, u) :: putEntry name t rest

/-- Put a tree at the end of a chain of directory names, making those that are missing. -/
def put (t : FileTree) (leaf : FileTree) : List String → FileTree
  | [] => leaf
  | name :: rest =>
    let entries := match t with
      | directory entries => entries
      | file _ => []
    directory (putEntry name (put ((child? name entries).getD empty) leaf rest) entries)

def addFile (t : FileTree) (path : String) (bytes : List UInt8) : FileTree :=
  t.put (file bytes) (Path.components path)

def addDirectory (t : FileTree) (path : String) : FileTree := t.put empty (Path.components path)

/-- Walk down a path: `parents` are the directories above the current place, nearest first. Names
longer than 255 bytes are refused. -/
def walk (parents : List FileTree) (here : FileTree) : List String → Except FileError FileTree
  | [] => .ok here
  | name :: rest =>
    match here with
    | file _ => .error .notDirectory
    | directory entries =>
      if name = "" ∨ name = "." then walk parents here rest
      else if name = ".." then
        match parents with
        | parent :: parents => walk parents parent rest
        | [] => .error .notFound
      else if 255 < name.utf8ByteSize then .error .nameTooLong
      else
        match child? name entries with
        | some child => walk (here :: parents) child rest
        | none => .error .notFound

/-- What a path leads to. -/
def find (t : FileTree) (path : String) : Except FileError FileTree :=
  if path.toList.contains (Char.ofNat 0) then .error .nulByte
  else if path.isEmpty then .error .notFound
  else if 4095 < path.utf8ByteSize then .error .nameTooLong
  else if Path.isAbsolute path then
    -- The tree lies below the working directory; of what is above it, only the root can be seen.
    if (Path.components path).length = 1 then .ok empty else .error .notFound
  else walk [] t (Path.pieces path)

def isFile (t : FileTree) (path : String) : Bool :=
  match t.find path with
  | .ok (file _) => true
  | _ => false

def readBytes (t : FileTree) (path : String) : Except FileError (List UInt8) :=
  match t.find path with
  | .ok (file bytes) => .ok bytes
  | .ok (directory _) => .error .isDirectory
  | .error e => .error e

def readText (t : FileTree) (path : String) : Except FileError String :=
  match t.readBytes path with
  | .ok bytes =>
    match Text.Utf8.decode bytes with
    | .ok text => .ok text
    | .error _ => .error .notText
  | .error e => .error e

mutual

/-- Every entry below a directory, each with the names that lead to it. -/
def descendants : FileTree → List (List String)
  | file _ => []
  | directory entries => descendantsIn entries

def descendantsIn : List (String × FileTree) → List (List String)
  | [] => []
  | (name, t) :: rest => [name] :: (descendants t).map (name :: ·) ++ descendantsIn rest

end

end FileTree

end ChartValues
