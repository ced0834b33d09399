/-!
# Paths as text

Paths with `/` between their components. Empty components and components `.` count for nothing, save
for a `.` at the very start; a path that starts with `/` is absolute.
-/

namespace ChartValues.Path

/-- A path's characters, back to front, without the separators and dots at its end that name
nothing. -/
def trimReversed : List Char → List Char
  | '/' :: c :: rest => trimReversed (c :: rest)
  | '.' :: '/' :: rest => trimReversed ('/' :: rest)
  | rest => rest

/-- The last component, if it names a file. -/
def fileName? (path : String) : Option String :=
  let last := ((trimReversed path.toList.reverse).takeWhile (· ≠ '/')).reverse
  if last = [] ∨ last = ['.'] ∨ last = ['.', '.'] then none else some (String.ofList last)

/-- The path without its last component; `none` if it has none. -/
def parent? (path : String) : Option String :=
  match trimReversed path.toList.reverse with
  | [] => none
  | ['/'] => none
  | reversed =>
    match reversed.dropWhile (· ≠ '/') with
    | [] => some ""
    | rest => some (String.ofList (trimReversed rest).reverse)

def isAbsolute (path : String) : Bool := path.toList.head? == some '/'

/-- `rel` seen from `base`; an absolute path stands for itself. -/
def join (base rel : String) : String :=
  if isAbsolute rel then rel
  else if base.isEmpty || base.toList.getLast? == some '/' then base ++ rel
  else base ++ "/" ++ rel

/-- The pieces of a path between its separators. -/
def pieces (path : String) : List String :=
  (path.toList.splitOnP (· == '/')).map String.ofList

/-- The components: a leading `/` or `.` is one, others that are empty or `.` are none. -/
def components (path : String) : List String :=
  let named := fun (s : String) => s ≠ "" && s ≠ "."
  match pieces path with
  | "" :: rest => if isAbsolute path then "/" :: rest.filter named else []
  | "." :: rest => "." :: rest.filter named
  | all => all.filter named

end ChartValues.Path
