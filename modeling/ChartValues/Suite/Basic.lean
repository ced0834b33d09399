import ChartValues.File.Tree

/-!
# Suites

The case files below a directory, in categories: the category of a file is the directory it lies in, as
seen from the directory of the suite. `select` picks the categories of a run.
-/

namespace ChartValues

/-- Case files by category, both in order. -/
structure Suite where
  categories : List (String × List String)
  deriving DecidableEq, Repr

namespace Suite

def caseSuffix : String := ".case.toml"

def endsWith (s suffix : String) : Bool := suffix.toList.isSuffixOf s.toList

/-- The order of two lists of names: name by name. -/
def namesLe : List String → List String → Bool
  | [], _ => true
  | _ :: _, [] => false
  | a :: as, b :: bs => if a = b then namesLe as bs else a < b

/-- The order of paths: component by component. -/
def pathLe (a b : String) : Bool := namesLe (Path.components a) (Path.components b)

/-- A path as it is walked, piece by piece; a leading `.` counts for nothing, but an empty piece behind it leads
nowhere. -/
def walked (path : String) : Option String :=
  (Path.pieces path).foldlM
    (fun base piece =>
      if base ≠ "." then some (Path.join base piece) else if piece.isEmpty then none else some piece) "."

/-- The components behind those of another path, if it starts with them. -/
def behind : (base components : List String) → Option (List String)
  | [], rest => some rest
  | b :: bs, c :: cs => if b = c then behind bs cs else none
  | _ :: _, [] => none

def category (directory path : String) : String :=
  match (Path.parent? path).bind fun parent =>
      behind (Path.components directory) (Path.components parent) with
  | some names => "/".intercalate names
  | none => ""

def caseFiles (files : FileTree) (directory : String) : List String :=
  match files.find directory, walked directory with
  | .ok tree, some base =>
    (tree.descendants.filter fun names => endsWith (names.getLast?.getD "") caseSuffix).map
      fun names => names.foldl (fun path name => if path = "." then name else Path.join path name) base
  | _, _ => []

/-- Put a file into its category, keeping the categories in order. -/
def insert (category path : String) : List (String × List String) → List (String × List String)
  | [] => [(category, [path])]
  | (c, paths) :: rest =>
    if c = category then (c, paths ++ [path]) :: rest
    else if category < c then (category, [path]) :: (c, paths) :: rest
    else (c, paths) :: insert category path rest

/-- The suite of a path: a file is a suite of its own. -/
def load (files : FileTree) (path : String) : Suite :=
  if files.isFile path then ⟨[("", [path])]⟩
  else
    let grouped := (caseFiles files path).foldl
      (fun categories file => insert (category path file) file categories) []
    ⟨grouped.map fun (c, paths) => (c, paths.mergeSort pathLe)⟩

def label (category : String) : String := if category.isEmpty then "(root)" else category

/-! ## Selection -/

/-- A requested name without the slashes at its ends. -/
def trimSlashes (name : String) : String :=
  let strip (cs : List Char) : List Char := cs.dropWhile (· == '/')
  String.ofList (strip (strip name.toList).reverse).reverse

/-- Whether a category is the requested one or lies below it. -/
def covers (name category : String) : Bool :=
  category = name || (name ++ "/").toList.isPrefixOf category.toList

/-- Put a category with its files among others, keeping them in order; files that it has there are replaced. -/
def place (category : String) (paths : List String) :
    List (String × List String) → List (String × List String)
  | [] => [(category, paths)]
  | (c, ps) :: rest =>
    if c = category then (c, paths) :: rest
    else if category < c then (category, paths) :: (c, ps) :: rest
    else (c, ps) :: place category paths rest

def extend (selected more : List (String × List String)) : List (String × List String) :=
  more.foldl (fun selected (c, paths) => place c paths selected) selected

def matching (s : Suite) (name : String) : List (String × List String) :=
  s.categories.filter fun (c, _) => covers (trimSlashes name) c

/-- The categories of a run: what each of the requested names asks for, or all if no name is requested. -/
def select (s : Suite) (requested : List String) : List (String × List String) :=
  if requested.isEmpty then s.categories
  else requested.foldl (fun selected name => extend selected (s.matching name)) []

def unknown (s : Suite) (requested : List String) : List String :=
  (requested.map trimSlashes).filter fun name => !s.categories.any fun (c, _) => covers name c

end Suite

end ChartValues
