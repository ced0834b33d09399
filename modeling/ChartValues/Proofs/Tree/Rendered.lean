import ChartValues.Proofs.Document.KeyLine
import ChartValues.Proofs.Document.Text
import ChartValues.Proofs.Tree.Flatten

/-!
# The lines of a rendered tree

A tree in block style has one line for each node below its root: `toList_fieldsYaml` lists them, and
`texts_toYaml` says that a document made of the text has just these lines, as long as no key and no scalar
text holds a line feed. An object's line stands before those of what it holds; `preorderOf` lists the entries
of the tree in that order (`preorderOf_perm`).
-/

namespace ChartValues

namespace Line

/-- A line as a document has it: a carriage return at its end belongs to the line feed behind it. -/
def withoutReturn (text : String) : String := String.ofList (dropReturn text.toList.reverse).reverse

theorem dropReturn_append_colon (cs rest : List Char) :
    dropReturn (cs ++ ':' :: rest) = dropReturn cs ++ ':' :: rest := by
  cases cs with
  | nil => rfl
  | cons c cs =>
    by_cases hc : c = '\r'
    · subst hc
      rfl
    · simp [dropReturn, hc]

theorem map_text_split_flatMap {lines : List String} (h : ∀ line ∈ lines, '\n' ∉ line.toList)
    (start : Nat) :
    (split start [] (lines.flatMap fun line => line.toList ++ ['\n'])).map Line.text =
      lines.map withoutReturn := by
  induction lines generalizing start with
  | nil => rfl
  | cons line rest ih =>
    rw [List.flatMap_cons, List.append_assoc, List.singleton_append,
      split_append_feed (h line List.mem_cons_self), List.map_cons, List.map_cons,
      ih fun line' hline' => h line' (List.mem_cons_of_mem _ hline')]
    simp [ofReversed, withoutReturn]

end Line

namespace Tree

/-! ## Entries in the order of the lines -/

mutual

/-- The entries below a node whose path is `path`, an object before what it holds. Numbers are those of
`entriesOf`. -/
def preorderBelow (path : List String) (start : Nat) : Tree → List Entry
  | scalar _ _ => []
  | object fields => preorderOf path start fields

def preorderOf (path : List String) (start : Nat) : List (String × Tree) → List Entry
  | [] => []
  | (key, child) :: rest =>
    let below := preorderBelow (path ++ [key]) start child
    Entry.ofNode (path ++ [key]) child (start + below.length) ::
      (below ++ preorderOf path (start + (below.length + 1)) rest)

end

mutual

theorem preorderBelow_perm (path : List String) (start : Nat) : ∀ t : Tree,
    (Entry.ofNode path t (start + (preorderBelow path start t).length) ::
      preorderBelow path start t).Perm (entriesAt path start t)
  | scalar text kind => by
    rw [preorderBelow, entriesAt]
    rfl
  | object fields => by
    have hbelow := preorderOf_perm path start fields
    rw [preorderBelow, entriesAt, hbelow.length_eq]
    exact (hbelow.cons _).trans (List.perm_append_singleton _ _).symm

theorem preorderOf_perm (path : List String) (start : Nat) : ∀ fields : List (String × Tree),
    (preorderOf path start fields).Perm (entriesOf path start fields)
  | [] => by rw [preorderOf, entriesOf]
  | (key, child) :: rest => by
    have hchild := preorderBelow_perm (path ++ [key]) start child
    rw [preorderOf, entriesOf, ← hchild.length_eq, List.length_cons]
    exact hchild.append (preorderOf_perm path _ rest)

end

/-! ## Lines -/

/-- What stands behind the colon on the line of a node. -/
def valueText : Tree → String
  | scalar text _ => " " ++ text
  | object [] => " \x7b\x7d"
  | object (_ :: _) => ""

/-- The line of a child at depth `depth`. -/
def fieldLine (depth : Nat) (key : String) (child : Tree) : String :=
  spaces (2 * depth) ++ (key ++ (":" ++ child.valueText))

mutual

/-- The lines of the nodes below a node at depth `depth`. -/
def linesBelow (depth : Nat) : Tree → List String
  | scalar _ _ => []
  | object fields => fieldLines depth fields

def fieldLines (depth : Nat) : List (String × Tree) → List String
  | [] => []
  | (key, child) :: rest =>
    fieldLine depth key child :: (linesBelow (depth + 1) child ++ fieldLines depth rest)

end

theorem toList_fieldsYaml (depth : Nat) : ∀ fields : List (String × Tree),
    (fieldsYaml (2 * depth) fields).toList =
      (fieldLines depth fields).flatMap fun line => line.toList ++ ['\n']
  | [] => by
    rw [fieldsYaml, fieldLines]
    rfl
  | (key, scalar text kind) :: rest => by
    rw [fieldsYaml, String.toList_append, toList_fieldsYaml depth rest, fieldLines, linesBelow]
    simp [fieldLine, valueText]
  | (key, object []) :: rest => by
    rw [fieldsYaml, String.toList_append, toList_fieldsYaml depth rest, fieldLines, linesBelow]
    simp [fieldLine, valueText, fieldLines]
  | (key, object (field :: fields)) :: rest => by
    rw [fieldLines, linesBelow, fieldsYaml, String.toList_append, String.toList_append,
      toList_fieldsYaml depth rest, show 2 * depth + 2 = 2 * (depth + 1) by omega,
      toList_fieldsYaml (depth + 1) (field :: fields)]
    simp [fieldLine, valueText]

/-! ## Lines as a document has them -/

mutual

/-- Every key at and below the node can stand on a line, and no scalar text holds a line feed. -/
def OnLines : Tree → Prop
  | scalar text _ => '\n' ∉ text.toList
  | object fields => OnLinesBelow fields

def OnLinesBelow : List (String × Tree) → Prop
  | [] => True
  | (key, child) :: rest => Line.PlainKey key ∧ child.OnLines ∧ OnLinesBelow rest

end

variable {depth : Nat} {key : String} {child : Tree}

theorem noFeed_fieldLine (hkey : Line.PlainKey key) (hchild : child.OnLines) :
    '\n' ∉ (fieldLine depth key child).toList := by
  have hvalue : '\n' ∉ child.valueText.toList := by
    cases child with
    | scalar text kind =>
      rw [OnLines] at hchild
      simp [valueText, hchild]
    | object fields =>
      cases fields with
      | nil => decide
      | cons field fields => simp [valueText]
  simp [fieldLine, Line.toList_spaces, hkey.noLineFeed, hvalue]

mutual

theorem noFeed_linesBelow (depth : Nat) : ∀ t : Tree, t.OnLines →
    ∀ line ∈ linesBelow depth t, '\n' ∉ line.toList
  | scalar text kind, _ => by simp [linesBelow]
  | object fields, h => by
    rw [linesBelow]
    exact noFeed_fieldLines depth fields h

theorem noFeed_fieldLines (depth : Nat) : ∀ fields : List (String × Tree), OnLinesBelow fields →
    ∀ line ∈ fieldLines depth fields, '\n' ∉ line.toList
  | [], _ => by simp [fieldLines]
  | (key, child) :: rest, ⟨hkey, hchild, hrest⟩ => by
    intro line hline
    rw [fieldLines, List.mem_cons, List.mem_append] at hline
    rcases hline with rfl | hline | hline
    · exact noFeed_fieldLine hkey hchild
    · exact noFeed_linesBelow (depth + 1) child hchild line hline
    · exact noFeed_fieldLines depth rest hrest line hline

end

theorem texts_toYaml (name : String) {fields : List (String × Tree)} (hne : fields ≠ [])
    (h : (object fields).OnLines) :
    (⟨name, toYaml 0 (object fields)⟩ : Document).texts =
      (fieldLines 0 fields).map Line.withoutReturn := by
  obtain ⟨field, rest, rfl⟩ := List.exists_cons_of_ne_nil hne
  rw [Document.texts, Document.lines, toYaml]
  have htext := toList_fieldsYaml 0 (field :: rest)
  rw [Nat.mul_zero] at htext
  simp only [htext]
  exact Line.map_text_split_flatMap (noFeed_fieldLines 0 (field :: rest) h) 0

theorem withoutReturn_fieldLine (depth : Nat) (key : String) (child : Tree) :
    Line.withoutReturn (fieldLine depth key child) =
      spaces (2 * depth) ++ (key ++ (":" ++ Line.withoutReturn child.valueText)) := by
  apply String.toList_injective
  have hchars : (fieldLine depth key child).toList.reverse =
      child.valueText.toList.reverse ++ ':' :: (key.toList.reverse ++ (spaces (2 * depth)).toList.reverse) := by
    simp [fieldLine]
  rw [Line.withoutReturn, hchars, Line.dropReturn_append_colon]
  simp [Line.withoutReturn]

end Tree

end ChartValues
