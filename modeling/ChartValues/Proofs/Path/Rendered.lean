import ChartValues.Proofs.Path.Enclosing
import ChartValues.Proofs.Tree.Rendered

/-!
# Paths inside a rendered tree

A tree in block style can be read back by its indentation alone: the path at the line of a node is the path
of the node (`toYaml_paths`). The walk upwards starts at the node's own depth. It passes by the lines of
siblings and of whatever they hold, which are indented at least as much, and takes the line of each object
around the node. So what has to be known of the lines above is only the path that they lead to; `Follows`
carries this from line to line through the tree.
-/

namespace ChartValues

open CursorPath (climb)

namespace Line

theorem plainKey_iff {key : String} : PlainKey key ↔
    key ≠ "" ∧ ':' ∉ key.toList ∧ '\n' ∉ key.toList ∧
      (key.toList.head?.all fun c => !Text.isBlank c) = true ∧
      (key.toList.getLast?.all fun c => !Text.isBlank c) = true ∧ key.toList.head? ≠ some '#' := by
  simp only [Option.all_eq_true, Bool.not_eq_true']
  exact ⟨fun ⟨h₁, h₂, h₃, h₄, h₅, h₆⟩ => ⟨h₁, h₂, h₃, h₄, h₅, h₆⟩,
    fun ⟨h₁, h₂, h₃, h₄, h₅, h₆⟩ => ⟨h₁, h₂, h₃, h₄, h₅, h₆⟩⟩

instance : DecidablePred PlainKey := fun _ => decidable_of_iff _ plainKey_iff.symm

theorem PlainKey.bareKey_append {key : String} (h : PlainKey key) (n : Nat) :
    bareKey (Tree.spaces n ++ key) = some key := by
  have hspaces : ':' ∉ List.replicate n ' ' := fun hmem => by
    simpa using List.eq_of_mem_replicate hmem
  refine bareKey_eq_some_iff.mpr ⟨?_, ?_, h.ne_empty, h.noComment⟩
  · rw [toList_spaces_append, List.mem_append]
    exact fun hmem => hmem.elim hspaces h.noColon
  · rw [Text.trimmed, toList_spaces_append, Text.trim_append_of_blank Text.isBlank_of_mem_replicate,
      h.trim_eq, String.ofList_toList]

end Line

theorem CursorPath.climb_append_of_deep {depth : Nat} {lines : List String}
    (h : ∀ text ∈ lines, depth ≤ Line.indentation text) (above : List String) :
    climb depth (lines ++ above) = climb depth above := by
  induction lines with
  | nil => rfl
  | cons text lines ih =>
    rw [List.cons_append, climb_of_skip (Or.inr (Or.inl (h text List.mem_cons_self))),
      ih fun text' htext' => h text' (List.mem_cons_of_mem _ htext')]

namespace Tree

/-- `text` is the line of the node at `path`, and the lines above it, nearest first, lead to the object that
holds the node. -/
def IsLineOf (above : List String) (text : String) (path : List String) : Prop :=
  ∃ parent key rest, path = parent ++ [key] ∧ Line.PlainKey key ∧
    text = spaces (2 * parent.length) ++ (key ++ (":" ++ rest)) ∧
    climb (2 * parent.length) above = parent.reverse

/-- The lines are those of the nodes at the paths, one by one. -/
inductive Follows : (above : List String) → List String → List (List String) → Prop where
  | nil (above : List String) : Follows above [] []
  | cons {above texts : List String} {text : String} {path : List String} {paths : List (List String)}
    (hline : IsLineOf above text path) (hrest : Follows (text :: above) texts paths) :
    Follows above (text :: texts) (path :: paths)

namespace Follows

variable {above texts texts' : List String} {paths paths' : List (List String)}

theorem append (h : Follows above texts paths) (h' : Follows (texts.reverse ++ above) texts' paths') :
    Follows above (texts ++ texts') (paths ++ paths') := by
  induction h with
  | nil above => exact h'
  | cons hline hrest ih =>
    refine cons hline (ih ?_)
    rwa [List.reverse_cons, List.append_assoc, List.singleton_append] at h'

theorem length_eq (h : Follows above texts paths) : texts.length = paths.length := by
  induction h with
  | nil above => rfl
  | cons hline hrest ih => simp [ih]

theorem isLineOf (h : Follows above texts paths) : ∀ (i : Nat) (text : String) (path : List String),
    texts[i]? = some text → paths[i]? = some path →
      IsLineOf ((texts.take i).reverse ++ above) text path := by
  induction h with
  | nil above => simp
  | cons hline hrest ih =>
    intro i text path htext hpath
    cases i with
    | zero =>
      obtain rfl := Option.some.inj htext
      obtain rfl := Option.some.inj hpath
      exact hline
    | succ i =>
      rw [List.getElem?_cons_succ] at htext hpath
      have hlater := ih i text path htext hpath
      rwa [List.take_succ_cons, List.reverse_cons, List.append_assoc, List.singleton_append]

end Follows

/-! ## The lines of a tree -/

theorem indentation_fieldLine {key : String} (hkey : Line.PlainKey key) (depth : Nat) (child : Tree) :
    Line.indentation (Line.withoutReturn (fieldLine depth key child)) = 2 * depth := by
  rw [withoutReturn_fieldLine, hkey.indentation_append]

mutual

theorem indentation_linesBelow (depth : Nat) : ∀ t : Tree, t.OnLines →
    ∀ text ∈ (linesBelow depth t).map Line.withoutReturn, 2 * depth ≤ Line.indentation text
  | scalar text kind, _ => by simp [linesBelow]
  | object fields, h => by
    rw [linesBelow]
    exact indentation_fieldLines depth fields h

theorem indentation_fieldLines (depth : Nat) : ∀ fields : List (String × Tree), OnLinesBelow fields →
    ∀ text ∈ (fieldLines depth fields).map Line.withoutReturn, 2 * depth ≤ Line.indentation text
  | [], _ => by simp [fieldLines]
  | (key, child) :: rest, ⟨hkey, hchild, hrest⟩ => by
    intro text htext
    rw [fieldLines, List.map_cons, List.map_append, List.mem_cons, List.mem_append] at htext
    rcases htext with rfl | htext | htext
    · exact (indentation_fieldLine hkey depth child).ge
    · have := indentation_linesBelow (depth + 1) child hchild text htext
      omega
    · exact indentation_fieldLines depth rest hrest text htext

end

mutual

theorem follows_linesBelow (path : List String) (start : Nat) (above : List String) : ∀ t : Tree,
    t.OnLines → climb (2 * path.length) above = path.reverse →
      Follows above ((linesBelow path.length t).map Line.withoutReturn)
        ((preorderBelow path start t).map Entry.path)
  | scalar text kind, _, _ => by
    rw [linesBelow, preorderBelow]
    exact Follows.nil above
  | object fields, h, habove => by
    rw [linesBelow, preorderBelow]
    exact follows_fieldLines path start above fields h habove

/-- Below lines that lead to the object at `path`, the lines of its children and of whatever is below them
are those of their entries. -/
theorem follows_fieldLines (path : List String) (start : Nat) (above : List String) :
    ∀ fields : List (String × Tree), OnLinesBelow fields →
      climb (2 * path.length) above = path.reverse →
        Follows above ((fieldLines path.length fields).map Line.withoutReturn)
          ((preorderOf path start fields).map Entry.path)
  | [], _, _ => by
    rw [fieldLines, preorderOf]
    exact Follows.nil above
  | (key, child) :: rest, ⟨hkey, hchild, hrest⟩, habove => by
    have htext := withoutReturn_fieldLine path.length key child
    have hindent := indentation_fieldLine hkey path.length child
    -- one level deeper the line itself is taken, and at its own level it is passed by
    have hbelow : climb (2 * (path ++ [key]).length)
        (Line.withoutReturn (fieldLine path.length key child) :: above) = (path ++ [key]).reverse := by
      have hblank := hkey.isBlankOrComment_append (2 * path.length)
        (":" ++ Line.withoutReturn child.valueText)
      have hread := hkey.key_append (2 * path.length) (Line.withoutReturn child.valueText)
      rw [← htext] at hblank hread
      rw [CursorPath.climb_of_take hblank hread (by rw [hindent, List.length_append]; simp), hindent,
        habove, List.reverse_append]
      rfl
    have hbeside : climb (2 * path.length)
        (((linesBelow (path.length + 1) child).map Line.withoutReturn).reverse ++
          Line.withoutReturn (fieldLine path.length key child) :: above) = path.reverse := by
      rw [CursorPath.climb_append_of_deep, CursorPath.climb_of_skip (Or.inr (Or.inl hindent.ge)), habove]
      intro text hmem
      have := indentation_linesBelow (path.length + 1) child hchild text (List.mem_reverse.mp hmem)
      omega
    have hchildren := follows_linesBelow (path ++ [key]) start _ child hchild hbelow
    rw [List.length_append, List.length_singleton] at hchildren
    rw [fieldLines, preorderOf, List.map_cons, List.map_append, List.map_cons, List.map_append]
    exact Follows.cons ⟨path, key, _, rfl, hkey, htext, habove⟩
      (hchildren.append (follows_fieldLines path _ _ rest hrest hbeside))

end

/-! ## Cursors on a line -/

section cursors
variable {d : Document} {i : Nat} {key rest : String} {parent : List String}

theorem length_spaces (n : Nat) : (spaces n).length = n := by
  rw [← String.length_toList, Line.toList_spaces, List.length_replicate]

theorem pathAt_of_line {typed : String} (htext : d.texts[i]? = some (typed ++ rest)) :
    d.pathAt ⟨i + 1, typed.length⟩ = .ok (CursorPath.enclosing typed (d.texts.take i).reverse) := by
  have hline : d.line? (i + 1) = some (typed ++ rest) := (d.line?_succ_eq i).trans htext
  have hbound := (Document.bounds_of_line? hline).2
  have hlineText : d.lineText (i + 1) = typed ++ rest := by
    rw [Document.lineText, hline]
    rfl
  have htyped : d.typed ⟨i + 1, typed.length⟩ = typed := by
    rw [Document.typed, hlineText, String.toList_append, ← String.length_toList, List.take_left,
      String.ofList_toList]
  rw [Document.pathAt_eq, htyped, hlineText, if_neg (by simp only; omega),
    if_neg (by simp only [String.length_append]; omega), Nat.add_sub_cancel, Document.upFrom_eq_take]

theorem pathAt_before_key
    (htext : d.texts[i]? = some (spaces (2 * parent.length) ++ rest))
    (habove : climb (2 * parent.length) (d.texts.take i).reverse = parent.reverse) :
    d.pathAt ⟨i + 1, 2 * parent.length⟩ = .ok ⟨parent, none⟩ := by
  have hpath := pathAt_of_line htext
  rw [length_spaces, CursorPath.enclosing_eq, Line.indentation_spaces, habove, List.reverse_reverse,
    Line.bareKey_spaces] at hpath
  exact hpath

theorem pathAt_behind_key (hkey : Line.PlainKey key)
    (htext : d.texts[i]? = some (spaces (2 * parent.length) ++ (key ++ rest)))
    (habove : climb (2 * parent.length) (d.texts.take i).reverse = parent.reverse) :
    d.pathAt ⟨i + 1, 2 * parent.length + key.length⟩ = .ok ⟨parent, some key⟩ := by
  have hindent := hkey.indentation_append (2 * parent.length) ""
  rw [String.append_empty] at hindent
  rw [← String.append_assoc] at htext
  have hpath := pathAt_of_line htext
  rw [String.length_append, length_spaces, CursorPath.enclosing_eq, hindent, habove,
    List.reverse_reverse, hkey.bareKey_append] at hpath
  exact hpath

end cursors

/-- **Paths inside a rendered tree.** An object that is not empty, whose keys can stand on a line and whose
scalar texts hold no line feed, is rendered with one line for each of its entries, an object before what it
holds. The line of an entry is indented by two columns for each key before the last one of its path; at that
column the path has just these keys, and behind the key of the line it is the path of the entry. -/
theorem toYaml_paths (name : String) (fields : List (String × Tree)) (hne : fields ≠ [])
    (h : (object fields).OnLines) :
    let d : Document := ⟨name, toYaml 0 (object fields)⟩
    let entries := preorderOf [] 0 fields
    d.lineCount = (flatten (object fields)).length ∧ entries.Perm (flatten (object fields)) ∧
      ∀ i e, entries[i]? = some e →
        d.indentAt (i + 1) = 2 * (e.path.length - 1) ∧
        d.pathAt ⟨i + 1, 2 * (e.path.length - 1)⟩ = .ok ⟨e.path.dropLast, none⟩ ∧
        ∃ path, d.pathAt ⟨i + 1, 2 * (e.path.length - 1) + e.key.length⟩ = .ok path ∧
          path.elements = e.path := by
  intro d entries
  have hfollows : Follows [] d.texts (entries.map Entry.path) :=
    texts_toYaml name hne h ▸ follows_fieldLines [] 0 [] fields h rfl
  have hperm : entries.Perm (flatten (object fields)) :=
    (preorderOf_perm [] 0 fields).trans (List.mergeSort_perm _ _).symm
  have hlength : d.texts.length = entries.length := by simpa using hfollows.length_eq
  refine ⟨?_, hperm, fun i e he => ?_⟩
  · rw [← hperm.length_eq, ← hlength, Document.texts, List.length_map]
    rfl
  · have hi : i < entries.length := (List.getElem?_eq_some_iff.mp he).1
    obtain ⟨text, htext⟩ : ∃ text, d.texts[i]? = some text :=
      ⟨_, List.getElem?_eq_getElem (by omega)⟩
    obtain ⟨parent, key, rest, hpath, hkey, rfl, habove⟩ :=
      hfollows.isLineOf i text e.path htext (by rw [List.getElem?_map, he]; rfl)
    rw [List.append_nil] at habove
    have hdepth : e.path.length - 1 = parent.length := by simp [hpath]
    have hlast : e.key = key := by simp [Entry.key, hpath]
    rw [hdepth, hlast, hpath, List.dropLast_concat]
    refine ⟨?_, pathAt_before_key htext habove, _, pathAt_behind_key hkey htext habove, rfl⟩
    rw [Document.indentAt_eq ((d.line?_succ_eq i).trans htext), hkey.indentation_append]

/-- The second line of a rendered tree, `  user: "x"`, is that of `auth.user`, also if its text ends with a
carriage return. -/
theorem toYaml_paths_auth :
    let fields := [("auth", object [("user", scalar "\"x\"\r" .string)]), ("tls", empty)]
    fields ≠ [] ∧ (object fields).OnLines ∧
      ∃ path, (⟨"values.yaml", toYaml 0 (object fields)⟩ : Document).pathAt ⟨2, 6⟩ = .ok path ∧
        path.elements = ["auth", "user"] := by
  intro fields
  have hlines : (object fields).OnLines :=
    ⟨(by decide : Line.PlainKey "auth"), ⟨(by decide : Line.PlainKey "user"),
      (by decide : '\n' ∉ "\"x\"\r".toList), trivial⟩, (by decide : Line.PlainKey "tls"), trivial, trivial⟩
  obtain ⟨-, -, hentries⟩ := toYaml_paths "values.yaml" fields (List.cons_ne_nil _ _) hlines
  obtain ⟨-, -, hpath⟩ := hentries 1 (Entry.ofNode ["auth", "user"] (scalar "\"x\"\r" .string) 0)
    (by decide +kernel)
  exact ⟨List.cons_ne_nil _ _, hlines, hpath⟩

end Tree

end ChartValues
