import ChartValues.Completion
import ChartValues.Proofs.Tree.Level

/-!
# The items of a response

The items that complete a path in a tree are one level of the tree: one for each child of the object that
the path leads to, those that hold objects first (`shows_itemsIn`). What an item says of its child is told
by `Item.Shows`; its origin leads back to the child (`exists_shows_of_mem_itemsIn`).
-/

namespace ChartValues

/-- `item` offers the key `key` of the object at `parent` in the values of `chartRef`, and `node` is what
the key holds. -/
structure Item.Shows (chartRef : String) (parent : List String) (key : String) (node : Tree)
    (item : Item) : Prop where
  label : item.label = key
  origin : item.origin = ⟨chartRef, parent ++ [key]⟩
  kind : item.kind = if node.isObject then .object else .value
  insertText : item.insertText = match node with
    | .object _ => key ++ ":"
    | .scalar text _ => key ++ ": " ++ text
  detail : item.detail = match node with
    | .object _ => none
    | .scalar text kind => some (text ++ " (" ++ kind.name ++ ")")
  documentation : item.documentation = none

variable {tree : Tree} {path : CursorPath} {topKey chartRef : String} {relative : List String}
  {range : EditRange} {item : Item}

theorem Entry.FieldCandidate.shows_item {parent : List String} {field : String × Tree}
    {c : Candidate} (h : FieldCandidate parent field c) :
    (Item.ofCandidate c chartRef range).Shows chartRef parent field.1 field.2 := by
  obtain ⟨n, rfl⟩ := h
  obtain ⟨key, node⟩ := field
  cases node with
  | object fields => exact ⟨rfl, rfl, rfl, rfl, rfl, rfl⟩
  | scalar text kind => exact ⟨rfl, rfl, rfl, rfl, rfl, rfl⟩

theorem shows_itemsIn (ht : tree.UniqueKeys) (hpath : path.relativeTo topKey = some relative) :
    List.Forall₂ (fun field => Item.Shows chartRef relative field.1 field.2)
      (Tree.objectsFirst (tree.childrenAt relative))
      (itemsIn tree path topKey chartRef range) := by
  rw [itemsIn, candidates, hpath, List.forall₂_map_right_iff]
  exact (Entry.candidatesBelow_flatten ht relative).imp fun _ _ h => h.shows_item

theorem Tree.get?_of_mem_childrenAt (ht : tree.UniqueKeys) {key : String} {node : Tree}
    (h : (key, node) ∈ tree.childrenAt relative) : tree.get? (relative ++ [key]) = some node := by
  rw [childrenAt] at h
  cases hget : tree.get? relative with
  | none => simp [hget] at h
  | some parent =>
    rw [hget] at h
    cases parent with
    | scalar text kind => simp [children, fields?] at h
    | object fields =>
      rw [get?_append_key hget]
      exact lookup_of_mem (ht.get? hget).1 h

theorem exists_shows_of_mem_itemsIn (ht : tree.UniqueKeys)
    (hpath : path.relativeTo topKey = some relative)
    (h : item ∈ itemsIn tree path topKey chartRef range) :
    ∃ key node, tree.get? (relative ++ [key]) = some node ∧
      item.Shows chartRef relative key node := by
  have hshows : List.Forall₂ (fun field => Item.Shows chartRef relative field.1 field.2)
      (Tree.objectsFirst (tree.childrenAt relative)) (itemsIn tree path topKey chartRef range) :=
    shows_itemsIn ht hpath
  obtain ⟨i, hi, rfl⟩ := List.getElem_of_mem h
  have hlength := hshows.length_eq
  refine ⟨_, _, Tree.get?_of_mem_childrenAt ht ?_, hshows.get (by omega) hi⟩
  exact Tree.mem_objectsFirst.mp (List.getElem_mem _)

end ChartValues
