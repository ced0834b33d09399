import Mathlib.Data.List.Induction
import Mathlib.Data.List.Nodup
import ChartValues.Tree.OfYaml

/-!
# Trees whose objects have distinct keys

An object lists its children, so nothing in the type keeps a key from standing twice. `UniqueKeys` says
that no object of a tree repeats a key. Every tree read from YAML satisfies it (`ofYaml_uniqueKeys`), and
it passes to every node that a path leads to (`UniqueKeys.get?`).
-/

namespace ChartValues.Tree

mutual

/-- Every object at or below the node has distinct keys. -/
def UniqueKeys : Tree → Prop
  | scalar _ _ => True
  | object fields => (fields.map Prod.fst).Nodup ∧ UniqueKeysBelow fields

/-- Every object at or below one of the children has distinct keys. -/
def UniqueKeysBelow : List (String × Tree) → Prop
  | [] => True
  | (_, child) :: rest => child.UniqueKeys ∧ UniqueKeysBelow rest

end

theorem uniqueKeysBelow_iff {fields : List (String × Tree)} :
    UniqueKeysBelow fields ↔ ∀ field ∈ fields, field.2.UniqueKeys := by
  induction fields with
  | nil => simp [UniqueKeysBelow]
  | cons field rest ih =>
    obtain ⟨key, child⟩ := field
    simp [UniqueKeysBelow, ih]

/-! ## Looking up a key -/

section lookup
variable {α : Type} {key : String} {value : α} {fields : List (String × α)}

theorem mem_of_lookup (h : lookup key fields = some value) : (key, value) ∈ fields := by
  induction fields with
  | nil => simp [lookup] at h
  | cons field rest ih =>
    obtain ⟨k, v⟩ := field
    rw [lookup] at h
    split_ifs at h with hk
    · rw [← hk, Option.some.inj h]
      exact List.mem_cons_self
    · exact List.mem_cons_of_mem _ (ih h)

theorem lookup_of_mem (hnd : (fields.map Prod.fst).Nodup) (h : (key, value) ∈ fields) :
    lookup key fields = some value := by
  induction fields with
  | nil => simp at h
  | cons field rest ih =>
    obtain ⟨k, v⟩ := field
    rw [List.map_cons, List.nodup_cons] at hnd
    rcases List.mem_cons.mp h with heq | hmem
    · obtain ⟨rfl, rfl⟩ := Prod.mk.inj heq
      simp [lookup]
    · have hne : k ≠ key := fun he => hnd.1 (List.mem_map.mpr ⟨(key, value), hmem, he.symm⟩)
      rw [lookup, if_neg hne]
      exact ih hnd.2 hmem

theorem lookup_eq_none_iff : lookup key fields = none ↔ key ∉ fields.map Prod.fst := by
  induction fields with
  | nil => simp [lookup]
  | cons field rest ih =>
    obtain ⟨k, v⟩ := field
    rw [lookup]
    split_ifs with hk
    · simp [hk]
    · simp [Ne.symm hk, ih]

end lookup

/-! ## Following a path -/

theorem get?_cons (t : Tree) (key : String) (path : List String) :
    t.get? (key :: path) = (t.child? key).bind fun child => child.get? path := by
  rw [get?]
  cases t.child? key <;> rfl

theorem get?_append (t : Tree) (path rest : List String) :
    t.get? (path ++ rest) = (t.get? path).bind fun node => node.get? rest := by
  induction path generalizing t with
  | nil => rfl
  | cons key path ih =>
    rw [List.cons_append, get?_cons, get?_cons]
    cases t.child? key with
    | none => rfl
    | some child => exact ih child

theorem get?_append_key {t : Tree} {path : List String} {fields : List (String × Tree)}
    (h : t.get? path = some (object fields)) (key : String) :
    t.get? (path ++ [key]) = lookup key fields := by
  rw [get?_append, h]
  show (object fields).get? [key] = lookup key fields
  rw [get?_cons]
  show ((lookup key fields).bind fun child => some child) = lookup key fields
  cases lookup key fields <;> rfl

theorem UniqueKeys.child? {t child : Tree} {key : String} (ht : t.UniqueKeys)
    (h : t.child? key = some child) : child.UniqueKeys := by
  cases t with
  | scalar text kind => simp [Tree.child?] at h
  | object fields => exact uniqueKeysBelow_iff.mp ht.2 _ (mem_of_lookup h)

theorem UniqueKeys.get? {t node : Tree} {path : List String} (ht : t.UniqueKeys)
    (h : t.get? path = some node) : node.UniqueKeys := by
  induction path generalizing t with
  | nil => exact Option.some.inj h ▸ ht
  | cons key path ih =>
    rw [get?_cons, Option.bind_eq_some_iff] at h
    obtain ⟨child, hchild, hrest⟩ := h
    exact ih (ht.child? hchild) hrest

/-! ## Trees from YAML -/

section insert
variable {α : Type}

theorem lookup_insert (key : String) (value : α) (fields : List (String × α)) (k : String) :
    lookup k (insert key value fields) = if key = k then some value else lookup k fields := by
  induction fields with
  | nil => rfl
  | cons field rest ih =>
    obtain ⟨k', v⟩ := field
    by_cases hk' : k' = key
    · subst hk'
      by_cases hk : k' = k <;> simp [insert, lookup, hk]
    · rw [insert, if_neg hk', lookup, ih, lookup]
      by_cases hk : key = k
      · rw [if_pos hk, if_pos hk, if_neg (hk ▸ hk')]
      · rw [if_neg hk, if_neg hk]

theorem insert_of_lookup_eq_none {key : String} (value : α) {fields : List (String × α)}
    (h : lookup key fields = none) : insert key value fields = fields ++ [(key, value)] := by
  induction fields with
  | nil => rfl
  | cons field rest ih =>
    obtain ⟨k, v⟩ := field
    rw [lookup] at h
    split_ifs at h with hk
    rw [insert, if_neg hk, ih h]
    rfl

theorem keys_insert (key : String) (value : α) (fields : List (String × α)) :
    (insert key value fields).map Prod.fst =
      if key ∈ fields.map Prod.fst then fields.map Prod.fst else fields.map Prod.fst ++ [key] := by
  induction fields with
  | nil => simp [insert]
  | cons field rest ih =>
    obtain ⟨k, v⟩ := field
    by_cases hk : k = key
    · simp [insert, hk]
    · simp only [insert, if_neg hk, List.map_cons, ih, List.mem_cons, Ne.symm hk, false_or]
      split_ifs <;> rfl

theorem nodup_keys_insert (key : String) (value : α) {fields : List (String × α)}
    (h : (fields.map Prod.fst).Nodup) : ((insert key value fields).map Prod.fst).Nodup := by
  rw [keys_insert]
  split_ifs with hmem
  · exact h
  · exact List.nodup_append.mpr ⟨h, List.nodup_singleton key, by
      rintro a ha b hb rfl
      exact hmem (List.mem_singleton.mp hb ▸ ha)⟩

theorem eq_or_mem_of_mem_insert {key : String} {value : α} {fields : List (String × α)} {field : String × α}
    (h : field ∈ insert key value fields) : field = (key, value) ∨ field ∈ fields := by
  induction fields with
  | nil => exact .inl (List.mem_singleton.mp h)
  | cons head rest ih =>
    obtain ⟨k, v⟩ := head
    rw [insert] at h
    split_ifs at h with hk
    · subst hk
      exact (List.mem_cons.mp h).imp_right (List.mem_cons_of_mem _)
    · rcases List.mem_cons.mp h with rfl | hrest
      · exact .inr List.mem_cons_self
      · exact (ih hrest).imp_right (List.mem_cons_of_mem _)

end insert

section ofPairs
variable {α : Type} {pairs : List (String × α)}

theorem ofPairs_concat (pairs : List (String × α)) (pair : String × α) :
    ofPairs (pairs ++ [pair]) = insert pair.1 pair.2 (ofPairs pairs) := by
  rw [ofPairs, ofPairs, List.foldl_append]
  rfl

theorem nodup_keys_ofPairs (pairs : List (String × α)) : ((ofPairs pairs).map Prod.fst).Nodup := by
  induction pairs using List.reverseRecOn with
  | nil => exact List.nodup_nil
  | append_singleton pairs pair ih =>
    rw [ofPairs_concat]
    exact nodup_keys_insert _ _ ih

theorem mem_of_mem_ofPairs {field : String × α} (h : field ∈ ofPairs pairs) : field ∈ pairs := by
  induction pairs using List.reverseRecOn with
  | nil => exact h
  | append_singleton pairs pair ih =>
    rw [ofPairs_concat] at h
    rcases eq_or_mem_of_mem_insert h with rfl | h
    · exact List.mem_append_right _ (List.mem_singleton_self _)
    · exact List.mem_append_left _ (ih h)

theorem ofPairs_of_nodup (h : (pairs.map Prod.fst).Nodup) : ofPairs pairs = pairs := by
  induction pairs using List.reverseRecOn with
  | nil => rfl
  | append_singleton pairs pair ih =>
    rw [List.map_append, List.nodup_append] at h
    have hnew : pair.1 ∉ pairs.map Prod.fst := fun hmem => h.2.2 _ hmem _ (List.mem_singleton_self _) rfl
    rw [ofPairs_concat, ih h.1, insert_of_lookup_eq_none _ (lookup_eq_none_iff.mpr hnew)]

end ofPairs

mutual

/-- **A tree read from YAML never repeats a key.** -/
theorem ofYaml_uniqueKeys : ∀ value : Yaml.Value, (ofYaml value).UniqueKeys
  | .mapping pairs => by
    rw [ofYaml]
    exact ⟨nodup_keys_ofPairs _, uniqueKeysBelow_iff.mpr fun field hfield =>
      fieldsOfYaml_uniqueKeys pairs field (mem_of_mem_ofPairs hfield)⟩
  | .string _ => trivial
  | .number _ => trivial
  | .boolean _ => trivial
  | .null => trivial
  | .sequence _ => trivial
  | .tagged _ value => by
    rw [ofYaml]
    exact ofYaml_uniqueKeys value

theorem fieldsOfYaml_uniqueKeys : ∀ (pairs : List (Yaml.Value × Yaml.Value)),
    ∀ field ∈ fieldsOfYaml pairs, field.2.UniqueKeys
  | [] => by simp [fieldsOfYaml]
  | (key, value) :: rest => by
    intro field hfield
    rw [fieldsOfYaml] at hfield
    rcases List.mem_cons.mp hfield with rfl | hrest
    · exact ofYaml_uniqueKeys value
    · exact fieldsOfYaml_uniqueKeys rest field hrest

end

end ChartValues.Tree
