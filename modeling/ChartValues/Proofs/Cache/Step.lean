import ChartValues.Cache
import ChartValues.Proofs.Fetch.Provider

/-!
# One request to the cache

A request for a chart ends in one of three ways (`getOrFetch_cases`): the tree is there and only `hits`
changes; the provider gives a tree, which is stored under the chart, where none was; or the provider gives
an error, which is passed on, and only `misses` changes. A tree that is stored is found right away, so the
error of a lost entry never arises.
-/

namespace ChartValues.Cache

variable {σ : Type} {c : Cache} {p : Provider σ} {ref : String} {cancelled : Bool} {s s' : σ}
  {tree : Tree} {e : FetchError}

theorem contains_eq_true_iff : c.contains ref = true ↔ ∃ tree, c.get? ref = some tree :=
  Option.isSome_iff_exists

theorem contains_eq_false_iff : c.contains ref = false ↔ c.get? ref = none := by
  simp [contains]

theorem stored_of_get? (h : c.get? ref = some tree) : c.stored ref = .ok tree := by
  rw [stored, h]

theorem get?_insert (c : Cache) (ref : String) (tree : Tree) (hits misses : Nat) (ref' : String) :
    get? ⟨Tree.insert ref tree c.trees, hits, misses⟩ ref' =
      if ref = ref' then some tree else c.get? ref' :=
  Tree.lookup_insert ref tree c.trees ref'

/-! ## The three ways -/

theorem getOrFetch_of_hit (h : c.get? ref = some tree) :
    c.getOrFetch p ref cancelled s = (.ok tree, { c with hits := c.hits + 1 }, s) := by
  have hstored : stored { c with hits := c.hits + 1 } ref = .ok tree := stored_of_get? h
  rw [getOrFetch, if_pos (contains_eq_true_iff.mpr ⟨tree, h⟩)]
  simp only [hstored]

theorem getOrFetch_of_ok (h : c.get? ref = none)
    (hfetch : p.fetch ref cancelled s = (.ok tree, s')) :
    c.getOrFetch p ref cancelled s =
      (.ok tree, { c with trees := Tree.insert ref tree c.trees, misses := c.misses + 1 }, s') := by
  have hget : get? ⟨Tree.insert ref tree c.trees, c.hits, c.misses + 1⟩ ref = some tree := by
    rw [get?_insert, if_pos rfl]
  rw [getOrFetch, contains_eq_false_iff.mpr h]
  simp only [Bool.false_eq_true, if_false, hfetch, stored_of_get? hget]

theorem getOrFetch_of_error (h : c.get? ref = none)
    (hfetch : p.fetch ref cancelled s = (.error e, s')) :
    c.getOrFetch p ref cancelled s = (.error e, { c with misses := c.misses + 1 }, s') := by
  rw [getOrFetch, contains_eq_false_iff.mpr h]
  simp only [Bool.false_eq_true, if_false, hfetch]

theorem getOrFetch_cases (c : Cache) (p : Provider σ) (ref : String) (cancelled : Bool) (s : σ) :
    (∃ tree, c.get? ref = some tree ∧
      c.getOrFetch p ref cancelled s = (.ok tree, { c with hits := c.hits + 1 }, s)) ∨
    (∃ tree s', c.get? ref = none ∧ p.fetch ref cancelled s = (.ok tree, s') ∧
      c.getOrFetch p ref cancelled s =
        (.ok tree, { c with trees := Tree.insert ref tree c.trees, misses := c.misses + 1 }, s')) ∨
    (∃ e s', c.get? ref = none ∧ p.fetch ref cancelled s = (.error e, s') ∧
      c.getOrFetch p ref cancelled s = (.error e, { c with misses := c.misses + 1 }, s')) := by
  cases hget : c.get? ref with
  | some tree => exact Or.inl ⟨tree, rfl, getOrFetch_of_hit hget⟩
  | none =>
    obtain ⟨result, s', hfetch⟩ : ∃ result s', p.fetch ref cancelled s = (result, s') := ⟨_, _, rfl⟩
    cases result with
    | ok tree => exact Or.inr (Or.inl ⟨tree, s', rfl, hfetch, getOrFetch_of_ok hget hfetch⟩)
    | error e => exact Or.inr (Or.inr ⟨e, s', rfl, hfetch, getOrFetch_of_error hget hfetch⟩)

/-! ## What is kept -/

/-- Every tree of `c` is in `c'`. -/
def Keeps (c c' : Cache) : Prop := ∀ ref tree, c.get? ref = some tree → c'.get? ref = some tree

theorem Keeps.refl (c : Cache) : c.Keeps c := fun _ _ h => h

theorem Keeps.trans {c₁ c₂ c₃ : Cache} (h : c₁.Keeps c₂) (h' : c₂.Keeps c₃) : c₁.Keeps c₃ :=
  fun ref tree hget => h' ref tree (h ref tree hget)

theorem keeps_getOrFetch (c : Cache) (p : Provider σ) (ref : String) (cancelled : Bool) (s : σ) :
    c.Keeps (c.getOrFetch p ref cancelled s).2.1 := by
  rcases c.getOrFetch_cases p ref cancelled s with
    ⟨tree, -, heq⟩ | ⟨tree, s', hnone, -, heq⟩ | ⟨e, s', -, -, heq⟩
  · rw [heq]
    exact Keeps.refl c
  · rw [heq]
    intro ref' tree' hget
    have hne : ref ≠ ref' := by
      rintro rfl
      simp [hnone] at hget
    rw [get?_insert, if_neg hne]
    exact hget
  · rw [heq]
    exact Keeps.refl c

theorem get?_of_getOrFetch (h : (c.getOrFetch p ref cancelled s).1 = .ok tree) :
    (c.getOrFetch p ref cancelled s).2.1.get? ref = some tree := by
  rcases c.getOrFetch_cases p ref cancelled s with
    ⟨tree', hget, heq⟩ | ⟨tree', s', -, -, heq⟩ | ⟨e, s', -, -, heq⟩
  · rw [heq] at h ⊢
    exact hget.trans (congrArg some (Except.ok.inj h))
  · rw [heq] at h ⊢
    rw [get?_insert, if_pos rfl]
    exact congrArg some (Except.ok.inj h)
  · rw [heq] at h
    simp at h

theorem get?_getOrFetch_cases {ref' : String}
    (h : (c.getOrFetch p ref cancelled s).2.1.get? ref' = some tree) :
    c.get? ref' = some tree ∨ (p.fetch ref cancelled s).1 = .ok tree := by
  rcases c.getOrFetch_cases p ref cancelled s with
    ⟨tree', -, heq⟩ | ⟨tree', s', -, hfetch, heq⟩ | ⟨e, s', -, -, heq⟩
  · rw [heq] at h
    exact Or.inl h
  · rw [heq, get?_insert] at h
    split_ifs at h with href
    · exact Or.inr (by rw [hfetch, Option.some.inj h])
    · exact Or.inl h
  · rw [heq] at h
    exact Or.inl h

/-! ## Calls of the provider -/

theorem getOrFetch_recorded (c : Cache) (p : Provider σ) (ref : String) (cancelled : Bool) (s : σ)
    (calls : List Call) :
    c.getOrFetch p.recorded ref cancelled (s, calls) =
      ((c.getOrFetch p ref cancelled s).1, (c.getOrFetch p ref cancelled s).2.1,
        (c.getOrFetch p ref cancelled s).2.2,
        calls ++ if c.contains ref then [] else [⟨ref, (p.fetch ref cancelled s).1⟩]) := by
  have hrecorded := p.fetch_recorded ref cancelled s calls
  rcases c.getOrFetch_cases p ref cancelled s with
    ⟨tree, hget, heq⟩ | ⟨tree, s', hget, hfetch, heq⟩ | ⟨e, s', hget, hfetch, heq⟩
  · rw [getOrFetch_of_hit hget, heq, contains_eq_true_iff.mpr ⟨tree, hget⟩]
    simp
  · rw [hfetch] at hrecorded
    rw [getOrFetch_of_ok hget hrecorded, heq, hfetch, contains_eq_false_iff.mpr hget]
    simp
  · rw [hfetch] at hrecorded
    rw [getOrFetch_of_error hget hrecorded, heq, hfetch, contains_eq_false_iff.mpr hget]
    simp

end ChartValues.Cache
