import Mathlib.Data.List.Dedup
import ChartValues.Proofs.Cache.Step

/-!
# The history of a cache

A cache is used by operations, one after another, and its provider may answer every call differently.
`run_history` says what holds after any operations on an empty cache: the counters count requests and calls,
the trees are those of the calls that succeeded, a chart that succeeded once is never asked for again and
keeps its tree, and a failed request passes on the provider's own error.

The calls are observed through a recorded provider (`Session`). All follows from `Session.Traced`: the trees
of the cache are the trees of the calls that succeeded, in order, and no call follows one for the same chart
that succeeded.
-/

namespace ChartValues.Cache

inductive Operation where
  | getOrFetch (chartRef : String) (cancelled : Bool)
  | get (chartRef : String)
  | contains (chartRef : String)

/-- Whether the operation may have to fetch. -/
def Operation.isRequest : Operation → Bool
  | getOrFetch _ _ => true
  | get _ => false
  | contains _ => false

inductive Outcome where
  | fetched (result : Except FetchError Tree)
  | found (tree : Option Tree)
  | known (isThere : Bool)

/-- A cache in use: the state of its provider and the calls that the provider has got so far. -/
structure Session (σ : Type) where
  cache : Cache := {}
  state : σ
  calls : List Call := []

namespace Session

variable {σ : Type} {p : Provider σ} {t : Session σ} {ref : String} {cancelled : Bool} {tree : Tree}

def perform (p : Provider σ) (t : Session σ) : Operation → Outcome × Session σ
  | .getOrFetch ref cancelled =>
    let (result, cache, state, calls) :=
      t.cache.getOrFetch p.recorded ref cancelled (t.state, t.calls)
    (.fetched result, ⟨cache, state, calls⟩)
  | .get ref => (.found (t.cache.get? ref), t)
  | .contains ref => (.known (t.cache.contains ref), t)

def run (p : Provider σ) (t : Session σ) (operations : List Operation) : Session σ :=
  operations.foldl (fun t operation => (t.perform p operation).2) t

/-! ## One operation -/

theorem perform_of_hit (h : t.cache.get? ref = some tree) :
    t.perform p (.getOrFetch ref cancelled) =
      (.fetched (.ok tree), { t with cache := { t.cache with hits := t.cache.hits + 1 } }) := by
  rw [perform, getOrFetch_of_hit h]

theorem perform_cases (p : Provider σ) (t : Session σ) (ref : String) (cancelled : Bool) :
    (∃ tree, t.cache.get? ref = some tree ∧ t.perform p (.getOrFetch ref cancelled) =
      (.fetched (.ok tree), { t with cache := { t.cache with hits := t.cache.hits + 1 } })) ∨
    (∃ tree state, t.cache.get? ref = none ∧ t.perform p (.getOrFetch ref cancelled) =
      (.fetched (.ok tree),
        ⟨{ t.cache with
            trees := t.cache.trees ++ [(ref, tree)], misses := t.cache.misses + 1 },
          state, t.calls ++ [⟨ref, .ok tree⟩]⟩)) ∨
    (∃ e state, t.cache.get? ref = none ∧ t.perform p (.getOrFetch ref cancelled) =
      (.fetched (.error e),
        ⟨{ t.cache with misses := t.cache.misses + 1 }, state, t.calls ++ [⟨ref, .error e⟩]⟩)) := by
  have hrecorded := t.cache.getOrFetch_recorded p ref cancelled t.state t.calls
  rcases t.cache.getOrFetch_cases p ref cancelled t.state with
    ⟨tree, hget, -⟩ | ⟨tree, state, hget, hfetch, heq⟩ | ⟨e, state, hget, hfetch, heq⟩
  · exact Or.inl ⟨tree, hget, perform_of_hit hget⟩
  · rw [heq, hfetch, contains_eq_false_iff.mpr hget, Tree.insert_of_lookup_eq_none tree hget]
      at hrecorded
    refine Or.inr (Or.inl ⟨tree, state, hget, ?_⟩)
    rw [perform, hrecorded]
    rfl
  · rw [heq, hfetch, contains_eq_false_iff.mpr hget] at hrecorded
    refine Or.inr (Or.inr ⟨e, state, hget, ?_⟩)
    rw [perform, hrecorded]
    rfl

theorem keeps_perform (p : Provider σ) (t : Session σ) (operation : Operation) :
    t.cache.Keeps (t.perform p operation).2.cache := by
  cases operation with
  | getOrFetch ref cancelled =>
    exact keeps_getOrFetch t.cache p.recorded ref cancelled (t.state, t.calls)
  | get ref => exact Keeps.refl _
  | contains ref => exact Keeps.refl _

theorem count_perform (p : Provider σ) (t : Session σ) (operation : Operation) :
    (t.perform p operation).2.cache.hits + (t.perform p operation).2.cache.misses =
      t.cache.hits + t.cache.misses + if operation.isRequest then 1 else 0 := by
  cases operation with
  | getOrFetch ref cancelled =>
    rcases perform_cases p t ref cancelled with ⟨_, -, heq⟩ | ⟨_, _, -, heq⟩ | ⟨_, _, -, heq⟩ <;>
      · rw [heq]
        simp only [Operation.isRequest, if_true]
        omega
  | get ref => rfl
  | contains ref => rfl

/-! ## The trace -/

/-- The call `b` may follow the call `a`: it is for another chart if `a` succeeded. -/
def MayFollow (a b : Call) : Prop := ∀ tree, a.result = .ok tree → b.chartRef ≠ a.chartRef

/-- How the cache of a session follows from the calls of its provider. -/
structure Traced (t : Session σ) : Prop where
  misses : t.cache.misses = t.calls.length
  trees : t.cache.trees = t.calls.filterMap Call.success?
  once : t.calls.Pairwise MayFollow

namespace Traced

theorem nodup_keys (h : Traced t) :
    ((t.calls.filterMap Call.success?).map Prod.fst).Nodup := by
  refine List.pairwise_map.mpr (h.once.filterMap _ ?_)
  rintro a b hab ⟨ref, tree⟩ ha ⟨ref', tree'⟩ hb
  rw [Call.success?_eq_some] at ha hb
  subst ha hb
  exact (hab tree rfl).symm

theorem get?_eq_some_iff (h : Traced t) :
    t.cache.get? ref = some tree ↔ (⟨ref, .ok tree⟩ : Call) ∈ t.calls := by
  have hmem : (ref, tree) ∈ t.calls.filterMap Call.success? ↔
      (⟨ref, .ok tree⟩ : Call) ∈ t.calls := by
    simp only [List.mem_filterMap, Call.success?_eq_some, exists_eq_right]
  rw [← hmem, get?, h.trees]
  exact ⟨Tree.mem_of_lookup, Tree.lookup_of_mem h.nodup_keys⟩

theorem once_append (h : Traced t) (hget : t.cache.get? ref = none)
    (result : Except FetchError Tree) : List.Pairwise MayFollow (t.calls ++ [⟨ref, result⟩]) := by
  refine List.pairwise_append.mpr ⟨h.once, List.pairwise_singleton _ _, ?_⟩
  rintro ⟨ref', result'⟩ ha b hb tree (rfl : result' = .ok tree) hne
  obtain rfl := List.mem_singleton.mp hb
  obtain rfl : ref = ref' := hne
  simp [h.get?_eq_some_iff.mpr ha] at hget

theorem perform (h : Traced t) (operation : Operation) : Traced (t.perform p operation).2 := by
  cases operation with
  | getOrFetch ref cancelled =>
    rcases perform_cases p t ref cancelled with
      ⟨tree, -, heq⟩ | ⟨tree, state, hget, heq⟩ | ⟨e, state, hget, heq⟩
    · rw [heq]
      exact ⟨h.misses, h.trees, h.once⟩
    · rw [heq]
      refine ⟨?_, ?_, h.once_append hget _⟩
      · simp [h.misses]
      · simp [h.trees, Call.success?, Except.toOption]
    · rw [heq]
      refine ⟨?_, ?_, h.once_append hget _⟩
      · simp [h.misses]
      · simp [h.trees, Call.success?, Except.toOption]
  | get ref => exact h
  | contains ref => exact h

theorem ne_of_append (h : Traced t) {before after : List Call}
    (hcalls : t.calls = before ++ ⟨ref, .ok tree⟩ :: after) : ∀ call ∈ after, call.chartRef ≠ ref := by
  intro call hcall
  have honce := h.once
  rw [hcalls] at honce
  exact (List.pairwise_cons.mp (List.pairwise_append.mp honce).2.1).1 call hcall tree rfl

end Traced

/-! ## A whole run -/

theorem keeps_run (p : Provider σ) (t : Session σ) (operations : List Operation) :
    t.cache.Keeps (t.run p operations).cache := by
  induction operations generalizing t with
  | nil => exact Keeps.refl _
  | cons operation rest ih => exact (keeps_perform p t operation).trans (ih _)

theorem traced_run (p : Provider σ) (h : Traced t) (operations : List Operation) :
    Traced (t.run p operations) := by
  induction operations generalizing t with
  | nil => exact h
  | cons operation rest ih => exact ih (h.perform operation)

theorem count_run (p : Provider σ) (t : Session σ) (operations : List Operation) :
    (t.run p operations).cache.hits + (t.run p operations).cache.misses =
      t.cache.hits + t.cache.misses + operations.countP Operation.isRequest := by
  induction operations generalizing t with
  | nil => rfl
  | cons operation rest ih =>
    have hrest := ih (t.perform p operation).2
    have hfirst := count_perform p t operation
    rw [List.countP_cons]
    rw [run, List.foldl_cons]
    rw [run] at hrest
    omega

theorem traced_start (state : σ) : Traced (⟨{}, state, []⟩ : Session σ) :=
  ⟨rfl, rfl, List.Pairwise.nil⟩

/-- **The history of a cache.** After any operations on an empty cache: hits and misses together count
the requests, misses count the calls of the provider, and a chart is there if and only if a call for it has
succeeded. After the first such call there is no other for that chart, and whatever is done later, a request
for it makes no call and gives that tree, as does a look-up. A request that fails gives the error of the call
that it made and changes nothing but the misses. The size is the number of distinct charts that have
succeeded. -/
theorem run_history (p : Provider σ) (state : σ) (operations : List Operation) :
    let t := run p { state } operations
    t.cache.hits + t.cache.misses = operations.countP Operation.isRequest ∧
    t.cache.misses = t.calls.length ∧
    (∀ ref, t.cache.contains ref = true ↔ ∃ tree, (⟨ref, .ok tree⟩ : Call) ∈ t.calls) ∧
    (∀ before ref tree after, t.calls = before ++ ⟨ref, .ok tree⟩ :: after →
      (∀ call ∈ after, call.chartRef ≠ ref) ∧
      ∀ later, let u := t.run p later
        (∀ cancelled, u.perform p (.getOrFetch ref cancelled) =
          (.fetched (.ok tree), { u with cache := { u.cache with hits := u.cache.hits + 1 } })) ∧
        u.perform p (.get ref) = (.found (some tree), u)) ∧
    (∀ ref cancelled e u, t.perform p (.getOrFetch ref cancelled) = (.fetched (.error e), u) →
      u.calls = t.calls ++ [⟨ref, .error e⟩] ∧
      u.cache = { t.cache with misses := t.cache.misses + 1 }) ∧
    t.cache.size = ((t.calls.filterMap Call.success?).map Prod.fst).dedup.length := by
  intro t
  have ht : Traced t := traced_run p (traced_start state) operations
  refine ⟨?_, ht.misses, fun ref => ?_, fun before ref tree after hcalls => ⟨?_, fun later => ?_⟩,
    fun ref cancelled e u hu => ?_, ?_⟩
  · simpa using count_run p { state } operations
  · simp only [contains_eq_true_iff, ht.get?_eq_some_iff]
  · exact ht.ne_of_append hcalls
  · have hget : t.cache.get? ref = some tree := ht.get?_eq_some_iff.mpr (by simp [hcalls])
    have hlater : (t.run p later).cache.get? ref = some tree := keeps_run p t later ref tree hget
    exact ⟨fun cancelled => perform_of_hit hlater, by rw [perform, hlater]⟩
  · rcases perform_cases p t ref cancelled with
      ⟨_, -, heq⟩ | ⟨_, _, -, heq⟩ | ⟨e', state', -, heq⟩
    · simp [heq] at hu
    · simp [heq] at hu
    · rw [heq] at hu
      obtain ⟨houtcome, rfl⟩ := Prod.mk.inj hu
      obtain rfl : e' = e := by simpa using houtcome
      exact ⟨rfl, rfl⟩
  · rw [ht.nodup_keys.dedup, List.length_map, ← ht.trees]
    rfl

/-- A provider that gives the answers of a list, one at each call, and then always the error `last`. -/
def scripted (last : FetchError) : Provider (List (Except FetchError Tree)) where
  fetch _ _
    | [] => (.error last, [])
    | answer :: rest => (answer, rest)

/-- The first request for `a/b` fails and the second one succeeds; a third one gives the same tree,
although the provider would now give another. -/
theorem run_history_scripted :
    let e : FetchError := ⟨.timedOut, "a/b", "no result after 5 ms"⟩
    let tree : Tree := .object [("port", .number "80")]
    let request : Operation := .getOrFetch "a/b" false
    let t := run (scripted e) { state := [.error e, .ok tree, .ok .empty] }
      [request, .get "a/b", request]
    t.calls = [⟨"a/b", .error e⟩] ++ ⟨"a/b", .ok tree⟩ :: [] ∧ t.cache.hits + t.cache.misses = 2 ∧
      (t.perform (scripted e) request).1 = .fetched (.ok tree) := by
  intro e tree request t
  have hcalls : t.calls = [⟨"a/b", .error e⟩] ++ ⟨"a/b", .ok tree⟩ :: [] := rfl
  have hrun := run_history (scripted e) [.error e, .ok tree, .ok .empty]
    [request, .get "a/b", request]
  have hthird := ((hrun.2.2.2.1 _ _ _ _ hcalls).2 []).1 false
  exact ⟨hcalls, hrun.1, congrArg Prod.fst hthird⟩

end Session

end ChartValues.Cache
