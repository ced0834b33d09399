import ChartValues.Proofs.Completion.Request

/-!
# What a request ends in

A request ends in one of four ways (`handle_cases`): it needs no values and the source stays as it is; the
cache has the tree; the provider gives the tree; or the provider gives an error. Only the last two call the
provider, once. `handle_outcome` reads off what a host can rely on: a response never mixes items, notices
and cancellation, a host gets it exactly once, the provider is called only for a cursor inside an annotated
block whose chart is not there yet, and a request that comes to nothing leaves the cache alone.
-/

namespace ChartValues

/-! ## Paths and blocks -/

theorem CursorPath.relativeTo_isSome_iff {path : CursorPath} {topKey : String} :
    (∃ relative, path.relativeTo topKey = some relative) ↔
      path.elements = [] ∨ path.first? = some topKey := by
  rw [relativeTo, first?]
  cases path.elements with
  | nil => simp
  | cons root rest =>
    by_cases hroot : root = topKey
    · simp [hroot]
    · simp [hroot]

/-! ## Responses -/

namespace Response

/-- A response tells at most one thing beside its items: a notice, or that the request was cancelled; and
if it tells one, it has no items. -/
structure Exclusive (response : Response) : Prop where
  notices : response.notices.length ≤ 1
  items : response.notices ≠ [] ∨ response.cancelled = true → response.items = []
  cancelled : response.cancelled = true → response.notices = []

theorem exclusive_ofCancelled : ofCancelled.Exclusive :=
  ⟨Nat.zero_le 1, fun _ => rfl, fun _ => rfl⟩

theorem exclusive_ofNotice (notice : Notice) : (ofNotice notice).Exclusive :=
  ⟨Nat.le_refl 1, fun _ => rfl, fun h => absurd h Bool.false_ne_true⟩

theorem exclusive_ofItems (items : List Item) : Exclusive { items } := by
  refine ⟨Nat.zero_le 1, fun h => ?_, fun _ => rfl⟩
  rcases h with h | h
  · exact absurd rfl h
  · exact absurd h Bool.false_ne_true

end Response

namespace Request

theorem exclusive_idle (r : Request) : r.idle.Exclusive := by
  rw [idle]
  split_ifs
  · exact Response.exclusive_ofCancelled
  · cases r.document.plan r.position with
    | unresolved e => exact Response.exclusive_ofNotice _
    | noBlock => exact Response.exclusive_ofItems []
    | unannotated topKey => exact Response.exclusive_ofItems []
    | outside path topKey => exact Response.exclusive_ofItems []
    | needs block ref path => exact Response.exclusive_ofItems []

theorem exclusive_answer (r : Request) (result : Except FetchError Tree) :
    (r.answer result).Exclusive := by
  rw [answer]
  cases r.document.plan r.position with
  | needs block ref path =>
    cases result with
    | ok tree => exact Response.exclusive_ofItems _
    | error e =>
      simp only [Document.answer]
      split_ifs
      · exact Response.exclusive_ofCancelled
      · exact Response.exclusive_ofNotice _
  | noBlock => exact Response.exclusive_ofItems []
  | unannotated topKey => exact Response.exclusive_ofItems []
  | unresolved e => exact Response.exclusive_ofItems []
  | outside path topKey => exact Response.exclusive_ofItems []

theorem answer_error {r : Request} {ref : String} (h : r.chart? = some ref) (e : FetchError) :
    ((r.answer (.error e)).cancelled = true ↔ e.kind = .cancelled) ∧
    ((∃ notice ∈ (r.answer (.error e)).notices, notice.severity = .error) ↔ e.kind = .parseFailed) ∧
    ((∃ notice ∈ (r.answer (.error e)).notices, notice.severity = .warning) ↔
      e.kind = .executionFailed ∨ e.kind = .timedOut) := by
  obtain ⟨-, block, path, hplan⟩ := chart?_eq_some_iff.mp h
  rw [answer, hplan]
  cases hkind : e.kind <;>
    simp [Document.answer, Notice.ofFetchError, Response.ofCancelled, Response.ofNotice, hkind]

theorem chart?_eq_some_iff_located {r : Request} {ref : String} :
    r.chart? = some ref ↔ r.cancelled = false ∧ ∃ block path,
      r.document.scan.locate r.position.line = some block ∧ block.chartRef = some ref ∧
      r.document.pathAt r.position = .ok path ∧
      (path.elements = [] ∨ path.first? = some block.topKey) := by
  simp only [chart?_eq_some_iff, Document.plan_eq_needs_iff, CursorPath.relativeTo_isSome_iff]

/-- The request cannot need values: it is cancelled, no block or one without a chart lies around its
cursor, its position is out of range, or its path starts with another key than the block's. -/
inductive Idle (r : Request) : Prop where
  | cancelled (h : r.cancelled = true)
  | noBlock (h : r.document.scan.locate r.position.line = none)
  | unannotated (block : Block) (h : r.document.scan.locate r.position.line = some block)
    (href : block.chartRef = none)
  | outOfRange (e : PositionError) (h : r.document.pathAt r.position = .error e)
  | outside (block : Block) (path : CursorPath) (root : String)
    (h : r.document.scan.locate r.position.line = some block)
    (hpath : r.document.pathAt r.position = .ok path) (hroot : path.first? = some root)
    (hne : root ≠ block.topKey)

theorem chart?_eq_none_of_idle {r : Request} (h : r.Idle) : r.chart? = none := by
  refine Option.eq_none_iff_forall_ne_some.mpr fun ref hchart => ?_
  obtain ⟨hcancelled, block, path, hlocate, href, hpath, hinside⟩ :=
    chart?_eq_some_iff_located.mp hchart
  cases h with
  | cancelled h => simp [hcancelled] at h
  | noBlock h => simp [hlocate] at h
  | unannotated block' h href' =>
    obtain rfl : block' = block := Option.some.inj (h.symm.trans hlocate)
    simp [href] at href'
  | outOfRange e h => simp [hpath] at h
  | outside block' path' root h hpath' hroot hne =>
    obtain rfl : block' = block := Option.some.inj (h.symm.trans hlocate)
    obtain rfl : path' = path := Except.ok.inj (hpath'.symm.trans hpath)
    rcases hinside with hempty | hfirst
    · simp [CursorPath.first?, hempty] at hroot
    · exact hne (Option.some.inj (hroot.symm.trans hfirst))

end Request

namespace Source

variable {σ : Type} {s : Source σ} {r : Request} {ref : String}

/-! ## The four ways -/

theorem calls_of_none (h : r.chart? = none) : s.calls r = [] := by
  rw [calls, handle_of_none h]
  rfl

theorem calls_of_some (h : r.chart? = some ref) :
    s.calls r =
      if s.cache.contains ref then [] else [⟨ref, (s.provider.fetch ref false s.state).1⟩] := by
  have hrecorded := s.cache.getOrFetch_recorded s.provider ref false s.state []
  rw [calls, handle_of_some h]
  exact congrArg (fun result => result.2.2.2) hrecorded

/-- What a request can do to a source, and which calls it makes. -/
theorem handle_cases (s : Source σ) (r : Request) :
    (r.chart? = none ∧ s.calls r = [] ∧ s.handle r = (r.idle, s)) ∨
    (∃ ref tree, r.chart? = some ref ∧ s.cache.get? ref = some tree ∧ s.calls r = [] ∧
      s.handle r =
        (r.answer (.ok tree), { s with cache := { s.cache with hits := s.cache.hits + 1 } })) ∨
    (∃ ref tree state, r.chart? = some ref ∧ s.cache.get? ref = none ∧
      s.provider.fetch ref false s.state = (.ok tree, state) ∧ s.calls r = [⟨ref, .ok tree⟩] ∧
      s.handle r = (r.answer (.ok tree), { s with
        cache := { s.cache with
          trees := Tree.insert ref tree s.cache.trees, misses := s.cache.misses + 1 }
        state := state })) ∨
    (∃ ref e state, r.chart? = some ref ∧ s.cache.get? ref = none ∧
      s.provider.fetch ref false s.state = (.error e, state) ∧ s.calls r = [⟨ref, .error e⟩] ∧
      s.handle r = (r.answer (.error e), { s with
        cache := { s.cache with misses := s.cache.misses + 1 }
        state := state })) := by
  cases hchart : r.chart? with
  | none => exact Or.inl ⟨rfl, calls_of_none hchart, handle_of_none hchart⟩
  | some ref =>
    have hcalls := calls_of_some (s := s) hchart
    rcases s.cache.getOrFetch_cases s.provider ref false s.state with
      ⟨tree, hget, -⟩ | ⟨tree, state, hget, hfetch, heq⟩ | ⟨e, state, hget, hfetch, heq⟩
    · exact Or.inr (Or.inl ⟨ref, tree, rfl, hget, calls_of_hit hchart hget,
        handle_of_hit hchart hget⟩)
    · rw [hfetch, Cache.contains_eq_false_iff.mpr hget] at hcalls
      exact Or.inr (Or.inr (Or.inl ⟨ref, tree, state, rfl, hget, hfetch, hcalls, by
        rw [handle_of_some hchart, heq]⟩))
    · rw [hfetch, Cache.contains_eq_false_iff.mpr hget] at hcalls
      exact Or.inr (Or.inr (Or.inr ⟨ref, e, state, rfl, hget, hfetch, hcalls, by
        rw [handle_of_some hchart, heq]⟩))

theorem exclusive_handle (s : Source σ) (r : Request) : (s.handle r).1.Exclusive := by
  rcases s.handle_cases r with ⟨-, -, heq⟩ | ⟨ref, tree, -, -, -, heq⟩ |
    ⟨ref, tree, state, -, -, -, -, heq⟩ | ⟨ref, e, state, -, -, -, -, heq⟩
  · rw [heq]
    exact r.exclusive_idle
  · rw [heq]
    exact r.exclusive_answer _
  · rw [heq]
    exact r.exclusive_answer _
  · rw [heq]
    exact r.exclusive_answer _

theorem length_calls_le (s : Source σ) (r : Request) : (s.calls r).length ≤ 1 := by
  rcases s.handle_cases r with ⟨-, hcalls, -⟩ | ⟨_, _, -, -, hcalls, -⟩ |
    ⟨_, _, _, -, -, -, hcalls, -⟩ | ⟨_, _, _, -, -, -, hcalls, -⟩ <;> simp [hcalls]

theorem mem_calls_iff {call : Call} :
    call ∈ s.calls r ↔ r.chart? = some call.chartRef ∧ s.cache.get? call.chartRef = none ∧
      call.result = (s.provider.fetch call.chartRef false s.state).1 := by
  obtain ⟨ref, result⟩ := call
  constructor
  · intro h
    rcases s.handle_cases r with ⟨-, hcalls, -⟩ | ⟨_, _, -, -, hcalls, -⟩ |
      ⟨_, tree, state, hchart, hget, hfetch, hcalls, -⟩ | ⟨_, e, state, hchart, hget, hfetch, hcalls, -⟩
    · simp [hcalls] at h
    · simp [hcalls] at h
    · rw [hcalls, List.mem_singleton] at h
      obtain ⟨rfl, rfl⟩ := Call.mk.inj h
      exact ⟨hchart, hget, by rw [hfetch]⟩
    · rw [hcalls, List.mem_singleton] at h
      obtain ⟨rfl, rfl⟩ := Call.mk.inj h
      exact ⟨hchart, hget, by rw [hfetch]⟩
  · rintro ⟨hchart, hget, hresult⟩
    simp only at hchart hget hresult
    rw [calls_of_some hchart, Cache.contains_eq_false_iff.mpr hget, hresult]
    simp

theorem handle_of_failed_call {e : FetchError} (h : (⟨ref, .error e⟩ : Call) ∈ s.calls r) :
    r.chart? = some ref ∧ (s.handle r).1 = r.answer (.error e) ∧
      (s.handle r).2.cache = { s.cache with misses := s.cache.misses + 1 } := by
  rcases s.handle_cases r with ⟨-, hcalls, -⟩ | ⟨_, _, -, -, hcalls, -⟩ |
    ⟨_, _, _, -, -, -, hcalls, -⟩ | ⟨ref', e', state, hchart, -, -, hcalls, heq⟩
  · simp [hcalls] at h
  · simp [hcalls] at h
  · simp [hcalls] at h
  · rw [hcalls, List.mem_singleton] at h
    obtain ⟨rfl, hresult⟩ := Call.mk.inj h
    obtain rfl := Except.error.inj hresult
    rw [heq]
    exact ⟨hchart, rfl, rfl⟩

/-- **What a request ends in.** A response has at most one notice; with a notice, or if it is cancelled, it
has no items, and a cancelled one has no notice. A host that is served gets this response, once. The
provider is called at most once: for the chart of the block around the cursor, if the request has not been
cancelled, the cache does not have the chart, the position is in range and the path is empty or starts with
the block's key. In each of the other cases the source stays as it is. When the fetch fails, only the misses
of the cache change, by one, and the kind of the error decides what the response is. -/
theorem handle_outcome (s : Source σ) (r : Request) :
    (s.handle r).1.Exclusive ∧
    (∀ (η : Type) (deliver : Response → η → η) (host : η),
      s.serve r.document r.position r.cancelled deliver host =
        (deliver (s.handle r).1 host, (s.handle r).2)) ∧
    (s.calls r).length ≤ 1 ∧
    (∀ call, call ∈ s.calls r ↔
      (r.cancelled = false ∧ ∃ block path,
        r.document.scan.locate r.position.line = some block ∧ block.chartRef = some call.chartRef ∧
        r.document.pathAt r.position = .ok path ∧
        (path.elements = [] ∨ path.first? = some block.topKey)) ∧
      s.cache.get? call.chartRef = none ∧
      call.result = (s.provider.fetch call.chartRef false s.state).1) ∧
    (r.Idle → (s.handle r).2 = s) ∧
    (∀ ref e, (⟨ref, .error e⟩ : Call) ∈ s.calls r →
      (s.handle r).2.cache = { s.cache with misses := s.cache.misses + 1 } ∧
      ((s.handle r).1.cancelled = true ↔ e.kind = .cancelled) ∧
      ((∃ notice ∈ (s.handle r).1.notices, notice.severity = .error) ↔ e.kind = .parseFailed) ∧
      ((∃ notice ∈ (s.handle r).1.notices, notice.severity = .warning) ↔
        e.kind = .executionFailed ∨ e.kind = .timedOut)) := by
  refine ⟨s.exclusive_handle r, fun η deliver host => rfl, s.length_calls_le r, fun call => ?_,
    fun hidle => ?_, fun ref e hcall => ?_⟩
  · rw [mem_calls_iff, Request.chart?_eq_some_iff_located]
  · rw [handle_of_none (Request.chart?_eq_none_of_idle hidle)]
  · obtain ⟨hchart, hresponse, hcache⟩ := handle_of_failed_call hcall
    rw [hresponse]
    exact ⟨hcache, Request.answer_error hchart e⟩

def failing (e : FetchError) : Provider Unit where
  fetch _ _ _ := (.error e, ())

/-- A fetch that times out is counted as a miss and shows as one warning, without items. -/
theorem handle_outcome_timeout :
    let e : FetchError := ⟨.timedOut, "a/b", "no result after 5 ms"⟩
    let r : Request := ⟨⟨"values.yaml", "# @a/b\nx:\n  \n"⟩, ⟨3, 2⟩, false⟩
    let s : Source Unit := { provider := failing e, state := () }
    (⟨"a/b", .error e⟩ : Call) ∈ s.calls r ∧ (s.handle r).2.cache = { misses := 1 } ∧
      (∃ notice ∈ (s.handle r).1.notices, notice.severity = .warning) ∧ (s.handle r).1.items = [] := by
  intro e r s
  obtain ⟨hexclusive, -, -, hcalls, -, hfailed⟩ := handle_outcome s r
  have hcall : (⟨"a/b", .error e⟩ : Call) ∈ s.calls r := by
    refine (hcalls _).mpr ⟨⟨rfl, ⟨"x", some "a/b", 1, 2, 0⟩, ⟨["x"], none⟩, ?_, rfl, ?_, Or.inr rfl⟩,
      rfl, rfl⟩
    · decide +kernel
    · decide +kernel
  obtain ⟨hcache, -, -, hwarning⟩ := hfailed _ _ hcall
  obtain ⟨notice, hnotice, hseverity⟩ := hwarning.mpr (Or.inr rfl)
  exact ⟨hcall, hcache, ⟨notice, hnotice, hseverity⟩,
    hexclusive.items (Or.inl (List.ne_nil_of_mem hnotice))⟩

end Source

end ChartValues
