import ChartValues.Config
import ChartValues.Proofs.Cache.Step

/-!
# Requests to a source

Whether a request needs values, and of which chart, follows from the request alone (`Request.chart?`). One
that needs none leaves the source as it is (`handle_of_none`); any other is one request to the cache, and
its response follows from the result (`handle_of_some`). So whatever a run of requests does to a source, it
does through the cache, and no request drops or replaces a tree (`keeps_run`).
-/

namespace ChartValues

/-- A request: a document, a cursor, and whether it has been cancelled before it starts. -/
structure Request where
  document : Document
  position : Position
  cancelled : Bool := false

namespace Request

/-- The chart whose values the request needs. -/
def chart? (r : Request) : Option String :=
  if r.cancelled then none
  else
    match r.document.plan r.position with
    | .needs _ chartRef _ => some chartRef
    | _ => none

/-- The response to a request that needs no values. -/
def idle (r : Request) : Response :=
  if r.cancelled then .ofCancelled else (r.document.plan r.position).response

/-- The response to a request that needs values, once it has been tried to get them. -/
def answer (r : Request) (result : Except FetchError Tree) : Response :=
  match r.document.plan r.position with
  | .needs block chartRef path => r.document.answer r.position block chartRef path result
  | _ => {}

theorem chart?_eq_some_iff {r : Request} {ref : String} :
    r.chart? = some ref ↔
      r.cancelled = false ∧ ∃ block path, r.document.plan r.position = .needs block ref path := by
  rw [chart?]
  cases r.cancelled with
  | true => simp
  | false =>
    simp only [Bool.false_eq_true, if_false, true_and]
    cases r.document.plan r.position <;> simp

theorem answer_ok {r : Request} {block : Block} {ref : String} {path : CursorPath}
    (h : r.document.plan r.position = .needs block ref path) (tree : Tree) :
    r.answer (.ok tree) =
      { items := itemsIn tree path block.topKey ref (r.document.editRange r.position path) } := by
  rw [answer, h]
  rfl

end Request

theorem Document.plan_eq_needs_iff {d : Document} {p : Position} {block : Block} {ref : String}
    {path : CursorPath} :
    d.plan p = .needs block ref path ↔
      d.scan.locate p.line = some block ∧ block.chartRef = some ref ∧ d.pathAt p = .ok path ∧
        ∃ relative, path.relativeTo block.topKey = some relative := by
  constructor
  · intro h
    rw [plan] at h
    split at h
    · simp at h
    rename_i b hlocate
    split at h
    · simp at h
    rename_i ref' href
    split at h
    · simp at h
    rename_i path' hpath
    split at h
    · simp at h
    rename_i relative hrelative
    obtain ⟨rfl, rfl, rfl⟩ := Plan.needs.inj h
    exact ⟨hlocate, href, hpath, relative, hrelative⟩
  · rintro ⟨hlocate, href, hpath, relative, hrelative⟩
    simp only [plan, hlocate, href, hpath, hrelative]

namespace Source

variable {σ : Type} {s : Source σ} {r : Request} {ref : String}

def handle (s : Source σ) (r : Request) : Response × Source σ :=
  s.complete r.document r.position r.cancelled

def run (s : Source σ) : List Request → List Response × Source σ
  | [] => ([], s)
  | r :: rest => ((s.handle r).1 :: ((s.handle r).2.run rest).1, ((s.handle r).2.run rest).2)

/-! ## One request -/

theorem handle_of_none (h : r.chart? = none) : s.handle r = (r.idle, s) := by
  rw [handle, complete, Request.idle]
  by_cases hcancelled : r.cancelled = true
  · rw [if_pos hcancelled, if_pos hcancelled]
  · rw [Request.chart?, if_neg hcancelled] at h
    rw [if_neg hcancelled, if_neg hcancelled]
    cases hplan : r.document.plan r.position with
    | needs block chartRef path => simp [hplan] at h
    | _ => rfl

theorem handle_of_some (h : r.chart? = some ref) :
    s.handle r =
      (r.answer (s.cache.getOrFetch s.provider ref false s.state).1,
        { s with
          cache := (s.cache.getOrFetch s.provider ref false s.state).2.1
          state := (s.cache.getOrFetch s.provider ref false s.state).2.2 }) := by
  obtain ⟨hcancelled, block, path, hplan⟩ := Request.chart?_eq_some_iff.mp h
  rw [handle, complete, Request.answer, hcancelled, hplan]
  rfl

theorem provider_handle (s : Source σ) (r : Request) : (s.handle r).2.provider = s.provider := by
  cases h : r.chart? with
  | none => rw [handle_of_none h]
  | some ref => rw [handle_of_some h]

theorem keeps_handle (s : Source σ) (r : Request) : s.cache.Keeps (s.handle r).2.cache := by
  cases h : r.chart? with
  | none =>
    rw [handle_of_none h]
    exact Cache.Keeps.refl _
  | some ref =>
    rw [handle_of_some h]
    exact Cache.keeps_getOrFetch _ _ _ _ _

theorem items_handle (h : (s.handle r).1.items ≠ []) :
    ∃ block ref path tree, r.cancelled = false ∧
      r.document.plan r.position = .needs block ref path ∧
      (s.handle r).2.cache.get? ref = some tree ∧
      (s.handle r).1 =
        { items := itemsIn tree path block.topKey ref (r.document.editRange r.position path) } := by
  cases hchart : r.chart? with
  | none =>
    rw [handle_of_none hchart, Request.idle] at h
    split_ifs at h
    · exact absurd rfl h
    · cases hplan : r.document.plan r.position <;> exact absurd (by rw [hplan]; rfl) h
  | some ref =>
    obtain ⟨hcancelled, block, path, hplan⟩ := Request.chart?_eq_some_iff.mp hchart
    rw [handle_of_some hchart] at h ⊢
    cases hresult : (s.cache.getOrFetch s.provider ref false s.state).1 with
    | error e =>
      rw [hresult, Request.answer, hplan] at h
      simp only [Document.answer] at h
      split_ifs at h <;> exact absurd rfl h
    | ok tree =>
      exact ⟨block, ref, path, tree, hcancelled, hplan, Cache.get?_of_getOrFetch hresult,
        Request.answer_ok hplan tree⟩

/-! ## Trees without repeated keys -/

/-- No tree that the source has or gets repeats a key. -/
structure UniqueKeys (s : Source σ) : Prop where
  provider : s.provider.UniqueKeys
  cache : ∀ ref tree, s.cache.get? ref = some tree → tree.UniqueKeys

theorem uniqueKeys_of_empty (hprovider : s.provider.UniqueKeys) (hcache : s.cache = {}) :
    s.UniqueKeys := by
  refine ⟨hprovider, fun ref tree h => ?_⟩
  simp [hcache, Cache.get?, Tree.lookup] at h

theorem uniqueKeys_ofCharts (charts : List (String × String)) :
    (ofProvider (.ofCharts charts) ()).UniqueKeys :=
  uniqueKeys_of_empty (Provider.ofCharts_uniqueKeys charts) rfl

theorem of_config {c : Config} {files : FileTree} {run : Runner} {s : Source Unit}
    (h : c.source files run = .ok s) :
    s.cache = {} ∧ (s.provider = c.valuesCommand.provider run ∨ ∃ dir, s.provider = Fixture.provider files dir) := by
  simp only [Config.source, bind, Except.bind] at h
  split at h
  · simp at h
  rename_i provider hprovider
  split at h
  · simp at h
  obtain rfl := Except.ok.inj h
  refine ⟨rfl, ?_⟩
  rw [Config.provider] at hprovider
  split at hprovider
  · exact Or.inl (Except.ok.inj hprovider).symm
  · split at hprovider
    · exact Or.inr ⟨_, (Except.ok.inj hprovider).symm⟩
    · simp at hprovider

theorem uniqueKeys_of_config {c : Config} {files : FileTree} {run : Runner} {s : Source Unit}
    (h : c.source files run = .ok s) : s.UniqueKeys := by
  obtain ⟨hcache, hprovider⟩ := of_config h
  refine uniqueKeys_of_empty ?_ hcache
  rcases hprovider with hcommand | ⟨dir, hfixture⟩
  · exact hcommand ▸ Provider.valuesCommand_uniqueKeys _ _
  · exact hfixture ▸ Provider.fixture_uniqueKeys _ _

theorem UniqueKeys.handle (h : s.UniqueKeys) (r : Request) : (s.handle r).2.UniqueKeys := by
  refine ⟨s.provider_handle r ▸ h.provider, ?_⟩
  cases hchart : r.chart? with
  | none =>
    rw [handle_of_none hchart]
    exact h.cache
  | some ref =>
    rw [handle_of_some hchart]
    intro ref' tree hget
    rcases Cache.get?_getOrFetch_cases hget with hbefore | hnew
    · exact h.cache ref' tree hbefore
    · exact h.provider ref false s.state tree hnew

/-! ## A run of requests -/

theorem run_append (s : Source σ) (requests later : List Request) :
    s.run (requests ++ later) =
      ((s.run requests).1 ++ ((s.run requests).2.run later).1,
        ((s.run requests).2.run later).2) := by
  induction requests generalizing s with
  | nil => rfl
  | cons r rest ih => simp only [List.cons_append, run, ih]

theorem keeps_run (s : Source σ) (requests : List Request) :
    s.cache.Keeps (s.run requests).2.cache := by
  induction requests generalizing s with
  | nil => exact Cache.Keeps.refl _
  | cons r rest ih => exact (s.keeps_handle r).trans (ih _)

theorem UniqueKeys.run (h : s.UniqueKeys) (requests : List Request) :
    (s.run requests).2.UniqueKeys := by
  induction requests generalizing s with
  | nil => exact h
  | cons r rest ih => exact ih (h.handle r)

/-! ## Calls of the provider -/

/-- The source with a provider that records its calls, none so far. -/
def recorded (s : Source σ) : Source (σ × List Call) :=
  ⟨s.provider.recorded, (s.state, []), s.cache, s.patterns⟩

/-- The calls that the provider gets when a request is answered. -/
def calls (s : Source σ) (r : Request) : List Call := (s.recorded.handle r).2.state.2

theorem handle_of_hit {tree : Tree} (h : r.chart? = some ref) (hget : s.cache.get? ref = some tree) :
    s.handle r =
      (r.answer (.ok tree), { s with cache := { s.cache with hits := s.cache.hits + 1 } }) := by
  rw [handle_of_some h, Cache.getOrFetch_of_hit hget]

theorem calls_of_hit {tree : Tree} (h : r.chart? = some ref) (hget : s.cache.get? ref = some tree) :
    s.calls r = [] := by
  have hrecorded : s.recorded.cache.get? ref = some tree := hget
  rw [calls, handle_of_hit h hrecorded]
  rfl

end Source

end ChartValues
