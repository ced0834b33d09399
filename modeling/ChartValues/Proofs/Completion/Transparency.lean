import Mathlib.Data.Finset.Card
import ChartValues.Proofs.Completion.Request

/-!
# The cache does not show

A source whose provider answers by the chart alone gives the same responses with and without the trees that
it has kept, and the order of the requests matters neither to the trees nor to the counters (`run_transparent`).

The cache after a run has a closed form (`Cache.Reflects`): it holds what the provider answers for the charts
asked for, every request for a chart that fails is a miss, and of the requests for one that succeeds just one
is. None of this depends on the order of the charts.
-/

namespace ChartValues

namespace Cache

variable {σ : Type} {value : String → Except FetchError Tree} {charts : List String} {c : Cache}
  {p : Provider σ} {s : σ} {ref : String}

/-- The misses of requests for `charts`, in any order: each one for a chart that fails, and one for each
chart that succeeds. -/
def missesFor (value : String → Except FetchError Tree) (charts : List String) : Nat :=
  charts.countP (fun ref => !(value ref).isOk) +
    (charts.toFinset.filter fun ref => (value ref).isOk).card

theorem missesFor_of_mem (hok : (value ref).isOk = true) (hmem : ref ∈ charts) :
    missesFor value (charts ++ [ref]) = missesFor value charts := by
  have hfilter : ref ∈ charts.toFinset.filter fun ref => (value ref).isOk := by simp [hmem, hok]
  simp [missesFor, hok, Finset.filter_insert, Finset.insert_eq_of_mem hfilter]

theorem missesFor_of_notMem (hok : (value ref).isOk = true) (hmem : ref ∉ charts) :
    missesFor value (charts ++ [ref]) = missesFor value charts + 1 := by
  have hfilter : ref ∉ charts.toFinset.filter fun ref => (value ref).isOk := by simp [hmem]
  simp [missesFor, hok, Finset.filter_insert, Finset.card_insert_of_notMem hfilter, Nat.add_assoc]

theorem missesFor_of_error (hok : (value ref).isOk = false) :
    missesFor value (charts ++ [ref]) = missesFor value charts + 1 := by
  simp [missesFor, hok, Finset.filter_insert, Nat.add_right_comm]

theorem missesFor_perm {charts' : List String} (h : charts'.Perm charts) :
    missesFor value charts' = missesFor value charts := by
  rw [missesFor, missesFor, h.countP_eq, List.toFinset_eq_of_perm _ _ h]

/-- The cache after requests for `charts` to a provider that answers `value`. -/
structure Reflects (value : String → Except FetchError Tree) (charts : List String) (c : Cache) :
    Prop where
  get? : ∀ ref, c.get? ref = if ref ∈ charts then (value ref).toOption else none
  misses : c.misses = missesFor value charts
  total : c.hits + c.misses = charts.length

theorem reflects_empty (value : String → Except FetchError Tree) : Reflects value [] {} :=
  ⟨fun _ => rfl, rfl, rfl⟩

namespace Reflects

theorem of_get?_eq_some (h : Reflects value charts c) {tree : Tree}
    (hget : c.get? ref = some tree) : ref ∈ charts ∧ value ref = .ok tree := by
  rw [h.get?] at hget
  split_ifs at hget with hmem
  refine ⟨hmem, ?_⟩
  cases hvalue : value ref with
  | error e => simp [hvalue, Except.toOption] at hget
  | ok tree' =>
    rw [hvalue] at hget
    exact congrArg Except.ok (Option.some.inj hget)

theorem notMem_of_get?_eq_none (h : Reflects value charts c) {tree : Tree}
    (hget : c.get? ref = none) (hvalue : value ref = .ok tree) : ref ∉ charts := by
  intro hmem
  rw [h.get?, if_pos hmem, hvalue] at hget
  simp [Except.toOption] at hget

theorem get?_append (h : Reflects value charts c) {c' : Cache}
    (hself : c'.get? ref = (value ref).toOption)
    (hother : ∀ ref', ref ≠ ref' → c'.get? ref' = c.get? ref') (ref' : String) :
    c'.get? ref' = if ref' ∈ charts ++ [ref] then (value ref').toOption else none := by
  by_cases href : ref = ref'
  · subst href
    rw [hself, if_pos (by simp)]
  · rw [hother ref' href, h.get?]
    exact if_congr (by simp [Ne.symm href]) rfl rfl

theorem hit (h : Reflects value charts c) {tree : Tree} (hget : c.get? ref = some tree) :
    Reflects value (charts ++ [ref]) { c with hits := c.hits + 1 } := by
  obtain ⟨hmem, hvalue⟩ := h.of_get?_eq_some hget
  have hok : (value ref).isOk = true := by rw [hvalue]; rfl
  have htotal := h.total
  refine ⟨h.get?_append (by rw [hvalue]; exact hget) fun _ _ => rfl, ?_, ?_⟩
  · rw [missesFor_of_mem hok hmem]
    exact h.misses
  · simp only [List.length_append, List.length_singleton]
    omega

theorem store (h : Reflects value charts c) {tree : Tree} (hget : c.get? ref = none)
    (hvalue : value ref = .ok tree) :
    Reflects value (charts ++ [ref])
      { c with trees := Tree.insert ref tree c.trees, misses := c.misses + 1 } := by
  have hok : (value ref).isOk = true := by rw [hvalue]; rfl
  have htotal := h.total
  refine ⟨h.get?_append ?_ fun ref' href => ?_, ?_, ?_⟩
  · rw [get?_insert, if_pos rfl, hvalue]
    rfl
  · rw [get?_insert, if_neg href]
  · rw [missesFor_of_notMem hok (h.notMem_of_get?_eq_none hget hvalue)]
    exact congrArg (· + 1) h.misses
  · show c.hits + (c.misses + 1) = _
    simp only [List.length_append, List.length_singleton]
    omega

theorem fail (h : Reflects value charts c) {e : FetchError} (hget : c.get? ref = none)
    (hvalue : value ref = .error e) :
    Reflects value (charts ++ [ref]) { c with misses := c.misses + 1 } := by
  have hok : (value ref).isOk = false := by rw [hvalue]; rfl
  have htotal := h.total
  refine ⟨h.get?_append (by rw [hvalue]; exact hget) fun _ _ => rfl, ?_, ?_⟩
  · rw [missesFor_of_error hok]
    exact congrArg (· + 1) h.misses
  · show c.hits + (c.misses + 1) = _
    simp only [List.length_append, List.length_singleton]
    omega

theorem getOrFetch (h : Reflects value charts c) (hvalue : (p.fetch ref false s).1 = value ref) :
    (c.getOrFetch p ref false s).1 = value ref ∧
      Reflects value (charts ++ [ref]) (c.getOrFetch p ref false s).2.1 := by
  rcases c.getOrFetch_cases p ref false s with
    ⟨tree, hget, heq⟩ | ⟨tree, s', hget, hfetch, heq⟩ | ⟨e, s', hget, hfetch, heq⟩
  · rw [heq]
    exact ⟨(h.of_get?_eq_some hget).2.symm, h.hit hget⟩
  · rw [hfetch] at hvalue
    rw [heq]
    exact ⟨hvalue, h.store hget hvalue.symm⟩
  · rw [hfetch] at hvalue
    rw [heq]
    exact ⟨hvalue, h.fail hget hvalue.symm⟩

theorem eq_of_perm {charts' : List String} {c' : Cache} (h : Reflects value charts c)
    (h' : Reflects value charts' c') (hperm : charts'.Perm charts) :
    (∀ ref, c'.get? ref = c.get? ref) ∧ c'.hits = c.hits ∧ c'.misses = c.misses := by
  have hmisses : c'.misses = c.misses := by rw [h'.misses, h.misses, missesFor_perm hperm]
  refine ⟨fun ref => ?_, ?_, hmisses⟩
  · rw [h'.get?, h.get?]
    exact if_congr hperm.mem_iff rfl rfl
  · have := h.total
    have := h'.total
    have := hperm.length_eq
    omega

end Reflects

end Cache

/-- The response to a request, if charts have the values `value`. -/
def Request.respond (value : String → Except FetchError Tree) (r : Request) : Response :=
  match r.chart? with
  | none => r.idle
  | some ref => r.answer (value ref)

namespace Source

variable {σ : Type} {value : String → Except FetchError Tree} {charts : List String} {s : Source σ}

theorem handle_of_reflects (hvalue : ∀ ref state, (s.provider.fetch ref false state).1 = value ref)
    (h : s.cache.Reflects value charts) (r : Request) :
    (s.handle r).1 = r.respond value ∧
      (s.handle r).2.cache.Reflects value (charts ++ r.chart?.toList) := by
  rw [Request.respond]
  cases hchart : r.chart? with
  | none =>
    rw [handle_of_none hchart]
    exact ⟨rfl, by simpa using h⟩
  | some ref =>
    obtain ⟨hresult, hcache⟩ := h.getOrFetch (hvalue ref s.state)
    rw [handle_of_some hchart, hresult]
    exact ⟨rfl, hcache⟩

theorem run_of_reflects (hvalue : ∀ ref state, (s.provider.fetch ref false state).1 = value ref)
    (h : s.cache.Reflects value charts) (requests : List Request) :
    (s.run requests).1 = requests.map (Request.respond value) ∧
      (s.run requests).2.cache.Reflects value (charts ++ requests.filterMap Request.chart?) := by
  induction requests generalizing s charts with
  | nil => exact ⟨rfl, by simpa [run] using h⟩
  | cons r rest ih =>
    obtain ⟨hfirst, hcache⟩ := handle_of_reflects hvalue h r
    obtain ⟨hrest, hcache'⟩ := ih (s.provider_handle r ▸ hvalue) hcache
    refine ⟨?_, ?_⟩
    · rw [run, List.map_cons, hfirst, hrest]
    · have hcharts : charts ++ (r :: rest).filterMap Request.chart? =
          charts ++ r.chart?.toList ++ rest.filterMap Request.chart? := by
        rw [List.append_assoc]
        cases hchart : r.chart? <;> simp [hchart]
      rw [hcharts]
      exact hcache'

/-- **The cache does not show.** A provider that looks charts up in a list answers by the chart alone. With
any provider that does, each response of a run on a fresh source is the one that a fresh source gives to
that request alone, and running the requests in another order leaves the same trees and the same counts of
hits and misses. -/
theorem run_transparent :
    (∀ charts, (Provider.ofCharts charts).ByReference) ∧
    ∀ {σ : Type} (s fresh : Source σ), s.provider.ByReference → s.cache = {} →
      fresh.provider = s.provider → fresh.cache = {} → ∀ requests : List Request,
        (s.run requests).1 = requests.map (fun r => (fresh.handle r).1) ∧
        ∀ requests', requests'.Perm requests →
          (∀ ref, (s.run requests').2.cache.get? ref = (s.run requests).2.cache.get? ref) ∧
          (s.run requests').2.cache.hits = (s.run requests).2.cache.hits ∧
          (s.run requests').2.cache.misses = (s.run requests).2.cache.misses := by
  refine ⟨Provider.ofCharts_byReference, fun s fresh hp hs hprovider hfresh requests => ?_⟩
  let value := fun ref => (s.provider.fetch ref false s.state).1
  have hvalue : ∀ ref state, (s.provider.fetch ref false state).1 = value ref :=
    fun ref state => hp ref state s.state
  have hempty : Cache.Reflects value [] {} := Cache.reflects_empty value
  have hrun : ∀ requests, (s.run requests).1 = requests.map (Request.respond value) ∧
      (s.run requests).2.cache.Reflects value (requests.filterMap Request.chart?) := by
    intro requests
    have h := run_of_reflects hvalue (hs ▸ hempty) requests
    rwa [List.nil_append] at h
  have halone : ∀ r, (fresh.handle r).1 = r.respond value := fun r =>
    (handle_of_reflects (hprovider ▸ hvalue) (hfresh ▸ hempty) r).1
  refine ⟨?_, fun requests' hperm => ?_⟩
  · rw [(hrun requests).1]
    exact List.map_congr_left fun r _ => (halone r).symm
  · exact (hrun requests).2.eq_of_perm (hrun requests').2 (hperm.filterMap _)

/-- Two requests for a chart that is there, two for one that is not and a cancelled one: one hit and three
misses, also if the requests come in the opposite order. -/
theorem run_transparent_two_charts :
    let d : Document := ⟨"values.yaml", "# @a/b\nx:\n  \n# @c/d\ny:\n  \n"⟩
    let inX : Request := ⟨d, ⟨3, 2⟩, false⟩
    let inY : Request := ⟨d, ⟨6, 2⟩, false⟩
    let requests := [inX, inY, inX, ⟨d, ⟨3, 2⟩, true⟩, inY]
    let p := Provider.ofCharts [("a/b", "port: 80\n")]
    let s : Source Unit := { provider := p, state := () }
    p.ByReference ∧ requests.reverse.Perm requests ∧
      (s.run requests).1 = requests.map (fun r => (s.handle r).1) ∧
      (s.run requests).2.cache.hits = 1 ∧ (s.run requests).2.cache.misses = 3 ∧
      (s.run requests.reverse).2.cache.hits = 1 ∧ (s.run requests.reverse).2.cache.misses = 3 := by
  intro d inX inY requests p s
  have hp : p.ByReference := Provider.ofCharts_byReference _
  have hperm : requests.reverse.Perm requests := List.reverse_perm requests
  have hcounts : (s.run requests).2.cache.hits = 1 ∧ (s.run requests).2.cache.misses = 3 := by
    decide +kernel
  obtain ⟨hresponses, hcache⟩ := run_transparent.2 s s hp rfl rfl rfl requests
  obtain ⟨-, hhits, hmisses⟩ := hcache requests.reverse hperm
  exact ⟨hp, hperm, hresponses, hcounts.1, hcounts.2, hhits.trans hcounts.1,
    hmisses.trans hcounts.2⟩

end Source

end ChartValues
