import ChartValues.Fetch.Fixture
import ChartValues.Fetch.Helm
import ChartValues.Proofs.Tree.Distinct

/-!
# What is asked of a provider

A provider may answer as it likes, so three facts about its answers are stated as properties: `UniqueKeys`,
the trees it gives repeat no key, `ByReference`, what it answers depends on the chart alone, and `NamesChart`,
its errors name the chart that was asked for. Trees that are read from YAML repeat no key
(`parseValues_uniqueKeys`), so the providers that read charts from a list, a directory or a command have the
first property, and they have the last; the one that reads a list has all three.

`recorded` keeps a log of the calls that a provider gets. It answers as the provider itself does, so the
log tells which calls the provider would have got (`fetch_recorded`).
-/

namespace ChartValues

structure Call where
  chartRef : String
  result : Except FetchError Tree

/-- The chart and the tree of a call that succeeded. -/
def Call.success? (call : Call) : Option (String × Tree) :=
  call.result.toOption.map fun tree => (call.chartRef, tree)

theorem Call.success?_eq_some {call : Call} {ref : String} {tree : Tree} :
    call.success? = some (ref, tree) ↔ call = ⟨ref, .ok tree⟩ := by
  obtain ⟨ref', result⟩ := call
  cases result <;> simp [success?, Except.toOption]

namespace Provider

variable {σ : Type}

/-! ## Answers -/

/-- No tree that the provider gives repeats a key. -/
def UniqueKeys (p : Provider σ) : Prop :=
  ∀ ref cancelled s tree, (p.fetch ref cancelled s).1 = .ok tree → tree.UniqueKeys

/-- What the provider answers to a request that has not been cancelled depends on the chart alone. -/
def ByReference (p : Provider σ) : Prop :=
  ∀ ref s s', (p.fetch ref false s).1 = (p.fetch ref false s').1

theorem parseValues_uniqueKeys {ref text : String} {tree : Tree}
    (h : parseValues ref text = .ok tree) : tree.UniqueKeys := by
  rw [parseValues] at h
  split at h
  · simp at h
  · rename_i value hvalue
    have hkeys := Tree.ofYaml_uniqueKeys value
    split at h
    · rename_i fields hfields
      rw [hfields] at hkeys
      exact Except.ok.inj h ▸ hkeys
    · exact Except.ok.inj h ▸ ⟨List.nodup_nil, trivial⟩
    · simp at h

theorem ofCharts_uniqueKeys (charts : List (String × String)) : (ofCharts charts).UniqueKeys := by
  intro ref cancelled s tree h
  rw [ofCharts] at h
  dsimp only at h
  split_ifs at h
  split at h
  · simp at h
  · exact parseValues_uniqueKeys h

theorem fixture_uniqueKeys (files : FileTree) (directory : String) :
    (Fixture.provider files directory).UniqueKeys := by
  intro ref cancelled s tree h
  dsimp only [Fixture.provider, Fixture.fetch] at h
  split_ifs at h
  split at h
  · exact parseValues_uniqueKeys h
  · simp at h

theorem valuesCommand_uniqueKeys (c : ValuesCommand) (run : Runner) :
    (c.provider run).UniqueKeys := by
  intro ref cancelled s tree h
  dsimp only [ValuesCommand.provider, ValuesCommand.fetch] at h
  split at h
  · simp at h
  split at h
  · simp at h
  · simp at h
  split at h
  · exact parseValues_uniqueKeys h
  · simp at h

theorem ofCharts_byReference (charts : List (String × String)) : (ofCharts charts).ByReference := by
  intro ref s s'
  rfl

/-- Every error of the provider names the chart that was asked for. -/
def NamesChart (p : Provider σ) : Prop :=
  ∀ ref cancelled s e, (p.fetch ref cancelled s).1 = .error e → e.chartRef = ref

theorem parseValues_namesChart {ref text : String} {e : FetchError}
    (h : parseValues ref text = .error e) : e.chartRef = ref := by
  rw [parseValues] at h
  split at h
  · rw [← Except.error.inj h]
  · split at h
    · simp at h
    · simp at h
    · rw [← Except.error.inj h]

theorem ofCharts_namesChart (charts : List (String × String)) : (ofCharts charts).NamesChart := by
  intro ref cancelled s e h
  dsimp only [ofCharts] at h
  split_ifs at h
  · rw [← Except.error.inj h]
    rfl
  · split at h
    · rw [← Except.error.inj h]
    · exact parseValues_namesChart h

theorem fixture_namesChart (files : FileTree) (directory : String) :
    (Fixture.provider files directory).NamesChart := by
  intro ref cancelled s e h
  dsimp only [Fixture.provider, Fixture.fetch] at h
  split_ifs at h
  · rw [← Except.error.inj h]
    rfl
  · split at h
    · exact parseValues_namesChart h
    · rw [← Except.error.inj h]

theorem valuesCommand_namesChart (c : ValuesCommand) (run : Runner) :
    (c.provider run).NamesChart := by
  intro ref cancelled s e h
  dsimp only [ValuesCommand.provider, ValuesCommand.fetch] at h
  split at h
  · rw [← Except.error.inj h]
  split at h
  · rw [← Except.error.inj h]
    rfl
  · rw [← Except.error.inj h]
  split at h
  · exact parseValues_namesChart h
  · rename_i error hresult
    obtain rfl := Except.error.inj h
    unfold ValuesCommand.result at hresult
    split_ifs at hresult
    · split at hresult
      · simp at hresult
      · rw [← Except.error.inj hresult]
    · rw [← Except.error.inj hresult]

/-! ## Calls -/

/-- The provider with a log of the calls that it has got. -/
def recorded (p : Provider σ) : Provider (σ × List Call) where
  fetch ref cancelled s :=
    let (result, state) := p.fetch ref cancelled s.1
    (result, state, s.2 ++ [⟨ref, result⟩])
  events := p.events

theorem fetch_recorded (p : Provider σ) (ref : String) (cancelled : Bool) (s : σ)
    (calls : List Call) : p.recorded.fetch ref cancelled (s, calls) =
      ((p.fetch ref cancelled s).1, (p.fetch ref cancelled s).2,
        calls ++ [⟨ref, (p.fetch ref cancelled s).1⟩]) := rfl

end Provider

end ChartValues
