import ChartValues.Fetch.Basic

/-!
# The values cache

Trees by chart reference, for as long as the program runs. Only successful fetches are kept: a chart
that failed is asked for again. Counters tell how often a tree was there and how often it was not.
-/

namespace ChartValues

/-- Fetched trees with the counts of hits and misses. -/
structure Cache where
  trees : List (String × Tree) := []
  hits : Nat := 0
  misses : Nat := 0
  deriving Repr

namespace Cache

def get? (c : Cache) (chartRef : String) : Option Tree := Tree.lookup chartRef c.trees

def contains (c : Cache) (chartRef : String) : Bool := (c.get? chartRef).isSome

def size (c : Cache) : Nat := c.trees.length

/-- The tree of a chart that has just been found or stored. -/
def stored (c : Cache) (chartRef : String) : Except FetchError Tree :=
  match c.get? chartRef with
  | some tree => .ok tree
  | none => .error ⟨.executionFailed, chartRef, "values cache lost an entry"⟩

/-- The tree of a chart, fetching it if it is not there. -/
def getOrFetch (c : Cache) (p : Provider σ) (chartRef : String) (cancelled : Bool) (s : σ) :
    Except FetchError Tree × Cache × σ :=
  if c.contains chartRef then
    let c := { c with hits := c.hits + 1 }
    (c.stored chartRef, c, s)
  else
    let c := { c with misses := c.misses + 1 }
    match p.fetch chartRef cancelled s with
    | (.ok tree, s) =>
      let c := { c with trees := Tree.insert chartRef tree c.trees }
      (c.stored chartRef, c, s)
    -- Nothing is kept of a failed fetch but the miss, so the next request asks again.
    | (.error e, s) => (.error e, c, s)

def events (c : Cache) (p : Provider σ) (chartRef : String) : List Log.Event :=
  let event (message : String) : Log.Event :=
    ⟨.debug, "completion::cache", message, [("chart_ref", .quoted chartRef)]⟩
  if c.contains chartRef then [event "values cache hit"]
  else event "values cache miss" :: p.events chartRef

end Cache

end ChartValues
