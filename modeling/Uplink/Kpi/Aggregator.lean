import Uplink.Kpi.Counters
import Uplink.Record.KpiReport
import Uplink.Ring.Basic
import Uplink.Settings
/-!
The aggregator of key performance indicators: counters, the report of them that is under way, and
the reports that were delivered.
-/
namespace Uplink

/-- A sample of the counters and the report made of it. -/
structure Flight where
  sample : Dictionary Cell
  report : KpiReport
  deriving DecidableEq, Repr

structure Aggregator where
  granularity : Duration
  flushTimeout : Duration
  counters : Counters := {}
  flight : Option Flight := none
  history : Ring KpiReport

namespace Aggregator

def create (s : KpiSettings) : Aggregator where
  granularity := s.granularity.orDefault Default.granularity
  flushTimeout := s.flushTimeout.orDefault Default.flushTimeout
  history := .create s.historyCapacity

def report (a : Aggregator) (neUid : String) (now : Int64) : KpiReport where
  neUid := neUid
  recordTime := now
  granularity := a.granularity.secs
  kpis := Counters.values a.counters.cells

/-- A sample of all counters with the report of it, if there are any. -/
def prepare (a : Aggregator) (neUid : String) (now : Int64) : Option Flight :=
  if a.counters.cells.isEmpty then none else some ⟨a.counters.cells, a.report neUid now⟩

def count (a : Aggregator) (c : Change) : Aggregator := { a with counters := a.counters.apply c }

def depart (a : Aggregator) (f : Flight) : Aggregator := { a with flight := some f }

/-- The report under way was delivered. -/
def land (a : Aggregator) (f : Flight) : Aggregator :=
  { a with
    counters := a.counters.settle f.sample
    flight := none
    history := a.history.push f.report }

/-- The report under way was not delivered, and the counters still hold what it says. -/
def abandon (a : Aggregator) : Aggregator := { a with flight := none }

def text (a : Aggregator) (flushing : Bool) : String :=
  "KpiAggregator \x7b granularity: " ++ a.granularity.text ++ ", counters: "
    ++ toString a.counters.cells.size ++ ", flushing: " ++ (if flushing then "true" else "false")
    ++ ", .. \x7d"

end Aggregator

end Uplink
