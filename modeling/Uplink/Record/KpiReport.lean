import Uplink.Record.Basic
/-!
Reports of key performance indicators over one period.
-/
namespace Uplink

/-- `granularity` is the period in whole seconds. -/
structure KpiReport where
  neUid : String := ""
  recordTime : Int64 := 0
  granularity : UInt64 := 0
  kpis : Dictionary Double := .empty
  deriving DecidableEq, Repr

namespace KpiReport

def fields : Fields :=
  [⟨"neUid", .scalar .text⟩, ⟨"recordTime", .scalar .signed⟩, ⟨"granularity", .scalar .unsigned⟩,
    ⟨"kpis", .gauges⟩]

def toRow (k : KpiReport) : fields.Row := (k.neUid, k.recordTime, k.granularity, k.kpis, ())

def ofRow : fields.Row → KpiReport
  | (neUid, time, granularity, kpis, ()) => ⟨neUid, time, granularity, kpis⟩

instance : Record KpiReport where
  kind := .kpi
  name := "KpiRecord"
  fields := fields
  toRow := toRow
  ofRow := ofRow
  ofRow_toRow _ := rfl
  toRow_ofRow _ := rfl
  neUid := KpiReport.neUid
  withNeUid uid k := { k with neUid := uid }
  stamped now k := { k with recordTime := now }
  numbered _ k := k

end KpiReport

end Uplink
