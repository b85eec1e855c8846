import JobEngine.Statistic.Basic
/-! Statistics kept in memory, in the order in which they were recorded. -/

namespace JobEngine

structure MemoryStatistics where
  rows : List Statistic := []

namespace MemoryStatistics

def size (m : MemoryStatistics) : Nat := m.rows.length

def record (s : Statistic) (m : MemoryStatistics) : Except StatisticError Unit × MemoryStatistics :=
  if m.rows.any (·.id = s.id) then (.error (.conflict s.id.text), m)
  else (.ok (), { rows := m.rows ++ [s] })

def history (m : MemoryStatistics) (entry : EntryType) (owner : Option TenantKey) (limit : Nat) :
    List Statistic :=
  (m.rows.reverse.filter fun s => s.entryType = entry && s.owner = owner).take limit

def service (p : Part σ MemoryStatistics) : StatisticStore σ where
  record s := p.run (record s)
  history entry owner limit := p.read fun m => .ok (m.history entry owner limit)

end MemoryStatistics

end JobEngine
