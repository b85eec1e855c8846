import JobEngine.Database.Query
/-! The statistic store as programs over a connection. -/

namespace JobEngine.DatabaseStatistics

def failure (operation : String) (e : DatabaseError) : StatisticError :=
  .storage (e.during operation)

def record (statistic : Statistic) : Query StatisticError Unit := do
  let onError := fun (e : DatabaseError) =>
    if e.isUniqueViolation then StatisticError.conflict (e.during "insert_statistic")
    else failure "insert_statistic" e
  let _ ← Query.ask onError (.insertStatistic (StatisticRow.ofStatistic statistic))

def decode : Option StatisticRow → Except StatisticError Statistic
  | none => .error (.storage "failed to deserialize statistic row")
  | some row => row.toStatistic

def history (entry : EntryType) (owner : Option TenantKey) (limit : Nat) :
    Query StatisticError (List Statistic) := do
  let statement := Statement.loadHistory entry.name (owner.map (·.text)) limit
  let reply ← Query.ask (failure "load_history") statement
  Query.check (reply.statisticRows.mapM decode)

end JobEngine.DatabaseStatistics
