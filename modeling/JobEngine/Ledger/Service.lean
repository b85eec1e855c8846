import JobEngine.Ledger.Query
import JobEngine.Ledger.Update
/-! The ledger as the rest of the engine sees it: one row per key, kept somewhere. -/

namespace JobEngine

structure StatusLedger (σ : Type) where
  /-- Adds a row; a key that has one is refused. -/
  create : JobStatus → Act σ (Except LedgerError Unit)
  get : JobKey → Act σ (Except LedgerError (Option JobStatus))
  /-- Adds a row or writes over all of it but its age; a cancelled row stays as it is. -/
  merge : JobStatus → Act σ (Except LedgerError JobStatus)
  transition : JobKey → StatusUpdate → Act σ (Except LedgerError JobStatus)
  list : StatusQuery → Act σ (Except LedgerError (List JobStatus))
  stats : Option TenantKey → Act σ (Except LedgerError LedgerStats)

def StatusLedger.cancel (l : StatusLedger σ) (key : JobKey) :
    Act σ (Except LedgerError JobStatus) :=
  l.transition key .cancelled

end JobEngine
