import JobEngine.Data.Dict
import JobEngine.Data.Key
import JobEngine.Host
/-! What a job is before it runs: a key, a kind that routes it to a body, and string options. The
options of a trigger are laid over those of the job. -/

namespace JobEngine

abbrev TriggerData := Dict String

namespace TriggerData

/-- The option that names the owning tenant. -/
def ownerId : String := "ownerId"

/-- The option that sets the log level of the owner's runs. -/
def ownerLogLevel : String := "ownerLogLevel"

/-- The owning tenant: the option without its blanks, when there is something left. -/
def owner? (d : TriggerData) : Option TenantKey :=
  (d.get? ownerId).bind fun raw => (TenantKey.ofText raw).toOption

def logLevel? (d : TriggerData) : Option Level :=
  (d.get? ownerLogLevel).bind Level.ofText?

/-- The owning tenant; a malformed one is reported and ignored. -/
def readOwner (d : TriggerData) : Act σ (Option TenantKey) := do
  if let some raw := d.get? ownerId then
    if let .error e := TenantKey.ofText raw then
      Act.log .jobs .warn "ignoring malformed owner id"
        [("value", .str raw), ("error", .shown e.message)]
  return d.owner?

/-- The log level of the owner's runs; an unknown one is reported and ignored. -/
def readLogLevel (d : TriggerData) : Act σ (Option Level) := do
  if let some raw := d.get? ownerLogLevel then
    if let .error e := Level.ofText raw then
      Act.log .jobs .warn "ignoring unknown owner log level"
        [("value", .str raw), ("error", .shown e.message)]
  return d.logLevel?

/-- The options of a job with those of a trigger laid over them. -/
def merged (base upper : TriggerData) : TriggerData := base.overlay upper

end TriggerData

structure JobDefinition where
  key : JobKey
  kind : String
  data : TriggerData := Dict.empty

namespace JobDefinition

def withData (d : JobDefinition) (option value : String) : JobDefinition :=
  { d with data := d.data.insert option value }

def withOwner (d : JobDefinition) (owner : TenantKey) : JobDefinition :=
  d.withData TriggerData.ownerId owner.text

/-- A definition under a fresh key that starts with its kind. -/
def fresh (kind : String) : Act σ JobDefinition := do
  return { key := JobKey.generate kind (← Act.freshId), kind }

end JobDefinition

end JobEngine
