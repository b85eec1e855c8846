import JobEngine.Rehearsal.Calls
import JobEngine.Rehearsal.Stage
import JobEngine.Registration
/-! Scripted jobs. A script is a list of actions; each may be confined to the attempts below or from
a number on, and the first that fails ends the body. -/

namespace JobEngine

inductive Action where
  | emit (event : EventRequest)
  | fail (error : JobError)
  | panic (text : String)
  | echo
  | log (text : String)
  | state (key : Option String)
  | createRow (key : Option String)
  | transition (key : Option String) (update : UpdateRequest)
  | cancel (key : Option String)
  | unit (call : String)
  | delete (key : Option String)
  | trigger (key : Option String) (data : List (String × String))
  | addJob (job : JobRequest) (replace : Bool)
  /-- A word that no script knows. -/
  | unknown (word : String)

/-- An action and the attempts it is meant for. -/
structure Cue where
  action : Action
  below : Option Nat := none
  onward : Option Nat := none

def Cue.concerns (c : Cue) (attempt : Nat) : Bool :=
  (c.below.all fun n => attempt < n) && (c.onward.all fun n => n ≤ attempt)

structure Script where
  name : String := "script"
  body : List Cue := []
  /-- The kind given to every failure. -/
  classify : Option FailureKind := none
  logsTime : Bool := true
  schedulable : Bool := true
  /-- Whether the script leaves scheduling and logging as they are for any job. -/
  plain : Bool := false

inductive JobScript where
  | refreshPools
  /-- Statistics of some entries, where the counts of some are fixed. -/
  | statistics (entries : List EntryType) (counts : Assoc EntryType Nat)
  | scripted (script : Script)

inductive ListenerScript where
  | status
  /-- A listener that notes every fire and vetoes those of some keys. -/
  | noting (name : String) (vetoes : List String)

def ListenerScript.name : ListenerScript → String
  | .status => StatusListener.name
  | .noting name _ => name

abbrev Theatre := Stage JobScript ListenerScript

namespace ListenerScript

def listener : ListenerScript → JobListener Theatre
  | .status => StatusListener.listener Stage.ledgerService
  | .noting name vetoes =>
    { before := fun fire => do
        Stage.note (.before name fire)
        return if vetoes.contains fire.key.text then .veto else .proceed
      after := fun fire outcome => Stage.note (.after name fire outcome) }

end ListenerScript

namespace Script

/-- What an action needs from around it: its thread and the scheduler. -/
structure Setting where
  thread : ThreadName
  scheduler : JobScheduler Theatre

/-- The key an action is about; the run's own one when none is given. -/
def target (ctx : JobContext) : Option String → Body Theatre JobKey
  | none => pure ctx.run.key
  | some s => (Request.key s).orFail

def ledgerCall (call : Act Theatre (Except LedgerError α)) : Body Theatre α := do
  Body.orFail LedgerError.toJobError (← Body.act call)

/-- Notes what a call on the scheduler came to; the job goes on whatever it was. -/
def schedulerCall (action : String)
    (call : Request Theatre (Except SchedulerError (Option Bool))) : Body Theatre Unit :=
  Body.act do
    match ← call.run with
    | .ok r => Stage.note (.jobCall action (.ok r))
    | .error e => Stage.note (.jobCall action (.error e.message))

def keyRequest (ctx : JobContext) : Option String → Request Theatre JobKey
  | none => pure ctx.run.key
  | some s => Request.key s

def callUnit (thread : ThreadName) (call : String) : Act Theatre (Except UnitOfWorkError Unit) :=
  let units : UnitOfWork Theatre := ThreadUnits.service Stage.unitsPart thread
  match call with
  | "begin" => units.begin
  | "end" => units.finish
  | "abort" => units.abort
  | _ => pure (.ok ())

def perform (script : Script) (setting : Setting) (ctx : JobContext) : Action → Body Theatre Unit
  | .emit event => do ctx.emit (← event.build.orFail)
  | .fail error => Body.fail error
  | .panic text => Body.stop (.panicked text)
  | .echo => Body.act do
    let active ← Stage.unitsPart.read (·.isActive setting.thread)
    Stage.note (.echo script.name ctx active)
  | .log text =>
    Body.act (Act.log .worker .debug "inside the job" [("text", .str text)])
  | .state key => do
    let key ← target ctx key
    let row ← ledgerCall (Stage.ledgerService.get key)
    Body.act (Stage.note (.state row))
  | .createRow key => do
    let key ← target ctx key
    let row ← Body.act (JobStatus.register { key, kind := "k" } false)
    ledgerCall (Stage.ledgerService.create row)
  | .transition key update => do
    let key ← target ctx key
    let update ← update.build.orFail
    let _ ← ledgerCall (Stage.ledgerService.transition key update)
  | .cancel key => do
    let key ← target ctx key
    let _ ← ledgerCall (Stage.ledgerService.cancel key)
  | .unit call => Body.act do
    let _ ← callUnit setting.thread call
  | .delete key => schedulerCall "delete" do
    let key ← keyRequest ctx key
    return .ok (some (← Request.act (setting.scheduler.deleteJob key)))
  | .trigger key data => schedulerCall "trigger" do
    let key ← keyRequest ctx key
    return (← Request.act (setting.scheduler.triggerNow key (Dict.ofList data))).map fun _ => none
  | .addJob job replace => schedulerCall "add_job" do
    let definition ← job.build
    return (← Request.act (setting.scheduler.addJob definition replace)).map fun _ => none
  | .unknown word => Body.fail (.fatalText ("bad script: " ++ word))

def performAll (script : Script) (setting : Setting) (ctx : JobContext) :
    List Cue → Body Theatre Unit
  | [] => pure ()
  | cue :: rest => do
    if cue.concerns ctx.attempt then perform script setting ctx cue.action
    performAll script setting ctx rest

def job (script : Script) (setting : Setting) : Job Theatre where
  name := script.name
  body ctx := performAll script setting ctx script.body
  logsTime := script.plain || script.logsTime
  classify e := script.classify.getD e.kind
  isSchedulable _ status :=
    if script.plain then pure true
    else do
      Stage.note (.schedulable status.kind status.state)
      return script.schedulable

end Script

namespace JobScript

def job (setting : Script.Setting) : JobScript → Job Theatre
  | .refreshPools => PoolRefresh.job Stage.refresher
  | .statistics entries counts =>
    let source : StatisticHistory.Source Theatre := fun entry owner =>
      match counts.get? entry with
      | some n => pure (.ok n)
      | none => StatisticHistory.countRows Stage.ledgerService entry owner
    StatisticHistory.job source Stage.statisticService entries
  | .scripted script => script.job setting

end JobScript

end JobEngine
