import Liteset.Lib.Attempt

/-!
# Executing a report schedule

The state machine of `commands/report_execute.py`.  A run works on the schedule's
ORM object and commits it together with an execution log row; what is committed
stays when a later step raises.

The outcomes of the steps outside this file are an `Environment`: the clock, the
alert evaluation, `send`, `send_error` and each write of a log row.  `V` is the
type of the alert's last value, which is only copied.
-/

set_option autoImplicit false

namespace Liteset.Reports

open Liteset.Lib

inductive ReportState where
  | success
  | working
  | error
  | noop
  | grace
  deriving DecidableEq, Repr

inductive ReportScheduleType where
  | alert
  | report
  deriving DecidableEq, Repr

/-- An item of `SupersetErrorsException.errors`: an object with a `message`, or a
dict with its text. -/
inductive ErrorItem where
  | error (message : String)
  | dict (message : Option String) (text : String)
  deriving DecidableEq, Repr

inductive Exception where
  | supersetErrors (errors : List ErrorItem) (message : String)
  | reportScheduleUnexpected (message : String)
  | staleData
  | other (message : String)
  deriving DecidableEq, Repr

/-- `str(ex)` -/
def Exception.text : Exception → String
  | .supersetErrors _ message => message
  | .reportScheduleUnexpected message => message
  | .staleData => ""
  | .other message => message

structure ReportSchedule (V : Type) where
  type : ReportScheduleType
  lastState : Option ReportState
  lastValue : Option V
  lastValueRowJson : Option String
  lastEvalDttm : Option Int
  /-- Seconds. -/
  gracePeriod : Option Int
  workingTimeout : Option Int
  deriving DecidableEq

structure ReportExecutionLog (V : Type) where
  scheduledDttm : Int
  startDttm : Int
  endDttm : Int
  value : Option V
  valueRowJson : Option String
  state : Option ReportState
  errorMessage : Option String
  uuid : String
  deriving DecidableEq

/-- The value `AlertCommand.run` stores and whether it finds the alert triggered. -/
structure AlertOutcome (V : Type) where
  lastValue : Option V
  lastValueRowJson : Option String
  result : Except Exception Bool

structure Environment (V : Type) where
  scheduledDttm : Int
  executionId : String
  /-- Microseconds at the n-th reading. -/
  clock : Nat → Int
  /-- The exception of the n-th commit of a log row, if it raises. -/
  logWrite : Nat → Option Exception
  alert : AlertOutcome V
  send : Option Exception
  sendError : Option Exception

/-- The session: the ORM object, the committed row, the committed log rows of the
schedule, and how often the clock was read and a log row written. -/
structure World (V : Type) where
  schedule : ReportSchedule V
  committed : ReportSchedule V
  logs : List (ReportExecutionLog V)
  readings : Nat
  writes : Nat

def World.loaded {V : Type} (row : ReportSchedule V) (logs : List (ReportExecutionLog V)) :
    World V :=
  { schedule := row, committed := row, logs := logs, readings := 0, writes := 0 }

abbrev Action (V α : Type) := Attempt (World V) Exception α

section Machine
variable {V : Type} (env : Environment V)

/-- `datetime.utcnow()` -/
def utcnow : Action V Int := do
  let n ← inspect fun w => w.readings
  change fun w => { w with readings := w.readings + 1 }
  return env.clock n

def updateReportSchedule (state : ReportState) : Action V Unit := do
  if state = .working then
    change fun w =>
      { w with schedule := { w.schedule with lastValue := none, lastValueRowJson := none } }
  change fun w => { w with schedule := { w.schedule with lastState := some state } }
  let now ← utcnow env
  change fun w => { w with schedule := { w.schedule with lastEvalDttm := some now } }

/-- `session.rollback()`: the object is expired and read again from its row. -/
def rollback : Action V Unit := change fun w => { w with schedule := w.committed }

/-- `session.add(log); session.commit()` -/
def commitLog (log : ReportExecutionLog V) : Action V Unit := do
  let n ← inspect fun w => w.writes
  change fun w => { w with writes := w.writes + 1 }
  match env.logWrite n with
  | some ex => raise ex
  | none => change fun w => { w with committed := w.schedule, logs := w.logs ++ [log] }

def createLog (startDttm : Int) (errorMessage : Option String) : Action V Unit := do
  let now ← utcnow env
  let schedule ← inspect fun w => w.schedule
  let log : ReportExecutionLog V :=
    { scheduledDttm := env.scheduledDttm
      startDttm := startDttm
      endDttm := now
      value := schedule.lastValue
      valueRowJson := schedule.lastValueRowJson
      state := schedule.lastState
      errorMessage := errorMessage
      uuid := env.executionId }
  tryExcept (commitLog env log) fun ex => do
    match ex with
    | .staleData =>
      rollback
      raise (.reportScheduleUnexpected
        "Report schedule was modified or deleted by another process during execution")
    | other => raise other

def updateReportScheduleAndLog (startDttm : Int) (state : ReportState)
    (errorMessage : Option String) : Action V Unit := do
  updateReportSchedule env state
  createLog env startDttm errorMessage

/-- The first row in descending `end_dttm`. -/
def lastLog (selected : ReportExecutionLog V → Bool) (logs : List (ReportExecutionLog V)) :
    Option (ReportExecutionLog V) :=
  logs.foldl (fun best log =>
    if selected log then
      match best with
      | none => some log
      | some found => if found.endDttm < log.endDttm then some log else some found
    else best) none

def errorNotificationMarker : String := "Notification sent with error"

def findLastSuccessLog (w : World V) : Option (ReportExecutionLog V) :=
  lastLog (fun log => log.state = some .success) w.logs

def findLastEnteredWorkingLog (w : World V) : Option (ReportExecutionLog V) :=
  lastLog (fun log => log.state = some .working && log.errorMessage = none) w.logs

def findLastErrorNotification (w : World V) : Option (ReportExecutionLog V) :=
  match lastLog (fun log => log.errorMessage = some errorNotificationMarker) w.logs with
  | none => none
  | some lastErrorEmailLog =>
    match lastLog (fun log => log.state ≠ none && log.state ≠ some .error
        && log.state ≠ some .working && log.endDttm < lastErrorEmailLog.endDttm) w.logs with
    | none => some lastErrorEmailLog
    | some _ => none

/-- `grace_period and now - timedelta(seconds=grace_period) < end_dttm` -/
def withinGrace (gracePeriod : Option Int) (now endDttm : Int) : Bool :=
  match gracePeriod with
  | none => false
  | some seconds => seconds ≠ 0 && now - seconds * 1000000 < endDttm

def isWithinGraceOf (found : Option (ReportExecutionLog V)) : Action V Bool := do
  match found with
  | none => return false
  | some log =>
    let gracePeriod ← inspect fun w => w.schedule.gracePeriod
    if gracePeriod = none ∨ gracePeriod = some 0 then return false
    let now ← utcnow env
    return withinGrace gracePeriod now log.endDttm

def isInGracePeriod : Action V Bool := do
  let lastSuccess ← inspect findLastSuccessLog
  isWithinGraceOf env lastSuccess

def isInErrorGracePeriod : Action V Bool := do
  let lastErrorLog ← inspect findLastErrorNotification
  isWithinGraceOf env lastErrorLog

def isOnWorkingTimeout : Action V Bool := do
  let lastWorking ← inspect findLastEnteredWorkingLog
  match lastWorking with
  | none => return false
  | some log =>
    let schedule ← inspect fun w => w.schedule
    match schedule.workingTimeout, schedule.lastEvalDttm with
    | some seconds, some _ => do
        let now ← utcnow env
        return (now - seconds * 1000000 > log.endDttm : Bool)
    | _, _ => return false

/-- `AlertCommand(...).run()` -/
def alertCommand : Action V Bool := do
  change fun w =>
    { w with
      schedule :=
        { w.schedule with
          lastValue := env.alert.lastValue
          lastValueRowJson := env.alert.lastValueRowJson } }
  match env.alert.result with
  | .ok triggered => return triggered
  | .error ex => raise ex

def outcome (raised : Option Exception) : Action V Unit :=
  match raised with
  | none => pure ()
  | some ex => raise ex

/-- `self.send()` -/
def send : Action V Unit := outcome env.send

/-- `self.send_error(name, message)` -/
def sendError : Action V Unit := outcome env.sendError

def isSpace (c : Char) : Bool :=
  let n := c.toNat
  (9 ≤ n && n ≤ 13) || (28 ≤ n && n ≤ 32) || n = 0x85 || n = 0xa0 || n = 0x1680
    || (0x2000 ≤ n && n ≤ 0x200a) || n = 0x2028 || n = 0x2029 || n = 0x202f || n = 0x205f
    || n = 0x3000

def strip (text : String) : String :=
  String.ofList ((text.toList.dropWhile isSpace).reverse.dropWhile isSpace).reverse

def stripSqlPayload (message : String) : String :=
  strip ((message.splitOn "\n[SQL:").headD "")

def ErrorItem.described : ErrorItem → String
  | .error message => message
  | .dict message text => message.getD text

/-- `error.message`; a dict has no such attribute. -/
def ErrorItem.attribute : ErrorItem → Option String
  | .error message => some message
  | .dict _ _ => none

def firstErrorMessage : Exception → String
  | .supersetErrors errors message =>
    if errors = [] then stripSqlPayload message
    else ";".intercalate (errors.map ErrorItem.described)
  | other => stripSqlPayload other.text

def unlessUnexpected (m : Action V Unit) (handler : Exception → Action V Unit) : Action V Unit :=
  tryExcept m fun ex =>
    match ex with
    | .reportScheduleUnexpected message => handler (.reportScheduleUnexpected message)
    | other => raise other

/-- `second_error_message` after the handlers of a failed notification, and the
exception that leaves them. -/
def secondError : Option Exception → String × Option Exception
  | none => (errorNotificationMarker, none)
  | some (.supersetErrors errors _) =>
    match errors.mapM ErrorItem.attribute with
    | some messages => (";".intercalate messages, none)
    | none =>
      (errorNotificationMarker, some (.other "'dict' object has no attribute 'message'"))
  | some (.reportScheduleUnexpected _) => (errorNotificationMarker, none)
  | some ex => (ex.text, none)

def notifyOwners (startDttm : Int) : Action V Unit :=
  tryFinally (tryExcept (sendError env) fun _ => outcome (secondError env.sendError).2)
    (unlessUnexpected
      (updateReportScheduleAndLog env startDttm .error (some (secondError env.sendError).1))
      fun _ => pure ())

def isTriggered : Action V Bool := do
  let type ← inspect fun w => w.schedule.type
  if type = .alert then alertCommand env else pure true

/-- The body of the `try` of `ReportNotTriggeredErrorState.next`. -/
def evaluateAndSend (startDttm : Int) : Action V Unit := do
  if ← isTriggered env then
    send env
    updateReportScheduleAndLog env startDttm .success none
  else
    updateReportScheduleAndLog env startDttm .noop none

def recordFirstError (startDttm : Int) (firstEx : Exception) : Action V Unit := do
  unlessUnexpected
    (updateReportScheduleAndLog env startDttm .error (some (firstErrorMessage firstEx)))
    fun _ => raise firstEx
  if !(← isInErrorGracePeriod env) then
    notifyOwners env startDttm
  raise firstEx

/-- `ReportNotTriggeredErrorState.next` -/
def notTriggeredErrorStateNext (startDttm : Int) : Action V Unit := do
  updateReportScheduleAndLog env startDttm .working none
  tryExcept (evaluateAndSend env startDttm) (recordFirstError env startDttm)

/-- `ReportWorkingState.next` -/
def workingStateNext (startDttm : Int) : Action V Unit := do
  if ← isOnWorkingTimeout env then
    let timeout := "Report Schedule reached a working timeout."
    updateReportScheduleAndLog env startDttm .error (some timeout)
    raise (.other timeout)
  else
    let working := "Report Schedule is still working, refusing to re-compute."
    updateReportScheduleAndLog env startDttm .working (some working)
    raise (.other working)

/-- The part of `ReportSuccessState.next` after the alert was found triggered. -/
def successStateSend (startDttm : Int) : Action V Unit :=
  tryExcept
    (do
      send env
      updateReportScheduleAndLog env startDttm .success none)
    fun ex => do
      unlessUnexpected (updateReportScheduleAndLog env startDttm .error (some ex.text))
        fun _ => raise ex
      raise ex

/-- The evaluation of an alert in `ReportSuccessState.next`: whether to go on. -/
def successStateEvaluate (startDttm : Int) : Action V Bool :=
  tryExcept
    (do
      let triggered ← alertCommand env
      if triggered then return true
      else
        updateReportScheduleAndLog env startDttm .noop none
        return false)
    fun ex => do
      sendError env
      updateReportScheduleAndLog env startDttm .error (some errorNotificationMarker)
      raise ex

/-- `ReportSuccessState.next` -/
def successStateNext (startDttm : Int) : Action V Unit := do
  let type ← inspect fun w => w.schedule.type
  if type = .alert then
    if ← isInGracePeriod env then
      updateReportScheduleAndLog env startDttm .grace (some "Alert fired during grace period.")
    else
      updateReportScheduleAndLog env startDttm .working none
      if ← successStateEvaluate env startDttm then successStateSend env startDttm
  else successStateSend env startDttm

structure StateClass (V : Type) where
  currentStates : List ReportState
  initial : Bool
  next : Environment V → Int → Action V Unit

def statesCls : List (StateClass V) :=
  [ { currentStates := [.working], initial := false, next := workingStateNext },
    { currentStates := [.noop, .error], initial := true, next := notTriggeredErrorStateNext },
    { currentStates := [.success, .grace], initial := false, next := successStateNext } ]

def StateClass.handles (cls : StateClass V) (lastState : Option ReportState) : Bool :=
  match lastState with
  | none => cls.initial
  | some state => cls.currentStates.contains state

/-- `@transaction()`: inside another transaction the function runs as it is, else
the session is committed when it returns and rolled back when it raises. -/
def transaction (inTransaction : Bool) (m : Action V Unit) : Action V Unit :=
  if inTransaction then m
  else tryExcept
    (do
      m
      change fun w => { w with committed := w.schedule })
    fun ex => do
      rollback
      raise ex

def run (inTransaction : Bool) : Action V Unit :=
  transaction inTransaction do
    let lastState ← inspect fun w => w.schedule.lastState
    match statesCls.find? fun cls => cls.handles lastState with
    | some cls => do
        let startDttm ← utcnow env
        cls.next env startDttm
    | none => raise (.other "Report Schedule state not found")

end Machine

end Liteset.Reports
