import Liteset.Lib.Attempt

/-!
# The tasks behind async charts

`load_chart_data_into_cache` and `load_explore_json_into_cache` of
`tasks/async_queries.py`, with Redis reachable: each statement returns or raises,
and `_update_job` appends to the streams of the job.  A soft time limit may end a
statement like any exception, and may also come while an event is being published.
-/

set_option autoImplicit false

namespace Liteset.Tasks.AsyncQueries

open Liteset.Lib

/-- What a statement raises.  `serialisable` tells whether `json.dumps` takes the
errors that the handler of the task makes of it. -/
inductive Raised where
  | softTimeLimit
  | error (serialisable : Bool)
  deriving DecidableEq, Repr

inductive Status where
  | done
  | error
  deriving DecidableEq, Repr

inductive Interruption where
  | never
  | before
  | after
  deriving DecidableEq, Repr

abbrev Streams := List Status

abbrev Task := Attempt Streams Raised Unit

def statement : Option Raised → Task
  | none => pure ()
  | some e => raise e

/-- `_update_job`: `json.dumps` comes before the first write. -/
def updateJob (status : Status) (serialisable : Bool) (interruption : Interruption) : Task :=
  if serialisable then
    match interruption with
    | .never => change fun published => published ++ [status]
    | .before => raise .softTimeLimit
    | .after => do
        change fun published => published ++ [status]
        raise .softTimeLimit
  else raise (.error true)

structure Publishing where
  done : Interruption
  error : Interruption
  deriving DecidableEq, Repr

def handler (publishing : Publishing) (errors : Raised → Bool) (e : Raised) : Task :=
  match e with
  | .softTimeLimit => raise .softTimeLimit
  | .error serialisable => do
      updateJob .error (errors (.error serialisable)) publishing.error
      raise (.error serialisable)

/-- The shape of both tasks: the session is opened before the `try`, the body ends
with the done event, and the `finally` closes the session. -/
def task (opened : Option Raised) (body : List (Option Raised)) (publishing : Publishing)
    (errors : Raised → Bool) (closed : Option Raised) : Task := do
  statement opened
  tryFinally
    (tryExcept
      (do
        (body.forM statement : Task)
        updateJob .done true publishing.done)
      (handler publishing errors))
    (statement closed)

/-- What the statements of `load_chart_data_into_cache` raise. -/
structure ChartRun where
  /-- `get_sync_session` -/
  session : Option Raised
  settings : Option Raised
  queryContext : Option Raised
  datasource : Option Raised
  /-- `asyncio.run(_execute())`, with the user, the validation and the query -/
  execute : Option Raised
  publishing : Publishing
  /-- `session.close` -/
  close : Option Raised
  deriving DecidableEq, Repr

def loadChartDataIntoCache (run : ChartRun) : Task :=
  task run.session [run.settings, run.queryContext, run.datasource, run.execute] run.publishing
    (fun _ => true) run.close

/-- A statement inside a `try` whose handler only logs. -/
def swallowed (_ : Option Raised) : Option Raised := none

/-- What the statements of `load_explore_json_into_cache` raise. -/
structure ExploreRun where
  session : Option Raised
  settings : Option Raised
  /-- The reference to the dataset can be read and the dataset is there. -/
  datasource : Option Raised
  /-- `asyncio.run(_execute())`: also for a payload that has errors -/
  execute : Option Raised
  cacheKey : Option Raised
  /-- Raised while the form data is stored, and swallowed there. -/
  store : Option Raised
  publishing : Publishing
  close : Option Raised
  deriving DecidableEq, Repr

def loadExploreJsonIntoCache (run : ExploreRun) : Task :=
  task run.session
    [run.settings, run.datasource, run.execute, run.cacheKey, swallowed run.store]
    run.publishing (fun e => match e with | .error serialisable => serialisable | _ => true)
      run.close

def firstRaised (body : List (Option Raised)) : Option Raised := body.findSome? id

/-- The task reaches its body and no soft time limit keeps it from publishing; the
errors it publishes can be serialised. -/
def Notifies (opened : Option Raised) (body : List (Option Raised)) (publishing : Publishing)
    (errors : Raised → Bool) : Prop :=
  opened = none ∧
    match firstRaised body with
    | none => publishing.done ≠ .before
    | some .softTimeLimit => False
    | some (.error serialisable) =>
      errors (.error serialisable) = true ∧ publishing.error ≠ .before

theorem run_statement (outcome : Option Raised) (published : Streams) :
    statement outcome published = match outcome with
      | none => (.ok (), published)
      | some e => (.error e, published) := by
  cases outcome with
  | none => rfl
  | some e => rfl

theorem run_body (body : List (Option Raised)) (published : Streams) :
    (body.forM statement : Task) published = match firstRaised body with
      | none => (.ok (), published)
      | some e => (.error e, published) := by
  induction body with
  | nil => rfl
  | cons outcome rest ih =>
    cases outcome with
    | none => exact ih
    | some e => rfl

theorem streams_finally (m : Task) (closed : Option Raised) (published : Streams) :
    (tryFinally m (statement closed) published).2 = (m published).2 := by
  unfold Lib.tryFinally
  cases ran : m published with
  | mk outcome streams =>
    simp only [run_statement]
    cases closed with
    | none => rfl
    | some e => rfl

theorem streams_updateJob (status : Status) (serialisable : Bool) (interruption : Interruption)
    (published : Streams) :
    (updateJob status serialisable interruption published).2
      = if serialisable = true ∧ interruption ≠ .before then published ++ [status]
      else published := by
  cases serialisable with
  | false => rfl
  | true =>
    cases interruption with
    | never => rfl
    | before => rfl
    | after => rfl

theorem streams_handler (publishing : Publishing) (errors : Raised → Bool) (e : Raised)
    (published : Streams) :
    (handler publishing errors e published).2 = match e with
      | .softTimeLimit => published
      | .error serialisable =>
        if errors (.error serialisable) = true ∧ publishing.error ≠ .before then
          published ++ [.error]
        else published := by
  cases e with
  | softTimeLimit => rfl
  | error serialisable =>
    refine Eq.trans ?_ (streams_updateJob .error (errors (.error serialisable)) publishing.error
      published)
    -- raising the exception again leaves the streams as they are
    unfold handler
    cases ran : updateJob .error (errors (.error serialisable)) publishing.error published with
    | mk outcome streams =>
      cases outcome with
      | ok value =>
        simp only [bind_of_ok ran]
        rfl
      | error e => simp only [bind_of_error ran]

theorem streams_body (body : List (Option Raised)) (publishing : Publishing)
    (errors : Raised → Bool) :
    (tryExcept
        (do
          (body.forM statement : Task)
          updateJob .done true publishing.done)
        (handler publishing errors) []).2
      = match firstRaised body with
        | none => if publishing.done ≠ .before then [.done] else []
        | some .softTimeLimit => []
        | some (.error serialisable) =>
          if errors (.error serialisable) = true ∧ publishing.error ≠ .before then [.error]
          else [] := by
  have ran : (do
      (body.forM statement : Task)
      updateJob .done true publishing.done : Task) []
        = match firstRaised body with
          | none => updateJob .done true publishing.done []
          | some e => (.error e, []) := by
    have all := run_body body []
    cases first : firstRaised body with
    | none =>
      rw [first] at all
      exact bind_of_ok all
    | some e =>
      rw [first] at all
      exact bind_of_error all
  unfold tryExcept
  rw [ran]
  cases firstRaised body with
  | none =>
    cases publishing.done with
    | never => rfl
    | before => rfl
    | after => rfl
  | some e =>
    refine (streams_handler publishing errors e []).trans ?_
    cases e with
    | softTimeLimit => rfl
    | error serialisable => rfl

theorem one_event_iff {opened closed : Option Raised} {body : List (Option Raised)}
    {publishing : Publishing} {errors : Raised → Bool} :
    ((task opened body publishing errors closed) []).2.length = 1
      ↔ Notifies opened body publishing errors := by
  unfold Notifies
  cases opened with
  | some e =>
    have none : ((task (some e) body publishing errors closed) []).2 = [] := rfl
    simp [none]
  | none =>
    have streams : ((task none body publishing errors closed) []).2 = _ :=
      (streams_finally _ closed []).trans (streams_body body publishing errors)
    rw [streams]
    cases firstRaised body with
    | none =>
      by_cases before : publishing.done = .before
      · simp [before]
      · simp [before]
    | some e =>
      cases e with
      | softTimeLimit => simp
      | error serialisable =>
        by_cases published : errors (.error serialisable) = true ∧ publishing.error ≠ .before
        · simp [published]
        · simp only [if_neg published]
          simp [published]

end Liteset.Tasks.AsyncQueries
