import Liteset.Events.AsyncEventSafety
import Liteset.Tasks.AsyncQueries

/-!
# An async chart from the worker to the promise

The promise of a job is settled when its terminal event is the first that reaches
the listener; the worker publishes one terminal event unless a soft time limit ends
the task or the errors cannot be published.
-/

set_option autoImplicit false

namespace Liteset.Events.Client

open Liteset.Lib Liteset.Lib.Runs Liteset.Tasks.AsyncQueries

/-- Nothing keeps `load_chart_data_into_cache` from publishing. -/
def ChartNotifies (run : ChartRun) : Prop :=
  Notifies run.session [run.settings, run.queryContext, run.datasource, run.execute] run.publishing
    fun _ => true

/-- Nothing keeps `load_explore_json_into_cache` from publishing, and the errors it
publishes can be serialised. -/
def ExploreNotifies (run : ExploreRun) : Prop :=
  Notifies run.session [run.settings, run.datasource, run.execute, run.cacheKey] run.publishing
    fun e => match e with | .error serialisable => serialisable | .softTimeLimit => true

theorem firstRaised_swallowed (before : List (Option Raised)) (store : Option Raised) :
    firstRaised (before ++ [swallowed store]) = firstRaised before := by
  unfold firstRaised swallowed
  rw [List.findSome?_append]
  simp

def pendingEvent : AsyncEvent where
  id := some "1-0"
  jobId := "job"
  status := .pending
  errors := .list []
  resultUrl := none

def doneEvent : AsyncEvent :=
  { pendingEvent with
    id := some "2-0", status := .done, resultUrl := some "/api/v1/chart/data/key" }

def failedChart : ChartRun where
  session := none
  settings := none
  queryContext := none
  datasource := none
  execute := some (.error true)
  publishing := { done := .never, error := .never }
  close := none

def unstoredExplore : ExploreRun where
  session := none
  settings := none
  datasource := none
  execute := none
  cacheKey := none
  store := some (.error true)
  publishing := { done := .never, error := .never }
  close := none

end Liteset.Events.Client
