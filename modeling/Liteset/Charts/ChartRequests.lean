import Liteset.Lib.Runs

/-!
# Overlapping queries of a chart

`exploreJSON` of `chartAction.js` with the handlers of `chartReducer.ts` for one chart key.
A call stores its controller, schedules the abort of the one before and leaves a promise
chain behind; the chain ends in one dispatch by chart key.
-/

set_option autoImplicit false

namespace Liteset.Charts.ChartRequests

open Lib.Runs (Reaches anyStep exists_reaches_of_runWithin)

inductive ChartStatus where
  | loading
  | success
  | stopped
  | failed
  | rendered
deriving DecidableEq

structure Failure where
  error : Option String := none
  stacktrace : Option String := none
deriving DecidableEq

/-- `queriesResponse` of an action: the results, or an array of one error. -/
inductive QueriesResponse (Result : Type) where
  | results (results : List Result)
  | failure (failure : Failure)
deriving DecidableEq

structure ChartState (Form Result : Type) where
  chartStatus : ChartStatus := .loading
  chartAlert : Option String := none
  chartStackTrace : Option String := none
  latestQueryFormData : Option Form := none
  queryController : Option Nat := none
  queriesResponse : Option (QueriesResponse Result) := none
  triggerQuery : Bool := true
deriving DecidableEq

inductive Outcome (Result : Type) where
  | succeeded (queriesResponse : List Result)
  | stopped
  | failed (failure : Failure)
deriving DecidableEq

namespace ChartState

variable {Form Result : Type} (state : ChartState Form Result)

def chartUpdateStarted (queryController : Nat) : ChartState Form Result :=
  { state with
    chartStatus := .loading
    chartStackTrace := none
    chartAlert := none
    queryController := some queryController }

def setTriggerQuery (value : Bool) : ChartState Form Result :=
  { state with triggerQuery := value, chartStatus := .loading }

def updateQueryFormData (value : Form) : ChartState Form Result :=
  { state with latestQueryFormData := some value }

def chartUpdateSucceeded (queriesResponse : List Result) : ChartState Form Result :=
  { state with
    chartStatus := .success
    chartAlert := none
    queriesResponse := some (.results queriesResponse) }

def chartUpdateStopped : ChartState Form Result :=
  { state with chartStatus := .stopped, chartAlert := some "Updating chart was stopped" }

def chartUpdateFailed (failure : Failure) : ChartState Form Result :=
  { state with
    chartStatus := .failed
    chartAlert := failure.error
    queriesResponse := some (.failure failure)
    chartStackTrace := failure.stacktrace }

def dispatch : Outcome Result → ChartState Form Result
  | .succeeded queriesResponse => state.chartUpdateSucceeded queriesResponse
  | .stopped => state.chartUpdateStopped
  | .failed failure => state.chartUpdateFailed failure

end ChartState

inductive Reason where
  | abortError
  | failure (failure : Failure)
deriving DecidableEq

/-- The error as `[response]`; an `AbortError` has neither field. -/
def Reason.raw : Reason → Failure
  | .abortError => {}
  | .failure given => given

inductive Phase (Result : Type) where
  | fetching
  /-- `waitForAsyncData` -/
  | waiting
  /-- The success handler is about to run. -/
  | resolved (queriesResponse : List Result)
  /-- The `catch` handler is about to run. -/
  | rejected (reason : Reason)
  /-- `getClientErrorObject` reads the error. -/
  | reading (failure : Failure)
  | settled (outcome : Outcome Result)
deriving DecidableEq

structure Request (Result : Type) where
  phase : Phase Result := .fetching
  abortedByUser : Bool := false
deriving DecidableEq

inductive Answer (Result : Type) where
  | response (status : Nat) (result : List Result)
  | error (failure : Failure)
deriving DecidableEq

inductive Event (Form Result : Type) where
  /-- A call of `exploreJSON`. -/
  | exploreJSON (formData : Form)
  /-- The next `setTimeout(() => prevController.abort(), 0)`. -/
  | abortPrevious
  /-- The user aborts the controller in the store. -/
  | onStop
  | respond (id : Nat) (answer : Answer Result)
  /-- The listener of the job resolves or rejects. -/
  | jobDone (id : Nat) (result : Except Failure (List Result))
  /-- A handler of the chain that is due runs. -/
  | proceed (id : Nat)

structure World (Form Result : Type) where
  chart : ChartState Form Result
  requests : List (Request Result) := []
  timers : List Nat := []

/-- `isFeatureEnabled(GlobalAsyncQueries)`, and what `getClientErrorObject` makes of an error. -/
structure Config where
  globalAsyncQueries : Bool := false
  getClientErrorObject : Failure → Failure := id

section Steps

variable {Form Result : Type} (config : Config)

def Request.abort (request : Request Result) : Request Result :=
  match request.phase with
  | .fetching => { request with phase := .rejected .abortError }
  | _ => request

def handleChartDataResponse (status : Nat) (result : List Result) : Phase Result :=
  if config.globalAsyncQueries then
    if status = 200 then .resolved result
    else if status = 202 then .waiting
    else .rejected (.failure {})
  else .resolved result

def answered : Answer Result → Phase Result
  | .response status result => handleChartDataResponse config status result
  | .error failure => .rejected (.failure failure)

def dispatches : Phase Result → Option (Outcome Result)
  | .resolved queriesResponse => some (.succeeded queriesResponse)
  | .rejected reason =>
    if config.globalAsyncQueries then some (.failed reason.raw)
    else
      match reason with
      | .abortError => some .stopped
      | .failure _ => none
  | .reading failure => some (.failed (config.getClientErrorObject failure))
  | _ => none

namespace World

variable (world : World Form Result)

def update (id : Nat) (change : Request Result → Request Result) : World Form Result :=
  { world with requests := world.requests.modify id change }

def exploreJSON (formData : Form) : World Form Result where
  chart :=
    ((world.chart.chartUpdateStarted world.requests.length).setTriggerQuery
      false).updateQueryFormData formData
  requests := world.requests ++ [{}]
  timers := world.timers ++ world.chart.queryController.toList

def settle (id : Nat) (outcome : Outcome Result) : World Form Result :=
  { world.update id fun request => { request with phase := .settled outcome } with
    chart := world.chart.dispatch outcome }

def enter (id : Nat) (phase : Phase Result) : World Form Result :=
  world.update id fun request => { request with phase }

end World

def step (world : World Form Result) : Event Form Result → Option (World Form Result)
  | .exploreJSON formData => some (world.exploreJSON formData)
  | .abortPrevious =>
    match world.timers with
    | [] => none
    | id :: timers => some { world.update id Request.abort with timers }
  | .onStop =>
    world.chart.queryController.map fun id =>
      world.update id fun request => { request.abort with abortedByUser := true }
  | .respond id answer =>
    match (world.requests[id]?).map Request.phase with
    | some .fetching => some (world.enter id (answered config answer))
    | _ => none
  | .jobDone id result =>
    match (world.requests[id]?).map Request.phase with
    | some .waiting =>
      some (world.enter id (match result with
        | .ok data => .resolved data
        | .error failure => .rejected (.failure failure)))
    | _ => none
  | .proceed id =>
    match (world.requests[id]?).map Request.phase with
    | none => none
    | some phase =>
      match dispatches config phase with
      | some outcome => some (world.settle id outcome)
      | none =>
        match phase with
        | .rejected (.failure failure) => some (world.enter id (.reading failure))
        | _ => none

end Steps

def start {Form Result : Type} (chart : ChartState Form Result) : World Form Result where
  chart := { chart with queryController := none }

section Properties

variable {Form Result : Type}

def Request.outcome (request : Request Result) : Option (Outcome Result) :=
  match request.phase with
  | .settled outcome => some outcome
  | _ => none

def ChartState.Shows (state : ChartState Form Result) : Outcome Result → Prop
  | .succeeded queriesResponse =>
    state.chartStatus = .success ∧ state.queriesResponse = some (.results queriesResponse)
  | .stopped => state.chartStatus = .stopped
  | .failed failure => state.chartStatus = .failed ∧ state.queriesResponse = some (.failure failure)

namespace World

variable (world : World Form Result)

def latest : Option (Request Result) := world.requests[world.requests.length - 1]?

/-- Unless the user aborted the last request: the chart is loading while it is pending, and
shows what it dispatched once all requests have settled. -/
def LatestWins : Prop :=
  ∀ latest, world.latest = some latest → latest.abortedByUser = false →
    (latest.outcome = none → world.chart.chartStatus = .loading) ∧
      ∀ outcome, latest.outcome = some outcome →
        (∀ request ∈ world.requests, request.outcome ≠ none) → world.chart.Shows outcome

def due (config : Config) (id : Nat) : Option (Outcome Result) :=
  (world.requests[id]?).bind fun request => dispatches config request.phase

end World

/-- An outcome is dispatched for the last request; for an earlier one only when the user
aborted the last request, or when the last one has settled and dispatched the same or
another request is still to settle. -/
def Orderly (config : Config) (world : World Form Result) : Event Form Result → Prop
  | .proceed id =>
    ∀ outcome, world.due config id = some outcome → id + 1 ≠ world.requests.length →
      ∀ latest, world.latest = some latest → latest.abortedByUser = false →
        ∃ own, latest.outcome = some own ∧
          (own = outcome ∨ ∃ other request, other ≠ id ∧ world.requests[other]? = some request ∧
            request.outcome = none)
  | _ => True

end Properties

section Proofs

variable {Form Result : Type} {config : Config} {world next : World Form Result}

theorem shows_dispatch (state : ChartState Form Result) (outcome own : Outcome Result) :
    (state.dispatch outcome).Shows own ↔ own = outcome := by
  cases outcome <;> cases own <;>
    simp [ChartState.dispatch, ChartState.Shows, ChartState.chartUpdateSucceeded,
      ChartState.chartUpdateStopped, ChartState.chartUpdateFailed, eq_comm]

theorem dispatch_not_loading (state : ChartState Form Result) (outcome : Outcome Result) :
    (state.dispatch outcome).chartStatus ≠ .loading := by
  cases outcome <;> exact nofun

theorem abort_outcome (request : Request Result) : request.abort.outcome = request.outcome := by
  rcases request with ⟨phase, abortedByUser⟩
  cases phase <;> rfl

theorem abort_abortedByUser (request : Request Result) :
    request.abort.abortedByUser = request.abortedByUser := by
  rcases request with ⟨phase, abortedByUser⟩
  cases phase <;> rfl

theorem answered_outcome (answer : Answer Result) (abortedByUser : Bool) :
    (Request.mk (answered config answer) abortedByUser).outcome = none := by
  cases answer with
  | error failure => rfl
  | response status result =>
    rw [answered, handleChartDataResponse]
    split
    · split
      · rfl
      · split <;> rfl
    · rfl

structure Quiet (world next : World Form Result) : Prop where
  chart : next.chart = world.chart
  length : next.requests.length = world.requests.length
  requests : ∀ (id : Nat) (changed : Request Result), next.requests[id]? = some changed →
    ∃ request, world.requests[id]? = some request ∧
    changed.outcome = request.outcome ∧
    (changed.abortedByUser = false → request.abortedByUser = false)

theorem quiet_update (id : Nat) (change : Request Result → Request Result)
    (chart : next.chart = world.chart)
    (requests : next.requests = (world.update id change).requests)
    (same : ∀ request, world.requests[id]? = some request →
      (change request).outcome = request.outcome ∧
      ((change request).abortedByUser = false → request.abortedByUser = false)) :
      Quiet world next := by
  refine ⟨chart, by rw [requests]; exact List.length_modify _ _ _, ?_⟩
  intro other changed found
  rw [requests, World.update, List.getElem?_modify] at found
  by_cases own : id = other
  · subst own
    cases given : world.requests[id]? with
    | none => simp [given] at found
    | some request =>
      obtain rfl : change request = changed := by simpa [given] using found
      exact ⟨request, rfl, same request given⟩
  · refine ⟨changed, by simpa [own] using found, rfl, fun flag => flag⟩

theorem quiet_enter (id : Nat) (phase : Phase Result) (before : Phase Result)
    (given : (world.requests[id]?).map Request.phase = some before)
    (pending : ∀ flag, (Request.mk before flag).outcome = none)
    (still : ∀ flag, (Request.mk phase flag).outcome = none) :
    Quiet world (world.enter id phase) := by
  refine quiet_update id _ rfl rfl ?_
  intro request found
  rw [found, Option.map_some] at given
  obtain rfl := Option.some.inj given
  exact ⟨(still request.abortedByUser).trans (pending request.abortedByUser).symm, fun flag => flag⟩

theorem step_cases (event : Event Form Result) (taken : step config world event = some next) :
    (∃ formData, event = .exploreJSON formData ∧ next = world.exploreJSON formData) ∨
      (∃ id outcome, event = .proceed id ∧ world.due config id = some outcome ∧
        next = world.settle id outcome) ∨
      Quiet world next := by
  cases event with
  | exploreJSON formData => exact .inl ⟨formData, rfl, (Option.some.inj taken).symm⟩
  | abortPrevious =>
    refine .inr (.inr ?_)
    simp only [step] at taken
    cases queue : world.timers with
    | nil => simp [queue] at taken
    | cons id timers =>
      rw [queue] at taken
      obtain rfl := Option.some.inj taken
      refine quiet_update id Request.abort rfl rfl fun request _ => ?_
      exact ⟨abort_outcome request, fun flag => by rwa [abort_abortedByUser] at flag⟩
  | onStop =>
    refine .inr (.inr ?_)
    obtain ⟨id, _, rfl⟩ := Option.map_eq_some_iff.mp taken
    refine quiet_update id (fun request => { request.abort with abortedByUser := true }) rfl rfl
      fun request _ => ?_
    exact ⟨abort_outcome request, nofun⟩
  | respond id answer =>
    refine .inr (.inr ?_)
    simp only [step] at taken
    split at taken
    · rename_i given
      obtain rfl := Option.some.inj taken
      exact quiet_enter id _ .fetching given (fun _ => rfl) (answered_outcome answer)
    · cases taken
  | jobDone id result =>
    refine .inr (.inr ?_)
    simp only [step] at taken
    split at taken
    · rename_i given
      obtain rfl := Option.some.inj taken
      refine quiet_enter id _ .waiting given (fun _ => rfl) fun _ => ?_
      cases result <;> rfl
    · cases taken
  | proceed id =>
    simp only [step] at taken
    cases given : (world.requests[id]?).map Request.phase with
    | none => simp [given] at taken
    | some phase =>
      obtain ⟨request, found, rfl⟩ := Option.map_eq_some_iff.mp given
      simp only [given] at taken
      cases ended : dispatches config request.phase with
      | some outcome =>
        rw [ended] at taken
        exact .inr (.inl ⟨id, outcome, rfl, by rw [World.due, found]; exact ended,
          (Option.some.inj taken).symm⟩)
      | none =>
        simp only [ended] at taken
        refine .inr (.inr ?_)
        split at taken
        · rename_i failure rejected
          obtain rfl := Option.some.inj taken
          rw [rejected] at given
          exact quiet_enter id _ _ given (fun _ => rfl) (fun _ => rfl)
        · cases taken

theorem latestWins_exploreJSON (formData : Form) : (world.exploreJSON formData).LatestWins := by
  intro latest found _
  have fresh : (world.exploreJSON formData).latest = some {} := by
    simp [World.latest, World.exploreJSON]
  obtain rfl := Option.some.inj (fresh.symm.trans found)
  exact ⟨fun _ => rfl, nofun⟩

theorem latestWins_quiet (quiet : Quiet world next) (wins : world.LatestWins) :
    next.LatestWins := by
  intro changed found flag
  rw [World.latest, quiet.length] at found
  obtain ⟨latest, given, same, earlier⟩ := quiet.requests _ changed found
  obtain ⟨pending, ended⟩ := wins latest given (earlier flag)
  rw [same, quiet.chart]
  refine ⟨pending, fun outcome own all => ended outcome own ?_⟩
  intro request member
  obtain ⟨id, bound, rfl⟩ := List.mem_iff_getElem.mp member
  have inside : id < next.requests.length := by rw [quiet.length]; exact bound
  obtain ⟨before, at', outcome', _⟩ := quiet.requests id _ (List.getElem?_eq_getElem inside)
  obtain rfl := Option.some.inj ((List.getElem?_eq_getElem bound).symm.trans at')
  rw [← outcome']
  exact all _ (List.getElem_mem inside)

theorem settle_getElem? (id other : Nat) (outcome : Outcome Result) :
    (world.settle id outcome).requests[other]? =
      (world.requests[other]?).map fun request => if id = other
      then { request with phase := .settled outcome } else request := by
  simp only [World.settle, World.update, List.getElem?_modify]
  split <;> simp

theorem settle_length (id : Nat) (outcome : Outcome Result) :
    (world.settle id outcome).requests.length = world.requests.length :=
  List.length_modify _ _ _

variable {outcome : Outcome Result}

theorem lt_of_due {id : Nat} (due : world.due config id = some outcome) :
    id < world.requests.length := by
  obtain ⟨request, found, _⟩ := Option.bind_eq_some_iff.mp due
  exact (List.getElem?_eq_some_iff.mp found).1

theorem latestWins_settle_last (id : Nat) (outcome : Outcome Result)
    (last : id + 1 = world.requests.length) :
    (world.settle id outcome).LatestWins := by
  intro latest found _
  rw [World.latest, settle_length, ← last, Nat.add_sub_cancel, settle_getElem?] at found
  obtain ⟨request, _, rfl⟩ := Option.map_eq_some_iff.mp found
  rw [if_pos rfl]
  refine ⟨nofun, fun own given _ => ?_⟩
  exact (shows_dispatch _ _ _).mpr (Option.some.inj given).symm

theorem latest_settle_earlier (id : Nat) (outcome : Outcome Result)
    (earlier : id + 1 ≠ world.requests.length)
    (inside : id < world.requests.length) : (world.settle id outcome).latest = world.latest := by
  rw [World.latest, settle_length, settle_getElem?, World.latest]
  simp only [if_neg (by omega : id ≠ world.requests.length - 1), Option.map_id']

/-- A request that is not settled after the dispatch was not settled before, and is another one. -/
theorem unsettled_after_settle {id other : Nat} {request : Request Result}
    (found : (world.settle id outcome).requests[other]? = some request)
    (pending : request.outcome = none) :
    other ≠ id ∧ world.requests[other]? = some request := by
  rw [settle_getElem?] at found
  obtain ⟨before, given, changed⟩ := Option.map_eq_some_iff.mp found
  by_cases own : id = other
  · rw [if_pos own] at changed
    subst changed
    cases pending
  · rw [if_neg own] at changed
    exact ⟨fun same => own same.symm, by rw [given, changed]⟩

theorem latestWins_settle_iff {id : Nat} (due : world.due config id = some outcome) :
    (world.settle id outcome).LatestWins ↔ Orderly config world
    (.proceed id : Event Form Result) := by
  by_cases last : id + 1 = world.requests.length
  · exact iff_of_true (latestWins_settle_last id outcome last) fun _ _ earlier =>
      absurd last earlier
  rw [World.LatestWins, latest_settle_earlier id outcome last (lt_of_due due)]
  constructor
  · intro wins given owing _ latest found flag
    obtain rfl := Option.some.inj (due.symm.trans owing)
    obtain ⟨pending, ended⟩ := wins latest found flag
    cases own : latest.outcome with
    | none => exact absurd (pending own) (dispatch_not_loading _ _)
    | some shown =>
      refine ⟨shown, rfl, ?_⟩
      by_cases all : ∀ request ∈ (world.settle id outcome).requests, request.outcome ≠ none
      · exact .inl ((shows_dispatch _ _ _).mp (ended shown own all))
      · push Not at all
        obtain ⟨request, member, open'⟩ := all
        obtain ⟨other, position⟩ := List.mem_iff_getElem?.mp member
        obtain ⟨different, before⟩ := unsettled_after_settle position open'
        exact .inr ⟨other, request, different, before, open'⟩
  · intro orderly latest found flag
    obtain ⟨own, given, same | ⟨other, request, different, position, open'⟩⟩ :=
      orderly outcome due last latest found flag
    · rw [given]
      refine ⟨nofun, fun shown known _ => ?_⟩
      exact (shows_dispatch _ _ _).mpr ((Option.some.inj known).symm.trans same)
    · rw [given]
      refine ⟨nofun, fun _ _ all => absurd open' (all request ?_)⟩
      refine List.mem_of_getElem? (i := other) ?_
      rw [settle_getElem?, position, Option.map_some, if_neg fun same => different same.symm]

theorem step_proceed_of_due {id : Nat} (due : world.due config id = some outcome) :
    step config world (.proceed id : Event Form Result) = some (world.settle id outcome) := by
  obtain ⟨request, found, ending⟩ := Option.bind_eq_some_iff.mp due
  simp only [step, found, Option.map_some, ending]

end Proofs

section Runs

variable {Form Result : Type} (config : Config) (chart : ChartState Form Result)

/-- The last request wins in every run whose dispatches are orderly, and a dispatch that is
not leads to a state in which it does not. -/
theorem latestWins_of_orderly :
    (∀ world, Reaches (step config) (Orderly config) (start chart) world → world.LatestWins) ∧
      ∀ world event next, Reaches (step config) anyStep (start chart) world →
      ¬ Orderly config world event →
        step config world event = some next → ¬ next.LatestWins := by
  constructor
  · intro world reached
    have initial : (start chart : World Form Result).LatestWins := fun latest found => by
      simp [World.latest, start] at found
    refine reached.invariant World.LatestWins initial ?_
    intro world event next wins orderly taken
    rcases step_cases event taken with ⟨formData, _, rfl⟩ | ⟨id, outcome, rfl, due, rfl⟩ | quiet
    · exact latestWins_exploreJSON formData
    · exact (latestWins_settle_iff due).mpr orderly
    · exact latestWins_quiet quiet wins
  · intro world event next _ disorderly taken wins
    cases event with
    | proceed id =>
      have owing : ∃ outcome, world.due config id = some outcome := by
        by_contra idle
        exact disorderly fun outcome due => absurd ⟨outcome, due⟩ idle
      obtain ⟨outcome, due⟩ := owing
      obtain rfl := Option.some.inj ((step_proceed_of_due due).symm.trans taken)
      exact disorderly ((latestWins_settle_iff due).mp wins)
    | _ => exact disorderly trivial

def asyncQueries : Config := { globalAsyncQueries := true }

/-- The jobs of two requests end after the third request was answered: the first while the
second is still awaited, the second with the result of the last. -/
def overlapped : World Unit Nat where
  chart := {
    chartStatus := .success
    latestQueryFormData := some ()
    queryController := some 2
    queriesResponse := some (.results [7])
    triggerQuery := false }
  requests := [
    { phase := .settled (.succeeded [1]) },
    { phase := .settled (.succeeded [7]) },
    { phase := .settled (.succeeded [7]) }]

def call : Event Unit Nat := .exploreJSON ()

def abort : Event Unit Nat := .abortPrevious

def answer (id status : Nat) (result : List Nat) : Event Unit Nat :=
  .respond id (.response status result)

def jobEnd (id result : Nat) : Event Unit Nat := .jobDone id (.ok [result])

def settleNow (id : Nat) : Event Unit Nat := .proceed id

theorem latestWins_overlapped : overlapped.LatestWins := by
  have begun : Reaches (step asyncQueries) (Orderly asyncQueries) (start {} : World Unit Nat)
    (start {}) := .start
  have first := (begun.next call trivial rfl).next (answer 0 202 []) trivial rfl
  have second := (first.next call trivial rfl).next (answer 1 202 []) trivial rfl
  have third := ((second.next call trivial rfl).next abort trivial rfl).next abort trivial rfl
  have last := (third.next (answer 2 200 [7]) trivial rfl).next (settleNow 2)
    (fun _ _ earlier => absurd rfl earlier) rfl
  have early := (last.next (jobEnd 0 1) trivial rfl).next (settleNow 0)
    (fun _ _ _ _ found _ => by
      cases found
      exact ⟨_, rfl, .inr ⟨1, _, by decide, rfl, rfl⟩⟩) rfl
  have same := (early.next (jobEnd 1 7) trivial rfl).next (settleNow 1)
    (fun _ due _ _ found _ => by
      cases found
      cases due
      exact ⟨_, rfl, .inl rfl⟩) rfl
  exact (latestWins_of_orderly asyncQueries {}).1 overlapped same

/-- A second call while the first is under way: the abort of the first is dispatched as a
stop of the chart, and the second request is still pending. -/
theorem aborted_request_stops_chart :
    ¬ ∀ (config : Config) (chart : ChartState Unit Unit) (world : World Unit Unit),
      Reaches (step config) anyStep (start chart) world → world.LatestWins := by
  intro wins
  obtain ⟨world, reached, pending, stopped⟩ := exists_reaches_of_runWithin (step {}) anyStep
    (start {} : World Unit Unit) [.exploreJSON (), .exploreJSON (), .abortPrevious, .proceed 0]
    (fun world => world.latest = some {} ∧ world.chart.chartStatus = .stopped) (by decide)
  have loading := (wins {} {} world reached {} pending rfl).1 rfl
  rw [stopped] at loading
  cases loading

end Runs

end Liteset.Charts.ChartRequests
