import Mathlib.Algebra.GroupWithZero.Nat
import Liteset.Lib.Ascending
import Mathlib.Algebra.BigOperators.Group.List.Basic

/-!
# The scheduler of reports

`cron_schedule_window` returns the times of a cron expression around the time the
scheduler was triggered, and `reports.scheduler` enqueues an execution for each.
The beat sends the scheduler every minute; how long a message waits for a worker does
not matter, since the trigger time is read off its expiry.

Times are microseconds of UTC.
-/

set_option autoImplicit false

namespace Liteset.Tasks.Scheduler

open Lib List

def second : Int := 1000000

def minute : Int := 60 * second

/-- What `pytz` and `croniter` give: the zones by name, and for an expression in a zone
the minutes it matches, enumerated. -/
structure Cron (Zone : Type) where
  pytzTimezone : String → Option Zone
  utc : Zone
  Matches : String → Zone → Int → Prop
  croniter : (cron : String) → (tz : Zone) → Ascending (Matches cron tz)
  minutes : ∀ cron tz m, Matches cron tz m → m % minute = 0

variable {Zone : Type} (lib : Cron Zone)

def zoneOf (timezone : String) : Zone := (lib.pytzTimezone timezone).getD lib.utc

def defaultCronWindowSize : Int := 59

def cronScheduleWindow (triggeredAt : Int) (cron timezone : String) (windowSize : Option Int) :
    List Int :=
  let windowSize := windowSize.getD defaultCronWindowSize
  let startAt := triggeredAt - windowSize * (second / 2)
  let stopAt := triggeredAt + windowSize * (second / 2)
  (lib.croniter cron (zoneOf lib timezone)).takeUntil stopAt startAt

structure ReportSchedule where
  id : Nat
  active : Bool
  crontab : String
  timezone : String
  workingTimeout : Option Int

structure ReportTable where
  rows : List ReportSchedule
  keyed : (rows.map ReportSchedule.id).Nodup

structure WorkingTimeOuts where
  alertReportsWorkingTimeOutKill : Bool := true
  alertReportsWorkingTimeOutLag : Int := 10
  alertReportsWorkingSoftTimeOutLag : Int := 1

structure SupersetSettings extends WorkingTimeOuts where
  celeryBeatSchedulerExpires : Int := 604800
  alertReportsCronWindowSize : Int := 59

/-- A call of `execute.apply_async`. -/
structure Execution where
  reportScheduleId : Nat
  eta : Int
  timeLimit : Option Int
  softTimeLimit : Option Int

def triggeredAt (settings : SupersetSettings) (expires : Option Int) (now : Int) : Int :=
  match expires with
  | some expires => expires - settings.celeryBeatSchedulerExpires * second
  | none => now

def limitOf (settings : SupersetSettings) (report : ReportSchedule) (lag : Int) : Option Int :=
  if settings.alertReportsWorkingTimeOutKill then report.workingTimeout.map (· + lag) else none

def execution (settings : SupersetSettings) (report : ReportSchedule) (eta : Int) : Execution where
  reportScheduleId := report.id
  eta := eta
  timeLimit := limitOf settings report settings.alertReportsWorkingTimeOutLag
  softTimeLimit := limitOf settings report settings.alertReportsWorkingSoftTimeOutLag

/-- `alertReports` is the feature flag. -/
def scheduler (alertReports : Bool) (settings : SupersetSettings) (table : ReportTable)
    (expires : Option Int) (now : Int) : List Execution :=
  if alertReports then
    (table.rows.filter ReportSchedule.active).flatMap fun report =>
      (cronScheduleWindow lib (triggeredAt settings expires now) report.crontab report.timezone
        (some settings.alertReportsCronWindowSize)).map (execution settings report)
  else []

def celeryBeatSchedulerExpiresSec : Int := 604800

def sentAt (start : Int) (run : Nat) : Int := start + run * minute

section Beat
variable (settings : SupersetSettings) (table : ReportTable) (start : Int) (wait : Nat → Int)

def runOf (run : Nat) : List Execution :=
  scheduler lib true settings table
    (some (sentAt start run + celeryBeatSchedulerExpiresSec * second))
    (sentAt start run + wait run)

def enqueued (runs : Nat) : List Execution :=
  (List.range runs).flatMap (runOf lib settings table start wait)

def returning (report : ReportSchedule) (runs : Nat) (m : Int) : Nat :=
  (List.range runs).countP fun run =>
    m ∈ cronScheduleWindow lib (sentAt start run) report.crontab report.timezone
      (some settings.alertReportsCronWindowSize)

def executions (report : ReportSchedule) (runs : Nat) (m : Int) : Nat :=
  (enqueued lib settings table start wait runs).countP fun call =>
    call.reportScheduleId = report.id ∧ call.eta = m

end Beat

def defaultSettings (timeOuts : WorkingTimeOuts) : SupersetSettings := { timeOuts with }

section Window
variable {lib} {cron timezone : String} {m windowSize : Int}

theorem mem_cronScheduleWindow_iff {time : Int} :
    m ∈ cronScheduleWindow lib time cron timezone (some windowSize) ↔
      lib.Matches cron (zoneOf lib timezone) m ∧
        time - windowSize * (second / 2) < m ∧ m < time + windowSize * (second / 2) :=
  Ascending.mem_takeUntil_iff

theorem cronScheduleWindow_nodup {time : Int} :
    (cronScheduleWindow lib time cron timezone (some windowSize)).Nodup :=
  Ascending.takeUntil_nodup

end Window

section Runs
variable {lib} {settings : SupersetSettings} {table : ReportTable} {report : ReportSchedule}

theorem sum_rows {rows : List ReportSchedule} (keyed : (rows.map ReportSchedule.id).Nodup)
    (member : report ∈ rows) (runs : ReportSchedule → Nat) :
    ((rows.filter ReportSchedule.active).map fun row => if row.id = report.id then
      runs row else 0).sum =
      if report.active then runs report else 0 := by
  induction rows with
  | nil => cases member
  | cons row rest ih =>
    rw [map_cons, nodup_cons] at keyed
    have others : report = row → ∀ other ∈ rest, other.id ≠ report.id := by
      rintro rfl other also same
      exact keyed.1 (mem_map.mpr ⟨other, also, same⟩)
    have skipped : (∀ other ∈ rest, other.id ≠ report.id) →
        (((rest.filter ReportSchedule.active).map
          fun row => if row.id = report.id then runs row else 0)).sum = 0 := by
      intro apart
      rw [sum_eq_zero]
      intro n also
      obtain ⟨other, kept, rfl⟩ := mem_map.mp also
      exact if_neg (apart other (mem_of_mem_filter kept))
    rcases mem_cons.mp member with rfl | later
    · cases active : report.active with
      | false => simp [active, skipped (others rfl)]
      | true => simp [active, skipped (others rfl)]
    · have apart : row.id ≠ report.id := fun same =>
        keyed.1 (same ▸ mem_map.mpr ⟨report, later, rfl⟩)
      cases active : row.active with
      | false => simpa [active] using ih keyed.2 later
      | true => simpa [active, apart] using ih keyed.2 later

theorem countP_runOf (member : report ∈ table.rows) (active : report.active = true) (start : Int)
    (wait : Nat → Int) (run : Nat) (m : Int)
    (expires : settings.celeryBeatSchedulerExpires = 604800) :
    (runOf lib settings table start wait run).countP
        (fun call => call.reportScheduleId = report.id ∧ call.eta = m) =
      if m ∈ cronScheduleWindow lib (sentAt start run) report.crontab report.timezone
        (some settings.alertReportsCronWindowSize) then 1 else 0 := by
  have sent : triggeredAt settings
    (some (sentAt start run + celeryBeatSchedulerExpiresSec * second))
      (sentAt start run + wait run) = sentAt start run := by
    simp only [triggeredAt, expires, celeryBeatSchedulerExpiresSec]
    omega
  have perRow : ∀ row : ReportSchedule,
      ((cronScheduleWindow lib (sentAt start run) row.crontab row.timezone
          (some settings.alertReportsCronWindowSize)).map (execution settings row)).countP
        (fun call => call.reportScheduleId = report.id ∧ call.eta = m) =
      if row.id = report.id then
        (cronScheduleWindow lib (sentAt start run) row.crontab row.timezone
          (some settings.alertReportsCronWindowSize)).count m
      else 0 := by
    intro row
    rw [countP_map]
    by_cases same : row.id = report.id
    · rw [if_pos same, List.count]
      apply countP_congr
      intro time _
      simp [execution, same]
    · rw [if_neg same, countP_eq_zero]
      intro time _
      simp [execution, same]
  simp only [runOf, scheduler, if_true, sent, countP_flatMap]
  rw [show (countP _ ∘ _ : ReportSchedule → Nat) = _ from funext perRow,
    sum_rows table.keyed member, if_pos active]
  exact cronScheduleWindow_nodup.count

theorem executions_eq_returning (member : report ∈ table.rows) (active : report.active = true)
    (start : Int)
    (wait : Nat → Int) (runs : Nat) (m : Int)
    (expires : settings.celeryBeatSchedulerExpires = 604800) :
    executions lib settings table start wait report runs m =
      returning lib settings start report runs m := by
  simp only [executions, enqueued, returning, countP_flatMap]
  rw [show (countP _ ∘ _ : Nat → Nat) = _ from
    funext fun run => countP_runOf member active start wait run m expires]
  induction runs with
  | zero => rfl
  | succ runs ih => simp [range_succ, ih, countP_singleton]

end Runs

section Tiling
variable {lib} {settings : SupersetSettings} {report : ReportSchedule} {start m : Int} {runs : Nat}

theorem countP_range_eq_one {p : Nat → Bool} {j : Nat} (below : j < runs)
    (only : ∀ k, p k = true ↔ k = j) :
    (List.range runs).countP p = 1 := by
  have same : (List.range runs).countP p = (List.range runs).count j :=
    countP_congr fun k _ => by rw [only, beq_iff_eq]
  rw [same]
  exact count_eq_one_of_mem nodup_range (mem_range.mpr below)

/-- The second of the minute at which the beat sends the scheduler is not within half a
second of the thirtieth. -/
def InPhase (start : Int) : Prop :=
  start % minute < 59 * (second / 2) ∨ minute - 59 * (second / 2) < start % minute

instance (start : Int) : Decidable (InPhase start) := inferInstanceAs (Decidable (_ ∨ _))

theorem mem_window_iff (window : settings.alertReportsCronWindowSize = 59)
    (matching : lib.Matches report.crontab (zoneOf lib report.timezone) m) (run : Nat) :
    m ∈ cronScheduleWindow lib (sentAt start run) report.crontab report.timezone
        (some settings.alertReportsCronWindowSize) ↔
      start + run * minute - 29500000 < m ∧ m < start + run * minute + 29500000 := by
  rw [mem_cronScheduleWindow_iff, window]
  constructor
  · rintro ⟨_, after, before⟩
    exact ⟨after, before⟩
  · rintro ⟨after, before⟩
    exact ⟨matching, after, before⟩

/-- A matched minute is returned by the run before it or by the run after it, and by
neither when the beat is out of phase. -/
theorem returning_eq (window : settings.alertReportsCronWindowSize = 59)
    (matching : lib.Matches report.crontab (zoneOf lib report.timezone) m) (after : start ≤ m)
    (before : m ≤ sentAt start runs) :
    returning lib settings start report (runs + 1) m = if InPhase start then 1 else 0 := by
  have whole : m % 60000000 = 0 := lib.minutes _ _ _ matching
  have phase : InPhase start ↔ start % 60000000 < 29500000 ∨ 30500000 < start % 60000000 := Iff.rfl
  have reached : m ≤ start + runs * 60000000 := before
  unfold returning
  by_cases early : (m - start) % 60000000 < 29500000
  · -- The last run before the minute.
    have inPhase : InPhase start := phase.mpr (by omega)
    rw [if_pos inPhase]
    refine countP_range_eq_one (j := ((m - start) / 60000000).toNat) (by omega) fun run => ?_
    rw [decide_eq_true_eq, mem_window_iff window matching, show minute = 60000000 from rfl]
    omega
  · by_cases late : 30500000 < (m - start) % 60000000
    · -- The first run after it.
      have inPhase : InPhase start := phase.mpr (by omega)
      rw [if_pos inPhase]
      refine countP_range_eq_one (j := ((m - start) / 60000000).toNat + 1) (by omega) fun run => ?_
      rw [decide_eq_true_eq, mem_window_iff window matching, show minute = 60000000 from rfl]
      omega
    · have outOfPhase : ¬InPhase start := fun inPhase => by
        have := phase.mp inPhase
        omega
      rw [if_neg outOfPhase, countP_eq_zero]
      intro run _
      rw [decide_eq_true_eq, mem_window_iff window matching, show minute = 60000000 from rfl]
      omega

end Tiling

/-- A minute that the expression of an active report matches, with a run before it and
one after, is returned by one run and enqueued once, unless the beat is out of phase. -/
theorem scheduled_once_iff (lib : Cron Zone) (timeOuts : WorkingTimeOuts) (table : ReportTable)
    (report : ReportSchedule) (start : Int) (wait : Nat → Int) (runs : Nat) (m : Int)
    (member : report ∈ table.rows) (active : report.active = true)
    (matching : lib.Matches report.crontab (zoneOf lib report.timezone) m) (after : start ≤ m)
    (before : m ≤ sentAt start runs) :
    (returning lib (defaultSettings timeOuts) start report (runs + 1) m = 1
      ∧ executions lib (defaultSettings timeOuts) table start wait report (runs + 1) m = 1)
      ↔ InPhase start := by
  rw [executions_eq_returning member active start wait (runs + 1) m rfl, and_self,
    returning_eq rfl matching after before]
  by_cases inPhase : InPhase start
  · simp [inPhase]
  · simp [inPhase]

/-- The expression `* * * * *`. -/
def everyMinute : Cron Unit where
  pytzTimezone _ := some ()
  utc := ()
  Matches _ _ m := m % minute = 0
  croniter _ _ :=
    { next := fun t => some ((t / minute + 1) * minute)
      point := by
        intro t m found
        cases found
        exact Int.mul_emod_left _ _
      later := by
        intro t m found
        cases found
        simp only [minute, second]
        omega
      first := by
        intro t m n found point after
        cases found
        simp only [minute, second] at point ⊢
        omega
      last := by
        intro t n found
        cases found }
  minutes _ _ _ matching := matching

def minutely : ReportSchedule where
  id := 1
  active := true
  crontab := "* * * * *"
  timezone := "UTC"
  workingTimeout := some 3600

def oneReport : ReportTable where
  rows := [minutely]
  keyed := List.nodup_singleton _

/-- A beat at the full minute, whose messages wait for a second. -/
theorem scheduled_at_full_minutes :
    executions everyMinute (defaultSettings {}) oneReport 0 (fun _ => second) minutely 3
      minute = 1 :=
  ((scheduled_once_iff everyMinute {} oneReport minutely 0 (fun _ => second) 2 minute
    (mem_singleton.mpr rfl) rfl rfl (by decide) (by decide)).mpr (by decide)).2

/-- A beat at the thirtieth second: the minute between two runs is returned by neither. -/
theorem thirtieth_second_skipped :
    everyMinute.Matches minutely.crontab (zoneOf everyMinute minutely.timezone) minute
      ∧ returning everyMinute (defaultSettings {}) (30 * second) minutely 2 minute = 0
      ∧ executions everyMinute (defaultSettings {}) oneReport (30 * second)
        (fun _ => 0) minutely 2 minute = 0 := by
  have skipped : returning everyMinute (defaultSettings {}) (30 * second) minutely 2 minute = 0 :=
    returning_eq rfl rfl (by decide) (by decide)
  refine ⟨rfl, skipped, ?_⟩
  rw [executions_eq_returning (mem_singleton.mpr rfl) rfl _ _ _ _ rfl, skipped]

end Liteset.Tasks.Scheduler
