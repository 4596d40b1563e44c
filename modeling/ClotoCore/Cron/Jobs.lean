import ClotoCore.Events.Bus
import Mathlib.Algebra.Group.Int.Defs
import Mathlib.Algebra.Group.Nat.Defs
import Mathlib.Tactic.SplitIfs

/-!
# Cron jobs

The table of cron jobs with its statements, and when a job is due next.  Times are
milliseconds in 64-bit integers; the expressions of the crate `cron` are read by that
crate.
-/

namespace ClotoCore.Cron

open ClotoCore.Events

/-- `i64::MAX` -/
def maxMs : Int := 2 ^ 63 - 1

/-- A reading of the clock, which chrono keeps below the largest 64-bit integer. -/
structure Instant where
  ms : Int
  bounded : ms < maxMs

/-- `saturating_add` of a time and a span. -/
def saturatingAdd (time span : Int) : Int :=
  min (time + span) maxMs

/-- The columns of `CronJobRow` that the kernel acts on. -/
structure CronJobRow where
  id : String
  agentId : String
  name : String
  enabled : Bool
  scheduleType : String
  scheduleValue : String
  engineId : Option String
  message : String
  nextRunAt : Int
  lastRunAt : Option Int
  lastStatus : Option String
  lastError : Option String
  maxIterations : Option Int
  hidePrompt : Bool
  cronGeneration : Int
  sourceType : String
  creatorUserId : Option String
  creatorUserName : Option String

/-- What the kernel calls to read schedules. -/
structure Schedules where
  /-- `Schedule::from_str` and the first of `upcoming` at a time. -/
  upcoming : String → Int → Except String (Option Int)
  /-- What is upcoming is later. -/
  upcoming_later : ∀ expression now next, upcoming expression now = .ok (some next) → now < next
  /-- `DateTime::parse_from_rfc3339` -/
  parseRfc3339 : String → Except String Int

/-- `MAX_INTERVAL_SECS` -/
def maxIntervalSecs : Nat := 365 * 24 * 60 * 60

/-- `MIN_INTERVAL_SECS` -/
def minIntervalSecs : Nat := 60

/-- `parse::<u64>` -/
def parseU64 (text : String) : Option Nat :=
  let digits := if text.toList.head? = some '+' then text.toList.tail else text.toList
  if digits ≠ [] ∧ digits.all Char.isDigit then
    let value := digits.foldl (fun value digit => 10 * value + (digit.toNat - '0'.toNat)) 0
    if value < 2 ^ 64 then some value else none
  else none

/-- `clamp` -/
def clampSecs (secs : Nat) : Nat :=
  max minIntervalSecs (min secs maxIntervalSecs)

/-- `calculate_next_run`.  `clock` is the time at which the expression is read. -/
def calculateNextRun (schedules : Schedules) (job : CronJobRow) (now clock : Int) : Int × Bool :=
  if job.scheduleType = "interval" then
    let secs := clampSecs ((parseU64 job.scheduleValue).getD 3600)
    (saturatingAdd now (secs * 1000), true)
  else if job.scheduleType = "cron" then
    match schedules.upcoming job.scheduleValue clock with
    | .ok (some next) => (next, true)
    | _ => (maxMs, false)
  -- `once`, and every type that is not known
  else (maxMs, false)

/-- `calculate_initial_next_run` -/
def calculateInitialNextRun (schedules : Schedules) (scheduleType scheduleValue : String)
    (now clock : Int) : Except String Int :=
  if scheduleType = "interval" then
    match parseU64 scheduleValue with
    | none => .error "Invalid interval: must be seconds (integer)"
    | some secs =>
        if secs < minIntervalSecs then .error "Minimum interval is 60 seconds"
        else if maxIntervalSecs < secs then
          .error s!"Maximum interval is {maxIntervalSecs} seconds (1 year)"
        else .ok (saturatingAdd now (secs * 1000))
  else if scheduleType = "once" then
    match schedules.parseRfc3339 scheduleValue with
    | .error problem => .error s!"Invalid ISO 8601 datetime: {problem}"
    | .ok target =>
        if target ≤ now then .error "Scheduled time must be in the future" else .ok target
  else if scheduleType = "cron" then
    match schedules.upcoming scheduleValue clock with
    | .error problem => .error s!"Invalid cron expression: {problem}"
    | .ok none => .error "Cron expression has no future occurrences"
    | .ok (some next) => .ok next
  else .error "Unknown schedule_type: must be 'interval', 'cron', or 'once'"

/-- The message that the scheduler sends for a job. -/
def scheduledMessage (job : CronJobRow) (id : String) : ClotoMessage where
  id := id
  source :=
    if job.sourceType = "user" then
      .user (job.creatorUserId.getD "default") (job.creatorUserName.getD "User")
    else .system
  targetAgent := some job.agentId
  content := job.message
  metadata :=
    [("target_agent_id", job.agentId), ("cron_job_id", job.id), ("cron_source", "scheduler"),
      ("cron_job_name", s!"CRON: {job.name}")] ++
    (if job.hidePrompt then [] else [("cron_dialogue_id", s!"cron-{job.id}")]) ++
    (job.engineId.map fun engine => ("engine_override", engine)).toList ++
    (job.maxIterations.map fun count => ("max_iterations_override", toString count)).toList ++
    (if job.hidePrompt then [("skip_user_persist", "true")] else [])

/-! ## The table -/

/-- The table, in the order of insertion. -/
abbrev Table := List CronJobRow

/-- The statement of `get_due_cron_jobs`. -/
def Table.getDueCronJobs (table : Table) (now : Int) : List CronJobRow :=
  (table.filter fun job => job.enabled && decide (job.nextRunAt ≤ now)).mergeSort
    fun first second => decide (first.nextRunAt ≤ second.nextRunAt)

/-- Change the row of an id. -/
def Table.update (table : Table) (id : String) (change : CronJobRow → CronJobRow) : Table :=
  table.map fun job => if job.id = id then change job else job

/-- The statement of `update_cron_job_run`. -/
def Table.updateCronJobRun (table : Table) (id : String) (lastRunAt : Int) (lastStatus : String)
    (lastError : Option String) (nextRunAt : Int) (enabled : Bool) : Table :=
  table.update id fun job =>
    { job with
      lastRunAt := some lastRunAt
      lastStatus := some lastStatus
      lastError := lastError
      nextRunAt := nextRunAt
      enabled := enabled }

/-- The statement of `set_cron_job_enabled`. -/
def Table.setCronJobEnabled (table : Table) (id : String) (enabled : Bool) : Table :=
  table.update id fun job => { job with enabled := enabled }

/-- The statement of `delete_cron_job`. -/
def Table.deleteCronJob (table : Table) (id : String) : Table :=
  table.filter fun job => job.id != id

/-- `get_cron_job_generation` -/
def Table.getCronJobGeneration (table : Table) (id : String) : Option Int :=
  (table.find? fun job => job.id == id).map CronJobRow.cronGeneration

/-! ## Times ahead -/

variable {schedules : Schedules} {job : CronJobRow} {table : Table} {id : String}
  {change : CronJobRow → CronJobRow}

theorem lt_saturatingAdd (now : Instant) {span : Int} (positive : 0 < span) :
    now.ms < saturatingAdd now.ms span := by
  have bounded := now.bounded
  unfold saturatingAdd
  omega

theorem clampSecs_pos (secs : Nat) : 0 < clampSecs secs := by
  unfold clampSecs minIntervalSecs
  omega

/-- A job is due later than it was run, unless the clock was set back. -/
theorem lt_calculateNextRun {now : Instant} {clock : Int} (onward : now.ms ≤ clock) :
    now.ms < (calculateNextRun schedules job now.ms clock).1 := by
  unfold calculateNextRun
  dsimp only
  split
  · have positive := clampSecs_pos ((parseU64 job.scheduleValue).getD 3600)
    exact lt_saturatingAdd now (by omega)
  · split
    · split
      · next next upcoming =>
        exact Int.lt_of_le_of_lt onward (schedules.upcoming_later _ _ _ upcoming)
      · exact now.bounded
    · exact now.bounded

theorem lt_calculateInitialNextRun {now : Instant} {clock next : Int}
    {scheduleType scheduleValue : String} (onward : now.ms ≤ clock)
    (accepted : calculateInitialNextRun schedules scheduleType scheduleValue now.ms clock =
      .ok next) : now.ms < next := by
  unfold calculateInitialNextRun at accepted
  split at accepted
  · split at accepted
    · cases accepted
    · next secs read =>
      split_ifs at accepted with short long
      cases accepted
      unfold minIntervalSecs at short
      exact lt_saturatingAdd now (by omega)
  · split at accepted
    · split at accepted
      · cases accepted
      · split_ifs at accepted with past
        cases accepted
        omega
    · split at accepted
      · split at accepted
        · cases accepted
        · cases accepted
        · next upcoming =>
          cases accepted
          exact Int.lt_of_le_of_lt onward (schedules.upcoming_later _ _ _ upcoming)
      · cases accepted

/-! ## Rows -/

theorem mem_getDueCronJobs {now : Int} :
    job ∈ table.getDueCronJobs now ↔ job ∈ table ∧ job.enabled = true ∧ job.nextRunAt ≤ now := by
  simp [Table.getDueCronJobs]

theorem ids_update (keeps : ∀ job, (change job).id = job.id) :
    (table.update id change).map CronJobRow.id = table.map CronJobRow.id := by
  rw [Table.update, List.map_map]
  apply List.map_congr_left
  intro job _
  simp only [Function.comp_apply]
  split
  · exact keeps job
  · rfl

theorem mem_update {job : CronJobRow} :
    job ∈ table.update id change ↔
      (job ∈ table ∧ job.id ≠ id) ∨ ∃ before ∈ table, before.id = id ∧ change before = job := by
  unfold Table.update
  rw [List.mem_map]
  constructor
  · rintro ⟨before, mem, rfl⟩
    by_cases same : before.id = id
    · rw [if_pos same]
      exact Or.inr ⟨before, mem, same, rfl⟩
    · rw [if_neg same]
      exact Or.inl ⟨mem, same⟩
  · rintro (⟨mem, other⟩ | ⟨before, mem, same, rfl⟩)
    · exact ⟨job, mem, if_neg other⟩
    · exact ⟨before, mem, if_pos same⟩

/-! ## A job of every hour -/

/-- Schedules without expressions. -/
def plainSchedules : Schedules where
  upcoming := fun _ _ => .error "unexpected end of input"
  upcoming_later := by simp
  parseRfc3339 := fun _ => .error "premature end of input"

/-- A job of every hour. -/
def hourlyJob : CronJobRow where
  id := "cron.agent.a.1"
  agentId := "agent.a"
  name := "Report"
  enabled := true
  scheduleType := "interval"
  scheduleValue := "3600"
  engineId := none
  message := "Write the report."
  nextRunAt := 0
  lastRunAt := none
  lastStatus := none
  lastError := none
  maxIterations := some 8
  hidePrompt := false
  cronGeneration := 0
  sourceType := "system"
  creatorUserId := none
  creatorUserName := none

/-- The first instant that a schedule knows. -/
def startTime : Instant := ⟨0, by decide⟩

end ClotoCore.Cron
