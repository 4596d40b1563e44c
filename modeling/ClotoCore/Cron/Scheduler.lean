import ClotoCore.Cron.Jobs
import ClotoCore.Transition.Run

/-!
# The cron scheduler

A tick reads the jobs that are due, and for one after another sends a message and
writes the result back.  The three are not one transaction: an operator can switch a
job on or off, delete it or create one between any two of them.
-/

namespace ClotoCore.Cron

open ClotoCore.Events (ClotoMessage)
open ClotoCore.Transition

/-- How far a tick is with a job. -/
inductive Progress where
  | due
  | dispatched
  | failed (error : String)
  deriving DecidableEq

/-- A tick under way, with the jobs as it has read them. -/
structure Tick where
  now : Instant
  job : CronJobRow
  progress : Progress
  rest : List CronJobRow

/-- A message that the scheduler has sent, with the time its job was due at. -/
structure Dispatch where
  message : ClotoMessage
  jobId : String
  dueAt : Int

/-- The table and the tick; the rest is read by no step: the messages sent, the ids
given so far, the jobs that the operator has switched off or deleted and not switched on
since, and the tick that has just ended. -/
structure State where
  jobs : Table
  tick : Option Tick
  sent : List Dispatch
  used : List String
  off : String → Bool
  ended : Option Instant

/-- A scheduler with no jobs, between two ticks. -/
def State.init : State where
  jobs := []
  tick := none
  sent := []
  used := []
  off := fun _ => false
  ended := none

/-- One statement of the scheduler or of a handler, with what it finds. -/
inductive Label where
  | read (now : Instant)
  | send (messageId : String) (error : Option String)
  | write (succeeds : Bool) (clock : Int)
  | toggle (id : String) (enabled : Bool)
  | delete (id : String)
  | create (job : CronJobRow) (now : Instant) (clock : Int)

namespace State

/-- `get_due_cron_jobs`, and the tick it starts. -/
def read (state : State) (now : Instant) : State :=
  match state.jobs.getDueCronJobs now.ms with
  | [] => { state with ended := some now }
  | job :: rest => { state with tick := some ⟨now, job, .due, rest⟩, ended := none }

/-- The message for the job that is due. -/
def send (state : State) (tick : Tick) (messageId : String) (error : Option String) : State :=
  match error with
  | none =>
      { state with
        tick := some { tick with progress := .dispatched }
        sent := state.sent ++
          [⟨scheduledMessage tick.job messageId, tick.job.id, tick.job.nextRunAt⟩]
        ended := none }
  | some error => { state with tick := some { tick with progress := .failed error }, ended := none }

/-- The result of a job, as it is written to the table. -/
def writeBack (schedules : Schedules) (jobs : Table) (tick : Tick) (clock : Int) : Table :=
  match tick.progress with
  | .failed error =>
      jobs.updateCronJobRun tick.job.id tick.now.ms "error" (some error) tick.job.nextRunAt
        tick.job.enabled
  | _ =>
      let next := calculateNextRun schedules tick.job tick.now.ms clock
      jobs.updateCronJobRun tick.job.id tick.now.ms "dispatched" none next.1 next.2

/-- Go on with the next job, if there is one. -/
def proceed (state : State) (tick : Tick) (jobs : Table) : State :=
  match tick.rest with
  | [] => { state with jobs := jobs, tick := none, ended := some tick.now }
  | job :: rest =>
      { state with jobs := jobs, tick := some ⟨tick.now, job, .due, rest⟩, ended := none }

/-- `toggle_cron_job` -/
def toggle (state : State) (id : String) (enabled : Bool) : State :=
  { state with
    jobs := state.jobs.setCronJobEnabled id enabled
    off := fun other => if other = id then !enabled else state.off other
    ended := none }

/-- `delete_cron_job` -/
def delete (state : State) (id : String) : State :=
  { state with
    jobs := state.jobs.deleteCronJob id
    off := fun other => if other = id then true else state.off other
    ended := none }

/-- `create_cron_job`, with the next run of its schedule. -/
def create (state : State) (job : CronJobRow) (next : Int) : State :=
  { state with
    jobs := state.jobs ++
      [{ job with
          enabled := true
          nextRunAt := next
          lastRunAt := none
          lastStatus := none
          lastError := none }]
    used := job.id :: state.used
    off := fun other => if other = job.id then false else state.off other
    ended := none }

end State

section Scheduling

variable (schedules : Schedules)

/-- One step.  An id is not given twice. -/
def step : Action State Label
  | state, .read now =>
      match state.tick with
      | none => some (state.read now)
      | some _ => none
  | state, .send messageId error =>
      match state.tick with
      | some tick =>
          if tick.progress = .due then some (state.send tick messageId error) else none
      | none => none
  | state, .write succeeds clock =>
      match state.tick with
      | some tick =>
          if tick.progress = .due then none
          else
            some (state.proceed tick
              (if succeeds then State.writeBack schedules state.jobs tick clock else state.jobs))
      | none => none
  | state, .toggle id enabled => some (state.toggle id enabled)
  | state, .delete id => some (state.delete id)
  | state, .create job now clock =>
      if job.id ∈ state.used then none
      else
        match calculateInitialNextRun schedules job.scheduleType job.scheduleValue now.ms clock with
        | .ok next => some (state.create job next)
        | .error _ => some { state with ended := none }

/-- A job that was switched off or deleted stays so; an occurrence is dispatched once;
and after a tick the jobs that are switched on are due later. -/
structure UpdatesKept (state : State) : Prop where
  off : ∀ row ∈ state.jobs, state.off row.id = true → row.enabled = false
  once : (state.sent.map fun dispatch => (dispatch.jobId, dispatch.dueAt)).Nodup
  ahead : ∀ now ∈ state.ended, ∀ row ∈ state.jobs, row.enabled = true → now.ms < row.nextRunAt

/-- A tick sends its messages and writes its results, and switches no job on that is
switched off when it writes; a job that is switched on or created meanwhile is due after
the tick, or the tick has it before it; and the clock is not set back. -/
def Undisturbed (state : State) : Label → Prop
  | .send _ error => error = none
  | .write succeeds clock => succeeds = true ∧ ∀ tick ∈ state.tick, tick.now.ms ≤ clock ∧
      ∀ row ∈ state.jobs, row.id = tick.job.id → row.enabled = true ∨
        (calculateNextRun schedules tick.job tick.now.ms clock).2 = false
  | .toggle id enabled => enabled = true → ∀ tick ∈ state.tick, ∀ row ∈ state.jobs, row.id = id →
      tick.now.ms < row.nextRunAt ∨ id ∈ (tick.job :: tick.rest).map CronJobRow.id
  | .create _ now clock => now.ms ≤ clock ∧ ∀ tick ∈ state.tick, tick.now.ms ≤ now.ms
  | .read _ => True
  | .delete _ => True

instance (state : State) : ∀ label, Decidable (Undisturbed schedules state label)
  | .read _ => isTrue trivial
  | .delete _ => isTrue trivial
  | .send _ error => inferInstanceAs (Decidable (error = none))
  | .write succeeds clock => inferInstanceAs <| Decidable <|
      succeeds = true ∧ ∀ tick ∈ state.tick, tick.now.ms ≤ clock ∧
        ∀ row ∈ state.jobs, row.id = tick.job.id → row.enabled = true ∨
          (calculateNextRun schedules tick.job tick.now.ms clock).2 = false
  | .toggle id enabled => inferInstanceAs <| Decidable <|
      enabled = true → ∀ tick ∈ state.tick, ∀ row ∈ state.jobs, row.id = id →
        tick.now.ms < row.nextRunAt ∨ id ∈ (tick.job :: tick.rest).map CronJobRow.id
  | .create _ now clock => inferInstanceAs <| Decidable <|
      now.ms ≤ clock ∧ ∀ tick ∈ state.tick, tick.now.ms ≤ now.ms

end Scheduling

/-! ## What a tick has read -/

/-- The jobs that a tick has still before it, the one it is at first. -/
def Tick.jobs (tick : Tick) : List CronJobRow :=
  tick.job :: tick.rest

/-- Ids tell rows apart, and a tick has read jobs that were due, whose rows are due at
the same time as long as they are there. -/
structure Sane (state : State) : Prop where
  distinct : (state.jobs.map CronJobRow.id).Nodup
  known : ∀ row ∈ state.jobs, row.id ∈ state.used
  sentKnown : ∀ dispatch ∈ state.sent, dispatch.jobId ∈ state.used
  tickDistinct : ∀ tick ∈ state.tick, (tick.jobs.map CronJobRow.id).Nodup
  tickKnown : ∀ tick ∈ state.tick, ∀ job ∈ tick.jobs, job.id ∈ state.used
  due : ∀ tick ∈ state.tick, ∀ job ∈ tick.jobs, job.nextRunAt ≤ tick.now.ms

/-- A message was sent for an occurrence before the one that a job is due for next, or
for the one whose result the tick is about to write. -/
def SentBefore (tick : Option Tick) (dispatch : Dispatch) (job : CronJobRow) : Prop :=
  dispatch.dueAt < job.nextRunAt ∨
    ∃ current ∈ tick, current.progress = .dispatched ∧ current.job.id = job.id ∧
      dispatch.dueAt ≤ current.job.nextRunAt

/-- What the updates are kept by. -/
structure Carried (state : State) : Prop extends UpdatesKept state, Sane state where
  rows : ∀ dispatch ∈ state.sent, ∀ row ∈ state.jobs, row.id = dispatch.jobId →
    SentBefore state.tick dispatch row
  pending : ∀ tick ∈ state.tick, ∀ dispatch ∈ state.sent, ∀ job ∈ tick.jobs,
    job.id = dispatch.jobId → SentBefore state.tick dispatch job
  unfailed : ∀ tick ∈ state.tick, ∀ error, tick.progress ≠ .failed error
  during : ∀ tick ∈ state.tick, ∀ row ∈ state.jobs, row.enabled = true →
    tick.now.ms < row.nextRunAt ∨ row.id ∈ tick.jobs.map CronJobRow.id

variable {schedules : Schedules} {state next : State} {label : Label} {tick : Tick}

theorem carried_init : Carried .init := by
  constructor
  · constructor <;> simp [State.init]
  · constructor <;> simp [State.init]
  all_goals simp [State.init]

theorem Carried.read (carried : Carried state) (idle : state.tick = none) (now : Instant) :
    Carried (state.read now) := by
  have rows : ∀ dispatch ∈ state.sent, ∀ row ∈ state.jobs, row.id = dispatch.jobId →
      dispatch.dueAt < row.nextRunAt := by
    intro dispatch sent row mem same
    rcases carried.rows dispatch sent row mem same with before | ⟨current, here, -⟩
    · exact before
    · rw [idle] at here
      cases here
  have dueIff : ∀ job, job ∈ state.jobs.getDueCronJobs now.ms ↔
      job ∈ state.jobs ∧ job.enabled = true ∧ job.nextRunAt ≤ now.ms := fun job =>
    mem_getDueCronJobs
  have dueDistinct : ((state.jobs.getDueCronJobs now.ms).map CronJobRow.id).Nodup := by
    have filtered : ((state.jobs.filter fun job =>
        job.enabled && decide (job.nextRunAt ≤ now.ms)).map CronJobRow.id).Nodup :=
      carried.distinct.sublist (List.filter_sublist.map _)
    exact ((List.mergeSort_perm _ _).map CronJobRow.id).nodup_iff.mpr filtered
  unfold State.read
  split
  · next none =>
    rw [none] at dueIff
    constructor
    · constructor
      · exact carried.off
      · exact carried.once
      · intro ended endedEq row mem enabled
        cases endedEq
        have notDue := (dueIff row).not.mp List.not_mem_nil
        grind
    · exact ⟨carried.distinct, carried.known, carried.sentKnown, carried.tickDistinct,
        carried.tickKnown, carried.due⟩
    · exact carried.rows
    · exact carried.pending
    · exact carried.unfailed
    · intro tick here
      rw [idle] at here
      cases here
  · next job rest some =>
    rw [some] at dueIff dueDistinct
    constructor
    · constructor
      · exact carried.off
      · exact carried.once
      · simp
    · constructor
      · exact carried.distinct
      · exact carried.known
      · exact carried.sentKnown
      · intro tick here
        cases here
        exact dueDistinct
      · intro tick here due mem
        cases here
        exact carried.known due ((dueIff due).mp mem).1
      · intro tick here due mem
        cases here
        exact ((dueIff due).mp mem).2.2
    · intro dispatch sent row mem same
      exact Or.inl (rows dispatch sent row mem same)
    · intro tick here dispatch sent due mem same
      cases here
      exact Or.inl (rows dispatch sent due ((dueIff due).mp mem).1 same)
    · intro tick here error
      cases here
      simp
    · intro tick here row mem enabled
      cases here
      by_cases late : row.nextRunAt ≤ now.ms
      · exact Or.inr (List.mem_map_of_mem ((dueIff row).mpr ⟨mem, enabled, late⟩))
      · exact Or.inl (by simpa using late)

theorem Carried.send (carried : Carried state) (here : state.tick = some tick)
    (due : tick.progress = .due) (messageId : String) :
    Carried (state.send tick messageId none) := by
  have before : ∀ {dispatch job}, SentBefore state.tick dispatch job →
      dispatch.dueAt < job.nextRunAt := by
    rintro dispatch job (earlier | ⟨current, currentHere, dispatched, -⟩)
    · exact earlier
    · rw [here] at currentHere
      cases currentHere
      rw [due] at dispatched
      cases dispatched
  have jobMem : tick.job ∈ tick.jobs := List.mem_cons_self
  constructor
  · constructor
    · exact carried.off
    · simp only [State.send, List.map_append, List.map_cons, List.map_nil]
      apply List.nodup_append.mpr
      refine ⟨carried.once, by simp, ?_⟩
      intro occurrence earlier other this same
      rw [List.mem_singleton] at this
      subst this same
      rcases List.mem_map.mp earlier with ⟨dispatch, sent, occurrenceEq⟩
      rw [Prod.mk.injEq] at occurrenceEq
      have less := before (carried.pending tick here dispatch sent tick.job jobMem
        occurrenceEq.1.symm)
      omega
    · simp [State.send]
  · constructor
    · exact carried.distinct
    · exact carried.known
    · intro dispatch sent
      rcases List.mem_append.mp sent with earlier | this
      · exact carried.sentKnown dispatch earlier
      · cases List.mem_singleton.mp this
        exact carried.tickKnown tick here tick.job jobMem
    · intro current currentHere
      cases currentHere
      exact carried.tickDistinct tick here
    · intro current currentHere
      cases currentHere
      exact carried.tickKnown tick here
    · intro current currentHere
      cases currentHere
      exact carried.due tick here
  · intro dispatch sent row mem same
    rcases List.mem_append.mp sent with earlier | this
    · exact Or.inl (before (carried.rows dispatch earlier row mem same))
    · cases List.mem_singleton.mp this
      exact Or.inr ⟨_, rfl, rfl, same.symm, Int.le_refl _⟩
  · intro current currentHere dispatch sent job mem same
    cases currentHere
    rcases List.mem_append.mp sent with earlier | this
    · exact Or.inl (before (carried.pending tick here dispatch earlier job mem same))
    · cases List.mem_singleton.mp this
      exact Or.inr ⟨_, rfl, rfl, same.symm, Int.le_refl _⟩
  · intro current currentHere error
    cases currentHere
    simp
  · intro current currentHere row mem enabled
    cases currentHere
    exact carried.during tick here row mem enabled

/-- The table after a result is written. -/
theorem mem_writeBack {clock : Int} {row : CronJobRow} (dispatched : tick.progress = .dispatched)
    (mem : row ∈ State.writeBack schedules state.jobs tick clock) :
    (row ∈ state.jobs ∧ row.id ≠ tick.job.id) ∨
      ∃ before ∈ state.jobs, before.id = tick.job.id ∧ row.id = tick.job.id ∧
        row.nextRunAt = (calculateNextRun schedules tick.job tick.now.ms clock).1 ∧
        row.enabled = (calculateNextRun schedules tick.job tick.now.ms clock).2 := by
  unfold State.writeBack Table.updateCronJobRun at mem
  rw [dispatched] at mem
  rcases mem_update.mp mem with other | ⟨before, beforeMem, same, rfl⟩
  · exact Or.inl other
  · exact Or.inr ⟨before, beforeMem, same, same, rfl, rfl⟩

theorem ids_writeBack {clock : Int} :
    (State.writeBack schedules state.jobs tick clock).map CronJobRow.id =
      state.jobs.map CronJobRow.id := by
  unfold State.writeBack Table.updateCronJobRun
  split <;> exact ids_update fun _ => rfl

/-- What is known of the table once the result of a job is in it. -/
structure Written (state : State) (tick : Tick) (jobs : Table) : Prop where
  ids : jobs.map CronJobRow.id = state.jobs.map CronJobRow.id
  off : ∀ row ∈ jobs, state.off row.id = true → row.enabled = false
  rows : ∀ dispatch ∈ state.sent, ∀ row ∈ jobs, row.id = dispatch.jobId →
    dispatch.dueAt < row.nextRunAt
  pending : ∀ dispatch ∈ state.sent, ∀ job ∈ tick.rest, job.id = dispatch.jobId →
    dispatch.dueAt < job.nextRunAt
  during : ∀ row ∈ jobs, row.enabled = true →
    tick.now.ms < row.nextRunAt ∨ row.id ∈ tick.rest.map CronJobRow.id

theorem Carried.written {clock : Int} (carried : Carried state) (here : state.tick = some tick)
    (dispatched : tick.progress = .dispatched) (onward : tick.now.ms ≤ clock)
    (standing : ∀ row ∈ state.jobs, row.id = tick.job.id → row.enabled = true ∨
      (calculateNextRun schedules tick.job tick.now.ms clock).2 = false) :
    Written state tick (State.writeBack schedules state.jobs tick clock) := by
  have later : tick.now.ms < (calculateNextRun schedules tick.job tick.now.ms clock).1 :=
    lt_calculateNextRun onward
  have jobMem : tick.job ∈ tick.jobs := List.mem_cons_self
  have jobDue := carried.due tick here tick.job jobMem
  constructor
  · exact ids_writeBack
  · intro row mem isOff
    rcases mem_writeBack dispatched mem with
      ⟨unchanged, -⟩ | ⟨before, beforeMem, same, rowSame, -, enabledEq⟩
    · exact carried.off row unchanged isOff
    · have beforeOff := carried.off before beforeMem (by rw [same, ← rowSame]; exact isOff)
      rcases standing before beforeMem same with enabled | disabled
      · rw [beforeOff] at enabled
        cases enabled
      · rw [enabledEq, disabled]
  · intro dispatch sent row mem same
    rcases mem_writeBack dispatched mem with ⟨unchanged, other⟩ | ⟨before, -, -, rowSame, nextEq, -⟩
    · rcases carried.rows dispatch sent row unchanged same with
        earlier | ⟨current, currentHere, -, sameJob, -⟩
      · exact earlier
      · rw [here] at currentHere
        cases currentHere
        exact absurd sameJob.symm other
    · rw [nextEq]
      rcases carried.pending tick here dispatch sent tick.job jobMem (rowSame.symm.trans same) with
        earlier | ⟨current, currentHere, -, -, atMost⟩
      · omega
      · rw [here] at currentHere
        cases currentHere
        omega
  · intro dispatch sent job mem same
    rcases carried.pending tick here dispatch sent job (List.mem_cons_of_mem _ mem) same with
      earlier | ⟨current, currentHere, -, sameJob, -⟩
    · exact earlier
    · rw [here] at currentHere
      cases currentHere
      have distinct := carried.tickDistinct tick here
      rw [Tick.jobs, List.map_cons, List.nodup_cons] at distinct
      rw [sameJob] at distinct
      exact absurd (List.mem_map_of_mem mem) distinct.1
  · intro row mem enabled
    rcases mem_writeBack dispatched mem with ⟨unchanged, other⟩ | ⟨before, -, -, -, nextEq, -⟩
    · rcases carried.during tick here row unchanged enabled with ahead | isPending
      · exact Or.inl ahead
      · rcases List.mem_cons.mp isPending with this | remaining
        · exact absurd this other
        · exact Or.inr remaining
    · rw [nextEq]
      exact Or.inl later

theorem Carried.proceed {jobs : Table} (carried : Carried state) (here : state.tick = some tick)
    (written : Written state tick jobs) : Carried (state.proceed tick jobs) := by
  have distinct : (jobs.map CronJobRow.id).Nodup := by
    rw [written.ids]
    exact carried.distinct
  have known : ∀ row ∈ jobs, row.id ∈ state.used := by
    intro row mem
    have idMem := List.mem_map_of_mem (f := CronJobRow.id) mem
    rw [written.ids] at idMem
    rcases List.mem_map.mp idMem with ⟨before, beforeMem, same⟩
    rw [← same]
    exact carried.known before beforeMem
  have during := written.during
  have pending := written.pending
  have restDistinct := (List.nodup_cons.mp (carried.tickDistinct tick here)).2
  have restKnown := carried.tickKnown tick here
  have restDue := carried.due tick here
  unfold State.proceed
  split
  · next done =>
    rw [done] at during
    constructor
    · constructor
      · exact written.off
      · exact carried.once
      · intro now ended row mem enabled
        cases ended
        simpa using during row mem enabled
    · exact ⟨distinct, known, carried.sentKnown, by simp, by simp, by simp⟩
    · intro dispatch sent row mem same
      exact Or.inl (written.rows dispatch sent row mem same)
    · simp
    · simp
    · simp
  · next job rest more =>
    rw [more] at during pending restDistinct
    have jobs : ∀ other, other ∈ job :: rest → other ∈ tick.jobs := by
      intro other mem
      rw [← more] at mem
      exact List.mem_cons_of_mem _ mem
    constructor
    · constructor
      · exact written.off
      · exact carried.once
      · simp
    · constructor
      · exact distinct
      · exact known
      · exact carried.sentKnown
      · intro current currentHere
        cases currentHere
        exact restDistinct
      · intro current currentHere other mem
        cases currentHere
        exact restKnown other (jobs other mem)
      · intro current currentHere other mem
        cases currentHere
        exact restDue other (jobs other mem)
    · intro dispatch sent row mem same
      exact Or.inl (written.rows dispatch sent row mem same)
    · intro current currentHere dispatch sent other mem same
      cases currentHere
      exact Or.inl (pending dispatch sent other mem same)
    · intro current currentHere error
      cases currentHere
      simp
    · intro current currentHere row mem enabled
      cases currentHere
      exact during row mem enabled

/-! ## Edits of the operator -/

theorem Carried.toggle {id : String} {enabled : Bool} (carried : Carried state)
    (ahead : enabled = true → ∀ tick ∈ state.tick, ∀ row ∈ state.jobs, row.id = id →
      tick.now.ms < row.nextRunAt ∨ id ∈ tick.jobs.map CronJobRow.id) :
    Carried (state.toggle id enabled) := by
  have cases : ∀ {row}, row ∈ state.jobs.setCronJobEnabled id enabled → ∃ before ∈ state.jobs,
      row.id = before.id ∧ row.nextRunAt = before.nextRunAt ∧
        (row.enabled = before.enabled ∧ before.id ≠ id ∨
          row.enabled = enabled ∧ before.id = id) := by
    intro row mem
    rcases mem_update.mp mem with ⟨unchanged, other⟩ | ⟨before, beforeMem, same, rfl⟩
    · exact ⟨row, unchanged, rfl, rfl, Or.inl ⟨rfl, other⟩⟩
    · exact ⟨before, beforeMem, rfl, rfl, Or.inr ⟨rfl, same⟩⟩
  have ids : (state.jobs.setCronJobEnabled id enabled).map CronJobRow.id =
      state.jobs.map CronJobRow.id :=
    ids_update fun _ => rfl
  constructor
  · constructor
    · intro row mem isOff
      rcases cases mem with ⟨before, beforeMem, same, -, ⟨enabledEq, other⟩ | ⟨enabledEq, this⟩⟩
      · rw [enabledEq]
        apply carried.off before beforeMem
        simpa [State.toggle, same, other] using isOff
      · rw [enabledEq]
        simpa [State.toggle, same, this] using isOff
    · exact carried.once
    · simp [State.toggle]
  · constructor
    · change ((state.jobs.setCronJobEnabled id enabled).map CronJobRow.id).Nodup
      rw [ids]
      exact carried.distinct
    · intro row mem
      rcases cases mem with ⟨before, beforeMem, same, -⟩
      rw [same]
      exact carried.known before beforeMem
    · exact carried.sentKnown
    · exact carried.tickDistinct
    · exact carried.tickKnown
    · exact carried.due
  · intro dispatch sent row mem same
    rcases cases mem with ⟨before, beforeMem, idEq, nextEq, -⟩
    have earlier := carried.rows dispatch sent before beforeMem (idEq.symm.trans same)
    unfold SentBefore at earlier ⊢
    rw [idEq, nextEq]
    exact earlier
  · exact carried.pending
  · exact carried.unfailed
  · intro tick here row mem rowEnabled
    rcases cases mem with ⟨before, beforeMem, same, nextEq, ⟨enabledEq, -⟩ | ⟨enabledEq, this⟩⟩
    · rw [same, nextEq]
      exact carried.during tick here before beforeMem (enabledEq.symm.trans rowEnabled)
    · rw [same, nextEq, this]
      exact ahead (enabledEq.symm.trans rowEnabled) tick here before beforeMem this

theorem Carried.delete (carried : Carried state) (id : String) : Carried (state.delete id) := by
  have rest : ∀ {row}, row ∈ state.jobs.deleteCronJob id → row ∈ state.jobs ∧ row.id ≠ id := by
    intro row mem
    rcases List.mem_filter.mp mem with ⟨rowMem, other⟩
    exact ⟨rowMem, by simpa using other⟩
  constructor
  · constructor
    · intro row mem isOff
      rcases rest mem with ⟨rowMem, other⟩
      apply carried.off row rowMem
      simpa [State.delete, other] using isOff
    · exact carried.once
    · simp [State.delete]
  · constructor
    · exact carried.distinct.sublist (List.filter_sublist.map _)
    · exact fun row mem => carried.known row (rest mem).1
    · exact carried.sentKnown
    · exact carried.tickDistinct
    · exact carried.tickKnown
    · exact carried.due
  · exact fun dispatch sent row mem same => carried.rows dispatch sent row (rest mem).1 same
  · exact carried.pending
  · exact carried.unfailed
  · exact fun tick here row mem enabled => carried.during tick here row (rest mem).1 enabled

theorem Carried.create {job : CronJobRow} {due : Int} (carried : Carried state)
    (fresh : job.id ∉ state.used) (ahead : ∀ tick ∈ state.tick, tick.now.ms < due) :
    Carried (state.create job due) := by
  have cases : ∀ {row}, row ∈ (state.create job due).jobs →
      row ∈ state.jobs ∧ row.id ≠ job.id ∨ row.id = job.id ∧ row.nextRunAt = due := by
    intro row mem
    rcases List.mem_append.mp mem with earlier | this
    · left
      refine ⟨earlier, ?_⟩
      intro same
      rw [← same] at fresh
      exact fresh (carried.known row earlier)
    · cases List.mem_singleton.mp this
      exact Or.inr ⟨rfl, rfl⟩
  constructor
  · constructor
    · intro row mem isOff
      rcases cases mem with ⟨earlier, other⟩ | ⟨same, -⟩
      · apply carried.off row earlier
        simpa [State.create, other] using isOff
      · simp [State.create, same] at isOff
    · exact carried.once
    · simp [State.create]
  · constructor
    · simp only [State.create, List.map_append, List.map_cons, List.map_nil]
      apply List.nodup_append.mpr
      refine ⟨carried.distinct, by simp, ?_⟩
      intro id earlier other this same
      rw [List.mem_singleton] at this
      subst this same
      rcases List.mem_map.mp earlier with ⟨row, rowMem, idEq⟩
      rw [← idEq] at fresh
      exact fresh (carried.known row rowMem)
    · intro row mem
      rcases cases mem with ⟨earlier, -⟩ | ⟨same, -⟩
      · exact List.mem_cons_of_mem _ (carried.known row earlier)
      · rw [same]
        exact List.mem_cons_self
    · exact fun dispatch sent => List.mem_cons_of_mem _ (carried.sentKnown dispatch sent)
    · exact carried.tickDistinct
    · exact fun tick here other mem =>
        List.mem_cons_of_mem _ (carried.tickKnown tick here other mem)
    · exact carried.due
  · intro dispatch sent row mem same
    rcases cases mem with ⟨earlier, -⟩ | ⟨isNew, -⟩
    · exact carried.rows dispatch sent row earlier same
    · rw [← isNew, same] at fresh
      exact absurd (carried.sentKnown dispatch sent) fresh
  · exact carried.pending
  · exact carried.unfailed
  · intro tick here row mem enabled
    rcases cases mem with ⟨earlier, -⟩ | ⟨-, nextEq⟩
    · exact carried.during tick here row earlier enabled
    · left
      rw [nextEq]
      exact ahead tick here

theorem Carried.quiet (carried : Carried state) : Carried { state with ended := none } where
  off := carried.off
  once := carried.once
  ahead := by simp
  distinct := carried.distinct
  known := carried.known
  sentKnown := carried.sentKnown
  tickDistinct := carried.tickDistinct
  tickKnown := carried.tickKnown
  due := carried.due
  rows := carried.rows
  pending := carried.pending
  unfailed := carried.unfailed
  during := carried.during

/-! ## Every run -/

theorem Carried.step (carried : Carried state) (undisturbed : Undisturbed schedules state label)
    (stepEq : step schedules state label = some next) : Carried next := by
  cases label with
  | read now =>
      simp only [Cron.step] at stepEq
      split at stepEq
      · next idle =>
        cases stepEq
        exact carried.read idle now
      · cases stepEq
  | send messageId error =>
      simp only [Cron.step] at stepEq
      split at stepEq
      · next tick here =>
        split at stepEq
        · next due =>
          cases stepEq
          rw [show error = none from undisturbed]
          exact carried.send here due messageId
        · cases stepEq
      · cases stepEq
  | write succeeds clock =>
      simp only [Cron.step] at stepEq
      split at stepEq
      · next tick here =>
        split at stepEq
        · cases stepEq
        · next started =>
          rcases undisturbed with ⟨rfl, found⟩
          rcases found tick here with ⟨onward, standing⟩
          have dispatched : tick.progress = .dispatched := by
            cases progress : tick.progress with
            | due => exact absurd progress started
            | dispatched => rfl
            | failed error => exact absurd progress (carried.unfailed tick here error)
          cases stepEq
          exact carried.proceed here (carried.written here dispatched onward standing)
      · cases stepEq
  | toggle id enabled =>
      cases stepEq
      exact carried.toggle undisturbed
  | delete id =>
      cases stepEq
      exact carried.delete id
  | create job now clock =>
      rcases undisturbed with ⟨onward, after⟩
      simp only [Cron.step] at stepEq
      split at stepEq
      · cases stepEq
      · next fresh =>
        split at stepEq
        · next due accepted =>
          cases stepEq
          have later := lt_calculateInitialNextRun onward accepted
          apply carried.create fresh
          intro tick here
          exact Int.lt_of_le_of_lt (after tick here) later
        · cases stepEq
          exact carried.quiet

/-- In a run that nothing disturbs, the updates are kept in every state. -/
theorem updatesKept_of_undisturbed {labels : List Label}
    (undisturbed : Along (step schedules) (Undisturbed schedules) .init labels)
    (count : Nat) {middle : State}
    (passed : run (step schedules) .init (labels.take count) = some middle) :
    UpdatesKept middle := by
  have carried := run_invariant_along Carried
    (fun _ _ _ carried meets stepEq => carried.step meets stepEq) carried_init
    (undisturbed.take count) passed
  exact carried.toUpdatesKept

/-! ## A job that is switched off -/

/-- An hour after the start. -/
def hourLater : Instant := ⟨3600000, by decide⟩

/-- A job is dispatched, and switched off when its result is written. -/
def reportRun : List Label :=
  [.create hourlyJob startTime 0, .read hourLater, .send "m1" none, .write true 3600000,
    .toggle "cron.agent.a.1" false]

theorem updatesKept_reportRun :
    ∃ target, run (step plainSchedules) .init reportRun = some target ∧ UpdatesKept target := by
  have runs : (run (step plainSchedules) .init reportRun).isSome = true := by
    decide +kernel
  have undisturbed : Along (step plainSchedules) (Undisturbed plainSchedules) .init reportRun := by
    decide +kernel
  rcases Option.isSome_iff_exists.mp runs with ⟨target, ran⟩
  exact ⟨target, ran, updatesKept_of_undisturbed undisturbed 5 ran⟩

/-- A job that is switched off after a tick has read it is switched on by the tick. -/
theorem switched_on_by_tick :
    ¬∀ (schedules : Schedules) labels target,
      run (step schedules) .init labels = some target → UpdatesKept target := by
  intro kept
  have lost : ∃ target ∈ run (step plainSchedules) .init
      [.create hourlyJob startTime 0, .read hourLater, .toggle "cron.agent.a.1" false,
        .send "m1" none, .write true 3600000],
      ∃ row ∈ target.jobs, target.off row.id = true ∧ row.enabled = true := by
    decide +kernel
  rcases lost with ⟨target, ran, row, mem, isOff, enabled⟩
  have stayed := (kept plainSchedules _ target ran).off row mem isOff
  rw [stayed] at enabled
  cases enabled

end ClotoCore.Cron
