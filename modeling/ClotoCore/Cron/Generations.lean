import ClotoCore.Cron.Jobs
import ClotoCore.Transition.Run

/-!
# Generations of cron jobs

While an agent executes a cron job, a context under its id says how far the job is, and
a job that is created then is one generation further, up to a limit.  The context is
looked up under the agent that the new job is for, which need not be the agent at work.
-/

namespace ClotoCore.Cron.Generations

open ClotoCore.Events (ClotoMessage turnAgent)
open ClotoCore.Transition

/-- `CronExecContext` -/
structure CronExecContext where
  jobId : String
  generation : Int

/-- A turn waits for the permit of its agent, reads the generation of its job, executes,
and gives the permit back. -/
inductive Stage where
  | waiting
  | entered
  | looked (generation : Int)
  | executing
  | closing
  | ended
  deriving DecidableEq

/-- The turn has the permit. -/
def Stage.holdsPermit : Stage → Bool
  | .waiting | .ended => false
  | .entered | .looked _ | .executing | .closing => true

/-- The turn is at work, and can come to its end. -/
def Stage.isActive : Stage → Bool
  | .entered | .looked _ | .executing => true
  | .waiting | .closing | .ended => false

/-- A message on its way through the event loop. -/
structure Turn where
  message : ClotoMessage
  stage : Stage

/-- The job that the message of a turn is sent for. -/
def Turn.cronJobId (turn : Turn) : Option String :=
  turn.message.metadata.lookup "cron_job_id"

/-- A job as it was created, with the limit at that time and the generations of the jobs
it descends from, nearest first. -/
structure Creation where
  id : String
  generation : Int
  limit : Nat
  ancestry : List Int

/-- The generations of a job and of those it descends from. -/
def Creation.lineage (creation : Creation) : List Int :=
  creation.generation :: creation.ancestry

/-- What the kernel is set up with. -/
structure Config where
  schedules : Schedules
  defaultAgentId : String
  cronDefaultMaxIterations : UInt8

/-- `target_agent_of` -/
def targetAgentOf (config : Config) (message : ClotoMessage) : String :=
  (message.targetAgent.orElse fun _ =>
    message.metadata.lookup "target_agent_id").getD config.defaultAgentId

/-- The table, `active_cron_contexts`, `max_cron_generation` and the turns.  The jobs
created so far are read by no step. -/
structure State where
  jobs : Table
  contexts : String → Option CronExecContext
  maxCronGeneration : Nat
  turns : List Turn
  created : List Creation

/-- The limit that the environment asks for. -/
def initialLimit (setting : Option UInt8) : Nat :=
  (setting.map fun value => min value.toNat 6).getD 2

/-- A kernel with no jobs, after it has read its setting. -/
def State.init (setting : Option UInt8) : State where
  jobs := []
  contexts := fun _ => none
  maxCronGeneration := initialLimit setting
  turns := []
  created := []

/-- One step of the event processor, of a turn or of a handler, or a restart.
`create` names the turn that asks, if one does. -/
inductive Label where
  | dispatch (message : ClotoMessage)
  | acquire (n : Nat)
  | look (n : Nat) (readable : Bool)
  | start (n : Nat)
  | finish (n : Nat)
  | release (n : Nat)
  | create (creator : Option Nat) (known : Bool) (job : CronJobRow) (now : Instant) (clock : Int)
  | delete (id : String)
  | setLimit (value : Nat)
  | restart (setting : Option UInt8)

namespace State

/-- Move a turn on. -/
def setStage (state : State) (n : Nat) (message : ClotoMessage) (stage : Stage) : State :=
  { state with turns := state.turns.set n ⟨message, stage⟩ }

/-- Another turn has the permit for the agent of a message. -/
def permitTaken (state : State) (message : ClotoMessage) : Bool :=
  state.turns.any fun turn =>
    turn.stage.holdsPermit && turnAgent turn.message == turnAgent message

/-- `get_cron_job_generation`, or zero. -/
def generationOf (state : State) (id : String) (readable : Bool) : Int :=
  if readable then (state.jobs.getCronJobGeneration id).getD 0 else 0

/-- The context of a turn, as `handle_message_impl` sets it. -/
def setContext (state : State) (agentId : String) (context : Option CronExecContext) : State :=
  { state with
    contexts := fun other => if other = agentId then context else state.contexts other }

/-- The end of `handle_message_stoppable`: the context of a job is removed. -/
def leave (config : Config) (state : State) (n : Nat) (turn : Turn) : State :=
  let closed := state.setStage n turn.message .closing
  match turn.cronJobId with
  | some _ => closed.setContext (targetAgentOf config turn.message) none
  | none => closed

/-- The generation that `create_cron_job` gives to a job for an agent. -/
def childGeneration (state : State) (agentId : String) : Except String Int :=
  match state.contexts agentId with
  | some context =>
      let child := context.generation + 1
      let limit := state.maxCronGeneration
      if limit < child then
        .error s!"CRON recursion depth limit exceeded (generation {child} > max {limit})"
      else .ok child
  | none => .ok 0

/-- The job that a turn executes, as it was created. -/
def executed (state : State) (turn : Turn) : Option Creation :=
  turn.cronJobId.bind fun id => state.created.find? fun creation => creation.id == id

/-- The job that the turn which asks for a creation executes. -/
def parent (state : State) (creator : Option Nat) : Option Creation :=
  creator.bind fun n => state.turns[n]?.bind state.executed

/-- A row as it is created now. -/
def creation (state : State) (parent : Option Creation) (row : CronJobRow) : Creation where
  id := row.id
  generation := row.cronGeneration
  limit := state.maxCronGeneration
  ancestry := (parent.map Creation.lineage).getD []

/-- Insert a job. -/
def store (state : State) (parent : Option Creation) (row : CronJobRow) : State :=
  { state with
    jobs := state.jobs ++ [row]
    created := state.created ++ [state.creation parent row] }

end State

/-- What `create_cron_job` asks of the source of the messages. -/
def checkSource (job : CronJobRow) : Except String Unit :=
  if job.sourceType ≠ "system" ∧ job.sourceType ≠ "user" then
    .error "source_type must be 'system' or 'user'"
  else if job.sourceType = "user" ∧ job.creatorUserId = none then
    .error "creator_user_id is required when source_type='user'"
  else if job.sourceType = "user" ∧ job.creatorUserName = none then
    .error "creator_user_name is required when source_type='user'"
  else .ok ()

/-- The row of a job for what a payload asks for. -/
def newRow (config : Config) (job : CronJobRow) (next generation : Int) : CronJobRow :=
  let byUser := job.sourceType == "user"
  { job with
    enabled := true
    nextRunAt := next
    lastRunAt := none
    lastStatus := none
    lastError := none
    maxIterations := job.maxIterations.or (some config.cronDefaultMaxIterations.toNat)
    cronGeneration := generation
    creatorUserId := if byUser then job.creatorUserId else none
    creatorUserName := if byUser then job.creatorUserName else none }

/-- `create_cron_job`.  `known` is the answer of `agent_exists`. -/
def createCronJob (config : Config) (state : State) (known : Bool) (job : CronJobRow)
    (now : Instant) (clock : Int) : Except String CronJobRow :=
  if known = false then
    .error ("Unknown agent_id '" ++ job.agentId ++
      "'. GET /api/agents enumerates valid agent IDs.")
  else do
    let next ← calculateInitialNextRun config.schedules job.scheduleType job.scheduleValue now.ms
      clock
    let generation ← state.childGeneration job.agentId
    checkSource job
    return newRow config job next generation

section Turns

variable (config : Config)

/-- One step.  A turn asks for a job while it executes; an id is not given twice. -/
def step : Action State Label
  | state, .dispatch message =>
      match turnAgent message with
      | some _ => some { state with turns := state.turns ++ [⟨message, .waiting⟩] }
      | none => none
  | state, .acquire n =>
      match state.turns[n]? with
      | some ⟨message, .waiting⟩ =>
          if state.permitTaken message then none else some (state.setStage n message .entered)
      | _ => none
  | state, .look n readable =>
      match state.turns[n]? with
      | some ⟨message, .entered⟩ =>
          (Turn.cronJobId ⟨message, .entered⟩).map fun id =>
            state.setStage n message (.looked (state.generationOf id readable))
      | _ => none
  | state, .start n =>
      match state.turns[n]? with
      | some ⟨message, .entered⟩ =>
          match Turn.cronJobId ⟨message, .entered⟩ with
          | some _ => none
          | none => some (state.setStage n message .executing)
      | some ⟨message, .looked generation⟩ =>
          (Turn.cronJobId ⟨message, .looked generation⟩).map fun id =>
            (state.setStage n message .executing).setContext (targetAgentOf config message)
              (some ⟨id, generation⟩)
      | _ => none
  | state, .finish n =>
      match state.turns[n]? with
      | some turn => if turn.stage.isActive then some (state.leave config n turn) else none
      | none => none
  | state, .release n =>
      match state.turns[n]? with
      | some ⟨message, .closing⟩ => some (state.setStage n message .ended)
      | _ => none
  | state, .create creator known job now clock =>
      if (creator.all fun n => state.turns[n]?.any fun turn => turn.stage == .executing) ∧
          ∀ creation ∈ state.created, creation.id ≠ job.id then
        match createCronJob config state known job now clock with
        | .ok row => some (state.store (state.parent creator) row)
        | .error _ => some state
      else none
  | state, .delete id => some { state with jobs := state.jobs.deleteCronJob id }
  | state, .setLimit value =>
      if 6 < value then some state else some { state with maxCronGeneration := value }
  | state, .restart setting =>
      some
        { state with
          contexts := fun _ => none
          maxCronGeneration := initialLimit setting
          turns := [] }

/-- A job that a cron turn creates is further than the one it executes, every other job
is of generation zero, none is past the limit, and no chain is longer than the limit
plus one. -/
structure Bounded (state : State) : Prop where
  further : ∀ creation ∈ state.created, ∀ generation ∈ creation.ancestry.head?,
    generation + 1 ≤ creation.generation
  outside : ∀ creation ∈ state.created, creation.ancestry = [] → creation.generation = 0
  within : ∀ creation ∈ state.created, creation.generation ≤ creation.limit
  chains : ∀ creation ∈ state.created, creation.lineage.length ≤ creation.limit + 1

/-- A creation that passes the other checks finds, under the agent it is for, a context
that refuses it, or one at least as far as the job that the creating turn executes, or
none when that turn executes none. -/
def ContextFits : State → Label → Prop
  | state, .create creator known job now clock =>
      known = true →
      (calculateInitialNextRun config.schedules job.scheduleType job.scheduleValue now.ms
        clock).isOk = true →
      (checkSource job).isOk = true →
      (∃ context ∈ state.contexts job.agentId,
        state.maxCronGeneration < context.generation + 1) ∨
      ((∀ parent ∈ state.parent creator, ∃ context ∈ state.contexts job.agentId,
        parent.generation ≤ context.generation) ∧
      ((state.parent creator).isNone = true → (state.contexts job.agentId).isNone = true))
  | _, _ => True

instance (state : State) : ∀ label, Decidable (ContextFits config state label)
  | .create creator known job now clock => inferInstanceAs <| Decidable <|
      known = true →
      (calculateInitialNextRun config.schedules job.scheduleType job.scheduleValue now.ms
        clock).isOk = true →
      (checkSource job).isOk = true →
      (∃ context ∈ state.contexts job.agentId,
        state.maxCronGeneration < context.generation + 1) ∨
      ((∀ parent ∈ state.parent creator, ∃ context ∈ state.contexts job.agentId,
        parent.generation ≤ context.generation) ∧
      ((state.parent creator).isNone = true → (state.contexts job.agentId).isNone = true))
  | .dispatch _ | .acquire _ | .look _ _ | .start _ | .finish _ | .release _ | .delete _
  | .setLimit _ | .restart _ => isTrue trivial

end Turns

variable {config : Config} {state next : State} {label : Label} {job row : CronJobRow}
  {parent : Option Creation}

/-- Besides the bounds, a generation is at least the number of ancestors, and those that
are stored or in use are not negative. -/
structure Carried (state : State) : Prop extends Bounded state where
  deep : ∀ creation ∈ state.created, creation.lineage.length ≤ creation.generation + 1
  rows : ∀ job ∈ state.jobs, 0 ≤ job.cronGeneration
  contexts : ∀ agentId, ∀ context ∈ state.contexts agentId, 0 ≤ context.generation
  looked : ∀ turn ∈ state.turns, ∀ generation, turn.stage = .looked generation → 0 ≤ generation

theorem carried_init (setting : Option UInt8) : Carried (.init setting) := by
  constructor
  · constructor <;> simp [State.init]
  all_goals simp [State.init]

/-! ## The generation of a new job -/

theorem childGeneration_eq_ok_iff {agentId : String} {generation : Int} :
    state.childGeneration agentId = .ok generation ↔
      (∃ context ∈ state.contexts agentId, generation = context.generation + 1 ∧
        generation ≤ state.maxCronGeneration) ∨
      ((state.contexts agentId).isNone = true ∧ generation = 0) := by
  unfold State.childGeneration
  cases found : state.contexts agentId with
  | none => simp [eq_comm]
  | some context =>
      by_cases refused : (state.maxCronGeneration : Int) < context.generation + 1
      · simp [refused]
        omega
      · simp [refused]
        omega

theorem createCronJob_eq_ok_iff {known : Bool} {now : Instant} {clock : Int} :
    createCronJob config state known job now clock = .ok row ↔
      known = true ∧
      ∃ due generation, calculateInitialNextRun config.schedules job.scheduleType
          job.scheduleValue now.ms clock = .ok due ∧
        state.childGeneration job.agentId = .ok generation ∧
        checkSource job = .ok () ∧
        newRow config job due generation = row := by
  cases known with
  | false => simp [createCronJob]
  | true =>
      simp only [createCronJob]
      cases calculateInitialNextRun config.schedules job.scheduleType job.scheduleValue now.ms
        clock with
      | error problem => simp [bind, Except.bind]
      | ok due =>
          cases state.childGeneration job.agentId with
          | error problem => simp [bind, Except.bind]
          | ok generation =>
              cases checkSource job with
              | error problem => simp [bind, Except.bind]
              | ok checked => simp [bind, Except.bind, pure, Except.pure]

/-- The generation of a row is past that of the job that the turn executes, or zero. -/
def Follows (parent : Option Creation) (row : CronJobRow) : Prop :=
  (∀ creation ∈ parent, creation.generation + 1 ≤ row.cronGeneration) ∧
  (parent.isNone = true → row.cronGeneration = 0)

theorem follows_of_bounded (bounded : Bounded (state.store parent row)) : Follows parent row := by
  have isNew : state.creation parent row ∈ (state.store parent row).created := by
    simp [State.store]
  constructor
  · rintro creation rfl
    exact bounded.further _ isNew creation.generation rfl
  · intro none
    rw [Option.isNone_iff_eq_none] at none
    subst none
    exact bounded.outside _ isNew rfl

theorem Carried.store (carried : Carried state)
    (known : ∀ creation ∈ parent, creation ∈ state.created)
    (limited : row.cronGeneration ≤ state.maxCronGeneration) (follows : Follows parent row) :
    Carried (state.store parent row) := by
  have deep : (state.creation parent row).lineage.length ≤ row.cronGeneration + 1 := by
    cases parent with
    | none =>
        rw [follows.2 rfl]
        simp [Creation.lineage, State.creation]
    | some creation =>
        have above := follows.1 creation rfl
        have earlier := carried.deep creation (known creation rfl)
        simp only [Creation.lineage, State.creation, Option.map_some, Option.getD_some,
          List.length_cons] at earlier ⊢
        omega
  have either : ∀ {P : Creation → Prop}, (∀ creation ∈ state.created, P creation) →
      P (state.creation parent row) →
        ∀ creation ∈ (state.store parent row).created, P creation := by
    intro P earlier isNew creation mem
    rcases List.mem_append.mp mem with old | this
    · exact earlier creation old
    · cases List.mem_singleton.mp this
      exact isNew
  have nonneg : 0 ≤ row.cronGeneration := by
    simp only [Creation.lineage, List.length_cons] at deep
    omega
  constructor
  · constructor
    · apply either carried.further
      intro generation mem
      cases parent with
      | none => cases mem
      | some creation =>
          cases mem
          exact follows.1 creation rfl
    · apply either carried.outside
      intro isEmpty
      cases parent with
      | none => exact follows.2 rfl
      | some creation => cases isEmpty
    · exact either carried.within limited
    · apply either carried.chains
      change _ ≤ state.maxCronGeneration + 1
      omega
  · exact either carried.deep deep
  · intro job mem
    rcases List.mem_append.mp mem with old | this
    · exact carried.rows job old
    · cases List.mem_singleton.mp this
      exact nonneg
  · exact carried.contexts
  · exact carried.looked

/-! ## The other steps -/

theorem Carried.setStage {n : Nat} {message : ClotoMessage} {stage : Stage}
    (carried : Carried state) (nonneg : ∀ generation, stage = .looked generation → 0 ≤ generation) :
    Carried (state.setStage n message stage) where
  toBounded := ⟨carried.further, carried.outside, carried.within, carried.chains⟩
  deep := carried.deep
  rows := carried.rows
  contexts := carried.contexts
  looked := by
    intro turn mem
    rcases List.mem_or_eq_of_mem_set mem with old | rfl
    · exact carried.looked turn old
    · exact nonneg

theorem Carried.setContext {agentId : String} {context : Option CronExecContext}
    (carried : Carried state) (nonneg : ∀ given ∈ context, 0 ≤ given.generation) :
    Carried (state.setContext agentId context) where
  toBounded := ⟨carried.further, carried.outside, carried.within, carried.chains⟩
  deep := carried.deep
  rows := carried.rows
  contexts := by
    intro other found mem
    simp only [State.setContext] at mem
    split at mem
    · exact nonneg found mem
    · exact carried.contexts other found mem
  looked := carried.looked

theorem Carried.generationOf_nonneg (carried : Carried state) (id : String) (readable : Bool) :
    0 ≤ state.generationOf id readable := by
  unfold State.generationOf Table.getCronJobGeneration
  split
  · cases found : state.jobs.find? fun job => job.id == id with
    | none => simp
    | some job => simpa using carried.rows job (List.mem_of_find?_eq_some found)
  · exact Int.le_refl 0

theorem Carried.leave (carried : Carried state) (n : Nat) (turn : Turn) :
    Carried (state.leave config n turn) := by
  have closed : Carried (state.setStage n turn.message .closing) := carried.setStage (by simp)
  unfold State.leave
  dsimp only
  split
  · exact closed.setContext (by simp)
  · exact closed

theorem State.parent_mem {creator : Option Nat} :
    ∀ creation ∈ state.parent creator, creation ∈ state.created := by
  intro creation mem
  simp only [State.parent, State.executed, Option.mem_def, Option.bind_eq_some_iff] at mem
  rcases mem with ⟨n, -, turn, -, id, -, found⟩
  exact List.mem_of_find?_eq_some found

/-! ## Every run -/

theorem Carried.generation_nonneg (carried : Carried state) {creation : Creation}
    (mem : creation ∈ state.created) : 0 ≤ creation.generation := by
  have deep := carried.deep creation mem
  simp only [Creation.lineage, List.length_cons] at deep
  omega

theorem contextFits_create_iff {creator : Option Nat} {known : Bool} {now : Instant} {clock : Int}
    (accepted : createCronJob config state known job now clock = .ok row) :
    ContextFits config state (.create creator known job now clock) ↔
      (∃ context ∈ state.contexts job.agentId,
        state.maxCronGeneration < context.generation + 1) ∨
      ((∀ parent ∈ state.parent creator, ∃ context ∈ state.contexts job.agentId,
        parent.generation ≤ context.generation) ∧
      ((state.parent creator).isNone = true → (state.contexts job.agentId).isNone = true)) := by
  rcases createCronJob_eq_ok_iff.mp accepted with ⟨known, due, generation, dueEq, -, checked, -⟩
  simp [ContextFits, known, dueEq, checked, Except.isOk, Except.toBool]

theorem exists_limit_of_childGeneration_error {agentId problem : String}
    (refused : state.childGeneration agentId = .error problem) :
    ∃ context ∈ state.contexts agentId, state.maxCronGeneration < context.generation + 1 := by
  unfold State.childGeneration at refused
  split at refused
  · next context found =>
    refine ⟨context, found, ?_⟩
    by_cases past : state.maxCronGeneration < context.generation + 1
    · exact past
    · simp [past] at refused
  · cases refused

/-- A creation that is refused stores nothing: the context refuses it, or another check. -/
theorem contextFits_of_error {creator : Option Nat} {known : Bool} {now : Instant} {clock : Int}
    {problem : String} (refused : createCronJob config state known job now clock = .error problem) :
    ContextFits config state (.create creator known job now clock) := by
  intro isKnown read checked
  cases dueEq : calculateInitialNextRun config.schedules job.scheduleType job.scheduleValue now.ms
      clock with
  | error _ =>
      rw [dueEq] at read
      cases read
  | ok due =>
      cases given : state.childGeneration job.agentId with
      | error _ => exact Or.inl (exists_limit_of_childGeneration_error given)
      | ok generation =>
          cases source : checkSource job with
          | error _ =>
              rw [source] at checked
              cases checked
          | ok _ =>
              have accepted : createCronJob config state known job now clock =
                  .ok (newRow config job due generation) :=
                createCronJob_eq_ok_iff.mpr ⟨isKnown, due, generation, dueEq, given, source, rfl⟩
              rw [refused] at accepted
              cases accepted

/-- The row of a creation follows the job of the turn exactly if the context fits. -/
theorem Carried.contextFits_iff {creator : Option Nat} {known : Bool} {now : Instant} {clock : Int}
    (carried : Carried state)
    (accepted : createCronJob config state known job now clock = .ok row) :
    ContextFits config state (.create creator known job now clock) ↔
      Follows (state.parent creator) row := by
  rw [contextFits_create_iff accepted]
  rcases createCronJob_eq_ok_iff.mp accepted with ⟨-, due, generation, -, given, -, rfl⟩
  rcases childGeneration_eq_ok_iff.mp given with ⟨context, found, rfl, limited⟩ | ⟨absent, rfl⟩
  · have nonneg := carried.contexts job.agentId context found
    rw [Option.mem_def] at found
    rw [found]
    constructor
    · rintro (⟨_, ⟨⟩, refused⟩ | ⟨atLeast, outside⟩)
      · omega
      · constructor
        · intro parent mem
          rcases atLeast parent mem with ⟨_, ⟨⟩, reached⟩
          change parent.generation + 1 ≤ context.generation + 1
          omega
        · intro none
          cases outside none
    · rintro ⟨above, outside⟩
      right
      constructor
      · intro parent mem
        have further : parent.generation + 1 ≤ context.generation + 1 := above parent mem
        exact ⟨context, rfl, by omega⟩
      · intro none
        have isZero : context.generation + 1 = 0 := outside none
        omega
  · rw [Option.isNone_iff_eq_none] at absent
    rw [absent]
    constructor
    · rintro (⟨_, ⟨⟩, _⟩ | ⟨atLeast, -⟩)
      constructor
      · intro parent mem
        rcases atLeast parent mem with ⟨_, ⟨⟩, _⟩
      · intro _
        rfl
    · rintro ⟨above, -⟩
      right
      constructor
      · intro parent mem
        have nonneg := carried.generation_nonneg (State.parent_mem parent mem)
        have further : parent.generation + 1 ≤ 0 := above parent mem
        omega
      · intro _
        rfl

theorem cronGeneration_le_of_created {known : Bool} {now : Instant} {clock : Int}
    (accepted : createCronJob config state known job now clock = .ok row) :
    row.cronGeneration ≤ state.maxCronGeneration := by
  rcases createCronJob_eq_ok_iff.mp accepted with ⟨-, due, generation, -, given, -, rfl⟩
  change generation ≤ state.maxCronGeneration
  rcases childGeneration_eq_ok_iff.mp given with ⟨context, -, -, limited⟩ | ⟨-, rfl⟩
  · exact limited
  · omega

theorem Carried.create {creator : Option Nat} {known : Bool} {now : Instant} {clock : Int}
    (carried : Carried state)
    (fits : ContextFits config state (.create creator known job now clock))
    (stepEq : step config state (.create creator known job now clock) = some next) :
    Carried next := by
  simp only [step] at stepEq
  split at stepEq
  · split at stepEq
    · next row accepted =>
      cases stepEq
      exact carried.store State.parent_mem (cronGeneration_le_of_created accepted)
        ((carried.contextFits_iff accepted).mp fits)
    · cases stepEq
      exact carried
  · cases stepEq

theorem Carried.step (carried : Carried state) (fits : ContextFits config state label)
    (stepEq : step config state label = some next) : Carried next := by
  cases label with
  | dispatch message =>
      simp only [Generations.step] at stepEq
      split at stepEq
      · cases stepEq
        refine { carried with looked := ?_ }
        intro turn mem
        rcases List.mem_append.mp mem with old | this
        · exact carried.looked turn old
        · cases List.mem_singleton.mp this
          simp
      · cases stepEq
  | acquire n =>
      simp only [Generations.step] at stepEq
      split at stepEq
      · split at stepEq
        · cases stepEq
        · cases stepEq
          exact carried.setStage (by simp)
      · cases stepEq
  | look n readable =>
      simp only [Generations.step] at stepEq
      split at stepEq
      · rcases Option.map_eq_some_iff.mp stepEq with ⟨id, -, rfl⟩
        apply carried.setStage
        rintro generation ⟨⟩
        exact carried.generationOf_nonneg id readable
      · cases stepEq
  | start n =>
      simp only [Generations.step] at stepEq
      split at stepEq
      · split at stepEq
        · cases stepEq
        · cases stepEq
          exact carried.setStage (by simp)
      · next message generation here =>
        rcases Option.map_eq_some_iff.mp stepEq with ⟨id, -, rfl⟩
        have executing : Carried (state.setStage n message .executing) := carried.setStage (by simp)
        apply executing.setContext
        rintro _ ⟨⟩
        exact carried.looked _ (List.mem_of_getElem? here) generation rfl
      · cases stepEq
  | finish n =>
      simp only [Generations.step] at stepEq
      split at stepEq
      · split at stepEq
        · cases stepEq
          exact carried.leave n _
        · cases stepEq
      · cases stepEq
  | release n =>
      simp only [Generations.step] at stepEq
      split at stepEq
      · cases stepEq
        exact carried.setStage (by simp)
      · cases stepEq
  | create creator known job now clock => exact carried.create fits stepEq
  | delete id =>
      cases stepEq
      refine { carried with rows := ?_ }
      intro job mem
      exact carried.rows job (List.mem_filter.mp mem).1
  | setLimit value =>
      simp only [Generations.step] at stepEq
      split at stepEq
      · cases stepEq
        exact carried
      · cases stepEq
        exact { carried with }
  | restart setting =>
      cases stepEq
      refine { carried with contexts := ?_, looked := ?_ }
      · simp
      · simp

theorem contextFits_of_bounded (carried : Carried state)
    (stepEq : step config state label = some next) (bounded : Bounded next) :
    ContextFits config state label := by
  cases label with
  | create creator known job now clock =>
      simp only [Generations.step] at stepEq
      split at stepEq
      · split at stepEq
        · next row accepted =>
          cases stepEq
          exact (carried.contextFits_iff accepted).mpr (follows_of_bounded bounded)
        · next problem refused =>
          exact contextFits_of_error refused
      · cases stepEq
  | _ => trivial

/-- In every state of a run the generations are bounded, exactly if every creation of
the run finds a context that fits. -/
theorem bounded_throughout_iff {setting : Option UInt8} {labels : List Label} {target : State}
    (ran : run (step config) (.init setting) labels = some target) :
    (∀ count middle, run (step config) (.init setting) (labels.take count) = some middle →
      Bounded middle) ↔
      Along (step config) (ContextFits config) (.init setting) labels := by
  have holds : ∀ ⦃state⦄, Carried state → Bounded state := fun _ carried => carried.toBounded
  apply throughout_iff_along_of holds _ _ (carried_init setting) ran
  · intro state label next carried fits stepEq
    exact carried.step fits stepEq
  · intro state label next carried stepEq bounded
    exact contextFits_of_bounded carried stepEq bounded

/-! ## A job for another agent -/

/-- A configuration in which `agent.a` is the default agent. -/
def plainConfig : Config where
  schedules := plainSchedules
  defaultAgentId := "agent.a"
  cronDefaultMaxIterations := 8

/-- The job of every hour is created, and its turn executes. -/
def executing : List Label :=
  [.create none true hourlyJob startTime 0, .dispatch (scheduledMessage hourlyJob "m1"),
    .acquire 0, .look 0 true, .start 0]

/-- The turn creates a job for its own agent, and ends. -/
def childRun : List Label :=
  executing ++
    ([.create (some 0) true { hourlyJob with id := "cron.agent.a.2" } startTime 0, .finish 0,
      .release 0] : List Label)

theorem bounded_throughout_childRun :
    ∃ target, run (step plainConfig) (.init none) childRun = some target ∧
      ∀ count middle, run (step plainConfig) (.init none) (childRun.take count) = some middle →
        Bounded middle := by
  have runs : (run (step plainConfig) (.init none) childRun).isSome = true := by
    decide +kernel
  have fits : Along (step plainConfig) (ContextFits plainConfig) (.init none) childRun := by
    decide +kernel
  rcases Option.isSome_iff_exists.mp runs with ⟨target, ran⟩
  exact ⟨target, ran, (bounded_throughout_iff ran).mpr fits⟩

/-- A job that a cron turn creates for another agent starts at generation zero. -/
theorem child_of_another_agent_at_zero :
    ¬∀ (config : Config) setting labels target,
      run (step config) (.init setting) labels = some target → Bounded target := by
  intro bounded
  have atZero : ∃ target ∈ run (step plainConfig) (.init none)
      (executing ++
        [.create (some 0) true { hourlyJob with id := "cron.agent.b.1", agentId := "agent.b" }
          startTime 0]),
      ∃ creation ∈ target.created, ∃ generation ∈ creation.ancestry.head?,
        creation.generation < generation + 1 := by
    decide +kernel
  rcases atZero with ⟨target, ran, creation, mem, generation, nearest, less⟩
  have further := (bounded plainConfig none _ target ran).further creation mem generation nearest
  omega

end ClotoCore.Cron.Generations
