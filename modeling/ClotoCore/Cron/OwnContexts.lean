import ClotoCore.Cron.Generations

/-!
# Contexts of an agent's own jobs

An agent works on one turn at a time, and the context of a cron job is set when its turn
begins and removed when it ends.  So while a turn executes a job, the context under the
id of its agent is that of this job, and a job that the turn creates for its own agent is
one generation further.  That takes messages that come from the scheduler, and a row that
can be read when the turn looks up its generation.
-/

namespace ClotoCore.Cron.Generations

open ClotoCore.Events (ClotoMessage turnAgent)
open ClotoCore.Transition

/-- A message that names a job is the one that the scheduler sends for a row of the table,
and the row of a job can be read when its turn looks it up. -/
def Regular : State → Label → Prop
  | state, .dispatch message =>
      message.metadata.lookup "cron_job_id" = none ∨
        ∃ job ∈ state.jobs, ∃ id, message = scheduledMessage job id
  | state, .look n readable =>
      readable = true ∧ ∀ turn ∈ state.turns[n]?, ∀ id ∈ turn.cronJobId,
        (state.jobs.find? fun job => job.id == id).isSome = true
  | _, _ => True

/-- Turns hold the permits of different agents, a turn that executes a job was started for
its agent, and what a turn has read is not less than the generation the job was created
with. -/
structure Seated (config : Config) (state : State) : Prop where
  scheduled : ∀ turn ∈ state.turns, ∀ id ∈ turn.cronJobId,
    turnAgent turn.message = some (targetAgentOf config turn.message) ∧
      ∃ creation ∈ state.created, creation.id = id
  exclusive : ∀ (n m : Nat) (first second : Turn), state.turns[n]? = some first →
    state.turns[m]? = some second → first.stage.holdsPermit = true →
      second.stage.holdsPermit = true → turnAgent first.message = turnAgent second.message → n = m
  read : ∀ turn ∈ state.turns, ∀ generation, turn.stage = .looked generation →
    ∀ creation ∈ state.created, turn.cronJobId = some creation.id →
      creation.generation ≤ generation
  rows : ∀ job ∈ state.jobs, ∃ creation ∈ state.created,
    creation.id = job.id ∧ creation.generation = job.cronGeneration
  distinct : ∀ first ∈ state.created, ∀ second ∈ state.created,
    first.id = second.id → first = second

/-- The contexts are those of the turns that execute a job, each under the agent of its
turn. -/
structure OwnContexts (config : Config) (state : State) : Prop extends Seated config state where
  reached : ∀ turn ∈ state.turns, turn.stage = .executing →
    ∀ creation ∈ state.created, turn.cronJobId = some creation.id →
      ∃ context ∈ state.contexts (targetAgentOf config turn.message),
        creation.generation ≤ context.generation
  owned : ∀ agentId, (state.contexts agentId).isSome = true → ∃ (n : Nat) (turn : Turn),
    state.turns[n]? = some turn ∧ turn.stage = .executing ∧ turn.cronJobId.isSome = true ∧
      targetAgentOf config turn.message = agentId

variable {config : Config} {state next : State} {label : Label} {n : Nat} {message : ClotoMessage}
  {before stage : Stage}

theorem ownContexts_init (config : Config) (setting : Option UInt8) :
    OwnContexts config (.init setting) := by
  constructor
  · constructor <;> simp [State.init]
  all_goals simp [State.init]

/-! ## Turns that move on -/

theorem getElem?_setStage {m : Nat} {turn : Turn}
    (found : (state.setStage n message stage).turns[m]? = some turn) :
    (m = n ∧ turn = ⟨message, stage⟩) ∨ m ≠ n ∧ state.turns[m]? = some turn := by
  rw [State.setStage, List.getElem?_set] at found
  split at found
  · next same =>
    split at found
    · exact .inl ⟨same.symm, (Option.some.inj found).symm⟩
    · cases found
  · next other => exact .inr ⟨fun same => other same.symm, found⟩

/-- No other turn has the permit for the agent of a message that may be acquired. -/
theorem holdsPermit_of_permitTaken (free : state.permitTaken message = false) {turn : Turn}
    (mem : turn ∈ state.turns) (same : turnAgent turn.message = turnAgent message) :
    turn.stage.holdsPermit = false := by
  rw [State.permitTaken, List.any_eq_false] at free
  have idle := free turn mem
  rw [same] at idle
  simpa using idle

theorem Seated.setStage (seated : Seated config state)
    (here : state.turns[n]? = some ⟨message, before⟩)
    (permitted : stage.holdsPermit = true →
      before.holdsPermit = true ∨ state.permitTaken message = false)
    (read : ∀ generation, stage = .looked generation → ∀ creation ∈ state.created,
      Turn.cronJobId ⟨message, before⟩ = some creation.id → creation.generation ≤ generation) :
    Seated config (state.setStage n message stage) where
  scheduled := by
    intro turn mem id isCron
    rcases List.mem_or_eq_of_mem_set mem with old | rfl
    · exact seated.scheduled turn old id isCron
    · exact seated.scheduled _ (List.mem_of_getElem? here) id isCron
  exclusive := by
    -- A turn that holds the permit with the one that moves on held it with that one before.
    have alone : ∀ m other, m ≠ n → state.turns[m]? = some other →
        other.stage.holdsPermit = true → stage.holdsPermit = true →
          turnAgent other.message ≠ turnAgent message := by
      intro m other different found holds holdsToo same
      rcases permitted holdsToo with held | free
      · exact different (seated.exclusive m n other _ found here holds held same)
      · have idle := holdsPermit_of_permitTaken free (List.mem_of_getElem? found) same
        rw [holds] at idle
        cases idle
    intro m k first second firstFound secondFound firstHolds secondHolds same
    rcases getElem?_setStage firstFound with ⟨rfl, rfl⟩ | ⟨firstOther, firstOld⟩
    · rcases getElem?_setStage secondFound with ⟨rfl, rfl⟩ | ⟨secondOther, secondOld⟩
      · rfl
      · exact absurd same.symm (alone k second secondOther secondOld secondHolds firstHolds)
    · rcases getElem?_setStage secondFound with ⟨rfl, rfl⟩ | ⟨secondOther, secondOld⟩
      · exact absurd same (alone m first firstOther firstOld firstHolds secondHolds)
      · exact seated.exclusive m k first second firstOld secondOld firstHolds secondHolds same
  read := by
    intro turn mem generation looked creation created isCron
    rcases List.mem_or_eq_of_mem_set mem with old | rfl
    · exact seated.read turn old generation looked creation created isCron
    · exact read generation looked creation created isCron
  rows := seated.rows
  distinct := seated.distinct

/-- Where a turn moves on that executes no job before or after, the contexts stay. -/
theorem OwnContexts.setStage (own : OwnContexts config state)
    (here : state.turns[n]? = some ⟨message, before⟩)
    (seated : Seated config (state.setStage n message stage))
    (idle : before ≠ .executing ∨ Turn.cronJobId ⟨message, before⟩ = none)
    (idleStill : stage ≠ .executing ∨ Turn.cronJobId ⟨message, before⟩ = none) :
    OwnContexts config (state.setStage n message stage) where
  toSeated := seated
  reached := by
    intro turn mem executing creation created isCron
    rcases List.mem_or_eq_of_mem_set mem with old | rfl
    · exact own.reached turn old executing creation created isCron
    · rcases idleStill with other | notCron
      · exact absurd executing other
      · exact absurd (notCron.symm.trans isCron) nofun
  owned := by
    intro agentId isSome
    obtain ⟨m, turn, found, executing, isCron, agentEq⟩ := own.owned agentId isSome
    refine ⟨m, turn, ?_, executing, isCron, agentEq⟩
    rw [State.setStage, List.getElem?_set_ne]
    · exact found
    · rintro rfl
      rw [here] at found
      cases found
      rcases idle with other | notCron
      · exact other executing
      · rw [notCron] at isCron
        cases isCron

/-- Two turns that have a permit and execute jobs of one agent are the same turn. -/
theorem Seated.eq_of_targetAgentOf (seated : Seated config state) {m : Nat} {first second : Turn}
    (firstFound : state.turns[n]? = some first) (secondFound : state.turns[m]? = some second)
    (firstHolds : first.stage.holdsPermit = true) (secondHolds : second.stage.holdsPermit = true)
    (firstCron : first.cronJobId.isSome = true) (secondCron : second.cronJobId.isSome = true)
    (same : targetAgentOf config first.message = targetAgentOf config second.message) : n = m := by
  obtain ⟨firstId, firstEq⟩ := Option.isSome_iff_exists.mp firstCron
  obtain ⟨secondId, secondEq⟩ := Option.isSome_iff_exists.mp secondCron
  apply seated.exclusive n m first second firstFound secondFound firstHolds secondHolds
  rw [(seated.scheduled first (List.mem_of_getElem? firstFound) firstId firstEq).1,
    (seated.scheduled second (List.mem_of_getElem? secondFound) secondId secondEq).1, same]

/-! ## Contexts that are set and removed -/

/-- The turn of a job sets the context of its agent. -/
theorem OwnContexts.start (own : OwnContexts config state) {generation : Int} {id : String}
    (here : state.turns[n]? = some ⟨message, .looked generation⟩)
    (isCron : Turn.cronJobId ⟨message, .looked generation⟩ = some id) :
    OwnContexts config ((state.setStage n message .executing).setContext
      (targetAgentOf config message) (some ⟨id, generation⟩)) := by
  have seated : Seated config (state.setStage n message .executing) :=
    own.toSeated.setStage here (fun _ => .inl rfl) nofun
  refine { seated with reached := ?_, owned := ?_ }
  · intro turn mem executing creation created names
    obtain ⟨m, found⟩ := List.getElem?_of_mem mem
    rcases getElem?_setStage found with ⟨rfl, rfl⟩ | ⟨other, old⟩
    · refine ⟨⟨id, generation⟩, ?_, ?_⟩
      · exact if_pos rfl
      · exact own.read _ (List.mem_of_getElem? here) generation rfl creation created names
    · obtain ⟨context, contextMem, least⟩ :=
        own.reached turn (List.mem_of_getElem? old) executing creation created names
      refine ⟨context, ?_, least⟩
      refine (if_neg ?_).trans contextMem
      intro same
      exact other <| own.toSeated.eq_of_targetAgentOf old here (by rw [executing]; rfl) rfl
        (by rw [names]; rfl) (by rw [isCron]; rfl) same
  · intro agentId isSome
    by_cases same : agentId = targetAgentOf config message
    · refine ⟨n, ⟨message, .executing⟩, ?_, rfl, ?_, same.symm⟩
      · exact List.getElem?_set_self (List.getElem?_eq_some_iff.mp here).1
      · exact Option.isSome_iff_exists.mpr ⟨id, isCron⟩
    · have there : (state.contexts agentId).isSome = true := by
        rw [← isSome]
        exact congrArg Option.isSome (if_neg same).symm
      obtain ⟨m, turn, found, executing, cron, agentEq⟩ := own.owned agentId there
      refine ⟨m, turn, ?_, executing, cron, agentEq⟩
      refine (List.getElem?_set_ne ?_).trans found
      rintro rfl
      rw [here] at found
      cases found
      cases executing

/-- A turn that ends removes the context of its agent alone. -/
theorem OwnContexts.leave (own : OwnContexts config state) {turn : Turn}
    (here : state.turns[n]? = some turn) (active : turn.stage.isActive = true) :
    OwnContexts config (state.leave config n turn) := by
  obtain ⟨message, before⟩ := turn
  have holds : before.holdsPermit = true := by
    cases before with
    | waiting | closing | ended => cases active
    | entered | looked generation | executing => rfl
  have seated : Seated config (state.setStage n message .closing) :=
    own.toSeated.setStage here (fun _ => .inl holds) nofun
  unfold State.leave
  dsimp only
  split
  · next id isCron =>
    refine { seated with reached := ?_, owned := ?_ }
    · intro turn mem executing creation created names
      obtain ⟨m, found⟩ := List.getElem?_of_mem mem
      rcases getElem?_setStage found with ⟨rfl, rfl⟩ | ⟨other, old⟩
      · cases executing
      · obtain ⟨context, contextMem, least⟩ :=
          own.reached turn (List.mem_of_getElem? old) executing creation created names
        refine ⟨context, ?_, least⟩
        refine (if_neg ?_).trans contextMem
        intro same
        exact other <| own.toSeated.eq_of_targetAgentOf old here (by rw [executing]; rfl) holds
          (by rw [names]; rfl) (by rw [isCron]; rfl) same
    · intro agentId isSome
      have different : agentId ≠ targetAgentOf config message := by
        rintro rfl
        rw [show ((state.setStage n message .closing).setContext
            (targetAgentOf config message) none).contexts (targetAgentOf config message) = none
          from if_pos rfl] at isSome
        cases isSome
      have there : (state.contexts agentId).isSome = true := by
        rw [← isSome]
        exact congrArg Option.isSome (if_neg different).symm
      obtain ⟨m, turn, found, executing, cron, agentEq⟩ := own.owned agentId there
      refine ⟨m, turn, ?_, executing, cron, agentEq⟩
      refine (List.getElem?_set_ne ?_).trans found
      rintro rfl
      rw [here] at found
      cases found
      exact different agentEq.symm
  · next notCron => exact own.setStage here seated (.inr notCron) (.inl nofun)

/-! ## The table -/

theorem OwnContexts.dispatch (own : OwnContexts config state)
    (regular : Regular state (.dispatch message)) :
    OwnContexts config { state with turns := state.turns ++ [⟨message, .waiting⟩] } := by
  have old : ∀ (m : Nat) (turn : Turn), (state.turns ++ [⟨message, .waiting⟩])[m]? = some turn →
      turn.stage ≠ .waiting → state.turns[m]? = some turn := by
    intro m turn found moving
    rw [List.getElem?_append] at found
    split at found
    · exact found
    · obtain rfl := List.mem_singleton.mp (List.mem_of_getElem? found)
      exact absurd rfl moving
  have moving : ∀ {stage : Stage}, stage.holdsPermit = true → stage ≠ .waiting := by
    rintro stage holds rfl
    cases holds
  constructor
  · refine { own.toSeated with scheduled := ?_, exclusive := ?_, read := ?_ }
    · intro turn mem id isCron
      rcases List.mem_append.mp mem with earlier | this
      · exact own.scheduled turn earlier id isCron
      · cases List.mem_singleton.mp this
        rcases regular with plain | ⟨job, jobMem, messageId, rfl⟩
        · exact absurd (plain.symm.trans isCron) nofun
        · have named : Turn.cronJobId ⟨scheduledMessage job messageId, .waiting⟩ = some job.id :=
            rfl
          obtain rfl : job.id = id := Option.some.inj (named.symm.trans isCron)
          obtain ⟨creation, created, idEq, -⟩ := own.rows job jobMem
          refine ⟨?_, creation, created, idEq⟩
          by_cases byUser : job.sourceType = "user"
          · simp [turnAgent, targetAgentOf, scheduledMessage, byUser]
          · simp [turnAgent, targetAgentOf, scheduledMessage, byUser]
    · intro m k first second firstFound secondFound firstHolds secondHolds same
      exact own.exclusive m k first second (old m first firstFound (moving firstHolds))
        (old k second secondFound (moving secondHolds)) firstHolds secondHolds same
    · intro turn mem generation looked creation created isCron
      rcases List.mem_append.mp mem with earlier | this
      · exact own.read turn earlier generation looked creation created isCron
      · cases List.mem_singleton.mp this
        cases looked
  · intro turn mem executing creation created isCron
    rcases List.mem_append.mp mem with earlier | this
    · exact own.reached turn earlier executing creation created isCron
    · cases List.mem_singleton.mp this
      cases executing
  · intro agentId isSome
    obtain ⟨m, turn, found, rest⟩ := own.owned agentId isSome
    refine ⟨m, turn, ?_, rest⟩
    exact (List.getElem?_append_left (List.getElem?_eq_some_iff.mp found).1).trans found

/-- A job is created under an id that no turn names. -/
theorem OwnContexts.store (own : OwnContexts config state) (parent : Option Creation)
    {row : CronJobRow} (fresh : ∀ creation ∈ state.created, creation.id ≠ row.id) :
    OwnContexts config (state.store parent row) := by
  have unnamed : ∀ turn ∈ state.turns, turn.cronJobId ≠ some row.id := by
    intro turn mem names
    obtain ⟨-, creation, created, idEq⟩ := own.scheduled turn mem row.id names
    exact fresh creation created idEq
  have either : ∀ {creation}, creation ∈ (state.store parent row).created →
      creation ∈ state.created ∨ creation = state.creation parent row := by
    intro creation mem
    rcases List.mem_append.mp mem with earlier | this
    · exact .inl earlier
    · exact .inr (List.mem_singleton.mp this)
  constructor
  · refine ⟨?_, own.exclusive, ?_, ?_, ?_⟩
    · intro turn mem id isCron
      obtain ⟨addressed, creation, created, idEq⟩ := own.scheduled turn mem id isCron
      exact ⟨addressed, creation, List.mem_append_left _ created, idEq⟩
    · intro turn mem generation looked creation created names
      rcases either created with earlier | rfl
      · exact own.read turn mem generation looked creation earlier names
      · exact absurd names (unnamed turn mem)
    · intro job mem
      rcases List.mem_append.mp mem with earlier | this
      · obtain ⟨creation, created, same⟩ := own.rows job earlier
        exact ⟨creation, List.mem_append_left _ created, same⟩
      · cases List.mem_singleton.mp this
        exact ⟨state.creation parent row, List.mem_append_right _ List.mem_cons_self, rfl, rfl⟩
    · intro first firstMem second secondMem same
      rcases either firstMem with firstOld | rfl
      · rcases either secondMem with secondOld | rfl
        · exact own.distinct first firstOld second secondOld same
        · exact absurd same (fresh first firstOld)
      · rcases either secondMem with secondOld | rfl
        · exact absurd same.symm (fresh second secondOld)
        · rfl
  · intro turn mem executing creation created names
    rcases either created with earlier | rfl
    · exact own.reached turn mem executing creation earlier names
    · exact absurd names (unnamed turn mem)
  · exact own.owned

/-- What a turn reads of its job is the generation that the job was created with. -/
theorem Seated.le_generationOf (seated : Seated config state) {id : String}
    (stored : (state.jobs.find? fun job => job.id == id).isSome = true) {creation : Creation}
    (created : creation ∈ state.created) (named : id = creation.id) :
    creation.generation ≤ state.generationOf id true := by
  obtain ⟨job, found⟩ := Option.isSome_iff_exists.mp stored
  obtain ⟨original, originalMem, idEq, generationEq⟩ :=
    seated.rows job (List.mem_of_find?_eq_some found)
  have jobId : job.id = id := by simpa using List.find?_some found
  obtain rfl : original = creation :=
    seated.distinct original originalMem creation created (idEq.trans (jobId.trans named))
  have read : state.generationOf id true = job.cronGeneration := by
    simp [State.generationOf, Table.getCronJobGeneration, found]
  exact Int.le_of_eq (generationEq.trans read.symm)

/-! ## Every run -/

theorem OwnContexts.step (own : OwnContexts config state) (regular : Regular state label)
    (stepEq : step config state label = some next) : OwnContexts config next := by
  cases label with
  | dispatch message =>
      simp only [Generations.step] at stepEq
      split at stepEq
      · cases stepEq
        exact own.dispatch regular
      · cases stepEq
  | acquire n =>
      simp only [Generations.step] at stepEq
      split at stepEq
      · next message here =>
        split at stepEq
        · cases stepEq
        · next free =>
          cases stepEq
          have seated : Seated config (state.setStage n message .entered) :=
            own.toSeated.setStage here (fun _ => .inr (by simpa using free)) (by simp)
          exact own.setStage here seated (.inl (by simp)) (.inl (by simp))
      · cases stepEq
  | look n readable =>
      simp only [Generations.step] at stepEq
      split at stepEq
      · next message here =>
        rcases Option.map_eq_some_iff.mp stepEq with ⟨id, isCron, rfl⟩
        obtain ⟨rfl, stored⟩ := regular
        have seated : Seated config
            (state.setStage n message (.looked (state.generationOf id true))) := by
          apply own.toSeated.setStage here (fun _ => .inl rfl)
          rintro generation ⟨⟩ creation created names
          exact own.toSeated.le_generationOf (stored _ here id isCron) created
            (Option.some.inj (isCron.symm.trans names))
        exact own.setStage here seated (.inl (by simp)) (.inl (by simp))
      · cases stepEq
  | start n =>
      simp only [Generations.step] at stepEq
      split at stepEq
      · next message here =>
        split at stepEq
        · cases stepEq
        · next notCron =>
          cases stepEq
          have seated : Seated config (state.setStage n message .executing) :=
            own.toSeated.setStage here (fun _ => .inl rfl) (by simp)
          exact own.setStage here seated (.inl (by simp)) (.inr notCron)
      · next message generation here =>
        rcases Option.map_eq_some_iff.mp stepEq with ⟨id, isCron, rfl⟩
        exact own.start here isCron
      · cases stepEq
  | finish n =>
      simp only [Generations.step] at stepEq
      split at stepEq
      · next turn here =>
        split at stepEq
        · next active =>
          cases stepEq
          exact own.leave here active
        · cases stepEq
      · cases stepEq
  | release n =>
      simp only [Generations.step] at stepEq
      split at stepEq
      · next message here =>
        cases stepEq
        have seated : Seated config (state.setStage n message .ended) :=
          own.toSeated.setStage here (by simp [Stage.holdsPermit]) (by simp)
        exact own.setStage here seated (.inl (by simp)) (.inl (by simp))
      · cases stepEq
  | create creator known job now clock =>
      simp only [Generations.step] at stepEq
      split at stepEq
      · next fresh =>
        split at stepEq
        · next row accepted =>
          cases stepEq
          obtain ⟨-, due, generation, -, -, -, rfl⟩ := createCronJob_eq_ok_iff.mp accepted
          exact own.store _ fresh.2
        · cases stepEq
          exact own
      · cases stepEq
  | delete id =>
      cases stepEq
      refine { own with rows := ?_ }
      intro job mem
      exact own.rows job (List.mem_filter.mp mem).1
  | setLimit value =>
      simp only [Generations.step] at stepEq
      split at stepEq
      · cases stepEq
        exact own
      · cases stepEq
        exact { own with }
  | restart setting =>
      cases stepEq
      constructor
      · exact ⟨by simp, by simp, by simp, own.rows, own.distinct⟩
      · simp
      · simp

theorem OwnContexts.of_run {setting : Option UInt8} {labels : List Label}
    (regular : Along (Generations.step config) Regular (.init setting) labels)
    (ran : run (Generations.step config) (.init setting) labels = some state) :
    OwnContexts config state := by
  apply run_invariant_along (OwnContexts config) _ (ownContexts_init config setting) regular ran
  intro state label next own meets stepEq
  exact own.step meets stepEq

/-- In a regular run a turn that creates a job for the agent it is a turn of finds the
context that its own start has set, or none where it executes no job. -/
theorem contextFits_of_own {setting : Option UInt8} {labels : List Label}
    (regular : Along (step config) Regular (.init setting) labels)
    (ran : run (step config) (.init setting) labels = some state) {turn : Turn}
    (here : state.turns[n]? = some turn) (executing : turn.stage = .executing)
    {job : CronJobRow} (ownJob : turnAgent turn.message = some job.agentId) (known : Bool)
    (now : Instant) (clock : Int) :
    ContextFits config state (.create (some n) known job now clock) := by
  have own : OwnContexts config state := .of_run regular ran
  have holds : turn.stage.holdsPermit = true := by
    rw [executing]
    rfl
  have parentEq : state.parent (some n) = state.executed turn := by
    simp [State.parent, here]
  intro _ _ _
  right
  rw [parentEq]
  constructor
  · intro parent mem
    obtain ⟨id, isCron, found⟩ := Option.bind_eq_some_iff.mp mem
    have parentId : parent.id = id := by simpa using List.find?_some found
    have addressed := (own.scheduled turn (List.mem_of_getElem? here) id isCron).1
    rw [Option.some.inj (ownJob.symm.trans addressed)]
    exact own.reached turn (List.mem_of_getElem? here) executing parent
      (List.mem_of_find?_eq_some found) (by rw [isCron, parentId])
  · intro noParent
    rw [Option.isNone_iff_eq_none, ← Option.not_isSome_iff_eq_none]
    intro isSome
    -- A context under the agent's id is that of a turn with the agent's permit, so of this one.
    obtain ⟨m, other, found, otherExecuting, isCron, agentEq⟩ := own.owned job.agentId isSome
    obtain ⟨id, otherCron⟩ := Option.isSome_iff_exists.mp isCron
    have otherMem := List.mem_of_getElem? found
    obtain ⟨addressed, creation, created, idEq⟩ := own.scheduled other otherMem id otherCron
    rw [agentEq] at addressed
    obtain rfl : n = m := own.exclusive n m turn other here found holds
      (by rw [otherExecuting]; rfl) (ownJob.trans addressed.symm)
    obtain rfl : turn = other := Option.some.inj (here.symm.trans found)
    rw [State.executed, otherCron, Option.bind_some, Option.isNone_iff_eq_none,
      List.find?_eq_none] at noParent
    exact noParent creation created (by simpa using idEq)

end ClotoCore.Cron.Generations
