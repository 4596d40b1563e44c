import ClotoCore.Encoding.Text
import ClotoCore.Transition.Run
import ClotoCore.Turns.Sessions
import Mathlib.Data.List.Perm.Basic
import Mathlib.Data.List.Nodup

/-!
# Consensus

A consensus turn asks every engine of an agent the same question at once and takes
their answers in whatever order they come.  Where too few engines answer, the ones
that did are asked again, one call at a time, each through another framing, for a
bounded number of attempts.  Once there are enough proposals, one engine merges them,
and whatever happens on the way the turn ends with one answer to the agent's chat.

The state holds the stage of the turn and the log of what it did: the progress it
reported, the calls it made, the answer it delivered.  How a single call runs is the
agentic loop's own affair, so a call here only ends, with an outcome.  A user who stops
the turn drops it where it waits: such a turn is a run that goes no further, and nothing
is answered.
-/

namespace ClotoCore.Turns

open ClotoCore.Transition ClotoCore.Encoding

namespace Consensus

open Sessions (SessionKey)

universe u

variable {μ : Type u}

/-- `ConsensusConfig`, without the length of the timeout.  The boot raises the number
of proposals to two. -/
structure ConsensusConfig where
  synthesizerEngine : String
  minProposals : Nat
  syntheticAgentId : String
  engineReuse : Bool
  atLeastTwo : 2 ≤ minProposals

/-- What a turn is about: the agent, the message with its context, the servers granted
to the agent, and the trace. -/
structure Request (μ : Type u) where
  agentId : String
  agentName : String
  messageId : String
  content : String
  context : List μ
  grantedServerIds : List String
  traceId : String

/-! ## Engines -/

/-- What the classification of an engine reads: the engine plugins, and the servers
that expose a tool to think with. -/
structure Registry where
  engines : List String
  thinking : List String

/-- The name of a legacy engine grant. -/
def legacyPrefix : List Char :=
  "mind.".toList

/-- `is_engine_server` -/
def isEngineServer (registry : Registry) (id : String) : Bool :=
  legacyPrefix.isPrefixOf id.toList || registry.engines.contains id ||
    registry.thinking.contains id

/-- `agent_engine_servers` -/
def agentEngineServers (registry : Registry) (grantedServerIds : List String) : List String :=
  grantedServerIds.filter (isEngineServer registry)

/-- The name of an engine modulo the legacy prefix. -/
def norm (id : String) : String :=
  if legacyPrefix.isPrefixOf id.toList then
    String.ofList (id.toList.drop legacyPrefix.length)
  else id

/-- `filter_consensus_engines` -/
def filterConsensusEngines (agentEngines allowed : List String) : List String :=
  if allowed.isEmpty then agentEngines
  else agentEngines.filter fun id => (allowed.map norm).contains (norm id)

/-- The engines of a turn. -/
def enginesOf (registry : Registry) (consensusEngines : List String) (request : Request μ) :
    List String :=
  filterConsensusEngines (agentEngineServers registry request.grantedServerIds) consensusEngines

theorem mem_of_mem_enginesOf {registry : Registry} {consensusEngines : List String}
    {request : Request μ} {engine : String}
    (mem : engine ∈ enginesOf registry consensusEngines request) :
    engine ∈ request.grantedServerIds ∧ isEngineServer registry engine = true := by
  have assigned : engine ∈ agentEngineServers registry request.grantedServerIds := by
    unfold enginesOf filterConsensusEngines at mem
    split at mem
    · exact mem
    · exact (List.mem_filter.mp mem).1
  exact List.mem_filter.mp assigned

/-! ## Texts -/

/-- `REUSE_FRAMINGS` -/
def reuseFramings : List String :=
  ["Reason from first principles, then answer:",
    "Carefully weigh edge cases and caveats, then answer:",
    "Consider alternative viewpoints, then answer:",
    "Be precise and direct, then answer:"]

/-- `framed_prompt` -/
def framedPrompt (content : String) (sampleIndex : Nat) : String :=
  if sampleIndex ≤ 1 then content
  else
    let lens := reuseFramings.getD ((sampleIndex - 2) % reuseFramings.length) ""
    s!"{lens}\n\n{content}"

/-- `combine_views` -/
def combineViews (proposals : List String) : String :=
  "\n\n".intercalate <| proposals.mapIdx fun place proposal =>
    s!"## Opinion {place + 1}:\n{proposal}"

/-- `synthesis_prompt` -/
def synthesisPrompt (combinedViews : String) : String :=
  s!"You are a wise moderator. Synthesize the following opinions into a single, coherent conclusion.\n\n{combinedViews}"

/-! ## Outcomes -/

/-- An error of an engine: a typed one of the protocol, or any other by its text. -/
inductive EngineError where
  | mgp (code : Int) (message : String) (retryable : Option Bool)
  | other (text : String)
  deriving DecidableEq

/-- What the error prints as. -/
def EngineError.text : EngineError → String
  | .mgp code message _ => s!"MGP-{code}: {message}"
  | .other text => text

/-- `classify_engine_error` -/
def classifyEngineError : EngineError → Option Int × Option Bool × String
  | .mgp code message retryable => (some code, retryable, s!"MGP-{code}: {message}")
  | .other text => (none, none, text)

/-- How a call ends. -/
inductive Outcome where
  | answered (text : String)
  | failed (error : EngineError)
  | timedOut
  deriving DecidableEq

/-- `MGP_ERR_TIMEOUT` -/
def mgpErrTimeout : Int := 3003

/-! ## Effects -/

/-- The two phases of a consensus. -/
inductive Phase where
  | proposal
  | synthesis
  deriving DecidableEq

/-- How far a call has come. -/
inductive Status where
  | pending
  | success
  | error
  deriving DecidableEq

/-- `ConsensusProgress` -/
structure Progress where
  consensusId : String
  agentId : String
  agentName : String
  prompt : String
  phase : Phase
  engineId : String
  sampleIndex : Nat
  response : Option String
  status : Status
  mgpErrorCode : Option Int
  retryable : Option Bool
  deriving DecidableEq

/-- What is asked of `run_agentic_loop`. -/
structure Call (μ : Type u) where
  agentId : String
  engineId : String
  content : String
  context : List μ
  grantedServerIds : List String
  session : SessionKey

/-- `ThoughtResponse` -/
structure ThoughtResponse where
  agentId : String
  engineId : String
  content : String
  sourceMessageId : String
  deriving DecidableEq

/-- What a consensus does that others see. -/
inductive Effect (μ : Type u) where
  | progress (report : Progress)
  | call (call : Call μ)
  | deliver (response : ThoughtResponse)

/-- The call that a report is about. -/
structure Asked where
  phase : Phase
  engineId : String
  sampleIndex : Nat
  deriving DecidableEq

/-- The call that a report is about. -/
def Progress.asked (report : Progress) : Asked :=
  ⟨report.phase, report.engineId, report.sampleIndex⟩

/-- The report made before a call. -/
def pendingReport (request : Request μ) (asked : Asked) : Progress where
  consensusId := request.traceId
  agentId := request.agentId
  agentName := request.agentName
  prompt := request.content
  phase := asked.phase
  engineId := asked.engineId
  sampleIndex := asked.sampleIndex
  response := none
  status := .pending
  mgpErrorCode := none
  retryable := none

/-- What is reported of a call that ran out of time. -/
def timeoutText : Phase → String
  | .proposal => "Engine timed out"
  | .synthesis => "Synthesis timed out"

/-- The report made once a call has ended. -/
def endReport (request : Request μ) (asked : Asked) (outcome : Outcome) : Progress :=
  let pending := pendingReport request asked
  match outcome with
  | .answered text => { pending with response := some text, status := .success }
  | .failed error =>
      let (code, retryable, message) := classifyEngineError error
      { pending with
        response := some message, status := .error, mgpErrorCode := code, retryable := retryable }
  | .timedOut =>
      { pending with
        response := some (timeoutText asked.phase), status := .error
        mgpErrorCode := some mgpErrTimeout, retryable := some true }

/-- A call, with the report made before it. -/
def announce (request : Request μ) (asked : Asked) (call : Call μ) : List (Effect μ) :=
  [.progress (pendingReport request asked), .call call]

/-- The call of an engine for its first proposal. -/
def proposalCall (request : Request μ) (engine : String) : Call μ where
  agentId := request.agentId
  engineId := engine
  content := request.content
  context := request.context
  grantedServerIds := request.grantedServerIds
  session := ⟨request.agentId, "consensus:" ++ request.traceId ++ ":" ++ engine⟩

/-- The call of a working engine for a further sample. -/
def reuseCall (request : Request μ) (engine : String) (sample : Nat) : Call μ where
  agentId := request.agentId
  engineId := engine
  content := framedPrompt request.content sample
  context := request.context
  grantedServerIds := request.grantedServerIds
  session :=
    ⟨request.agentId,
      "consensus:" ++ request.traceId ++ ":" ++ engine ++ "#" ++ toString sample⟩

/-- The call that merges the proposals: no tools, no context. -/
def synthesisCall (config : ConsensusConfig) (request : Request μ) (synthesizer : String)
    (combined : String) : Call μ where
  agentId := "agent.synthesizer"
  engineId := synthesizer
  content := synthesisPrompt combined
  context := []
  grantedServerIds := []
  session := ⟨config.syntheticAgentId, "consensus-synth:" ++ request.traceId⟩

/-! ## The turn -/

/-- The re-sampling of the engines that answered. -/
structure Reuse where
  proposals : List String
  successEngines : List String
  sampleCounts : String → Nat
  attempts : Nat
  rr : Nat
  working : successEngines ≠ []

/-- The engine asked next. -/
def Reuse.engine (reuse : Reuse) : String :=
  reuse.successEngines.get ⟨reuse.rr % reuse.successEngines.length,
    Nat.mod_lt _ (List.length_pos_iff.mpr reuse.working)⟩

/-- The sample asked of it. -/
def Reuse.sample (reuse : Reuse) : Nat :=
  reuse.sampleCounts reuse.engine + 1

/-- The counters after it is asked. -/
def Reuse.next (reuse : Reuse) : Reuse :=
  { reuse with
    sampleCounts := fun engine =>
      if engine = reuse.engine then reuse.sample else reuse.sampleCounts engine
    attempts := reuse.attempts + 1
    rr := reuse.rr + 1 }

/-- Where a consensus is. -/
inductive Stage where
  | collecting (slots : List (String × Option Outcome))
  | resampling (reuse : Reuse) (engine : String) (sample : Nat)
  | synthesizing (synthesizer combined : String)
  | delivered

/-- Where a consensus is, and what it did. -/
structure State (μ : Type u) where
  stage : Stage
  log : List (Effect μ)

/-- A call ends: one of the first calls, at its place among the engines, or the only
call there is. -/
inductive Label where
  | finish (place : Nat) (outcome : Outcome)
  | answer (outcome : Outcome)

/-- `deliver_consensus_result`, as far as the response it emits -/
def deliver (request : Request μ) (content : String) (log : List (Effect μ)) : State μ where
  stage := .delivered
  log := log ++ [.deliver ⟨request.agentId, "consensus", content, request.messageId⟩]

/-- The engine that merges: the configured one, else the first that answered, else the
first there is. -/
def synthesizerEngine (config : ConsensusConfig) (engines successEngines : List String) :
    String :=
  if config.synthesizerEngine ≠ "" then config.synthesizerEngine
  else
    match successEngines with
    | first :: _ => first
    | [] => engines.headD ""

/-- The proposals go to the synthesizer. -/
def synthesize (config : ConsensusConfig) (request : Request μ) (synthesizer : String)
    (proposals : List String) (log : List (Effect μ)) : State μ where
  stage := .synthesizing synthesizer (combineViews proposals)
  log := log ++
    announce request ⟨.synthesis, synthesizer, 1⟩
      (synthesisCall config request synthesizer (combineViews proposals))

/-- What follows once no more proposals are asked for. -/
def conclude (config : ConsensusConfig) (engines : List String) (request : Request μ)
    (successEngines proposals : List String) (log : List (Effect μ)) : State μ :=
  if proposals.length < config.minProposals then
    deliver request
      s!"[Consensus failed] Consensus collected only {proposals.length}/{config.minProposals} proposals (engines errored or timed out)."
      log
  else
    synthesize config request (synthesizerEngine config engines successEngines) proposals log

/-- The head of the loop that asks working engines again. -/
def resample (config : ConsensusConfig) (engines : List String) (request : Request μ)
    (reuse : Reuse) (log : List (Effect μ)) : State μ :=
  if reuse.proposals.length < config.minProposals ∧ reuse.attempts < config.minProposals * 3 then
    { stage := .resampling reuse.next reuse.engine reuse.sample
      log := log ++
        announce request ⟨.proposal, reuse.engine, reuse.sample⟩
          (reuseCall request reuse.engine reuse.sample) }
  else
    conclude config engines request reuse.successEngines reuse.proposals log

/-- The engines that answered, with their proposals, in the order of the engines. -/
def collected (slots : List (String × Option Outcome)) : List (String × String) :=
  slots.filterMap fun slot =>
    match slot.2 with
    | some (.answered text) => some (slot.1, text)
    | _ => none

/-- What follows once every first call has ended. -/
def settle (config : ConsensusConfig) (engines : List String) (request : Request μ)
    (slots : List (String × Option Outcome)) (log : List (Effect μ)) : State μ :=
  let successEngines := (collected slots).map Prod.fst
  let proposals := (collected slots).map Prod.snd
  if working :
      config.engineReuse = true ∧ proposals.length < config.minProposals ∧ successEngines ≠ [] then
    resample config engines request
      { proposals, successEngines, sampleCounts := fun _ => 1, attempts := 0, rr := 0
        working := working.2.2 } log
  else
    conclude config engines request successEngines proposals log

/-- Every engine is announced, and then every engine is called. -/
def firstEffects (engines : List String) (request : Request μ) : List (Effect μ) :=
  engines.map (fun engine => .progress (pendingReport request ⟨.proposal, engine, 1⟩)) ++
    engines.map fun engine => .call (proposalCall request engine)

/-- `run_consensus`, up to the first calls -/
def start (config : ConsensusConfig) (engines : List String) (request : Request μ) : State μ :=
  if engines.length < config.minProposals then
    deliver request
      s!"[Consensus unavailable] Consensus needs at least {config.minProposals} engines assigned to this agent but only {engines.length} is/are available (grant more engine servers, or widen the CONSENSUS_ENGINES filter)."
      []
  else
    { stage := .collecting (engines.map fun engine => (engine, none))
      log := firstEffects engines request }

/-- The answer, by how the merging ended. -/
def synthesisContent (combined : String) : Outcome → String
  | .answered text => text
  | .failed error =>
      s!"[Consensus synthesis failed: {error.text}. Individual proposals below.]\n\n{combined}"
  | .timedOut =>
      s!"[Consensus synthesis timed out. Individual proposals below.]\n\n{combined}"

/-- The proposals with what a further sample adds. -/
def Reuse.receive (reuse : Reuse) : Outcome → Reuse
  | .answered text => { reuse with proposals := reuse.proposals ++ [text] }
  | _ => reuse

/-- `run_consensus`, from the end of one call to the next -/
def step (config : ConsensusConfig) (engines : List String) (request : Request μ) :
    Action (State μ) Label
  | ⟨.collecting slots, log⟩, .finish place outcome =>
      match slots[place]? with
      | some (engine, none) =>
          let slots := slots.set place (engine, some outcome)
          let log := log ++ [.progress (endReport request ⟨.proposal, engine, 1⟩ outcome)]
          if slots.all fun slot => slot.2.isSome then some (settle config engines request slots log)
          else some ⟨.collecting slots, log⟩
      | _ => none
  | ⟨.resampling reuse engine sample, log⟩, .answer outcome =>
      let log := log ++ [.progress (endReport request ⟨.proposal, engine, sample⟩ outcome)]
      some (resample config engines request (reuse.receive outcome) log)
  | ⟨.synthesizing synthesizer combined, log⟩, .answer outcome =>
      let log := log ++ [.progress (endReport request ⟨.synthesis, synthesizer, 1⟩ outcome)]
      some (deliver request (synthesisContent combined outcome) log)
  | _, _ => none

/-! ## Reading the log -/

/-- The calls announced, in order. -/
def opened (log : List (Effect μ)) : List Asked :=
  log.filterMap fun
    | .progress report => if report.status = .pending then some report.asked else none
    | _ => none

/-- The calls reported to have ended, in order. -/
def closed (log : List (Effect μ)) : List Asked :=
  log.filterMap fun
    | .progress report => if report.status = .pending then none else some report.asked
    | _ => none

/-- The calls made, in order. -/
def calls (log : List (Effect μ)) : List (Call μ) :=
  log.filterMap fun
    | .call call => some call
    | _ => none

/-- The answers delivered, in order. -/
def answers (log : List (Effect μ)) : List ThoughtResponse :=
  log.filterMap fun
    | .deliver response => some response
    | _ => none

/-- The proposals reported, in order. -/
def reportedProposals (log : List (Effect μ)) : List String :=
  log.filterMap fun
    | .progress report =>
        if report.phase = .proposal ∧ report.status = .success then report.response else none
    | _ => none

@[simp]
theorem opened_append (first second : List (Effect μ)) :
    opened (first ++ second) = opened first ++ opened second :=
  List.filterMap_append

@[simp]
theorem closed_append (first second : List (Effect μ)) :
    closed (first ++ second) = closed first ++ closed second :=
  List.filterMap_append

@[simp]
theorem calls_append (first second : List (Effect μ)) :
    calls (first ++ second) = calls first ++ calls second :=
  List.filterMap_append

@[simp]
theorem answers_append (first second : List (Effect μ)) :
    answers (first ++ second) = answers first ++ answers second :=
  List.filterMap_append

@[simp]
theorem reportedProposals_append (first second : List (Effect μ)) :
    reportedProposals (first ++ second) = reportedProposals first ++ reportedProposals second :=
  List.filterMap_append

/-- The calls of a stage that have not ended. -/
def Stage.inFlight : Stage → List Asked
  | .collecting slots =>
      (slots.filter fun slot => slot.2.isNone).map fun slot => ⟨.proposal, slot.1, 1⟩
  | .resampling _ engine sample => [⟨.proposal, engine, sample⟩]
  | .synthesizing synthesizer _ => [⟨.synthesis, synthesizer, 1⟩]
  | .delivered => []

/-- The proposal an outcome brings. -/
def Outcome.proposal : Outcome → List String
  | .answered text => [text]
  | _ => []

section Reports

variable (request : Request μ) (asked : Asked) (call : Call μ) (outcome : Outcome)
  (log : List (Effect μ))

theorem opened_announce : opened (announce request asked call) = [asked] :=
  rfl

theorem closed_announce : closed (announce request asked call) = [] :=
  rfl

theorem calls_announce : calls (announce request asked call) = [call] :=
  rfl

theorem answers_announce : answers (announce request asked call) = [] :=
  rfl

theorem reportedProposals_announce : reportedProposals (announce request asked call) = [] := by
  simp [announce, reportedProposals, pendingReport]

theorem opened_report :
    opened (log ++ [.progress (endReport request asked outcome)]) = opened log := by
  rw [opened_append]
  cases outcome <;> exact List.append_nil _

theorem closed_report :
    closed (log ++ [.progress (endReport request asked outcome)]) = closed log ++ [asked] := by
  rw [closed_append]
  cases outcome <;> rfl

theorem calls_report :
    calls (log ++ [.progress (endReport request asked outcome)]) = calls log := by
  rw [calls_append]
  exact List.append_nil _

theorem answers_report :
    answers (log ++ [.progress (endReport request asked outcome)]) = answers log := by
  rw [answers_append]
  exact List.append_nil _

theorem reportedProposals_report (phase : asked.phase = .proposal) :
    reportedProposals (log ++ [.progress (endReport request asked outcome)]) =
      reportedProposals log ++ outcome.proposal := by
  rw [reportedProposals_append]
  cases outcome <;>
    simp [reportedProposals, endReport, pendingReport, Outcome.proposal, phase]

theorem reportedProposals_report_synthesis (phase : asked.phase = .synthesis) :
    reportedProposals (log ++ [.progress (endReport request asked outcome)]) =
      reportedProposals log := by
  rw [reportedProposals_append]
  cases outcome <;> simp [reportedProposals, endReport, pendingReport, phase]

theorem opened_deliver (content : String) :
    opened (deliver request content log).log = opened log := by
  rw [deliver, opened_append]
  exact List.append_nil _

theorem closed_deliver (content : String) :
    closed (deliver request content log).log = closed log := by
  rw [deliver, closed_append]
  exact List.append_nil _

theorem calls_deliver (content : String) :
    calls (deliver request content log).log = calls log := by
  rw [deliver, calls_append]
  exact List.append_nil _

theorem reportedProposals_deliver (content : String) :
    reportedProposals (deliver request content log).log = reportedProposals log := by
  rw [deliver, reportedProposals_append]
  exact List.append_nil _

end Reports

/-! ## What a turn gathers -/

/-- The call for a sample of an engine. -/
def callFor (request : Request μ) (sample : String × Nat) : Call μ :=
  if sample.2 ≤ 1 then proposalCall request sample.1 else reuseCall request sample.1 sample.2

/-- What the log of a turn holds before there is an answer or a merging: every call
ended except those in flight, and every proposal reported taken. -/
structure Gathered (engines : List String) (request : Request μ) (inFlight : List Asked)
    (proposals : List String) (counts : String → Nat) (asked : Nat) (log : List (Effect μ)) :
    Prop where
  unanswered : answers log = []
  proposing : ∀ call ∈ opened log, call.phase = .proposal
  balanced : (opened log).Perm (closed log ++ inFlight)
  taken : (reportedProposals log).Perm proposals
  sampled : ∃ samples : List (String × Nat),
    calls log = samples.map (callFor request) ∧ samples.length = asked ∧
    (engines.Nodup → samples.Nodup) ∧
      ∀ sample ∈ samples, sample.1 ∈ engines ∧ 1 ≤ sample.2 ∧ sample.2 ≤ counts sample.1

section Gathered

variable {engines : List String} {request : Request μ} {inFlight rest : List Asked}
  {proposals : List String} {counts : String → Nat} {asked : Nat} {log : List (Effect μ)}

theorem gathered_nil : Gathered engines request [] [] counts 0 ([] : List (Effect μ)) where
  unanswered := rfl
  proposing := by simp [opened]
  balanced := .refl _
  taken := .refl _
  sampled := ⟨[], rfl, rfl, fun _ => List.nodup_nil, by simp⟩

/-- A first call or a further one ends. -/
theorem Gathered.report (gathered : Gathered engines request inFlight proposals counts asked log)
    {call : Asked} (phase : call.phase = .proposal) (flies : inFlight.Perm (call :: rest))
    (outcome : Outcome) {more : List String} (adds : more.Perm (proposals ++ outcome.proposal)) :
    Gathered engines request rest more counts asked
      (log ++ [.progress (endReport request call outcome)]) where
  unanswered := by
    rw [answers_report]
    exact gathered.unanswered
  proposing := by
    rw [opened_report]
    exact gathered.proposing
  balanced := by
    rw [opened_report, closed_report, List.append_assoc]
    exact gathered.balanced.trans (flies.append_left _)
  taken := by
    rw [reportedProposals_report _ _ _ _ phase]
    exact (gathered.taken.append_right _).trans adds.symm
  sampled := by
    rw [calls_report]
    exact gathered.sampled

/-- A working engine is asked again. -/
theorem Gathered.ask (gathered : Gathered engines request [] proposals counts asked log)
    {engine : String} (mem : engine ∈ engines) (positive : 1 ≤ counts engine)
    {later : String → Nat} (here : later engine = counts engine + 1)
    (elsewhere : ∀ other, counts other ≤ later other) :
    Gathered engines request [⟨.proposal, engine, counts engine + 1⟩] proposals later (asked + 1)
      (log ++ announce request ⟨.proposal, engine, counts engine + 1⟩
        (reuseCall request engine (counts engine + 1))) where
  unanswered := by
    rw [answers_append, answers_announce, gathered.unanswered, List.append_nil]
  proposing := by
    intro call mem
    rw [opened_append, opened_announce, List.mem_append, List.mem_singleton] at mem
    rcases mem with early | rfl
    · exact gathered.proposing call early
    · rfl
  balanced := by
    rw [opened_append, closed_append, opened_announce, closed_announce, List.append_nil]
    have balanced := gathered.balanced
    rw [List.append_nil] at balanced
    exact balanced.append_right _
  taken := by
    rw [reportedProposals_append, reportedProposals_announce, List.append_nil]
    exact gathered.taken
  sampled := by
    obtain ⟨samples, callsEq, count, distinct, known⟩ := gathered.sampled
    refine ⟨samples ++ [(engine, counts engine + 1)], ?_, ?_, ?_, ?_⟩
    · rw [calls_append, calls_announce, callsEq, List.map_append]
      have further : ¬counts engine + 1 ≤ 1 := by omega
      simp only [List.map_cons, List.map_nil, callFor, if_neg further]
    · rw [List.length_append, count]
      rfl
    · intro nodup
      rw [List.nodup_append]
      refine ⟨distinct nodup, List.nodup_singleton _, ?_⟩
      intro sample sampleMem other otherMem same
      have atMost := (known sample sampleMem).2.2
      rw [same, List.mem_singleton.mp otherMem] at atMost
      exact Nat.not_succ_le_self _ atMost
    · intro sample sampleMem
      rw [List.mem_append, List.mem_singleton] at sampleMem
      rcases sampleMem with old | new
      · obtain ⟨there, first, last⟩ := known sample old
        exact ⟨there, first, last.trans (elsewhere _)⟩
      · subst new
        exact ⟨mem, by simp, here.ge⟩

theorem opened_first (engines : List String) (request : Request μ) :
    opened (firstEffects engines request) =
      engines.map fun engine => ⟨.proposal, engine, 1⟩ := by
  simp [firstEffects, opened, pendingReport, Progress.asked]

theorem closed_first (engines : List String) (request : Request μ) :
    closed (firstEffects engines request) = [] := by
  simp [firstEffects, closed, pendingReport]

theorem calls_first (engines : List String) (request : Request μ) :
    calls (firstEffects engines request) = engines.map (proposalCall request) := by
  simp [firstEffects, calls]

theorem answers_first (engines : List String) (request : Request μ) :
    answers (firstEffects engines request) = [] := by
  simp [firstEffects, answers]

theorem reportedProposals_first (engines : List String) (request : Request μ) :
    reportedProposals (firstEffects engines request) = [] := by
  simp [firstEffects, reportedProposals, pendingReport]

/-- The first calls are made. -/
theorem gathered_start (engines : List String) (request : Request μ) :
    Gathered engines request (engines.map fun engine => ⟨.proposal, engine, 1⟩) [] (fun _ => 1)
      engines.length (firstEffects engines request) where
  unanswered := answers_first engines request
  proposing := by
    intro call mem
    rw [opened_first] at mem
    rcases List.mem_map.mp mem with ⟨engine, -, rfl⟩
    rfl
  balanced := by
    rw [opened_first, closed_first]
    exact .refl _
  taken := by
    rw [reportedProposals_first]
  sampled := by
    refine ⟨engines.map fun engine => (engine, 1), ?_, List.length_map _, ?_, ?_⟩
    · rw [calls_first, List.map_map]
      rfl
    · intro nodup
      apply nodup.map
      intro first second same
      exact congrArg Prod.fst same
    · intro sample mem
      rcases List.mem_map.mp mem with ⟨engine, engineMem, rfl⟩
      exact ⟨engineMem, le_rfl, le_rfl⟩

end Gathered

/-! ## The stages -/

/-- A turn that gives up has no way to ask again. -/
def GaveUp (config : ConsensusConfig) (engines : List String) (proposals : List String)
    (asked : Nat) : Prop :=
  proposals.length < config.minProposals ∧
    (config.engineReuse = false ∨ proposals = [] ∨
      asked = engines.length + config.minProposals * 3)

/-- The engine that merges is the configured one or one of the turn's. -/
def MayMerge (config : ConsensusConfig) (engines : List String) (synthesizer : String) : Prop :=
  synthesizer = config.synthesizerEngine ∨ synthesizer ∈ engines

/-- The effects of the merging, up to its end. -/
def merging (config : ConsensusConfig) (request : Request μ) (synthesizer : String)
    (proposals : List String) : List (Effect μ) :=
  announce request ⟨.synthesis, synthesizer, 1⟩
    (synthesisCall config request synthesizer (combineViews proposals))

/-- What holds of every state of a turn. -/
def Sound (config : ConsensusConfig) (engines : List String) (request : Request μ) :
    State μ → Prop
  | ⟨.collecting slots, log⟩ =>
      slots.map Prod.fst = engines ∧ (∃ slot ∈ slots, slot.2 = none) ∧
        Gathered engines request (Stage.collecting slots).inFlight ((collected slots).map Prod.snd)
          (fun _ => 1) engines.length log
  | ⟨.resampling reuse engine sample, log⟩ =>
      config.engineReuse = true ∧ reuse.proposals.length < config.minProposals ∧
      (∀ engine ∈ reuse.successEngines, engine ∈ engines) ∧
      (∀ engine, 1 ≤ reuse.sampleCounts engine) ∧
      1 ≤ reuse.attempts ∧ reuse.attempts ≤ config.minProposals * 3 ∧
        Gathered engines request [⟨.proposal, engine, sample⟩] reuse.proposals reuse.sampleCounts
          (engines.length + reuse.attempts) log
  | ⟨.synthesizing synthesizer combined, log⟩ =>
      ∃ proposals counts asked before, Gathered engines request [] proposals counts asked before ∧
        config.minProposals ≤ proposals.length ∧ MayMerge config engines synthesizer ∧
        combined = combineViews proposals ∧
        log = before ++ merging config request synthesizer proposals
  | ⟨.delivered, log⟩ =>
      ∃ proposals counts asked before, Gathered engines request [] proposals counts asked before ∧
        ((GaveUp config engines proposals asked ∧
            ∃ content, log = (deliver request content before).log) ∨
          config.minProposals ≤ proposals.length ∧ ∃ synthesizer outcome,
            MayMerge config engines synthesizer ∧
            log = (deliver request (synthesisContent (combineViews proposals) outcome)
              (before ++ merging config request synthesizer proposals ++
                [.progress (endReport request ⟨.synthesis, synthesizer, 1⟩ outcome)])).log)

section Stages

variable {config : ConsensusConfig} {engines : List String} {request : Request μ}
  {proposals : List String} {counts : String → Nat} {asked : Nat} {log : List (Effect μ)}

theorem sound_conclude {successEngines : List String}
    (gathered : Gathered engines request [] proposals counts asked log)
    (working : ∀ engine ∈ successEngines, engine ∈ engines) (some : engines ≠ [])
    (reused : proposals.length < config.minProposals → config.engineReuse = false ∨
      proposals = [] ∨ asked = engines.length + config.minProposals * 3) :
    Sound config engines request
      (conclude config engines request successEngines proposals log) := by
  unfold conclude
  split
  case isTrue few =>
    exact ⟨proposals, counts, asked, log, gathered, .inl ⟨⟨few, reused few⟩, _, rfl⟩⟩
  case isFalse enough =>
    refine ⟨proposals, counts, asked, log, gathered, Nat.not_lt.mp enough, ?_, rfl, rfl⟩
    unfold synthesizerEngine
    split
    · exact .inl rfl
    · right
      cases successEngines with
      | nil =>
          cases engines with
          | nil => exact absurd rfl some
          | cons first others => exact List.mem_cons_self
      | cons first others => exact working first List.mem_cons_self

theorem sound_resample {reuse : Reuse} (reuses : config.engineReuse = true)
    (working : ∀ engine ∈ reuse.successEngines, engine ∈ engines)
    (positive : ∀ engine, 1 ≤ reuse.sampleCounts engine)
    (bounded : reuse.attempts ≤ config.minProposals * 3)
    (gathered : Gathered engines request [] reuse.proposals reuse.sampleCounts
      (engines.length + reuse.attempts) log) :
    Sound config engines request (resample config engines request reuse log) := by
  have mem : reuse.engine ∈ engines := working _ (List.get_mem _ _)
  unfold resample
  split
  case isTrue more =>
    refine ⟨reuses, more.1, working, ?_, Nat.le_add_left 1 _, more.2, ?_⟩
    · intro engine
      simp only [Reuse.next]
      split
      · exact Nat.le_add_left 1 _
      · exact positive engine
    · apply gathered.ask mem (positive _)
      · exact if_pos rfl
      · intro other
        simp only [Reuse.next]
        split
        case isTrue same =>
          rw [same]
          exact Nat.le_succ _
        case isFalse => exact le_rfl
  case isFalse done =>
    apply sound_conclude gathered working (List.ne_nil_of_mem mem)
    intro few
    have spent : reuse.attempts = config.minProposals * 3 := by
      apply le_antisymm bounded
      exact Nat.not_lt.mp fun fewer => done ⟨few, fewer⟩
    exact .inr (.inr (by rw [spent]))

theorem fst_mem_of_mem_collected {slots : List (String × Option Outcome)} {entry : String × String}
    (mem : entry ∈ collected slots) : entry.1 ∈ slots.map Prod.fst := by
  obtain ⟨slot, slotMem, found⟩ := List.mem_filterMap.mp mem
  split at found
  · cases found
    exact List.mem_map_of_mem slotMem
  · exact absurd found nofun

theorem sound_settle {slots : List (String × Option Outcome)}
    (slotsEq : slots.map Prod.fst = engines) (some : engines ≠ [])
    (gathered : Gathered engines request [] ((collected slots).map Prod.snd) (fun _ => 1)
      engines.length log) :
    Sound config engines request (settle config engines request slots log) := by
  have working : ∀ engine ∈ (collected slots).map Prod.fst, engine ∈ engines := by
    intro engine mem
    rcases List.mem_map.mp mem with ⟨entry, entryMem, rfl⟩
    rw [← slotsEq]
    exact fst_mem_of_mem_collected entryMem
  simp only [settle]
  split
  case isTrue short =>
    exact sound_resample short.1 working (fun _ => le_rfl) (Nat.zero_le _) gathered
  case isFalse other =>
    apply sound_conclude gathered working some
    intro few
    cases reuses : config.engineReuse with
    | false => exact .inl rfl
    | true =>
        right
        left
        by_contra answered
        apply other
        refine ⟨reuses, few, ?_⟩
        intro none
        exact answered (List.map_eq_nil_iff.mpr (List.map_eq_nil_iff.mp none))

/-- A place of a list, and the list with another item there. -/
theorem exists_split_at {α : Type u} {items : List α} {place : Nat} {item : α}
    (here : items[place]? = some item) (other : α) :
    ∃ front back, items = front ++ item :: back ∧
      items.set place other = front ++ other :: back := by
  obtain ⟨bound, itemEq⟩ := List.getElem?_eq_some_iff.mp here
  refine ⟨items.take place, items.drop (place + 1), ?_, ?_⟩
  · rw [← itemEq, List.getElem_cons_drop, List.take_append_drop]
  · exact List.set_eq_take_append_cons_drop.trans (if_pos bound)

theorem inFlight_collecting_split (front back : List (String × Option Outcome)) (engine : String) :
    (Stage.collecting (front ++ (engine, none) :: back)).inFlight.Perm
      (⟨.proposal, engine, 1⟩ :: (Stage.collecting (front ++ back)).inFlight) := by
  simp only [Stage.inFlight, List.filter_append, List.filter_cons, List.map_append,
    Option.isNone_none, if_true, List.map_cons]
  exact List.perm_middle

theorem inFlight_collecting_skip (front back : List (String × Option Outcome)) (engine : String)
    (outcome : Outcome) :
    (Stage.collecting (front ++ (engine, some outcome) :: back)).inFlight =
      (Stage.collecting (front ++ back)).inFlight := by
  simp [Stage.inFlight]

theorem collected_split (front back : List (String × Option Outcome)) (engine : String)
    (outcome : Outcome) :
    ((collected (front ++ (engine, some outcome) :: back)).map Prod.snd).Perm
      ((collected (front ++ (engine, none) :: back)).map Prod.snd ++ outcome.proposal) := by
  cases outcome with
  | answered text =>
      simp only [collected, List.filterMap_append, List.filterMap_cons, List.map_append,
        Outcome.proposal, List.map_cons, List.append_assoc]
      apply List.Perm.append_left
      exact (List.perm_append_singleton _ _).symm
  | failed | timedOut => simp [collected, Outcome.proposal]

theorem sound_start (config : ConsensusConfig) (engines : List String) (request : Request μ) :
    Sound config engines request (start config engines request) := by
  unfold start
  split
  case isTrue few =>
    refine ⟨[], fun _ => 1, 0, [], gathered_nil, .inl ⟨⟨?_, .inr (.inl rfl)⟩, _, rfl⟩⟩
    exact Nat.lt_of_lt_of_le Nat.zero_lt_two config.atLeastTwo
  case isFalse enough =>
    refine ⟨?_, ?_, ?_⟩
    · simp [Function.comp_def]
    · cases engines with
      | nil =>
          exact absurd (Nat.lt_of_lt_of_le Nat.zero_lt_two config.atLeastTwo) enough
      | cons first others => exact ⟨(first, none), List.mem_cons_self, rfl⟩
    · have waiting : (Stage.collecting (engines.map fun engine => (engine, none))).inFlight =
          engines.map fun engine => ⟨.proposal, engine, 1⟩ := by
        simp [Stage.inFlight, List.filter_map, Function.comp_def]
      have nothing : collected (engines.map fun engine => (engine, none)) = [] := by
        simp [collected]
      rw [waiting, nothing]
      exact gathered_start engines request

/-- What the end of a call does. -/
theorem step_cases {state next : State μ} {label : Label}
    (stepEq : step config engines request state label = some next) :
    (∃ front engine back outcome log, state = ⟨.collecting (front ++ (engine, none) :: back), log⟩ ∧
      (((∀ slot ∈ front ++ back, slot.2 ≠ none) ∧
          next = settle config engines request (front ++ (engine, some outcome) :: back)
            (log ++ [.progress (endReport request ⟨.proposal, engine, 1⟩ outcome)])) ∨
        (∃ slot ∈ front ++ back, slot.2 = none) ∧
          next = ⟨.collecting (front ++ (engine, some outcome) :: back),
            log ++ [.progress (endReport request ⟨.proposal, engine, 1⟩ outcome)]⟩)) ∨
    (∃ reuse engine sample outcome log, state = ⟨.resampling reuse engine sample, log⟩ ∧
      next = resample config engines request (reuse.receive outcome)
        (log ++ [.progress (endReport request ⟨.proposal, engine, sample⟩ outcome)])) ∨
    ∃ synthesizer combined outcome log, state = ⟨.synthesizing synthesizer combined, log⟩ ∧
      next = deliver request (synthesisContent combined outcome)
        (log ++ [.progress (endReport request ⟨.synthesis, synthesizer, 1⟩ outcome)]) := by
  obtain ⟨stage, log⟩ := state
  cases stage with
  | collecting slots =>
      cases label with
      | answer outcome => exact absurd stepEq nofun
      | finish place outcome =>
          simp only [step] at stepEq
          split at stepEq
          case h_2 => exact absurd stepEq nofun
          case h_1 engine here =>
            obtain ⟨front, back, slotsEq, setEq⟩ :=
              exists_split_at here (engine, some outcome)
            rw [setEq] at stepEq
            refine .inl ⟨front, engine, back, outcome, log, by rw [slotsEq], ?_⟩
            split at stepEq
            case isTrue done =>
              left
              constructor
              · intro slot mem none
                have ended : slot.2.isSome = true := by
                  apply List.all_eq_true.mp done
                  rw [List.mem_append, List.mem_cons]
                  rcases List.mem_append.mp mem with before | after
                  · exact .inl before
                  · exact .inr (.inr after)
                rw [none] at ended
                exact absurd ended nofun
              · exact (Option.some.inj stepEq).symm
            case isFalse waits =>
              right
              constructor
              · by_contra all
                apply waits
                rw [List.all_eq_true]
                intro slot mem
                rw [List.mem_append, List.mem_cons] at mem
                by_contra pending
                have none : slot.2 = none := Option.not_isSome_iff_eq_none.mp pending
                rcases mem with before | same | after
                · exact all ⟨slot, List.mem_append_left _ before, none⟩
                · rw [same] at none
                  exact absurd none nofun
                · exact all ⟨slot, List.mem_append_right _ after, none⟩
              · exact (Option.some.inj stepEq).symm
  | resampling reuse engine sample =>
      cases label with
      | finish place outcome => exact absurd stepEq nofun
      | answer outcome =>
          have nextEq := Option.some.inj stepEq
          exact .inr (.inl ⟨reuse, engine, sample, outcome, log, rfl, nextEq.symm⟩)
  | synthesizing synthesizer combined =>
      cases label with
      | finish place outcome => exact absurd stepEq nofun
      | answer outcome =>
          have nextEq := Option.some.inj stepEq
          exact .inr (.inr ⟨synthesizer, combined, outcome, log, rfl, nextEq.symm⟩)
  | delivered => cases label <;> exact absurd stepEq nofun

theorem receive_proposals (reuse : Reuse) (outcome : Outcome) :
    (reuse.receive outcome).proposals = reuse.proposals ++ outcome.proposal := by
  cases outcome <;> simp [Reuse.receive, Outcome.proposal]

theorem receive_eq (reuse : Reuse) (outcome : Outcome) :
    (reuse.receive outcome).successEngines = reuse.successEngines ∧
      (reuse.receive outcome).sampleCounts = reuse.sampleCounts ∧
      (reuse.receive outcome).attempts = reuse.attempts := by
  cases outcome <;> exact ⟨rfl, rfl, rfl⟩

/-- The end of a call keeps what holds of a turn. -/
theorem sound_step {state next : State μ} {label : Label}
    (sound : Sound config engines request state)
    (stepEq : step config engines request state label = some next) :
    Sound config engines request next := by
  rcases step_cases stepEq with ⟨front, engine, back, outcome, log, rfl, ends⟩ |
    ⟨reuse, engine, sample, outcome, log, rfl, rfl⟩ |
    ⟨synthesizer, combined, outcome, log, rfl, rfl⟩
  · obtain ⟨slotsEq, -, gathered⟩ := sound
    have slotsAfter : (front ++ (engine, some outcome) :: back).map Prod.fst = engines := by
      rw [← slotsEq]
      simp
    have reported := gathered.report rfl (inFlight_collecting_split front back engine) outcome
      (collected_split front back engine outcome)
    rcases ends with ⟨done, rfl⟩ | ⟨⟨slot, mem, none⟩, rfl⟩
    · apply sound_settle slotsAfter
      · rw [← slotsEq]
        simp
      · have nothing : (Stage.collecting (front ++ back)).inFlight = [] := by
          rw [Stage.inFlight, List.map_eq_nil_iff, List.filter_eq_nil_iff]
          intro slot mem
          rw [Option.isNone_iff_eq_none]
          exact done slot mem
        rw [nothing] at reported
        exact reported
    · refine ⟨slotsAfter, ⟨slot, ?_, none⟩, ?_⟩
      · rw [List.mem_append, List.mem_cons]
        rcases List.mem_append.mp mem with before | after
        · exact .inl before
        · exact .inr (.inr after)
      · rw [inFlight_collecting_skip]
        exact reported
  · obtain ⟨reuses, -, working, positive, -, bounded, gathered⟩ := sound
    obtain ⟨enginesEq, countsEq, attemptsEq⟩ := receive_eq reuse outcome
    apply sound_resample reuses
    · rw [enginesEq]
      exact working
    · rw [countsEq]
      exact positive
    · rw [attemptsEq]
      exact bounded
    · rw [countsEq, attemptsEq]
      exact gathered.report rfl (.refl _) outcome (.of_eq (receive_proposals reuse outcome))
  · obtain ⟨proposals, counts, asked, before, gathered, enough, may, rfl, rfl⟩ := sound
    exact ⟨proposals, counts, asked, before, gathered,
      .inr ⟨enough, synthesizer, outcome, may, rfl⟩⟩

theorem sound_run {labels : List Label} {target : State μ}
    (ran : run (step config engines request) (start config engines request) labels =
      some target) : Sound config engines request target :=
  run_invariant (Sound config engines request) (fun _ _ _ => sound_step)
    (sound_start config engines request) ran

/-! ## How long a turn can last -/

/-- How many calls can still end. -/
def Stage.budget (config : ConsensusConfig) : Stage → Nat
  | .collecting slots =>
      (slots.filter fun slot => slot.2.isNone).length + config.minProposals * 3 + 1
  | .resampling reuse _ _ => config.minProposals * 3 - reuse.attempts + 2
  | .synthesizing _ _ => 1
  | .delivered => 0

theorem budget_conclude_le {successEngines : List String} :
    (conclude config engines request successEngines proposals log).stage.budget config ≤ 1 := by
  unfold conclude
  split
  · exact Nat.zero_le 1
  · exact le_rfl

theorem budget_resample_le {reuse : Reuse} :
    (resample config engines request reuse log).stage.budget config ≤
      config.minProposals * 3 - reuse.attempts + 1 := by
  unfold resample
  split
  case isTrue more =>
    have fewer := more.2
    simp only [Stage.budget, Reuse.next]
    omega
  case isFalse => exact budget_conclude_le.trans (Nat.le_add_left 1 _)

theorem budget_settle_le {slots : List (String × Option Outcome)} :
    (settle config engines request slots log).stage.budget config ≤
      config.minProposals * 3 + 1 := by
  simp only [settle]
  split
  · exact budget_resample_le
  · exact budget_conclude_le.trans (Nat.le_add_left 1 _)

theorem budget_start_le :
    (start config engines request).stage.budget config ≤
      engines.length + config.minProposals * 3 + 1 := by
  unfold start
  split
  · exact Nat.zero_le _
  · have atMost := List.length_filter_le (fun slot : String × Option Outcome => slot.2.isNone)
      (engines.map fun engine => (engine, none))
    rw [List.length_map] at atMost
    simp only [Stage.budget]
    omega

/-- Each call that ends leaves fewer to end. -/
theorem budget_step_lt {state next : State μ} {label : Label}
    (stepEq : step config engines request state label = some next) :
    next.stage.budget config < state.stage.budget config := by
  rcases step_cases stepEq with ⟨front, engine, back, outcome, log, rfl, ends⟩ |
    ⟨reuse, engine, sample, outcome, log, rfl, rfl⟩ |
    ⟨synthesizer, combined, outcome, log, rfl, rfl⟩
  · rcases ends with ⟨-, rfl⟩ | ⟨-, rfl⟩
    · apply Nat.lt_of_le_of_lt budget_settle_le
      simp only [Stage.budget, List.filter_append, List.filter_cons, Option.isNone_none, if_true,
        List.length_append, List.length_cons]
      omega
    · simp only [Stage.budget, List.filter_append, List.filter_cons, Option.isNone_none, if_true,
        Option.isNone_some, Bool.false_eq_true, if_false, List.length_append, List.length_cons]
      omega
  · apply Nat.lt_of_le_of_lt budget_resample_le
    rw [(receive_eq reuse outcome).2.2]
    simp only [Stage.budget]
    omega
  · exact Nat.zero_lt_one

theorem length_run_le {labels : List Label} {state target : State μ}
    (ran : run (step config engines request) state labels = some target) :
    labels.length + target.stage.budget config ≤ state.stage.budget config := by
  induction labels generalizing state with
  | nil =>
      cases ran
      exact (Nat.zero_add _).le
  | cons label labels ih =>
      obtain ⟨middle, stepEq, rest⟩ := run_cons_eq_some_iff.mp ran
      have fewer := budget_step_lt stepEq
      have atMost := ih rest
      rw [List.length_cons]
      omega

/-! ## A turn to follow -/

/-- Two proposals, with the other engine asked again. -/
def twoConfig : ConsensusConfig where
  synthesizerEngine := ""
  minProposals := 2
  syntheticAgentId := "system.consensus"
  engineReuse := true
  atLeastTwo := le_rfl

/-- A registry with an engine and a server that thinks. -/
def twoRegistry : Registry where
  engines := ["a"]
  thinking := ["b"]

/-- A message to an agent with three grants. -/
def whyRequest : Request Unit where
  agentId := "agent.x"
  agentName := "X"
  messageId := "m"
  content := "why?"
  context := [()]
  grantedServerIds := ["a", "b", "files"]
  traceId := "t"

/-- The second engine answers before the first runs out of time; asked again, it answers
again, and what it merges is the answer. -/
def reusedLabels : List Label :=
  [.finish 1 (.answered "so"), .finish 0 .timedOut, .answer (.answered "thus"),
    .answer (.answered "hence")]

theorem run_reusedLabels :
    ∃ target, run (step twoConfig ["a", "b"] whyRequest) (start twoConfig ["a", "b"] whyRequest)
      reusedLabels = some target ∧ target.stage = .delivered ∧ (calls target.log).length = 4 :=
  ⟨_, rfl, rfl, rfl⟩

/-! ## One answer -/

/-- The announcements and the ends of calls are balanced but for the calls in flight. -/
theorem Sound.balanced {state : State μ} (sound : Sound config engines request state) :
    (opened state.log).Perm (closed state.log ++ state.stage.inFlight) := by
  obtain ⟨stage, log⟩ := state
  cases stage with
  | collecting slots => exact sound.2.2.balanced
  | resampling reuse engine sample => exact sound.2.2.2.2.2.2.balanced
  | synthesizing synthesizer combined =>
      obtain ⟨proposals, counts, asked, before, gathered, -, -, -, rfl⟩ := sound
      have balanced := gathered.balanced
      rw [List.append_nil] at balanced
      rw [merging, opened_append, closed_append, opened_announce, closed_announce,
        List.append_nil]
      exact balanced.append_right _
  | delivered =>
      obtain ⟨proposals, counts, asked, before, gathered, ends⟩ := sound
      have balanced := gathered.balanced
      rcases ends with ⟨-, content, rfl⟩ | ⟨-, synthesizer, outcome, -, rfl⟩
      · rw [opened_deliver, closed_deliver]
        exact balanced
      · rw [List.append_nil] at balanced
        rw [opened_deliver, closed_deliver, opened_report, closed_report, merging, opened_append,
          closed_append, opened_announce, closed_announce, List.append_nil, Stage.inFlight,
          List.append_nil]
        exact balanced.append_right _

/-- A turn not yet over has given no answer, and waits for a call that may end anyhow. -/
theorem Sound.waits {state : State μ} (sound : Sound config engines request state)
    (going : state.stage ≠ .delivered) :
    answers state.log = [] ∧ state.stage.inFlight ≠ [] ∧
      ∀ outcome, ∃ label next, (label = .answer outcome ∨ ∃ place, label = .finish place outcome) ∧
        step config engines request state label = some next := by
  obtain ⟨stage, log⟩ := state
  cases stage with
  | collecting slots =>
      obtain ⟨-, ⟨⟨engine, result⟩, mem, none⟩, gathered⟩ := sound
      obtain rfl : result = Option.none := none
      refine ⟨gathered.unanswered, ?_, ?_⟩
      · apply List.ne_nil_of_mem
        exact List.mem_map_of_mem (List.mem_filter.mpr ⟨mem, rfl⟩)
      · intro outcome
        obtain ⟨place, bound, here⟩ := List.getElem_of_mem mem
        have found : slots[place]? = some (engine, Option.none) :=
          List.getElem?_eq_some_iff.mpr ⟨bound, here⟩
        refine ⟨.finish place outcome, ?_⟩
        simp only [step, found]
        split
        · exact ⟨_, .inr ⟨place, rfl⟩, rfl⟩
        · exact ⟨_, .inr ⟨place, rfl⟩, rfl⟩
  | resampling reuse engine sample =>
      refine ⟨sound.2.2.2.2.2.2.unanswered, List.cons_ne_nil _ _, ?_⟩
      intro outcome
      exact ⟨.answer outcome, _, .inl rfl, rfl⟩
  | synthesizing synthesizer combined =>
      obtain ⟨proposals, counts, asked, before, gathered, -, -, -, rfl⟩ := sound
      refine ⟨?_, List.cons_ne_nil _ _, ?_⟩
      · rw [merging, answers_append, answers_announce, gathered.unanswered, List.append_nil]
      · intro outcome
        exact ⟨.answer outcome, _, .inl rfl, rfl⟩
  | delivered => exact absurd rfl going

/-- A turn that is over gave one answer, and gave it last. -/
theorem Sound.answered {state : State μ} (sound : Sound config engines request state)
    (ended : state.stage = .delivered) :
    ∃ before response, state.log = before ++ [.deliver response] ∧ answers before = [] ∧
      response.agentId = request.agentId ∧ response.sourceMessageId = request.messageId := by
  obtain ⟨stage, log⟩ := state
  obtain rfl : stage = .delivered := ended
  obtain ⟨proposals, counts, asked, before, gathered, ends⟩ := sound
  rcases ends with ⟨-, content, rfl⟩ | ⟨-, synthesizer, outcome, -, rfl⟩
  · exact ⟨before, _, rfl, gathered.unanswered, rfl, rfl⟩
  · refine ⟨_, _, rfl, ?_, rfl, rfl⟩
    rw [answers_report, merging, answers_append, answers_announce, gathered.unanswered,
      List.append_nil]

/-- In whatever order the engines answer, fail or run out of time, a turn ends after a
bounded number of calls, with one answer to the agent that was asked, given when no call
is in flight. -/
theorem run_answers_once (config : ConsensusConfig) (engines : List String)
    (request : Request μ) {labels : List Label} {target : State μ}
    (ran : run (step config engines request) (start config engines request) labels =
      some target) :
    labels.length ≤ engines.length + config.minProposals * 3 + 1 ∧
      (opened target.log).Perm (closed target.log ++ target.stage.inFlight) ∧
      ((target.stage = .delivered ∧ target.stage.inFlight = [] ∧
          ∃ before response, target.log = before ++ [.deliver response] ∧ answers before = [] ∧
            response.agentId = request.agentId ∧ response.sourceMessageId = request.messageId) ∨
        target.stage ≠ .delivered ∧ answers target.log = [] ∧ target.stage.inFlight ≠ [] ∧
          ∀ outcome, ∃ label next,
            (label = .answer outcome ∨ ∃ place, label = .finish place outcome) ∧
              step config engines request target label = some next) := by
  have sound := sound_run ran
  have atMost := (length_run_le ran).trans budget_start_le
  refine ⟨(Nat.le_add_right _ _).trans atMost, sound.balanced, ?_⟩
  by_cases ended : target.stage = .delivered
  · left
    exact ⟨ended, by rw [ended]; rfl, sound.answered ended⟩
  · exact .inr ⟨ended, sound.waits ended⟩

theorem run_answers_once_reusedLabels :
    ∃ target : State Unit,
      (opened target.log).Perm (closed target.log ++ target.stage.inFlight) ∧
        target.stage = .delivered := by
  obtain ⟨target, ran, ended, -⟩ := run_reusedLabels
  exact ⟨target, (run_answers_once twoConfig ["a", "b"] whyRequest ran).2.1, ended⟩

end Stages

/-! ## Sessions of its own for each call -/

/-- No engine is named like another with the number of a sample. -/
def Unnumbered (engines : List String) : Prop :=
  ∀ first ∈ engines, ∀ second ∈ engines, ∀ sample : Nat,
    first ≠ second ++ "#" ++ toString sample

theorem hash_notMem_toDigits (value : Nat) : '#' ∉ Nat.toDigits 10 value := by
  intro mem
  have digit := Nat.isDigit_of_mem_toDigits (by decide) (by decide) mem
  exact absurd digit (by decide)

/-- An engine and a sample are read off what they are joined to. -/
theorem numbered_inj {first second : String} {sample other : Nat}
    (same : first ++ "#" ++ toString sample = second ++ "#" ++ toString other) :
    first = second ∧ sample = other := by
  have hash : "#".toList = ['#'] := by decide
  have lists := congrArg String.toList same
  simp only [String.toList_append, hash, List.append_assoc, List.singleton_append] at lists
  obtain ⟨enginesEq, digitsEq⟩ := append_cons_inj_of_notMem_right
    (by simpa using hash_notMem_toDigits sample) (by simpa using hash_notMem_toDigits other) lists
  exact ⟨String.toList_inj.mp enginesEq, toDigits_injective (by simpa using digitsEq)⟩

/-- The end of the name of a session, behind what all of a turn share. -/
def sessionSuffix (sample : String × Nat) : String :=
  if sample.2 ≤ 1 then sample.1 else sample.1 ++ "#" ++ toString sample.2

theorem session_callFor (request : Request μ) (sample : String × Nat) :
    (callFor request sample).session =
      ⟨request.agentId, "consensus:" ++ request.traceId ++ ":" ++ sessionSuffix sample⟩ := by
  unfold callFor sessionSuffix
  split
  · rfl
  · simp only [reuseCall, String.append_assoc]

theorem session_callFor_inj {engines : List String} (unnumbered : Unnumbered engines)
    {request : Request μ} {first second : String × Nat} (firstMem : first.1 ∈ engines)
    (secondMem : second.1 ∈ engines) (firstPositive : 1 ≤ first.2) (secondPositive : 1 ≤ second.2)
    (same : (callFor request first).session = (callFor request second).session) :
    first = second := by
  rw [session_callFor, session_callFor, SessionKey.mk.injEq] at same
  have suffixes : sessionSuffix first = sessionSuffix second :=
    String.append_right_inj _ |>.mp same.2
  obtain ⟨firstEngine, firstSample⟩ := first
  obtain ⟨secondEngine, secondSample⟩ := second
  simp only [sessionSuffix] at suffixes
  split at suffixes <;> split at suffixes
  case isTrue.isTrue firstOnce secondOnce =>
    obtain rfl : firstSample = 1 := le_antisymm firstOnce firstPositive
    obtain rfl : secondSample = 1 := le_antisymm secondOnce secondPositive
    rw [suffixes]
  case isTrue.isFalse => exact absurd suffixes (unnumbered _ firstMem _ secondMem _)
  case isFalse.isTrue => exact absurd suffixes.symm (unnumbered _ secondMem _ firstMem _)
  case isFalse.isFalse =>
    obtain ⟨enginesEq, samplesEq⟩ := numbered_inj suffixes
    rw [enginesEq, samplesEq]

/-- The session of the merging is none of the others. -/
theorem session_synthesisCall_ne (config : ConsensusConfig) (request : Request μ)
    (synthesizer combined : String) (sample : String × Nat) :
    (callFor request sample).session ≠
      (synthesisCall config request synthesizer combined).session := by
  intro same
  rw [session_callFor, synthesisCall, SessionKey.mk.injEq] at same
  have lists := congrArg (fun text => text.toList.take 10) same.2
  have colon : "consensus:".toList = ['c', 'o', 'n', 's', 'e', 'n', 's', 'u', 's', ':'] :=
    String.toList_ofList
  have dash : "consensus-synth:".toList =
      ['c', 'o', 'n', 's', 'e', 'n', 's', 'u', 's', '-', 's', 'y', 'n', 't', 'h', ':'] :=
    String.toList_ofList
  simp [String.toList_append, colon, dash] at lists

section Calls

variable {config : ConsensusConfig} {engines : List String} {request : Request μ}
  {proposals : List String} {counts : String → Nat} {asked : Nat} {log : List (Effect μ)}

theorem Gathered.calls_eq {inFlight : List Asked}
    (gathered : Gathered engines request inFlight proposals counts asked log) :
    ∃ samples : List (String × Nat), (engines.Nodup → samples.Nodup) ∧
      (∀ sample ∈ samples, sample.1 ∈ engines ∧ 1 ≤ sample.2) ∧
        calls log = samples.map (callFor request) := by
  obtain ⟨samples, callsEq, -, distinct, known⟩ := gathered.sampled
  exact ⟨samples, distinct, fun sample mem => ⟨(known sample mem).1, (known sample mem).2.1⟩,
    callsEq⟩

/-- The calls of a turn: samples of its engines, and then at most the merging. -/
theorem Sound.calls_eq {state : State μ} (sound : Sound config engines request state) :
    ∃ samples : List (String × Nat), (engines.Nodup → samples.Nodup) ∧
      (∀ sample ∈ samples, sample.1 ∈ engines ∧ 1 ≤ sample.2) ∧
        (calls state.log = samples.map (callFor request) ∨
          ∃ synthesizer proposals, MayMerge config engines synthesizer ∧
            calls state.log = samples.map (callFor request) ++
              [synthesisCall config request synthesizer (combineViews proposals)]) := by
  obtain ⟨stage, log⟩ := state
  cases stage with
  | collecting slots =>
      obtain ⟨samples, distinct, known, callsEq⟩ := sound.2.2.calls_eq
      exact ⟨samples, distinct, known, .inl callsEq⟩
  | resampling reuse engine sample =>
      obtain ⟨samples, distinct, known, callsEq⟩ := sound.2.2.2.2.2.2.calls_eq
      exact ⟨samples, distinct, known, .inl callsEq⟩
  | synthesizing synthesizer combined =>
      obtain ⟨proposals, counts, asked, before, gathered, -, may, -, rfl⟩ := sound
      obtain ⟨samples, distinct, known, callsEq⟩ := gathered.calls_eq
      refine ⟨samples, distinct, known, .inr ⟨synthesizer, proposals, may, ?_⟩⟩
      rw [merging, calls_append, calls_announce, callsEq]
  | delivered =>
      obtain ⟨proposals, counts, asked, before, gathered, ends⟩ := sound
      obtain ⟨samples, distinct, known, callsEq⟩ := gathered.calls_eq
      rcases ends with ⟨-, content, rfl⟩ | ⟨-, synthesizer, outcome, may, rfl⟩
      · refine ⟨samples, distinct, known, .inl ?_⟩
        rw [calls_deliver, callsEq]
      · refine ⟨samples, distinct, known, .inr ⟨synthesizer, proposals, may, ?_⟩⟩
        rw [calls_deliver, calls_report, merging, calls_append, calls_announce, callsEq]

/-- A call in the agent's name: an engine granted to the agent is asked the question, as it
stands or through another framing, with the agent's grants and context. -/
structure Own (registry : Registry) (request : Request μ) (call : Call μ) : Prop where
  agent : call.agentId = request.agentId
  granted : call.engineId ∈ request.grantedServerIds
  engine : isEngineServer registry call.engineId = true
  grants : call.grantedServerIds = request.grantedServerIds
  context : call.context = request.context
  asks : ∃ sample, call.content = framedPrompt request.content sample

/-- A call that merges: in the synthesizer's name, with no tools and no context, and of
an engine that the agent was granted or that the configuration names. -/
structure Merges (config : ConsensusConfig) (registry : Registry) (request : Request μ)
    (call : Call μ) : Prop where
  agent : call.agentId = "agent.synthesizer"
  engine : call.engineId = config.synthesizerEngine ∨
    call.engineId ∈ request.grantedServerIds ∧ isEngineServer registry call.engineId = true
  grants : call.grantedServerIds = []
  context : call.context = []
  asks : ∃ proposals, call.content = synthesisPrompt (combineViews proposals)

theorem callFor_fields (request : Request μ) (sample : String × Nat) :
    (callFor request sample).agentId = request.agentId ∧
      (callFor request sample).engineId = sample.1 ∧
      (callFor request sample).grantedServerIds = request.grantedServerIds ∧
      (callFor request sample).context = request.context ∧
      (callFor request sample).content = framedPrompt request.content sample.2 := by
  unfold callFor
  split
  case isTrue first => exact ⟨rfl, rfl, rfl, rfl, (if_pos first).symm⟩
  case isFalse => exact ⟨rfl, rfl, rfl, rfl, rfl⟩

theorem own_callFor {registry : Registry} {consensusEngines : List String} {request : Request μ}
    {sample : String × Nat} (mem : sample.1 ∈ enginesOf registry consensusEngines request) :
    Own registry request (callFor request sample) := by
  obtain ⟨agentEq, engineEq, grantsEq, contextEq, contentEq⟩ := callFor_fields request sample
  obtain ⟨granted, engine⟩ := mem_of_mem_enginesOf mem
  refine ⟨agentEq, ?_, ?_, grantsEq, contextEq, sample.2, contentEq⟩
  · rw [engineEq]
    exact granted
  · rw [engineEq]
    exact engine

theorem merges_synthesisCall {config : ConsensusConfig} {registry : Registry}
    {consensusEngines : List String} {request : Request μ} {synthesizer : String}
    (may : MayMerge config (enginesOf registry consensusEngines request) synthesizer)
    (proposals : List String) :
    Merges config registry request
      (synthesisCall config request synthesizer (combineViews proposals)) where
  agent := rfl
  engine := by
    rcases may with configured | mem
    · exact .inl configured
    · exact .inr (mem_of_mem_enginesOf mem)
  grants := rfl
  context := rfl
  asks := ⟨proposals, rfl⟩

/-- No two calls of a turn share a session.  All are made in the agent's name but at most
one, the last, which merges with no tools and no context; only the configuration can name
an engine that the agent was not granted, and only for merging. -/
theorem calls_isolated (config : ConsensusConfig) (registry : Registry)
    (consensusEngines : List String) (request : Request μ)
    (distinct : (enginesOf registry consensusEngines request).Nodup)
    (unnumbered : Unnumbered (enginesOf registry consensusEngines request))
    {labels : List Label} {target : State μ}
    (ran : run (step config (enginesOf registry consensusEngines request) request)
      (start config (enginesOf registry consensusEngines request) request) labels = some target) :
    ((calls target.log).map Call.session).Nodup ∧
      ∃ own merging, calls target.log = own ++ merging ∧ merging.length ≤ 1 ∧
        (∀ call ∈ own, Own registry request call) ∧
          ∀ call ∈ merging, Merges config registry request call := by
  obtain ⟨samples, nodup, known, callsEq⟩ := (sound_run ran).calls_eq
  have sampleSessions : ((samples.map (callFor request)).map Call.session).Nodup := by
    rw [List.map_map]
    apply (nodup distinct).map_on
    intro first firstMem second secondMem same
    exact session_callFor_inj unnumbered (known first firstMem).1 (known second secondMem).1
      (known first firstMem).2 (known second secondMem).2 same
  have owned : ∀ call ∈ samples.map (callFor request), Own registry request call := by
    intro call mem
    rcases List.mem_map.mp mem with ⟨sample, sampleMem, rfl⟩
    exact own_callFor (known sample sampleMem).1
  rcases callsEq with callsEq | ⟨synthesizer, proposals, may, callsEq⟩
  · rw [callsEq]
    refine ⟨sampleSessions, samples.map (callFor request), [], ?_, Nat.zero_le 1, owned, ?_⟩
    · rw [List.append_nil]
    · simp
  · rw [callsEq]
    refine ⟨?_, samples.map (callFor request), _, rfl, le_rfl, owned, ?_⟩
    · rw [List.map_append, List.nodup_append]
      refine ⟨sampleSessions, List.nodup_singleton _, ?_⟩
      intro session mem other otherMem same
      rw [List.map_map] at mem
      rcases List.mem_map.mp mem with ⟨sample, -, rfl⟩
      rw [List.map_singleton, List.mem_singleton] at otherMem
      exact session_synthesisCall_ne config request synthesizer (combineViews proposals) sample
        (same.trans otherMem)
    · intro call mem
      rw [List.mem_singleton.mp mem]
      exact merges_synthesisCall may proposals

/-- An engine without a number sign is named like no sample. -/
theorem unnumbered_of_notMem {engines : List String}
    (plain : ∀ engine ∈ engines, '#' ∉ engine.toList) : Unnumbered engines := by
  intro first firstMem second _ sample same
  apply plain first firstMem
  have hash : "#".toList = ['#'] := by decide
  rw [same]
  simp [hash]

theorem calls_isolated_reusedLabels :
    ∃ target : State Unit, (calls target.log).length = 4 ∧
      ((calls target.log).map Call.session).Nodup ∧
        ∃ own merging, calls target.log = own ++ merging ∧ merging.length ≤ 1 ∧
          (∀ call ∈ own, Own twoRegistry whyRequest call) ∧
            ∀ call ∈ merging, Merges twoConfig twoRegistry whyRequest call := by
  have enginesEq : enginesOf twoRegistry [] whyRequest = ["a", "b"] := by decide
  obtain ⟨target, ran, -, four⟩ := run_reusedLabels
  have isolated := @calls_isolated Unit twoConfig twoRegistry [] whyRequest
  rw [enginesEq] at isolated
  refine ⟨target, four, isolated ?_ ?_ ran⟩
  · decide
  · apply unnumbered_of_notMem
    decide

/-- A turn that is over took every proposal it reported, each once.  With fewer than the
least number of them it merged nothing, and there was no way to ask again; with enough
of them the last call merged just these, and its outcome is the answer, or the proposals
are where it failed. -/
theorem answer_needs_quorum (config : ConsensusConfig) (engines : List String)
    (request : Request μ) {labels : List Label} {target : State μ}
    (ran : run (step config engines request) (start config engines request) labels = some target)
    (ended : target.stage = .delivered) :
    ∃ proposals, proposals.Perm (reportedProposals target.log) ∧
      ((proposals.length < config.minProposals ∧
          (∀ asked ∈ opened target.log, asked.phase = .proposal) ∧
          (∀ call ∈ calls target.log, call.engineId ∈ engines ∧ call.agentId = request.agentId) ∧
          (config.engineReuse = false ∨ proposals = [] ∨
            (calls target.log).length = engines.length + config.minProposals * 3)) ∨
        config.minProposals ≤ proposals.length ∧ ∃ before synthesizer outcome,
          MayMerge config engines synthesizer ∧
          target.log = before ++
            merging config request synthesizer proposals ++
              [.progress (endReport request ⟨.synthesis, synthesizer, 1⟩ outcome),
                .deliver ⟨request.agentId, "consensus",
                  synthesisContent (combineViews proposals) outcome, request.messageId⟩]) := by
  have sound := sound_run ran
  obtain ⟨stage, log⟩ := target
  obtain rfl : stage = .delivered := ended
  obtain ⟨proposals, counts, asked, before, gathered, ends⟩ := sound
  refine ⟨proposals, ?_, ?_⟩
  · rcases ends with ⟨-, content, rfl⟩ | ⟨-, synthesizer, outcome, -, rfl⟩
    · rw [reportedProposals_deliver]
      exact gathered.taken.symm
    · rw [reportedProposals_deliver, reportedProposals_report_synthesis _ _ _ _ rfl, merging,
        reportedProposals_append, reportedProposals_announce, List.append_nil]
      exact gathered.taken.symm
  · rcases ends with ⟨⟨few, spent⟩, content, rfl⟩ | ⟨enough, synthesizer, outcome, may, rfl⟩
    · left
      obtain ⟨samples, callsEq, count, -, known⟩ := gathered.sampled
      rw [opened_deliver, calls_deliver, callsEq, List.length_map, count]
      refine ⟨few, gathered.proposing, ?_, spent⟩
      intro call mem
      rcases List.mem_map.mp mem with ⟨sample, sampleMem, rfl⟩
      obtain ⟨agentEq, engineEq, -⟩ := callFor_fields request sample
      rw [engineEq]
      exact ⟨(known sample sampleMem).1, agentEq⟩
    · right
      refine ⟨enough, before, synthesizer, outcome, may, ?_⟩
      simp only [deliver, List.append_assoc, List.cons_append, List.nil_append]

theorem answer_needs_quorum_reusedLabels :
    ∃ target : State Unit, ∃ proposals : List String,
      proposals.Perm (reportedProposals target.log) ∧ target.stage = .delivered := by
  obtain ⟨target, ran, ended, -⟩ := run_reusedLabels
  obtain ⟨proposals, same, -⟩ := answer_needs_quorum twoConfig ["a", "b"] whyRequest ran ended
  exact ⟨target, proposals, same, ended⟩

end Calls

end Consensus

end ClotoCore.Turns
