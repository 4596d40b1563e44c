import ClotoCore.Lookup.Dictionary
import ClotoCore.Lookup.Eviction
import ClotoCore.Transition.Run

/-!
# The cache of tools

Each agent has tools loaded, with the tokens that they are estimated to take, and pins
some.  Loading tools counts them and then brings the cache within its budget, without the
pinned ones.  What is pinned is changed without a look at the budget.
-/

namespace ClotoCore.Mcp.ToolCache

open ClotoCore.Lookup ClotoCore.Transition

/-- `CachedTool` -/
structure CachedTool where
  lastUsed : Nat
  estimatedTokens : Nat
  deriving DecidableEq

/-- `AgentSession` -/
structure AgentSession where
  pinned : List String
  cached : Dictionary String CachedTool
  maxTokens : Nat

/-- `DEFAULT_MAX_TOKENS` -/
def defaultMaxTokens : Nat := 8000

/-- The session of an agent that has none yet. -/
def AgentSession.new : AgentSession where
  pinned := []
  cached := Keyed.empty Prod.fst
  maxTokens := defaultMaxTokens

/-- `SessionToolCache` -/
abbrev Sessions := Dictionary String AgentSession

/-- A tool with its estimated tokens, and the time at which it is looked at. -/
structure Loaded where
  toolId : String
  tokens : Nat
  time : Nat

namespace AgentSession

/-- A cached tool is used. -/
def use (session : AgentSession) (toolId : String) (time : Nat) : AgentSession :=
  { session with
    cached := session.cached.mapValues fun name tool =>
      if name = toolId then { tool with lastUsed := time } else tool }

/-- One pass of the loop in `cache_tools`, with the tools and tokens added so far. -/
def load (session : AgentSession) (added tokensAdded : Nat) (tool : Loaded) :
    AgentSession × Nat × Nat :=
  if (session.cached.value tool.toolId).isSome then
    (session.use tool.toolId tool.time, added, tokensAdded)
  else
    ({ session with
        cached := session.cached.insert (tool.toolId, ⟨tool.time, tool.tokens⟩) },
      added + 1, tokensAdded + tool.tokens)

/-- The loop in `cache_tools`. -/
def loadTools (session : AgentSession) (tools : List Loaded) : AgentSession × Nat × Nat :=
  tools.foldl (fun loaded tool => loaded.1.load loaded.2.1 loaded.2.2 tool) (session, 0, 0)

/-- The tokens count, the least recently used tool goes first, and not a pinned one. -/
def rule (session : AgentSession) : Eviction (String × CachedTool) String Nat where
  weight := fun entry => entry.2.estimatedTokens
  used := fun entry => entry.2.lastUsed
  exempt := session.pinned.contains
  budget := session.maxTokens

/-- `enforce_budget`, which removes these tools: of those that were used at one time, the
first in the order of the map goes. -/
def enforceBudget (session : AgentSession) (order : List String) : Option AgentSession :=
  (session.rule.evict order session.cached).map fun cached => { session with cached }

/-- One tool of `evict`, with the count so far. -/
def evictOne (session : AgentSession) (evicted : Nat) (toolId : String) : AgentSession × Nat :=
  if session.pinned.contains toolId then (session, evicted)
  else if (session.cached.value toolId).isSome then
    ({ session with cached := session.cached.remove toolId }, evicted + 1)
  else (session, evicted)

end AgentSession

namespace Sessions

/-- `cache_tools`: what is added, and how many tokens that is. -/
def cacheTools (sessions : Sessions) (agentId : String) (tools : List Loaded)
    (order : List String) : Option (Sessions × Nat × Nat) :=
  let session := (sessions.value agentId).getD .new
  let (loaded, added, tokensAdded) := session.loadTools tools
  (loaded.enforceBudget order).map fun session =>
    (sessions.insert (agentId, session), added, tokensAdded)

/-- `evict` -/
def evict (sessions : Sessions) (agentId : String) (toolIds : List String) : Sessions × Nat :=
  match sessions.value agentId with
  | none => (sessions, 0)
  | some session =>
      let (session, evicted) :=
        toolIds.foldl (fun kept toolId => kept.1.evictOne kept.2 toolId) (session, 0)
      (sessions.insert (agentId, session), evicted)

/-- `set_pinned` -/
def setPinned (sessions : Sessions) (agentId : String) (toolIds : List String) : Sessions :=
  sessions.insert (agentId, { (sessions.value agentId).getD .new with pinned := toolIds })

/-- `touch` -/
def touch (sessions : Sessions) (agentId toolId : String) (time : Nat) : Sessions :=
  match sessions.value agentId with
  | none => sessions
  | some session => sessions.insert (agentId, session.use toolId time)

end Sessions

/-! ## Operations -/

/-- The calls of the session cache. -/
inductive Operation where
  | cacheTools (agentId : String) (tools : List Loaded)
  | evict (agentId : String) (toolIds : List String)
  | setPinned (agentId : String) (toolIds : List String)
  | touch (agentId toolId : String) (time : Nat)

/-- What an operation answers: the tools and tokens added, the tools evicted. -/
inductive Report where
  | added (tools tokens : Nat)
  | evicted (tools : Nat)
  | nothing
  deriving DecidableEq

/-- An operation, with the tools that go when the budget is enforced. -/
def operate (sessions : Sessions) (order : List String) : Operation → Option (Sessions × Report)
  | .cacheTools agentId tools =>
      (sessions.cacheTools agentId tools order).map fun (next, tools, tokens) =>
        (next, .added tools tokens)
  | .evict agentId toolIds =>
      let (next, tools) := sessions.evict agentId toolIds
      some (next, .evicted tools)
  | .setPinned agentId toolIds => some (sessions.setPinned agentId toolIds, .nothing)
  | .touch agentId toolId time => some (sessions.touch agentId toolId time, .nothing)

/-- A call, with the order in which it meets the cached tools. -/
structure Label where
  operation : Operation
  order : List String

/-- A call with its order. -/
def step : Action Sessions Label :=
  fun sessions label => (operate sessions label.order label.operation).map Prod.fst

/-! ## The budget -/

/-- Each cache is within its budget or holds pinned tools only. -/
def Budgeted (sessions : Sessions) : Prop :=
  ∀ agentId session, sessions.value agentId = some session →
    session.rule.Settled session.cached

/-- The cached tools of an agent that are pinned are still cached. -/
def PinnedStay (sessions next : Sessions) : Prop :=
  ∀ agentId session, sessions.value agentId = some session →
    ∃ later, next.value agentId = some later ∧
      ∀ entry ∈ session.cached.items, entry.1 ∈ session.pinned →
        (later.cached.value entry.1).isSome

/-- The entries of tools that were not cached before. -/
def newIn (before after : AgentSession) : List (String × CachedTool) :=
  after.cached.items.filter fun entry => (before.cached.value entry.1).isNone

/-- What loading tools does to the cache of the agent: no pinned tool goes, the tools that go
were used no later than the unpinned ones that stay, and what is reported is in the cache. -/
structure Loads (before after : AgentSession) (tools : List Loaded) (report : Report) : Prop where
  pinnedStay : ∀ entry ∈ (before.loadTools tools).1.cached.items, entry.1 ∈ after.pinned →
    entry ∈ after.cached.items
  leastRecent : ∀ gone ∈ (before.loadTools tools).1.cached.items, gone ∉ after.cached.items →
    ∀ stays ∈ after.cached.items, stays.1 ∉ after.pinned → gone.2.lastUsed ≤ stays.2.lastUsed
  reported : report = .added (newIn before after).length
    ((newIn before after).map fun entry => entry.2.estimatedTokens).sum

/-- What an operation keeps to, whatever tools go. -/
def Respected (sessions : Sessions) (operation : Operation) : Prop :=
  ∀ order next report, operate sessions order operation = some (next, report) →
    Budgeted next ∧ PinnedStay sessions next ∧
      match operation with
      | .cacheTools agentId tools => ∃ after, next.value agentId = some after ∧
          Loads ((sessions.value agentId).getD .new) after tools report
      | _ => True

/-- A change of what is pinned leaves the cache within the budget or pins all of it; and
each new tool that is not pinned fits into the budget with the pinned ones and with those
that were used no earlier. -/
def Fitting (sessions : Sessions) : Operation → Prop
  | .setPinned agentId toolIds => ∀ session ∈ sessions.value agentId,
      session.rule.total session.cached ≤ session.maxTokens ∨
        ∀ entry ∈ session.cached.items, entry.1 ∈ toolIds
  | .cacheTools agentId tools =>
      let before := (sessions.value agentId).getD .new
      let loaded := (before.loadTools tools).1
      ∀ entry ∈ newIn before loaded, entry.1 ∉ loaded.pinned →
        loaded.rule.weightOf (loaded.rule.behind Prod.fst entry) loaded.cached ≤ loaded.maxTokens
  | _ => True

/-! ## Loading -/

variable {before session loaded after : AgentSession} {tools : List Loaded} {sessions : Sessions}
  {agentId : String}

/-- What the loop keeps to: it loses nothing, and counts what is new. -/
structure Counts (before loaded : AgentSession) (added tokens : Nat) : Prop where
  pinned : loaded.pinned = before.pinned
  budget : loaded.maxTokens = before.maxTokens
  kept : ∀ toolId, (before.cached.value toolId).isSome → (loaded.cached.value toolId).isSome
  length : (newIn before loaded).length = added
  sum : ((newIn before loaded).map fun entry => entry.2.estimatedTokens).sum = tokens

theorem items_use {toolId : String} {time : Nat} :
    (session.use toolId time).cached.items = session.cached.items.map fun entry =>
      (entry.1, if entry.1 = toolId then { entry.2 with lastUsed := time } else entry.2) :=
  rfl

theorem newIn_use {toolId : String} {time : Nat} :
    newIn before (session.use toolId time) = (newIn before session).map fun entry =>
      (entry.1, if entry.1 = toolId then { entry.2 with lastUsed := time } else entry.2) := by
  unfold newIn
  rw [items_use, List.filter_map]
  rfl

theorem isSome_use {toolId name : String} {time : Nat} :
    ((session.use toolId time).cached.value name).isSome = (session.cached.value name).isSome := by
  change ((Dictionary.mapValues _ session.cached).value name).isSome = _
  rw [Dictionary.value_mapValues, Option.isSome_map]

theorem Counts.use {added tokens : Nat} (counts : Counts before session added tokens)
    (toolId : String) (time : Nat) : Counts before (session.use toolId time) added tokens := by
  refine ⟨counts.pinned, counts.budget, ?_, ?_, ?_⟩
  · intro name cached
    rw [isSome_use]
    exact counts.kept name cached
  · rw [newIn_use, List.length_map]
    exact counts.length
  · rw [newIn_use, List.map_map, ← counts.sum]
    congr 1
    apply List.map_congr_left
    intro entry _
    change (if entry.1 = toolId then { entry.2 with lastUsed := time } else
      entry.2).estimatedTokens = entry.2.estimatedTokens
    split <;> rfl

theorem Counts.load {added tokens : Nat} (counts : Counts before session added tokens)
    (tool : Loaded) :
    Counts before (session.load added tokens tool).1 (session.load added tokens tool).2.1
      (session.load added tokens tool).2.2 := by
  unfold AgentSession.load
  cases cached : (session.cached.value tool.toolId).isSome with
  | true => exact counts.use tool.toolId tool.time
  | false =>
      rw [if_neg Bool.false_ne_true]
      have absent : session.cached.value tool.toolId = none := by simpa using cached
      have fresh : ∀ other ∈ session.cached.items, other.1 ≠ tool.toolId := by
        intro other mem same
        apply Dictionary.value_eq_none_iff.mp absent other.2
        rw [← same]
        exact mem
      have isNew : (before.cached.value tool.toolId).isNone = true := by
        rw [Option.isNone_iff_eq_none, ← Option.not_isSome_iff_eq_none]
        intro there
        rw [counts.kept tool.toolId there] at cached
        cases cached
      have grown : newIn before { session with
          cached := session.cached.insert (tool.toolId, ⟨tool.time, tool.tokens⟩) } =
            newIn before session ++ [(tool.toolId, ⟨tool.time, tool.tokens⟩)] := by
        have last : [(tool.toolId, (⟨tool.time, tool.tokens⟩ : CachedTool))].filter
            (fun entry => (before.cached.value entry.1).isNone) =
              [(tool.toolId, ⟨tool.time, tool.tokens⟩)] :=
          List.filter_eq_self.mpr (by simpa using isNew)
        change List.filter _ (session.cached.insert _).items = _
        rw [Keyed.insert_items fresh, List.filter_append, last]
        rfl
      refine ⟨counts.pinned, counts.budget, ?_, ?_, ?_⟩
      · intro name there
        change (Dictionary.value (session.cached.insert _) name).isSome = true
        rw [Dictionary.value_insert]
        split
        · rfl
        · exact counts.kept name there
      · rw [grown, List.length_append, counts.length]
        rfl
      · rw [grown, List.map_append, List.sum_append, counts.sum]
        rfl

theorem newIn_self : newIn before before = [] := by
  apply List.filter_eq_nil_iff.mpr
  intro entry mem absent
  rw [Option.isNone_iff_eq_none] at absent
  exact Dictionary.value_eq_none_iff.mp absent entry.2 mem

/-- The loop counts the tools it adds and their tokens. -/
theorem counts_loadTools (before : AgentSession) (tools : List Loaded) :
    Counts before (before.loadTools tools).1 (before.loadTools tools).2.1
      (before.loadTools tools).2.2 := by
  have start : Counts before before 0 0 :=
    ⟨rfl, rfl, fun _ there => there, by rw [newIn_self]; rfl, by rw [newIn_self]; rfl⟩
  have all : ∀ (loaded : AgentSession × Nat × Nat), Counts before loaded.1 loaded.2.1 loaded.2.2 →
      Counts before
        (tools.foldl (fun loaded tool => loaded.1.load loaded.2.1 loaded.2.2 tool) loaded).1
        (tools.foldl (fun loaded tool => loaded.1.load loaded.2.1 loaded.2.2 tool) loaded).2.1
        (tools.foldl (fun loaded tool => loaded.1.load loaded.2.1 loaded.2.2 tool) loaded).2.2 := by
    induction tools with
    | nil => exact fun _ counts => counts
    | cons tool rest ih =>
        intro loaded counts
        exact ih _ (counts.load tool)
  exact all (before, 0, 0) start

/-! ## Settling -/

/-- The new tools are reported as they are in the cache exactly if all of them stay. -/
theorem newIn_report_iff (sublist : after.cached.items.Sublist loaded.cached.items) :
    ((newIn before after).length = (newIn before loaded).length ∧
      ((newIn before after).map fun entry => entry.2.estimatedTokens).sum =
        ((newIn before loaded).map fun entry => entry.2.estimatedTokens).sum) ↔
      ∀ entry ∈ newIn before loaded, entry ∈ after.cached.items := by
  have shorter : (newIn before after).Sublist (newIn before loaded) := sublist.filter _
  constructor
  · rintro ⟨length, -⟩ entry mem
    rw [← shorter.eq_of_length length] at mem
    exact (List.mem_filter.mp mem).1
  · intro stay
    have nodup : (newIn before loaded).Nodup :=
      (List.Nodup.of_map Prod.fst loaded.cached.distinct).filter _
    have all : newIn before loaded ⊆ newIn before after := by
      intro entry mem
      exact List.mem_filter.mpr ⟨stay entry mem, (List.mem_filter.mp mem).2⟩
    have same : newIn before after = newIn before loaded :=
      shorter.eq_of_length_le (List.subperm_of_subset nodup all).length_le
    rw [same]
    exact ⟨rfl, rfl⟩

theorem enforceBudget_eq_some_iff {order : List String} :
    loaded.enforceBudget order = some after ↔
      ∃ cached, loaded.rule.evict order loaded.cached = some cached ∧
        after = { loaded with cached } := by
  rw [AgentSession.enforceBudget, Option.map_eq_some_iff]
  constructor
  · rintro ⟨cached, evicted, rfl⟩
    exact ⟨cached, evicted, rfl⟩
  · rintro ⟨cached, evicted, rfl⟩
    exact ⟨cached, evicted, rfl⟩

theorem exempt_iff {toolId : String} :
    session.rule.exempt toolId = true ↔ toolId ∈ session.pinned :=
  List.contains_iff_mem

/-- Settling what was loaded leaves a settled cache, in which no pinned tool is missing,
and takes the least recently used tools. -/
theorem loads_of_enforceBudget {order : List String}
    (enforced : (before.loadTools tools).1.enforceBudget order = some after) :
    after.rule.Settled after.cached ∧
      (Loads before after tools (.added (before.loadTools tools).2.1
          (before.loadTools tools).2.2) ↔
        ∀ entry ∈ newIn before (before.loadTools tools).1, entry ∈ after.cached.items) := by
  rcases enforceBudget_eq_some_iff.mp enforced with ⟨cached, evicted, rfl⟩
  have counts := counts_loadTools before tools
  refine ⟨Eviction.settled_of_evict evicted, ?_⟩
  rw [← newIn_report_iff (Eviction.sublist_of_evict evicted), counts.length, counts.sum]
  constructor
  · intro loads
    have reported := loads.reported
    rw [Report.added.injEq] at reported
    exact ⟨reported.1.symm, reported.2.symm⟩
  · rintro ⟨length, sum⟩
    refine ⟨?_, ?_, ?_⟩
    · intro entry mem isPinned
      exact Eviction.mem_evict_of_exempt evicted mem (exempt_iff.mpr isPinned)
    · intro gone goneMem isGone stays staysMem unpinned
      have subject : (before.loadTools tools).1.rule.exempt stays.1 = false := by
        rw [← Bool.not_eq_true, exempt_iff]
        exact unpinned
      exact Eviction.used_le_of_evict evicted goneMem isGone staysMem subject
    · rw [length, sum]

/-- Whatever tools go, all new ones stay exactly if they fit. -/
theorem new_stay_iff :
    (∀ order after, loaded.enforceBudget order = some after →
      ∀ entry ∈ newIn before loaded, entry ∈ after.cached.items) ↔
      ∀ entry ∈ newIn before loaded, entry.1 ∉ loaded.pinned →
        loaded.rule.weightOf (loaded.rule.behind Prod.fst entry) loaded.cached ≤
          loaded.maxTokens := by
  constructor
  · intro stay entry mem unpinned
    by_contra exceeds
    have subject : loaded.rule.exempt entry.1 = false := by
      rw [← Bool.not_eq_true, exempt_iff]
      exact unpinned
    rcases Eviction.exists_evict_of_not_fits (List.mem_filter.mp mem).1 subject
      (Nat.not_le.mp exceeds) with ⟨order, cached, evicted, gone⟩
    exact gone (stay order { loaded with cached }
      (enforceBudget_eq_some_iff.mpr ⟨cached, evicted, rfl⟩) entry mem)
  · intro fit order after enforced entry mem
    rcases enforceBudget_eq_some_iff.mp enforced with ⟨cached, evicted, rfl⟩
    have here := (List.mem_filter.mp mem).1
    by_cases isPinned : entry.1 ∈ loaded.pinned
    · exact Eviction.mem_evict_of_exempt evicted here (exempt_iff.mpr isPinned)
    · exact Eviction.mem_evict_of_fits evicted here (fit entry mem isPinned)

/-! ## Operations -/

theorem value_insert_session (session : AgentSession) (other : String) :
    Dictionary.value (sessions.insert (agentId, session)) other =
      if agentId = other then some session else sessions.value other :=
  Dictionary.value_insert

theorem Budgeted.insert (budgeted : Budgeted sessions)
    (settled : session.rule.Settled session.cached) :
    Budgeted (sessions.insert (agentId, session)) := by
  intro other held found
  rw [value_insert_session] at found
  split at found
  · cases found
    exact settled
  · exact budgeted other held found

theorem pinnedStay_insert
    (stay : ∀ old ∈ sessions.value agentId, ∀ entry ∈ old.cached.items, entry.1 ∈ old.pinned →
      (session.cached.value entry.1).isSome) :
    PinnedStay sessions (sessions.insert (agentId, session)) := by
  intro other held found
  rw [value_insert_session]
  split
  · rename_i same
    subst same
    exact ⟨session, rfl, stay held found⟩
  · refine ⟨held, found, ?_⟩
    intro entry mem _
    rw [Dictionary.value_eq_some_iff.mpr mem]
    rfl

theorem PinnedStay.refl (sessions : Sessions) : PinnedStay sessions sessions := by
  intro agentId session found
  refine ⟨session, found, ?_⟩
  intro entry mem _
  rw [Dictionary.value_eq_some_iff.mpr mem]
  rfl

theorem isSome_of_mem {entry : String × CachedTool} (mem : entry ∈ session.cached.items) :
    (session.cached.value entry.1).isSome = true := by
  rw [Dictionary.value_eq_some_iff.mpr mem]
  rfl

/-- The session that an operation starts from has the cache of the agent, if it has one. -/
theorem getD_of_mem {old : AgentSession} (found : old ∈ sessions.value agentId) :
    (sessions.value agentId).getD .new = old := by
  rw [Option.mem_def.mp found]
  rfl

theorem settled_new : AgentSession.new.rule.Settled AgentSession.new.cached :=
  .inl (Nat.zero_le _)

theorem Budgeted.getD (budgeted : Budgeted sessions) (agentId : String) :
    ((sessions.value agentId).getD .new).rule.Settled
      ((sessions.value agentId).getD .new).cached := by
  cases found : sessions.value agentId with
  | none => exact settled_new
  | some session => exact budgeted agentId session found

theorem respected_cacheTools_iff (budgeted : Budgeted sessions) (agentId : String)
    (tools : List Loaded) :
    Respected sessions (.cacheTools agentId tools) ↔
      Fitting sessions (.cacheTools agentId tools) := by
  have counts := counts_loadTools ((sessions.value agentId).getD .new) tools
  have outcome : ∀ order next report,
      operate sessions order (.cacheTools agentId tools) = some (next, report) ↔
        ∃ after, (((sessions.value agentId).getD .new).loadTools tools).1.enforceBudget order =
            some after ∧ sessions.insert (agentId, after) = next ∧
          .added (((sessions.value agentId).getD .new).loadTools tools).2.1
            (((sessions.value agentId).getD .new).loadTools tools).2.2 = report := by
    intro order next report
    simp only [operate, Sessions.cacheTools, Option.map_map, Option.map_eq_some_iff,
      Function.comp_apply, Prod.mk.injEq]
  simp only [Fitting]
  rw [← new_stay_iff]
  constructor
  · intro respected order after enforced
    have ⟨_, _, held, found, loads⟩ := respected order _ _
      ((outcome order _ _).mpr ⟨after, enforced, rfl, rfl⟩)
    rw [value_insert_session, if_pos rfl] at found
    cases found
    exact (loads_of_enforceBudget enforced).2.mp loads
  · intro stay order next report operated
    rcases (outcome order next report).mp operated with ⟨after, enforced, rfl, rfl⟩
    have ⟨settled, loads⟩ := loads_of_enforceBudget enforced
    refine ⟨budgeted.insert settled, ?_, after, ?_, loads.mpr (stay order after enforced)⟩
    · apply pinnedStay_insert
      intro old found entry mem isPinned
      rcases enforceBudget_eq_some_iff.mp enforced with ⟨cached, evicted, rfl⟩
      rw [getD_of_mem found] at evicted counts
      have still := counts.kept entry.1 (isSome_of_mem mem)
      rcases Option.isSome_iff_exists.mp still with ⟨tool, here⟩
      have exempt : (old.loadTools tools).1.rule.exempt entry.1 = true := by
        rw [exempt_iff, counts.pinned]
        exact isPinned
      have stays : (entry.1, tool) ∈ cached.items :=
        Eviction.mem_evict_of_exempt evicted (Dictionary.value_eq_some_iff.mp here) exempt
      change (Dictionary.value cached entry.1).isSome = true
      rw [Dictionary.value_eq_some_iff.mpr stays]
      rfl
    · rw [value_insert_session, if_pos rfl]

/-- What `evict` keeps to: the pinned tools, and no other tools than before. -/
structure Evicts (before after : AgentSession) : Prop where
  pinned : after.pinned = before.pinned
  budget : after.maxTokens = before.maxTokens
  sublist : after.cached.items.Sublist before.cached.items
  stay : ∀ entry ∈ before.cached.items, entry.1 ∈ before.pinned → entry ∈ after.cached.items

theorem Evicts.evictOne (evicts : Evicts before session) (evicted : Nat) (toolId : String) :
    Evicts before (session.evictOne evicted toolId).1 := by
  unfold AgentSession.evictOne
  split
  · exact evicts
  · rename_i unpinned
    split
    · refine ⟨evicts.pinned, evicts.budget, List.filter_sublist.trans evicts.sublist, ?_⟩
      intro entry mem isPinned
      apply Keyed.mem_remove_iff.mpr ⟨evicts.stay entry mem isPinned, ?_⟩
      rintro rfl
      rw [← evicts.pinned] at isPinned
      exact unpinned (List.contains_iff_mem.mpr isPinned)
    · exact evicts

theorem evicts_foldl (before : AgentSession) (toolIds : List String) :
    Evicts before (toolIds.foldl (fun kept toolId => kept.1.evictOne kept.2 toolId)
      (before, 0)).1 := by
  have all : ∀ kept : AgentSession × Nat, Evicts before kept.1 →
      Evicts before
        (toolIds.foldl (fun kept toolId => kept.1.evictOne kept.2 toolId) kept).1 := by
    induction toolIds with
    | nil => exact fun _ evicts => evicts
    | cons toolId rest ih =>
        intro kept evicts
        exact ih _ (evicts.evictOne kept.2 toolId)
  exact all (before, 0) ⟨rfl, rfl, List.Sublist.refl _, fun _ mem _ => mem⟩

/-- Fewer tools of one session are settled as well. -/
theorem settled_of_evicts (evicts : Evicts before after)
    (settled : before.rule.Settled before.cached) : after.rule.Settled after.cached := by
  rcases settled with within | allPinned
  · left
    have lighter : after.rule.total after.cached ≤ before.rule.total before.cached :=
      (evicts.sublist.map _).sum_le_sum fun _ _ => Nat.zero_le _
    have same : after.rule.budget = before.rule.budget := evicts.budget
    rw [same]
    exact lighter.trans within
  · right
    intro entry mem
    rw [exempt_iff, evicts.pinned]
    exact exempt_iff.mp (allPinned entry (evicts.sublist.subset mem))

theorem settled_use {toolId : String} {time : Nat}
    (settled : session.rule.Settled session.cached) :
    (session.use toolId time).rule.Settled (session.use toolId time).cached := by
  rcases settled with within | allPinned
  · left
    have same : (session.use toolId time).rule.total (session.use toolId time).cached =
        session.rule.total session.cached := by
      unfold Eviction.total
      rw [items_use, List.map_map]
      congr 1
      apply List.map_congr_left
      intro entry _
      change (if entry.1 = toolId then { entry.2 with lastUsed := time } else
        entry.2).estimatedTokens = entry.2.estimatedTokens
      split <;> rfl
    rw [same]
    exact within
  · right
    intro entry mem
    rw [items_use] at mem
    rcases List.mem_map.mp mem with ⟨old, here, rfl⟩
    exact allPinned old here

/-- An operation keeps to what it should, whatever tools go, exactly if what it brings in
fits. -/
theorem respected_iff (budgeted : Budgeted sessions) (operation : Operation) :
    Respected sessions operation ↔ Fitting sessions operation := by
  cases operation with
  | cacheTools agentId tools => exact respected_cacheTools_iff budgeted agentId tools
  | evict agentId toolIds =>
      refine iff_of_true ?_ trivial
      intro order next report operated
      simp only [operate, Sessions.evict] at operated
      cases found : sessions.value agentId with
      | none =>
          rw [found] at operated
          cases operated
          exact ⟨budgeted, .refl sessions, trivial⟩
      | some session =>
          rw [found] at operated
          cases operated
          have evicts := evicts_foldl session toolIds
          have settled := settled_of_evicts evicts (budgeted agentId session found)
          refine ⟨budgeted.insert settled, ?_, trivial⟩
          apply pinnedStay_insert
          intro old same entry mem isPinned
          rw [found] at same
          cases same
          exact isSome_of_mem (evicts.stay entry mem isPinned)
  | setPinned agentId toolIds =>
      have settled_iff : ∀ session : AgentSession,
          ({ session with pinned := toolIds } : AgentSession).rule.Settled session.cached ↔
            (session.rule.total session.cached ≤ session.maxTokens ∨
              ∀ entry ∈ session.cached.items, entry.1 ∈ toolIds) := by
        intro session
        apply or_congr Iff.rfl
        apply forall₂_congr
        intro entry _
        exact exempt_iff
      constructor
      · intro respected session found
        have next := (respected [] _ _ rfl).1 agentId _ Dictionary.value_insert_self
        rw [getD_of_mem found] at next
        exact (settled_iff session).mp next
      · intro fitting order next report operated
        simp only [operate, Sessions.setPinned] at operated
        cases operated
        refine ⟨budgeted.insert ?_, ?_, trivial⟩
        · apply (settled_iff ((sessions.value agentId).getD .new)).mpr
          cases found : sessions.value agentId with
          | none => exact .inl (Nat.zero_le _)
          | some session => exact fitting session found
        · apply pinnedStay_insert
          intro old found entry mem _
          rw [getD_of_mem found]
          exact isSome_of_mem mem
  | touch agentId toolId time =>
      refine iff_of_true ?_ trivial
      intro order next report operated
      simp only [operate, Sessions.touch] at operated
      cases found : sessions.value agentId with
      | none =>
          rw [found] at operated
          cases operated
          exact ⟨budgeted, .refl sessions, trivial⟩
      | some session =>
          rw [found] at operated
          cases operated
          refine ⟨budgeted.insert (settled_use (budgeted agentId session found)), ?_, trivial⟩
          apply pinnedStay_insert
          intro old same entry mem _
          rw [found] at same
          cases same
          rw [isSome_use]
          exact isSome_of_mem mem

/-! ## Runs -/

/-- No agent has a session. -/
def none : Sessions :=
  Keyed.empty Prod.fst

theorem budgeted_none : Budgeted none := by
  intro agentId session found
  cases found

theorem Respected.budgeted {label : Label} {next : Sessions}
    (respected : Respected sessions label.operation) (stepEq : step sessions label = some next) :
    Budgeted next := by
  rcases Option.map_eq_some_iff.mp stepEq with ⟨⟨target, report⟩, operated, rfl⟩
  exact (respected label.order target report operated).1

/-- In every run the operations keep to what they should exactly if what they bring in
fits. -/
theorem respected_along_iff (labels : List Label) :
    Along step (fun sessions label => Respected sessions label.operation) none labels ↔
      Along step (fun sessions label => Fitting sessions label.operation) none labels :=
  along_congr_of (fun _ label budgeted => respected_iff budgeted label.operation)
    (fun _ _ _ _ respected stepEq => Respected.budgeted respected stepEq) budgeted_none labels

/-- A tool of more tokens than the budget has. -/
def large : Loaded :=
  ⟨"files.read_everything", 9000, 1⟩

/-- The large tool is pinned, loaded and no longer pinned. -/
def unpinning : List Label :=
  [⟨.setPinned "agent.a" ["files.read_everything"], []⟩, ⟨.cacheTools "agent.a" [large], []⟩,
    ⟨.setPinned "agent.a" [], []⟩]

/-- A cache is left over its budget without a pinned tool, and a tool is reported as added
that is not in the cache. -/
theorem unpinned_and_dropped :
    (∃ sessions, run step none unpinning = some sessions ∧ ¬ Budgeted sessions) ∧
      ∃ next, operate none ["files.read_everything"] (.cacheTools "agent.a" [large]) =
          some (next, .added 1 9000) ∧
        (next.value "agent.a").map (fun session => session.cached.items) = some [] ∧
        ¬ Respected none (.cacheTools "agent.a" [large]) := by
  constructor
  · have runs : (run step none unpinning).map (fun sessions =>
        (sessions.value "agent.a").map fun session =>
          decide (session.rule.Settled session.cached)) = some (some false) := by
      decide +kernel
    rcases Option.map_eq_some_iff.mp runs with ⟨sessions, ran, seen⟩
    rcases Option.map_eq_some_iff.mp seen with ⟨session, found, settled⟩
    refine ⟨sessions, ran, ?_⟩
    intro budgeted
    exact of_decide_eq_false settled (budgeted "agent.a" session found)
  · have loads : (operate none ["files.read_everything"] (.cacheTools "agent.a" [large])).map
        (fun (next, report) =>
          (report, (next.value "agent.a").map fun session => session.cached.items)) =
          some (.added 1 9000, some []) := by
      decide +kernel
    rcases Option.map_eq_some_iff.mp loads with ⟨⟨next, report⟩, operated, seen⟩
    rcases Prod.mk.inj seen with ⟨reported, empty⟩
    cases reported
    refine ⟨next, operated, empty, ?_⟩
    intro respected
    have ⟨_, _, after, found, isLoaded⟩ := respected _ _ _ operated
    rw [found] at empty
    have noItems : after.cached.items = [] := Option.some.inj empty
    have counted := isLoaded.reported
    rw [newIn, noItems] at counted
    cases counted

end ClotoCore.Mcp.ToolCache
