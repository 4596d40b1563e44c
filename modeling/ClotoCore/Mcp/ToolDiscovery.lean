import ClotoCore.Access.Gate
import ClotoCore.Access.Readers
import ClotoCore.Approval.Classification
import ClotoCore.Encoding.Text
import ClotoCore.Json.Value
import ClotoCore.Sequence.Sorted
import Mathlib.Order.OrderDual

/-!
# Discovery of tools

The index of all tools is searched for words, in order of relevance, or for categories.
A search for words looks at the whole filter; a search for categories looks at the
categories alone.
-/

namespace ClotoCore.Mcp.ToolDiscovery

open ClotoCore.Access ClotoCore.Approval ClotoCore.Encoding ClotoCore.Json ClotoCore.Sequence

universe u

/-- `LatencyTier` -/
inductive LatencyTier where
  | c
  | b
  | a
  | s
  deriving DecidableEq

/-- `CodeSafetyMetadata` and the rest is left out: only the level is looked at. -/
structure ToolSecurityMetadata where
  effectiveRiskLevel : RiskLevel
  deriving DecidableEq

/-- `ToolIndexEntry` -/
structure ToolIndexEntry where
  toolId : String
  serverId : String
  name : String
  description : String
  categories : List String
  keywords : List String
  inputSchema : Value
  security : Option ToolSecurityMetadata
  estimatedTokens : Nat
  latencyTier : LatencyTier

/-- `ToolSearchFilter` -/
structure ToolSearchFilter where
  categories : Option (List String)
  riskLevelMax : Option String

/-- What the kernel computes with: `str::to_lowercase`, and floating-point numbers, which
are in order as no score is NaN.  `tenths` reads a literal with one digit behind the
point. -/
structure Arithmetic (φ : Type u) where
  toLowercase : String → String
  tenths : Nat → φ
  ofNat : Nat → φ
  add : φ → φ → φ
  mul : φ → φ → φ
  div : φ → φ → φ

variable {φ : Type u} [LinearOrder φ] (arithmetic : Arithmetic φ)

/-! ## Scores -/

/-- `score_multiplier` -/
def LatencyTier.scoreMultiplier : LatencyTier → φ
  | .c => arithmetic.tenths 10
  | .b => arithmetic.tenths 9
  | .a => arithmetic.tenths 7
  | .s => arithmetic.tenths 5

/-- `str::contains` -/
def containsText (text part : String) : Bool :=
  text.toList.tails.any part.toList.isPrefixOf

/-- `split_whitespace` -/
def splitWhitespace (text : String) : List String :=
  ((text.toList.splitOnP isWhitespace).filter fun word => !word.isEmpty).map String.ofList

/-- What one word of the query adds, if it matches. -/
def tokenScore (entry : ToolIndexEntry) (token : String) : Option φ :=
  if arithmetic.toLowercase entry.name == token ||
      containsText (arithmetic.toLowercase entry.name) token then
    some (arithmetic.tenths 10)
  else if containsText (arithmetic.toLowercase entry.description) token then
    some (arithmetic.tenths 5)
  else if entry.keywords.contains token then
    some (arithmetic.tenths 3)
  else if entry.categories.any fun category =>
      containsText (arithmetic.toLowercase category) token then
    some (arithmetic.tenths 2)
  else none

/-- `compute_relevance_score` -/
def computeRelevanceScore (entry : ToolIndexEntry) (queryTokens : List String) : φ :=
  let totalScore := queryTokens.foldl (fun total token =>
    match tokenScore arithmetic entry token with
    | some score => arithmetic.add total score
    | none => total) (arithmetic.tenths 0)
  arithmetic.mul (arithmetic.div totalScore (arithmetic.ofNat queryTokens.length))
    (entry.latencyTier.scoreMultiplier arithmetic)

/-! ## Filters -/

/-- The name of a level, in lower case. -/
def riskName : RiskLevel → String
  | .safe => "safe"
  | .moderate => "moderate"
  | .dangerous => "dangerous"

/-- The level of a name, which is the highest for any other text. -/
def riskRank (name : String) : Nat :=
  match name with
  | "safe" => 0
  | "moderate" => 1
  | "dangerous" => 2
  | _ => 3

/-- `risk_within_max` -/
def riskWithinMax (risk max : String) : Bool :=
  riskRank risk ≤ riskRank max

/-- One of the categories is listed, in any case of letters. -/
def listed (categories : List String) (entry : ToolIndexEntry) : Bool :=
  entry.categories.any fun category =>
    (categories.map arithmetic.toLowercase).contains (arithmetic.toLowercase category)

/-- `matches_filter` -/
def matchesFilter (filter : ToolSearchFilter) (entry : ToolIndexEntry) : Bool :=
  (match filter.categories with
    | some categories => listed arithmetic categories entry
    | none => true) &&
  match filter.riskLevelMax, entry.security with
  | some maxRisk, some security => riskWithinMax (riskName security.effectiveRiskLevel) maxRisk
  | _, _ => true

/-! ## Searches -/

/-- `search_keyword` -/
def searchKeyword (entries : List ToolIndexEntry) (query : String) (maxResults : Nat)
    (filter : ToolSearchFilter) : List (ToolIndexEntry × φ) :=
  let queryTokens := splitWhitespace (arithmetic.toLowercase query)
  if queryTokens.isEmpty then []
  else
    let scored := (entries.filter (matchesFilter arithmetic filter)).filterMap fun entry =>
      let score := computeRelevanceScore arithmetic entry queryTokens
      if arithmetic.tenths 0 < score then some (entry, score) else none
    (sortBy (fun found => OrderDual.toDual found.2) scored).take maxResults

/-- `search_category` -/
def searchCategory (entries : List ToolIndexEntry) (categories : List String)
    (maxResults : Nat) : List (ToolIndexEntry × φ) :=
  ((entries.filter (listed arithmetic categories)).map fun entry =>
    (entry, arithmetic.tenths 10)).take maxResults

/-- What is answered: of each tool the name, the server, the description, the schema and the
security, with the score rounded. -/
structure Response (φ : Type u) where
  tools : List (ToolIndexEntry × φ)
  totalAvailable : Nat
  searchStrategy : String
  fallbackStrategy : Option String

/-- `invalid_tool_arg` -/
def invalidToolArg (message : String) : ToolFailure :=
  .mgpError 4000 message

/-- The filter of the arguments: what is no text is passed over. -/
def filterOf (args : Value) : ToolSearchFilter where
  categories := (((args.get "filter").bind fun filter => filter.get "categories").bind
    Value.asArray).map fun items => items.filterMap Value.asStr
  riskLevelMax := (args.get "filter").bind fun filter => filter.getStr "risk_level_max"

/-- `max_results`, or five. -/
def maxResultsOf (args : Value) : Nat :=
  match (args.get "max_results").bind Value.asU64 with
  | some count => count.toNat
  | none => 5

/-- `strategy`, or keyword. -/
def strategyOf (args : Value) : String :=
  (args.getStr "strategy").getD "keyword"

/-- `execute_tools_discover` -/
def executeToolsDiscover (entries : List ToolIndexEntry) (args : Value) :
    Except ToolFailure (Response φ) :=
  match args.getStr "query" with
  | none => .error (invalidToolArg (missingToolArg "query"))
  | some query =>
      let filter := filterOf args
      let byKeyword := searchKeyword arithmetic entries query (maxResultsOf args) filter
      match strategyOf args with
      | "category" =>
          let categories := filter.categories.getD []
          if categories.isEmpty then
            .error (invalidToolArg "Category search requires filter.categories")
          else
            .ok {
              tools := searchCategory arithmetic entries categories (maxResultsOf args)
              totalAvailable := entries.length
              searchStrategy := "category"
              fallbackStrategy := none }
      | "semantic" =>
          .ok {
            tools := byKeyword
            totalAvailable := entries.length
            searchStrategy := "keyword"
            fallbackStrategy := some "keyword" }
      | _ =>
          .ok {
            tools := byKeyword
            totalAvailable := entries.length
            searchStrategy := "keyword"
            fallbackStrategy := none }

/-! ## What a discovery promises -/

/-- The level that a text names. -/
def RiskLevel.named : String → Option RiskLevel
  | "safe" => some .safe
  | "moderate" => some .moderate
  | "dangerous" => some .dangerous
  | _ => none

/-- A level is not above the one that a filter names. -/
def WithinMax (filter : ToolSearchFilter) (entry : ToolIndexEntry) : Prop :=
  ∀ name ∈ filter.riskLevelMax, ∀ max ∈ RiskLevel.named name, ∀ security ∈ entry.security,
    security.effectiveRiskLevel.rank ≤ max.rank

/-- One of the categories is listed in the filter, if it lists any. -/
def InCategories (filter : ToolSearchFilter) (entry : ToolIndexEntry) : Prop :=
  ∀ categories ∈ filter.categories, ∃ category ∈ entry.categories, ∃ name ∈ categories,
    arithmetic.toLowercase category = arithmetic.toLowercase name

/-- How a tool ranks under a strategy. -/
def rankUnder (args : Value) (query : String) (entry : ToolIndexEntry) : φ :=
  if strategyOf args = "category" then arithmetic.tenths 10
  else computeRelevanceScore arithmetic entry (splitWhitespace (arithmetic.toLowercase query))

/-- A search for words matches a tool with a score above zero, if there are words; a search
for categories matches what its filter lists. -/
def MatchesUnder (args : Value) (query : String) (entry : ToolIndexEntry) : Prop :=
  strategyOf args = "category" ∨
    splitWhitespace (arithmetic.toLowercase query) ≠ [] ∧
      arithmetic.tenths 0 < rankUnder arithmetic args query entry

/-- Each tool found satisfies the filter, and one that satisfies it and matches is left out
only for as many as were asked for that rank at least as high. -/
structure Found (entries : List ToolIndexEntry) (args : Value) (query : String)
    (response : Response φ) : Prop where
  satisfied : ∀ found ∈ response.tools, found.1 ∈ entries ∧
    InCategories arithmetic (filterOf args) found.1 ∧ WithinMax (filterOf args) found.1
  complete : ∀ entry ∈ entries, InCategories arithmetic (filterOf args) entry →
    WithinMax (filterOf args) entry → MatchesUnder arithmetic args query entry →
      entry ∉ response.tools.map Prod.fst →
        response.tools.length = maxResultsOf args ∧ ∀ found ∈ response.tools,
          rankUnder arithmetic args query entry ≤ rankUnder arithmetic args query found.1

/-- What a discovery promises, where it finds tools at all. -/
def Discovers (entries : List ToolIndexEntry) (args : Value) : Prop :=
  ∀ query response, args.getStr "query" = some query →
    executeToolsDiscover arithmetic entries args = .ok response →
      Found arithmetic entries args query response

/-- A search for categories is not given a level that one of the first tools of these
categories is above. -/
def Harmless (entries : List ToolIndexEntry) (args : Value) : Prop :=
  (args.getStr "query").isSome → strategyOf args = "category" →
    ∀ categories ∈ (filterOf args).categories,
      ∀ entry ∈ (entries.filter (listed arithmetic categories)).take (maxResultsOf args),
        WithinMax (filterOf args) entry

/-! ## The filter -/

variable {arithmetic} {entries : List ToolIndexEntry} {args : Value} {query : String}
  {entry : ToolIndexEntry} {filter : ToolSearchFilter} {maxResults : Nat}

omit [LinearOrder φ] in
theorem listed_iff {categories : List String} :
    listed arithmetic categories entry = true ↔ ∃ category ∈ entry.categories,
      ∃ name ∈ categories, arithmetic.toLowercase category = arithmetic.toLowercase name := by
  simp only [listed, List.any_eq_true, List.contains_iff_mem, List.mem_map]
  constructor
  · rintro ⟨category, mem, name, isListed, same⟩
    exact ⟨category, mem, name, isListed, same.symm⟩
  · rintro ⟨category, mem, name, isListed, same⟩
    exact ⟨category, mem, name, isListed, same.symm⟩

theorem riskRank_riskName (level : RiskLevel) : riskRank (riskName level) = level.rank := by
  cases level <;> rfl

theorem riskRank_eq (name : String) :
    riskRank name = ((RiskLevel.named name).map RiskLevel.rank).getD 3 := by
  unfold riskRank RiskLevel.named
  split <;> rfl

/-- The comparison of the names is that of the levels, and another text bounds nothing. -/
theorem riskWithinMax_iff {level : RiskLevel} {name : String} :
    riskWithinMax (riskName level) name = true ↔
      ∀ max ∈ RiskLevel.named name, level.rank ≤ max.rank := by
  rw [riskWithinMax, riskRank_riskName, riskRank_eq, decide_eq_true_eq]
  cases RiskLevel.named name with
  | none => cases level <;> simp [RiskLevel.rank]
  | some max => simp

omit [LinearOrder φ] in
theorem matchesFilter_iff :
    matchesFilter arithmetic filter entry = true ↔
      InCategories arithmetic filter entry ∧ WithinMax filter entry := by
  unfold matchesFilter InCategories WithinMax
  rw [Bool.and_eq_true]
  apply and_congr
  · cases filter.categories with
    | none => simp
    | some categories => simp only [listed_iff, Option.mem_some_iff, forall_eq']
  · cases filter.riskLevelMax with
    | none => simp
    | some name =>
        cases entry.security with
        | none => simp
        | some security => simp only [riskWithinMax_iff, Option.mem_some_iff, forall_eq']

/-! ## The searches -/

/-- A search for words finds tools that satisfy the filter, with their scores. -/
theorem mem_searchKeyword {found : ToolIndexEntry × φ}
    (mem : found ∈ searchKeyword arithmetic entries query maxResults filter) :
    found.1 ∈ entries ∧ matchesFilter arithmetic filter found.1 = true ∧
      found.2 = computeRelevanceScore arithmetic found.1
        (splitWhitespace (arithmetic.toLowercase query)) := by
  unfold searchKeyword at mem
  dsimp only at mem
  split at mem
  · cases mem
  · have scored := mem_sortBy.mp (List.mem_of_mem_take mem)
    rcases List.mem_filterMap.mp scored with ⟨entry, here, made⟩
    rcases List.mem_filter.mp here with ⟨inEntries, satisfied⟩
    split at made
    · cases made
      exact ⟨inEntries, satisfied, rfl⟩
    · cases made

/-- What a search for words leaves out ranks no higher than what it finds, which is as much
as was asked for. -/
theorem searchKeyword_complete (mem : entry ∈ entries)
    (satisfied : matchesFilter arithmetic filter entry = true)
    (words : splitWhitespace (arithmetic.toLowercase query) ≠ [])
    (scores : arithmetic.tenths 0 < computeRelevanceScore arithmetic entry
      (splitWhitespace (arithmetic.toLowercase query)))
    (out : entry ∉
      (searchKeyword arithmetic entries query maxResults filter).map Prod.fst) :
    (searchKeyword arithmetic entries query maxResults filter).length = maxResults ∧
      ∀ found ∈ searchKeyword arithmetic entries query maxResults filter,
        computeRelevanceScore arithmetic entry
          (splitWhitespace (arithmetic.toLowercase query)) ≤ found.2 := by
  unfold searchKeyword at out ⊢
  have someWords : ¬ (splitWhitespace (arithmetic.toLowercase query)).isEmpty = true := by
    rwa [List.isEmpty_iff]
  dsimp only at out ⊢
  rw [if_neg someWords] at out ⊢
  have behind : (entry, computeRelevanceScore arithmetic entry
      (splitWhitespace (arithmetic.toLowercase query))) ∉ List.take maxResults _ :=
    fun here => out (List.mem_map_of_mem here)
  apply related_of_notMem_take (pairwise_sortBy _ _) _ behind
  apply mem_sortBy.mpr
  apply List.mem_filterMap.mpr
  exact ⟨entry, List.mem_filter.mpr ⟨mem, satisfied⟩, if_pos scores⟩

omit [LinearOrder φ] in
theorem mem_searchCategory {categories : List String} {found : ToolIndexEntry × φ} :
    found ∈ searchCategory arithmetic entries categories maxResults ↔
      found.1 ∈ (entries.filter (listed arithmetic categories)).take maxResults ∧
        found.2 = arithmetic.tenths 10 := by
  unfold searchCategory
  rw [← List.map_take, List.mem_map]
  constructor
  · rintro ⟨entry, here, rfl⟩
    exact ⟨here, rfl⟩
  · rintro ⟨here, score⟩
    exact ⟨found.1, here, Prod.ext rfl score.symm⟩

omit [LinearOrder φ] in
/-- What a search for categories leaves out leaves room for nothing else. -/
theorem searchCategory_complete {categories : List String} (mem : entry ∈ entries)
    (isListed : listed arithmetic categories entry = true)
    (out : entry ∉ (searchCategory arithmetic entries categories maxResults).map Prod.fst) :
    (searchCategory arithmetic entries categories maxResults).length = maxResults := by
  have behind : entry ∉ (entries.filter (listed arithmetic categories)).take maxResults := by
    intro here
    exact out (List.mem_map.mpr ⟨(entry, arithmetic.tenths 10),
      mem_searchCategory.mpr ⟨here, rfl⟩, rfl⟩)
  have unordered : (entries.filter (listed arithmetic categories)).Pairwise fun _ _ => True :=
    List.pairwise_of_forall fun _ _ => trivial
  have full := (related_of_notMem_take unordered (List.mem_filter.mpr ⟨mem, isListed⟩) behind).1
  unfold searchCategory
  rw [← List.map_take, List.length_map]
  exact full

/-! ## Discovery -/

/-- A search for words keeps the promise. -/
theorem found_keyword {response : Response φ} (strategy : strategyOf args ≠ "category")
    (tools : response.tools =
      searchKeyword arithmetic entries query (maxResultsOf args) (filterOf args)) :
    Found arithmetic entries args query response := by
  have ranks : ∀ entry, rankUnder arithmetic args query entry = computeRelevanceScore arithmetic
      entry (splitWhitespace (arithmetic.toLowercase query)) := fun _ => if_neg strategy
  constructor
  · intro found mem
    rw [tools] at mem
    rcases mem_searchKeyword mem with ⟨inEntries, satisfied, -⟩
    exact ⟨inEntries, matchesFilter_iff.mp satisfied⟩
  · intro entry mem inCategories withinMax isMatched out
    rcases isMatched.resolve_left strategy with ⟨words, scores⟩
    rw [tools] at out ⊢
    rw [ranks] at scores
    have satisfied := matchesFilter_iff.mpr ⟨inCategories, withinMax⟩
    have ⟨full, ranked⟩ := searchKeyword_complete mem satisfied words scores out
    refine ⟨full, ?_⟩
    intro found here
    rw [ranks, ranks, ← (mem_searchKeyword here).2.2]
    exact ranked found here

/-- A search for categories keeps the promise exactly if none of the tools it finds is above
the level of the filter. -/
theorem found_category_iff {response : Response φ} {categories : List String}
    (strategy : strategyOf args = "category")
    (given : (filterOf args).categories = some categories)
    (tools : response.tools =
      searchCategory arithmetic entries categories (maxResultsOf args)) :
    Found arithmetic entries args query response ↔
      ∀ entry ∈ (entries.filter (listed arithmetic categories)).take (maxResultsOf args),
        WithinMax (filterOf args) entry := by
  have inCategories_iff : ∀ entry, InCategories arithmetic (filterOf args) entry ↔
      listed arithmetic categories entry = true := by
    intro entry
    rw [InCategories, given, listed_iff]
    simp only [Option.mem_some_iff, forall_eq']
  have ranks : ∀ entry, rankUnder arithmetic args query entry = arithmetic.tenths 10 :=
    fun _ => if_pos strategy
  constructor
  · intro found entry mem
    have here : (entry, arithmetic.tenths 10) ∈ response.tools := by
      rw [tools]
      exact mem_searchCategory.mpr ⟨mem, rfl⟩
    exact (found.satisfied _ here).2.2
  · intro within
    constructor
    · intro found mem
      rw [tools] at mem
      have here := (mem_searchCategory.mp mem).1
      have ⟨inEntries, isListed⟩ := List.mem_filter.mp (List.mem_of_mem_take here)
      exact ⟨inEntries, (inCategories_iff found.1).mpr isListed, within found.1 here⟩
    · intro entry mem inCategories _ _ out
      rw [tools] at out ⊢
      refine ⟨searchCategory_complete mem ((inCategories_iff entry).mp inCategories) out, ?_⟩
      intro found _
      rw [ranks, ranks]

/-- Every strategy but one searches for words. -/
theorem executeToolsDiscover_keyword (arithmetic : Arithmetic φ) (entries : List ToolIndexEntry)
    (asked : args.getStr "query" = some query)
    (strategy : strategyOf args ≠ "category") :
    ∃ response, executeToolsDiscover arithmetic entries args = .ok response ∧
      response.tools =
        searchKeyword arithmetic entries query (maxResultsOf args) (filterOf args) := by
  unfold executeToolsDiscover
  rw [asked]
  dsimp only
  split
  · rename_i isCategory
    exact absurd isCategory strategy
  · exact ⟨_, rfl, rfl⟩
  · exact ⟨_, rfl, rfl⟩

/-- A search for categories needs some. -/
theorem executeToolsDiscover_category (arithmetic : Arithmetic φ) (entries : List ToolIndexEntry)
    (asked : args.getStr "query" = some query)
    (strategy : strategyOf args = "category") :
    if ((filterOf args).categories.getD []).isEmpty then
      ∃ failure, executeToolsDiscover arithmetic entries args = .error failure
    else
      ∃ response, executeToolsDiscover arithmetic entries args = .ok response ∧
        response.tools = searchCategory arithmetic entries ((filterOf args).categories.getD [])
          (maxResultsOf args) := by
  unfold executeToolsDiscover
  rw [asked, strategy]
  dsimp only
  split
  · exact ⟨_, rfl⟩
  · exact ⟨_, rfl, rfl⟩

/-- A discovery that answers keeps its promise exactly if the answer does. -/
theorem discovers_iff_found {response : Response φ} (asked : args.getStr "query" = some query)
    (answered : executeToolsDiscover arithmetic entries args = .ok response) :
    Discovers arithmetic entries args ↔ Found arithmetic entries args query response := by
  constructor
  · intro discovers
    exact discovers query response asked answered
  · intro found other otherResponse same otherAnswered
    rw [asked] at same
    rw [answered] at otherAnswered
    cases same
    cases otherAnswered
    exact found

/-- A discovery keeps its promise exactly if it does not search for categories with a level
that one of the first tools of these categories is above. -/
theorem discovers_iff (arithmetic : Arithmetic φ) (entries : List ToolIndexEntry)
    (args : Value) :
    Discovers arithmetic entries args ↔ Harmless arithmetic entries args := by
  cases asked : args.getStr "query" with
  | none => simp [Discovers, Harmless, asked]
  | some query =>
      by_cases strategy : strategyOf args = "category"
      · have harmless : Harmless arithmetic entries args ↔
            ∀ categories ∈ (filterOf args).categories,
              ∀ entry ∈ (entries.filter (listed arithmetic categories)).take (maxResultsOf args),
                WithinMax (filterOf args) entry := by
          simp [Harmless, asked, strategy]
        have outcome := executeToolsDiscover_category arithmetic entries asked strategy
        rw [harmless]
        cases given : (filterOf args).categories with
        | none =>
            rw [given] at outcome
            rcases outcome with ⟨failure, failed⟩
            simp [Discovers, failed]
        | some categories =>
            rw [given, Option.getD_some] at outcome
            simp only [Option.mem_some_iff, forall_eq']
            cases empty : categories.isEmpty with
            | true =>
                rw [empty, if_pos rfl] at outcome
                rcases outcome with ⟨failure, failed⟩
                apply iff_of_true
                · simp [Discovers, failed]
                · intro entry mem
                  have isListed := (List.mem_filter.mp (List.mem_of_mem_take mem)).2
                  rcases listed_iff.mp isListed with ⟨_, _, name, impossible, _⟩
                  rw [List.isEmpty_iff.mp empty] at impossible
                  cases impossible
            | false =>
                rw [empty, if_neg Bool.false_ne_true] at outcome
                rcases outcome with ⟨response, answered, tools⟩
                rw [discovers_iff_found asked answered]
                exact found_category_iff strategy given tools
      · rcases executeToolsDiscover_keyword arithmetic entries asked strategy with
          ⟨response, answered, tools⟩
        apply iff_of_true
        · exact (discovers_iff_found asked answered).mpr (found_keyword strategy tools)
        · intro _ isCategory
          exact absurd isCategory strategy

/-! ## A tool above the level -/

/-- Tenths as natural numbers, rounded down. -/
def tenthsArithmetic : Arithmetic Nat where
  toLowercase := toAsciiLowercase
  tenths := id
  ofNat := fun count => count
  add := fun left right => left + right
  mul := fun left right => left * right / 10
  div := fun left right => left / right

/-- A tool that runs commands. -/
def runCommand : ToolIndexEntry where
  toolId := "tool.terminal.run_command"
  serverId := "tool.terminal"
  name := "run_command"
  description := "Run a command"
  categories := ["terminal", "run"]
  keywords := ["run", "command"]
  inputSchema := .null
  security := some ⟨.dangerous⟩
  estimatedTokens := 101
  latencyTier := .c

/-- Safe tools of the category `terminal` are asked for. -/
def safeTerminal : Value :=
  .object [("query", .string "terminal"), ("strategy", .string "category"),
    ("filter", .object [("categories", .array [.string "terminal"]),
      ("risk_level_max", .string "safe")])]

/-- A dangerous tool is found where safe ones are asked for. -/
theorem dangerous_found :
    ∃ response : Response Nat,
      executeToolsDiscover tenthsArithmetic [runCommand] safeTerminal = .ok response ∧
      response.tools = [(runCommand, 10)] ∧
      ¬ Discovers tenthsArithmetic [runCommand] safeTerminal := by
  have answered : executeToolsDiscover tenthsArithmetic [runCommand] safeTerminal =
      .ok ⟨[(runCommand, 10)], 1, "category", none⟩ := rfl
  refine ⟨_, answered, rfl, ?_⟩
  intro discovers
  have found := discovers "terminal" _ rfl answered
  have within := (found.satisfied (runCommand, 10) List.mem_cons_self).2.2
  have above := within "safe" rfl .safe rfl ⟨.dangerous⟩ rfl
  revert above
  decide

end ClotoCore.Mcp.ToolDiscovery
