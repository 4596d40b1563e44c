import ClotoCore.Encoding.Text
import ClotoCore.Json.Value

/-!
# The era of a connection

When a client connects to a server it decides once which era of the protocol the
server speaks.  It probes for the modern one and falls back to the handshake; a
server that rejects the version asked for is probed again at one that both speak.
The two ways to a second probe do not repeat the check that the first one makes of
a reply.
-/

namespace ClotoCore.Mcp.Era

open ClotoCore.Encoding ClotoCore.Json

/-- `MODERN_PROTOCOL_VERSIONS`, oldest first. -/
def modernProtocolVersions : List String :=
  ["2026-07-28"]

/-- `MODERN_PROTOCOL_VERSION` -/
def modernProtocolVersion : String := "2026-07-28"

/-- `HANDSHAKE_PROTOCOL_VERSIONS` -/
def handshakeProtocolVersions : List String :=
  ["2024-11-05", "2025-03-26", "2025-06-18", "2025-11-25"]

/-- `UNSUPPORTED_PROTOCOL_VERSION` -/
def unsupportedProtocolVersion : Int := -32022

/-- `highest_mutual_modern_version` -/
def highestMutualModernVersion (offered : List String) : Option String :=
  modernProtocolVersions.reverse.find? fun version => offered.any fun other => other == version

/-- `offers_handshake_version` -/
def offersHandshakeVersion (offered : List String) : Bool :=
  offered.any fun version => handshakeProtocolVersions.contains version

/-! ## Answers -/

/-- `RpcError` -/
structure RpcError where
  code : Int
  message : String
  data : Option Value

/-- `RpcError::supported_versions` -/
def RpcError.supportedVersions (error : RpcError) : List String :=
  (((error.data.bind fun data => data.get "supported").bind Value.asArray).map fun items =>
    items.filterMap Value.asStr).getD []

/-- Why a call has no result.  The transport of HTTP reports its own failures as
errors of the server. -/
inductive CallError where
  | rpc (error : RpcError)
  | requestTimeout
  | transport (text : String)

/-- The result of a call, or why there is none. -/
abbrev Answer := Except CallError Value

/-- A reply to `server/discover`, as far as the negotiation reads it. -/
structure DiscoverResult where
  supportedVersions : List String
  capabilities : Option Value
  instructions : Option String

/-- `Value::as_i64` -/
def isI64 : Value → Bool
  | .number literal =>
      literal.fraction.isEmpty && literal.exponent.isNone &&
        if literal.negative then 0 < literal.integer && literal.integer ≤ 9223372036854775808
        else literal.integer ≤ 9223372036854775807
  | _ => false

/-- An optional field of a record: absent, null or well formed. -/
def isOptional (wellFormed : Value → Bool) (field : Option Value) : Bool :=
  field.all fun value => value.isNull || wellFormed value

/-- A list of texts. -/
def readTexts (value : Value) : Option (List String) :=
  value.asArray.bind fun items =>
    if items.all fun item => item.asStr.isSome then some (items.filterMap Value.asStr) else none

/-- The fields of a `DiscoverResult`, by their names or by their places. -/
def discoverField (value : Value) (name : String) (place : Nat) : Option Value :=
  match value with
  | .array items => items[place]?
  | _ => value.get name

/-- `serde_json::from_value::<DiscoverResult>` -/
def DiscoverResult.fromValue (value : Value) : Option DiscoverResult :=
  let isText := fun field : Value => field.asStr.isSome
  let shape := match value with
    | .array items => items.length ≤ 7
    | .object _ => true
    | _ => false
  if shape && isOptional isI64 (discoverField value "ttlMs" 1) &&
      isOptional isText (discoverField value "cacheScope" 2) &&
      isOptional isText (discoverField value "instructions" 4) &&
      isOptional isText (discoverField value "resultType" 5) then
    ((discoverField value "supportedVersions" 0).bind readTexts).map fun versions =>
      { supportedVersions := versions
        capabilities := (discoverField value "capabilities" 3).filter fun field => !field.isNull
        instructions := (discoverField value "instructions" 4).bind Value.asStr }
  else none

/-- `DiscoverResult::mutual_modern_version` -/
def DiscoverResult.mutualModernVersion (discovered : DiscoverResult) : Option String :=
  highestMutualModernVersion discovered.supportedVersions

/-- `ProbeOutcome` -/
inductive ProbeOutcome where
  | discovered (result : DiscoverResult)
  | versionRejected (supported : List String)
  | fallBackToLegacy (reason : String)
  | transport (error : CallError)

/-- `classify_probe_error` -/
def classifyProbeError : CallError → ProbeOutcome
  | .rpc error =>
      if error.code = unsupportedProtocolVersion then .versionRejected error.supportedVersions
      else .fallBackToLegacy s!"RPC Error {error.code}: {error.message}"
  | .requestTimeout => .fallBackToLegacy "probe timed out"
  | .transport text => .transport (.transport text)

/-- How `probe_discover` reads its answer. -/
def Answer.probeOutcome : Answer → ProbeOutcome
  | .ok value =>
      match DiscoverResult.fromValue value with
      | some discovered => .discovered discovered
      | none => .fallBackToLegacy "unparseable discover result"
  | .error error => classifyProbeError error

/-- The version that both speak, where the server rejects the one it was asked for. -/
def Answer.correctiveVersion : Answer → Option String
  | .error (.rpc error) =>
      if error.code = unsupportedProtocolVersion then
        highestMutualModernVersion error.supportedVersions
      else none
  | _ => none

/-! ## The negotiation -/

/-- `EraPreference` -/
inductive EraPreference where
  | auto
  | legacyOnly
  deriving DecidableEq

/-- `ProtocolEra` -/
inductive ProtocolEra where
  | legacy
  | modern (version : String)
  deriving DecidableEq

/-- What a server says to the probes in turn, to `initialize` and to `logging/setLevel`. -/
structure Server where
  probe : Nat → Answer
  initializeAnswer : Answer
  setLevel : Answer

/-- The requests of a negotiation. -/
inductive Request where
  | discover (version : String)
  | initializeRequest
  | setLevel
  deriving DecidableEq

/-- A request and its answer. -/
structure Exchange where
  request : Request
  answer : Answer

/-- Why `negotiate` fails: a call did, or there is no version that both speak. -/
inductive NegotiationError where
  | call (error : CallError)
  | versionMismatch (supported : List String)

/-- `NegotiatedProtocol` -/
structure NegotiatedProtocol (Caps : Type) where
  era : ProtocolEra
  mgp : Option Caps
  instructions : Option String

/-- What was sent and answered, and what came of it. -/
structure Negotiation (Caps : Type) where
  exchanges : List Exchange
  outcome : Except NegotiationError (NegotiatedProtocol Caps)

section Client

variable {Caps : Type} (readCaps : Value → Option Caps)

/-- `server_caps_from_discover` -/
def serverCapsFromDiscover (capabilities : Option Value) : Option Caps :=
  ((capabilities.bind fun caps => caps.get "extensions").bind fun extensions =>
    extensions.get "dev.cloto/mgp").bind readCaps

/-- `settle_modern` -/
def settleModern (version : String) (discovered : DiscoverResult) : NegotiatedProtocol Caps where
  era := .modern version
  mgp := serverCapsFromDiscover readCaps discovered.capabilities
  instructions := discovered.instructions

/-- What `initialize` reads in its result. -/
def settleLegacy (result : Value) : NegotiatedProtocol Caps where
  era := .legacy
  mgp :=
    let caps := result.get "capabilities"
    ((caps.bind fun caps => caps.get "mgp").or
      ((caps.bind fun caps => caps.get "experimental").bind fun caps => caps.get "mgp")).bind
        readCaps
  instructions := ((result.getStr "instructions").map trim).filter fun text => text != ""

/-- The server takes a level for its log. -/
def Server.advertisesLogging (server : Server) : Bool :=
  match server.initializeAnswer with
  | .ok result => ((result.get "capabilities").bind fun caps => caps.get "logging").isSome
  | .error _ => false

/-- The exchanges of `initialize`. -/
def initializeExchanges (server : Server) : List Exchange :=
  ⟨.initializeRequest, server.initializeAnswer⟩ ::
    if server.advertisesLogging then [⟨.setLevel, server.setLevel⟩] else []

/-- One probe, the one after `sent` others. -/
def probeExchange (server : Server) (sent : Nat) (version : String) : Exchange :=
  ⟨.discover version, server.probe sent⟩

/-- `negotiate_legacy`, after `sent` probes. -/
def negotiateLegacy (server : Server) (sent : Nat) (probed : Bool) : Negotiation Caps :=
  match server.initializeAnswer with
  | .ok result =>
      { exchanges := initializeExchanges server
        outcome := .ok (settleLegacy readCaps result) }
  | .error error =>
      match if probed then server.initializeAnswer.correctiveVersion else none with
      | none =>
          { exchanges := initializeExchanges server
            outcome := .error (.call error) }
      | some version =>
          { exchanges := initializeExchanges server ++ [probeExchange server sent version]
            outcome := match (server.probe sent).probeOutcome with
              | .discovered discovered => .ok (settleModern readCaps version discovered)
              | _ => .error (.call error) }

/-- Go on after some exchanges. -/
def Negotiation.after (exchanges : List Exchange) (rest : Negotiation Caps) : Negotiation Caps :=
  { rest with exchanges := exchanges ++ rest.exchanges }

/-- `negotiate` -/
def negotiate (server : Server) (preference : EraPreference) : Negotiation Caps :=
  if preference = .legacyOnly then negotiateLegacy readCaps server 0 false
  else
    let first := probeExchange server 0 modernProtocolVersion
    match (server.probe 0).probeOutcome with
    | .discovered discovered =>
        match discovered.mutualModernVersion with
        | some version =>
            { exchanges := [first], outcome := .ok (settleModern readCaps version discovered) }
        | none => (negotiateLegacy readCaps server 1 true).after [first]
    | .versionRejected supported =>
        match highestMutualModernVersion supported with
        | some version =>
            let second := probeExchange server 1 version
            match (server.probe 1).probeOutcome with
            | .discovered discovered =>
                { exchanges := [first, second]
                  outcome := .ok (settleModern readCaps version discovered) }
            | .transport error =>
                { exchanges := [first, second], outcome := .error (.call error) }
            | .versionRejected _ | .fallBackToLegacy _ =>
                (negotiateLegacy readCaps server 2 true).after [first, second]
        | none =>
            if offersHandshakeVersion supported then
              (negotiateLegacy readCaps server 1 true).after [first]
            else { exchanges := [first], outcome := .error (.versionMismatch supported) }
    | .fallBackToLegacy _ => (negotiateLegacy readCaps server 1 true).after [first]
    | .transport error => { exchanges := [first], outcome := .error (.call error) }

end Client

/-! ## What a negotiation promises -/

/-- The reply that an exchange brings, if it is a probe that is answered by one. -/
def Exchange.discovered? (exchange : Exchange) : Option DiscoverResult :=
  match exchange.request, exchange.answer.probeOutcome with
  | .discover _, .discovered result => some result
  | _, _ => none

/-- Whether the request is a probe. -/
def Exchange.isProbe (exchange : Exchange) : Bool :=
  match exchange.request with
  | .discover _ => true
  | _ => false

/-- Whether the request found no server. -/
def Exchange.isTransportFailure (exchange : Exchange) : Bool :=
  match exchange.answer with
  | .error (.transport _) => true
  | _ => false

/-- The last reply to a probe. -/
def lastDiscovered (exchanges : List Exchange) : Option DiscoverResult :=
  (exchanges.filterMap Exchange.discovered?).getLast?

/-- The era is the one that the server showed. -/
structure Sound {Caps : Type} (negotiation : Negotiation Caps) : Prop where
  modern : ∀ settled version, negotiation.outcome = .ok settled → settled.era = .modern version →
    ∃ discovered, lastDiscovered negotiation.exchanges = some discovered ∧
      version ∈ discovered.supportedVersions
  legacy : ∀ settled, negotiation.outcome = .ok settled → settled.era = .legacy →
    ∃ exchange ∈ negotiation.exchanges, exchange.request = .initializeRequest ∧
      ∃ result, exchange.answer = .ok result
  transport : ∀ exchange ∈ negotiation.exchanges, exchange.request ≠ .setLevel →
    exchange.isTransportFailure = true → ∃ error, negotiation.outcome = .error (.call error)
  mismatch : ∀ supported, negotiation.outcome = .error (.versionMismatch supported) →
    highestMutualModernVersion supported = none ∧ offersHandshakeVersion supported = false ∧
      ∃ exchange ∈ negotiation.exchanges, ∃ error, exchange.answer = .error (.rpc error) ∧
        error.supportedVersions = supported
  probes : (negotiation.exchanges.countP Exchange.isProbe) ≤ 3
  initializes : (negotiation.exchanges.countP fun exchange =>
    exchange.request = .initializeRequest) ≤ 1

/-- How many probes come before `initialize`, if it comes to that. -/
def probesBeforeInitialize (server : Server) : Option Nat :=
  match (server.probe 0).probeOutcome with
  | .discovered discovered => if discovered.mutualModernVersion = none then some 1 else none
  | .versionRejected supported =>
      if highestMutualModernVersion supported = none then
        if offersHandshakeVersion supported then some 1 else none
      else
        match (server.probe 1).probeOutcome with
        | .versionRejected _ | .fallBackToLegacy _ => some 2
        | .discovered _ | .transport _ => none
  | .fallBackToLegacy _ => some 1
  | .transport _ => none

/-- The answer to a probe for a version, if it is a reply, advertises the version. -/
def Advertises (answer : Answer) (version : String) : Prop :=
  match answer.probeOutcome with
  | .discovered discovered => version ∈ discovered.supportedVersions
  | _ => True

instance (answer : Answer) (version : String) : Decidable (Advertises answer version) := by
  unfold Advertises
  split <;> infer_instance

/-- The reply to a second probe, after the rejection of the first one or of
`initialize`, advertises the version that it was sent for. -/
def ReprobesAdvertise (server : Server) (preference : EraPreference) : Prop :=
  preference = .auto →
    (∀ version ∈ (server.probe 0).correctiveVersion, Advertises (server.probe 1) version) ∧
      ∀ sent ∈ probesBeforeInitialize server, ∀ version ∈ server.initializeAnswer.correctiveVersion,
        Advertises (server.probe sent) version

variable {Caps : Type} {readCaps : Value → Option Caps} {server : Server} {answer : Answer}
  {exchanges : List Exchange} {version : String} {supported : List String} {sent : Nat}

theorem mem_of_highestMutualModernVersion
    (best : highestMutualModernVersion supported = some version) : version ∈ supported := by
  have offered := @List.find?_some _ (fun version => supported.any fun other => other == version)
    version _ best
  rcases List.any_eq_true.mp offered with ⟨other, mem, same⟩
  rw [← eq_of_beq same]
  exact mem

/-- A rejection is corrected to the version that both speak. -/
theorem correctiveVersion_of_versionRejected
    (rejected : answer.probeOutcome = .versionRejected supported) :
    answer.correctiveVersion = highestMutualModernVersion supported := by
  cases answer with
  | ok value =>
      simp only [Answer.probeOutcome] at rejected
      split at rejected <;> cases rejected
  | error error =>
      cases error with
      | rpc error =>
          simp only [Answer.probeOutcome, classifyProbeError] at rejected
          simp only [Answer.correctiveVersion]
          split at rejected
          · next unsupported =>
            cases rejected
            rw [if_pos unsupported]
          · cases rejected
      | requestTimeout | transport => cases rejected

/-- Only a rejection is corrected. -/
theorem correctiveVersion_eq_none
    (notRejected : ∀ supported, answer.probeOutcome ≠ .versionRejected supported) :
    answer.correctiveVersion = none := by
  cases answer with
  | ok value => rfl
  | error error =>
      cases error with
      | rpc error =>
          simp only [Answer.correctiveVersion]
          split
          · next unsupported =>
            exact absurd (if_pos unsupported) (notRejected error.supportedVersions)
          · rfl
      | requestTimeout | transport => rfl

theorem isTransportFailure_iff (exchange : Exchange) :
    exchange.isTransportFailure = true ↔
      ∃ error, exchange.answer.probeOutcome = .transport error := by
  rcases exchange with ⟨request, answer⟩
  cases answer with
  | ok value =>
      simp only [Exchange.isTransportFailure, Answer.probeOutcome, Bool.false_eq_true, false_iff]
      rintro ⟨error, outcome⟩
      split at outcome <;> cases outcome
  | error error =>
      cases error with
      | rpc error =>
          simp only [Exchange.isTransportFailure, Answer.probeOutcome, classifyProbeError,
            Bool.false_eq_true, false_iff]
          rintro ⟨other, outcome⟩
          split at outcome <;> cases outcome
      | requestTimeout => simp [Exchange.isTransportFailure, Answer.probeOutcome,
          classifyProbeError]
      | transport text => simp [Exchange.isTransportFailure, Answer.probeOutcome,
          classifyProbeError]

/-- The number of requests is bounded. -/
structure Brief (exchanges : List Exchange) : Prop where
  probes : exchanges.countP Exchange.isProbe ≤ 3
  initializes : (exchanges.countP fun exchange => exchange.request = .initializeRequest) ≤ 1

/-- No answer is a failure of the transport. -/
def Reached (exchanges : List Exchange) : Prop :=
  ∀ exchange ∈ exchanges, exchange.request ≠ .setLevel → exchange.isTransportFailure = false

/-- A call that fails decides nothing. -/
theorem sound_of_call_error (brief : Brief exchanges) (error : CallError) :
    Sound (⟨exchanges, .error (.call error)⟩ : Negotiation Caps) where
  modern _ _ outcome := by cases outcome
  legacy _ outcome := by cases outcome
  transport _ _ _ _ := ⟨error, rfl⟩
  mismatch _ outcome := by cases outcome
  probes := brief.probes
  initializes := brief.initializes

/-- The modern era is settled soundly exactly if the reply advertises the version. -/
theorem sound_settleModern_iff {discovered : DiscoverResult} {asked : String}
    (replied : (server.probe sent).probeOutcome = .discovered discovered)
    (reached : Reached exchanges) (brief : Brief (exchanges ++ [probeExchange server sent asked])) :
    Sound ⟨exchanges ++ [probeExchange server sent asked],
        .ok (settleModern readCaps version discovered)⟩ ↔
      version ∈ discovered.supportedVersions := by
  have last : lastDiscovered (exchanges ++ [probeExchange server sent asked])
      = some discovered := by
    simp [lastDiscovered, Exchange.discovered?, probeExchange, replied]
  constructor
  · intro sound
    rcases sound.modern _ version rfl rfl with ⟨reply, replyEq, mem⟩
    cases Option.some.inj (last.symm.trans replyEq)
    exact mem
  · intro mem
    refine ⟨?_, ?_, ?_, ?_, brief.probes, brief.initializes⟩
    · intro settled other outcome era
      cases outcome
      cases era
      exact ⟨discovered, last, mem⟩
    · intro settled outcome era
      cases outcome
      cases era
    · intro exchange here notSetLevel failure
      rcases List.mem_append.mp here with earlier | this
      · exact absurd (reached exchange earlier notSetLevel) (by simp [failure])
      · cases List.mem_singleton.mp this
        rcases (isTransportFailure_iff _).mp failure with ⟨error, outcome⟩
        cases replied.symm.trans outcome
    · intro supported outcome
      cases outcome

/-- Every exchange is a probe that the transport did not fail. -/
def Probes (exchanges : List Exchange) : Prop :=
  ∀ exchange ∈ exchanges, exchange.isProbe = true ∧ exchange.isTransportFailure = false

theorem Probes.reached (probes : Probes exchanges) : Reached exchanges :=
  fun exchange mem _ => (probes exchange mem).2

theorem Probes.countP_initializeRequest (probes : Probes exchanges) :
    (exchanges.countP fun exchange => exchange.request = .initializeRequest) = 0 := by
  rw [List.countP_eq_zero]
  intro exchange mem opening
  have isProbe := (probes exchange mem).1
  rw [Exchange.isProbe, of_decide_eq_true opening] at isProbe
  cases isProbe

theorem countP_isProbe_initializeExchanges :
    (initializeExchanges server).countP Exchange.isProbe = 0 := by
  unfold initializeExchanges
  split <;> rfl

theorem countP_initializeRequest_initializeExchanges :
    ((initializeExchanges server).countP fun exchange =>
      exchange.request = .initializeRequest) = 1 := by
  unfold initializeExchanges
  split <;> rfl

/-- Up to two probes and `initialize` are not too many. -/
theorem Probes.brief (probes : Probes exchanges) (few : exchanges.length ≤ 2) :
    Brief (exchanges ++ initializeExchanges server) := by
  have probeCount : exchanges.countP Exchange.isProbe ≤ 2 :=
    Nat.le_trans List.countP_le_length few
  constructor
  · rw [List.countP_append, countP_isProbe_initializeExchanges]
    omega
  · rw [List.countP_append, probes.countP_initializeRequest,
      countP_initializeRequest_initializeExchanges]

/-- Another probe is not too many either. -/
theorem Probes.brief_probe (probes : Probes exchanges) (few : exchanges.length ≤ 2) :
    Brief (exchanges ++ initializeExchanges server ++ [probeExchange server sent version]) := by
  have probeCount : exchanges.countP Exchange.isProbe ≤ 2 :=
    Nat.le_trans List.countP_le_length few
  constructor
  · rw [List.countP_append, List.countP_append, countP_isProbe_initializeExchanges]
    have one : [probeExchange server sent version].countP Exchange.isProbe = 1 := rfl
    omega
  · rw [List.countP_append, List.countP_append, probes.countP_initializeRequest,
      countP_initializeRequest_initializeExchanges]
    exact Nat.le_refl 1

/-- An `initialize` that is not a failure of the transport is reached. -/
theorem reached_initializeExchanges
    (notFailed : ∀ text, server.initializeAnswer ≠ .error (.transport text)) :
    Reached (initializeExchanges server) := by
  intro exchange mem notSetLevel
  rcases List.mem_cons.mp mem with this | other
  · subst this
    rw [Bool.eq_false_iff]
    intro failure
    unfold Exchange.isTransportFailure at failure
    dsimp only at failure
    split at failure
    · next text failed => exact notFailed text failed
    · cases failure
  · split at other
    · cases List.mem_singleton.mp other
      exact absurd rfl notSetLevel
    · cases other

theorem reached_of_correctiveVersion
    (rejected : server.initializeAnswer.correctiveVersion = some version) :
    Reached (initializeExchanges server) := by
  apply reached_initializeExchanges
  intro text failed
  rw [failed] at rejected
  cases rejected

/-- A server that answers `initialize` speaks the legacy era. -/
theorem sound_settleLegacy {result : Value} (probes : Probes exchanges)
    (few : exchanges.length ≤ 2) (succeeded : server.initializeAnswer = .ok result) :
    Sound ⟨exchanges ++ initializeExchanges server, .ok (settleLegacy readCaps result)⟩ := by
  have here : ⟨.initializeRequest, server.initializeAnswer⟩ ∈ initializeExchanges server :=
    List.mem_cons_self
  refine ⟨?_, ?_, ?_, ?_, (probes.brief few).probes, (probes.brief few).initializes⟩
  · intro settled version outcome era
    cases outcome
    cases era
  · intro settled outcome era
    exact ⟨_, List.mem_append_right _ here, rfl, result, succeeded⟩
  · intro exchange mem notSetLevel failure
    rcases List.mem_append.mp mem with earlier | opening
    · exact absurd failure (by simp [(probes exchange earlier).2])
    · have notFailed : ∀ text, server.initializeAnswer ≠ .error (.transport text) := by
        intro text failed
        cases succeeded.symm.trans failed
      have reached := reached_initializeExchanges notFailed exchange opening notSetLevel
      exact absurd failure (by simp [reached])
  · intro supported outcome
    cases outcome

/-- The handshake is sound exactly if the reply to a corrective probe advertises
the version that it was sent for. -/
theorem sound_negotiateLegacy_iff {probed : Bool} (probes : Probes exchanges)
    (few : exchanges.length ≤ 2) :
    Sound ((negotiateLegacy readCaps server sent probed).after exchanges) ↔
      (probed = true → ∀ version ∈ server.initializeAnswer.correctiveVersion,
        Advertises (server.probe sent) version) := by
  unfold negotiateLegacy Negotiation.after
  cases initialized : server.initializeAnswer with
  | ok result =>
      constructor
      · intro _ _ version corrective
        cases corrective
      · intro
        exact sound_settleLegacy probes few initialized
  | error error =>
      dsimp only
      split
      · next noCorrection =>
        constructor
        · intro _ isProbed version corrective
          rw [if_pos isProbed] at noCorrection
          rw [noCorrection] at corrective
          cases corrective
        · intro
          exact sound_of_call_error (probes.brief few) error
      · next version corrected =>
        have isProbed : probed = true := by
          by_contra notProbed
          rw [if_neg notProbed] at corrected
          cases corrected
        rw [if_pos isProbed] at corrected
        have meets : (probed = true → ∀ version ∈ Answer.correctiveVersion (.error error),
            Advertises (server.probe sent) version) ↔ Advertises (server.probe sent) version := by
          constructor
          · intro advertise
            exact advertise isProbed version corrected
          · intro advertises _ other otherCorrective
            cases Option.some.inj (corrected.symm.trans otherCorrective)
            exact advertises
        have brief : Brief (exchanges ++ initializeExchanges server
            ++ [probeExchange server sent version]) := probes.brief_probe few
        rw [meets, ← List.append_assoc]
        split
        · next discovered replied =>
          rw [Advertises, replied]
          apply sound_settleModern_iff replied _ brief
          intro exchange mem notSetLevel
          rcases List.mem_append.mp mem with earlier | opening
          · exact (probes exchange earlier).2
          · have rejected : server.initializeAnswer.correctiveVersion = some version := by
              rw [initialized]
              exact corrected
            exact reached_of_correctiveVersion rejected exchange opening notSetLevel
        · next notDiscovered =>
          constructor
          · intro
            unfold Advertises
            split
            · next discovered replied => exact absurd replied (notDiscovered discovered)
            · trivial
          · intro
            exact sound_of_call_error brief error

/-- A first probe that is no failure of the transport is among the probes. -/
theorem probes_first {asked : String}
    (notFailed : ∀ error, (server.probe 0).probeOutcome ≠ .transport error) :
    Probes [probeExchange server 0 asked] := by
  intro exchange mem
  cases List.mem_singleton.mp mem
  refine ⟨rfl, ?_⟩
  rw [Bool.eq_false_iff]
  intro failure
  rcases (isTransportFailure_iff _).mp failure with ⟨error, failed⟩
  exact notFailed error failed

theorem probes_second {asked : String}
    (first : ∀ error, (server.probe 0).probeOutcome ≠ .transport error)
    (second : ∀ error, (server.probe 1).probeOutcome ≠ .transport error) :
    Probes [probeExchange server 0 modernProtocolVersion, probeExchange server 1 asked] := by
  intro exchange mem
  rcases List.mem_cons.mp mem with this | other
  · exact probes_first first exchange (List.mem_singleton.mpr this)
  · cases List.mem_singleton.mp other
    refine ⟨rfl, ?_⟩
    rw [Bool.eq_false_iff]
    intro failure
    rcases (isTransportFailure_iff _).mp failure with ⟨error, failed⟩
    exact second error failed

theorem brief_first {asked : String} : Brief [probeExchange server 0 asked] where
  probes := Nat.le_add_left 1 2
  initializes := Nat.zero_le 1

theorem brief_second {asked other : String} :
    Brief [probeExchange server 0 asked, probeExchange server 1 other] where
  probes := Nat.le_succ 2
  initializes := Nat.zero_le 1

/-- A mismatch of versions is told after the first probe alone. -/
theorem sound_versionMismatch
    (rejected : (server.probe 0).probeOutcome = .versionRejected supported)
    (noMutual : highestMutualModernVersion supported = none)
    (noHandshake : offersHandshakeVersion supported = false) :
    Sound (⟨[probeExchange server 0 modernProtocolVersion],
      .error (.versionMismatch supported)⟩ : Negotiation Caps) where
  modern _ _ outcome := by cases outcome
  legacy _ outcome := by cases outcome
  transport exchange mem _ failure := by
    cases List.mem_singleton.mp mem
    rcases (isTransportFailure_iff _).mp failure with ⟨error, failed⟩
    cases rejected.symm.trans failed
  mismatch other outcome := by
    cases outcome
    refine ⟨noMutual, noHandshake, _, List.mem_singleton.mpr rfl, ?_⟩
    simp only [probeExchange]
    cases answer : server.probe 0 with
    | ok value =>
        rw [answer] at rejected
        simp only [Answer.probeOutcome] at rejected
        split at rejected <;> cases rejected
    | error error =>
        rw [answer] at rejected
        cases error with
        | rpc error =>
            refine ⟨error, rfl, ?_⟩
            simp only [Answer.probeOutcome, classifyProbeError] at rejected
            split at rejected
            · cases rejected
              rfl
            · cases rejected
        | requestTimeout | transport => cases rejected
  probes := brief_first.probes
  initializes := brief_first.initializes

/-- The handshake after one probe. -/
theorem sound_legacy_iff (notRejected : (server.probe 0).correctiveVersion = none)
    (notFailed : ∀ error, (server.probe 0).probeOutcome ≠ .transport error)
    (one : probesBeforeInitialize server = some 1) :
    Sound ((negotiateLegacy readCaps server 1 true).after
        [probeExchange server 0 modernProtocolVersion]) ↔
      ReprobesAdvertise server .auto := by
  rw [sound_negotiateLegacy_iff (probes_first notFailed) (Nat.le_succ 1), ReprobesAdvertise,
    notRejected, one]
  simp

/-- Whatever a server says, the era that is settled is the one that it showed exactly
if each reply to a second probe advertises the version that the probe was sent for. -/
theorem sound_negotiate_iff (server : Server) (preference : EraPreference) :
    Sound (negotiate readCaps server preference) ↔ ReprobesAdvertise server preference := by
  cases preference with
  | legacyOnly =>
      have noProbes : Probes [] := fun _ mem => absurd mem List.not_mem_nil
      have bare : Sound ((negotiateLegacy readCaps server 0 false).after []) ↔
          (false = true → ∀ version ∈ server.initializeAnswer.correctiveVersion,
            Advertises (server.probe 0) version) :=
        sound_negotiateLegacy_iff noProbes (Nat.zero_le 2)
      unfold negotiate
      rw [if_pos rfl]
      constructor
      · intro _ notAuto
        cases notAuto
      · intro
        apply bare.mpr
        intro notProbed
        cases notProbed
  | auto =>
      unfold negotiate
      rw [if_neg (by decide)]
      cases first : (server.probe 0).probeOutcome with
      | discovered discovered =>
          have notRejected : (server.probe 0).correctiveVersion = none := by
            apply correctiveVersion_eq_none
            simp [first]
          cases best : discovered.mutualModernVersion with
          | some version =>
              have settled : Sound ⟨[probeExchange server 0 modernProtocolVersion],
                  .ok (settleModern readCaps version discovered)⟩ ↔
                    version ∈ discovered.supportedVersions := by
                have reached : Reached [] := fun _ mem => absurd mem List.not_mem_nil
                exact sound_settleModern_iff first reached brief_first
              have noHandshake : probesBeforeInitialize server = none := by
                simp [probesBeforeInitialize, first, best]
              simp only [best]
              constructor
              · intro _ _
                simp [notRejected, noHandshake]
              · intro
                exact settled.mpr (mem_of_highestMutualModernVersion best)
          | none =>
              simp only [best]
              apply sound_legacy_iff notRejected
              · simp [first]
              · simp [probesBeforeInitialize, first, best]
      | versionRejected supported =>
          have rejected := correctiveVersion_of_versionRejected first
          have notFailed : ∀ error, (server.probe 0).probeOutcome ≠ .transport error := by
            simp [first]
          cases best : highestMutualModernVersion supported with
          | some version =>
              rw [best] at rejected
              simp only [best]
              cases second : (server.probe 1).probeOutcome with
              | discovered discovered =>
                  have settled : Sound ⟨[probeExchange server 0 modernProtocolVersion,
                      probeExchange server 1 version],
                      .ok (settleModern readCaps version discovered)⟩ ↔
                        version ∈ discovered.supportedVersions := by
                    have reached : Reached [probeExchange server 0 modernProtocolVersion] :=
                      (probes_first notFailed).reached
                    exact sound_settleModern_iff second reached brief_second
                  have noHandshake : probesBeforeInitialize server = none := by
                    simp [probesBeforeInitialize, first, best, second]
                  apply settled.trans
                  simp [ReprobesAdvertise, rejected, noHandshake, Advertises, second]
              | transport error =>
                  have noHandshake : probesBeforeInitialize server = none := by
                    simp [probesBeforeInitialize, first, best, second]
                  constructor
                  · intro
                    simp [ReprobesAdvertise, rejected, noHandshake, Advertises, second]
                  · intro
                    exact sound_of_call_error brief_second error
              | versionRejected others | fallBackToLegacy reason =>
                  have notFailedSecond : ∀ error,
                      (server.probe 1).probeOutcome ≠ .transport error := by
                    simp [second]
                  have two : probesBeforeInitialize server = some 2 := by
                    simp [probesBeforeInitialize, first, best, second]
                  apply (sound_negotiateLegacy_iff (probes_second notFailed notFailedSecond)
                    (Nat.le_refl 2)).trans
                  simp [ReprobesAdvertise, rejected, two, Advertises, second]
          | none =>
              rw [best] at rejected
              simp only [best]
              cases reachable : offersHandshakeVersion supported with
              | true =>
                  apply sound_legacy_iff rejected notFailed
                  simp [probesBeforeInitialize, first, best, reachable]
              | false =>
                  have noHandshake : probesBeforeInitialize server = none := by
                    simp [probesBeforeInitialize, first, best, reachable]
                  constructor
                  · intro _ _
                    simp [rejected, noHandshake]
                  · intro
                    exact sound_versionMismatch first best reachable
      | fallBackToLegacy reason =>
          apply sound_legacy_iff
          · apply correctiveVersion_eq_none
            simp [first]
          · simp [first]
          · simp [probesBeforeInitialize, first]
      | transport error =>
          have notRejected : (server.probe 0).correctiveVersion = none := by
            apply correctiveVersion_eq_none
            simp [first]
          have noHandshake : probesBeforeInitialize server = none := by
            simp [probesBeforeInitialize, first]
          constructor
          · intro _ _
            simp [notRejected, noHandshake]
          · intro
            exact sound_of_call_error brief_first error

/-- The reply of a server that lists versions. -/
def listing (versions : List String) : Answer :=
  .ok (.object [("supportedVersions", .array (versions.map .string))])

/-- The rejection of a server that lists versions. -/
def rejecting (versions : List String) : Answer :=
  .error (.rpc
    { code := unsupportedProtocolVersion
      message := "Unsupported protocol version"
      data := some (.object [("supported", .array (versions.map .string))]) })

/-- A server that first rejects the version that it says it supports, and then replies
that it speaks the handshake only. -/
def contradicting : Server where
  probe sent := if sent = 0 then rejecting [modernProtocolVersion] else listing ["2025-11-25"]
  initializeAnswer := .error .requestTimeout
  setLevel := .error .requestTimeout

/-- Such a server is taken for a modern one. -/
theorem settled_at_unadvertised_version :
    ¬ ∀ (server : Server) (preference : EraPreference),
      Sound (@negotiate Value some server preference) := by
  intro sound
  have settled : (@negotiate Value some contradicting .auto).outcome
      = .ok ⟨.modern modernProtocolVersion, none, none⟩ := rfl
  have last : (lastDiscovered (@negotiate Value some contradicting .auto).exchanges).map
      DiscoverResult.supportedVersions = some ["2025-11-25"] := rfl
  rcases (sound contradicting .auto).modern _ _ settled rfl with ⟨discovered, lastEq, mem⟩
  rw [lastEq] at last
  rw [Option.some.inj last] at mem
  exact absurd mem (by decide)

end ClotoCore.Mcp.Era
