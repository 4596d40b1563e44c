import ClotoCore.Mcp.SealDowngrade
import ClotoCore.Panels.Discovery
import ClotoCore.Seal.Detection
import ClotoCore.Transition.Run

/-!
# The panel write gate

The kernel relays a write for a panel only after it has asked everything again: who
ships the panel, whether the installed tree is still the sealed one, whether the
write is declared, whether the operator consented to this list for this version, how
large the body is, and how much the panel wrote in the last minute.
-/

namespace ClotoCore.Panels

open ClotoCore.Encoding ClotoCore.Transition
open ClotoCore.Approval (TrustLevel)
open ClotoCore.Mcp (MgpSeal)
open ClotoCore.Seal (Listing InstallTree isTreeSeal verifyTreeSeal)

/-- The order of trust levels. -/
def trustRank : TrustLevel → Nat
  | .untrusted => 0
  | .experimental => 1
  | .standard => 2
  | .core => 3

/-- `trust_name` -/
def trustName : TrustLevel → String
  | .untrusted => "untrusted"
  | .experimental => "experimental"
  | .standard => "standard"
  | .core => "core"

/-- `MINIMUM_TRUST` -/
def minimumTrust : TrustLevel := .standard

/-- `MAX_WRITE_BODY_BYTES` -/
def maxWriteBodyBytes : Nat := 64 * 1024

/-- `WRITES_PER_WINDOW` -/
def writesPerWindow : Nat := 30

/-- `RATE_WINDOW` in nanoseconds. -/
def rateWindow : Nat := 60 * 1000000000

/-- What the gate reads of an `InstallReceipt`. -/
structure InstallReceipt where
  trustLevel : String
  treeSeal : Option String
  version : String

/-- What the gate reads of a `PanelWriteConsent`. -/
structure PanelWriteConsent where
  writesDigest : String
  connectorVersion : String
  deriving DecidableEq

/-- `Eligible` -/
structure Eligible where
  trustLevel : TrustLevel
  connectorVersion : String

/-- The code that the gate calls. -/
structure Crates where
  mgpSeal : MgpSeal
  sha256 : Digest
  listing : Listing
  web : Web
  /-- The debug form of a text. -/
  quote : String → String

/-- What the gate finds around it at one time. -/
structure Surroundings where
  placed : List PlacedModule
  connectors : List ConnectorPanels
  /-- The receipt of a connector, where the table can be read. -/
  receipt : String → Option (Option InstallReceipt)
  installRoot : String → String
  /-- The names on the way to a directory, where it is found. -/
  canonical : String → Option (List String)
  sealKey : Option Bytes
  /-- The directory at an install root. -/
  tree : String → Option InstallTree

section Gate

variable (crates : Crates)

/-- `evaluate_eligibility` -/
def evaluateEligibility (around : Surroundings) (module : FoundModule) :
    Except String Eligible := do
  let connector ← match module.connector with
    | some connector => .ok connector
    | none => .error "it was placed by hand, not installed with a connector"
  if module.manifest.writes = [] then .error "it declares no writes"
  let receipt ← match around.receipt connector with
    | none => .error "its install record could not be read"
    | some none =>
        .error "its connector has no install record; reinstall it from the marketplace"
    | some (some receipt) => .ok receipt
  let trust := crates.mgpSeal.fromStrLossy receipt.trustLevel
  if trustRank trust < trustRank minimumTrust then
    .error <| s!"its connector's trust level is {trustName trust} and writing needs " ++
      s!"{trustName minimumTrust} or above"
  let expected ← match receipt.treeSeal.filter isTreeSeal with
    | some expected => .ok expected
    | none => .error "its connector was installed without a seal"
  let installRoot := around.installRoot connector
  match around.canonical installRoot, around.canonical module.root with
  | some install, some panel =>
      if ¬install <+: panel then
        .error "it is not served from the tree its install record describes"
  | _, _ => .error "its files could not be located"
  let key ← match around.sealKey with
    | some key => .ok key
    | none => .error "its seal could not be checked"
  match verifyTreeSeal crates.sha256 crates.listing installRoot key expected
      (around.tree installRoot) with
  | .ok true => .ok ⟨trust, receipt.version⟩
  | .ok false => .error "its files no longer match the seal recorded at install"
  | .error _ => .error "its seal could not be checked"

/-- `consent_holds` -/
def consentHolds (consent : PanelWriteConsent) (digest connectorVersion : String) : Bool :=
  consent.writesDigest == digest && consent.connectorVersion == connectorVersion

/-- `find_panel` -/
def findPanel (around : Surroundings) (id : String) : Option FoundModule :=
  findModuleIn crates.quote around.placed around.connectors id

end Gate

/-! ## The rate window -/

/-- A write that was let through the window. -/
structure Admission where
  panelId : String
  time : Nat

/-- `PanelWriteState`, with every write it let through and the latest time it was
asked at for each panel; no decision reads these. -/
structure PanelWriteState where
  router : Bool
  recent : String → List Nat
  admitted : List Admission
  latest : String → Nat

/-- A relay that was not asked yet. -/
def PanelWriteState.init : PanelWriteState where
  router := false
  recent := fun _ => []
  admitted := []
  latest := fun _ => 0

namespace PanelWriteState

/-- The times of a panel that still count. -/
def fresh (state : PanelWriteState) (panelId : String) (now : Nat) : List Nat :=
  (state.recent panelId).dropWhile fun time => decide (rateWindow ≤ now - time)

/-- Keep the times of a panel, with the time it was asked at. -/
def keep (state : PanelWriteState) (panelId : String) (now : Nat) (times : List Nat) :
    PanelWriteState :=
  { state with
    recent := fun other => if other = panelId then times else state.recent other
    latest := fun other =>
      if other = panelId then max (state.latest panelId) now else state.latest other }

/-- `admit` -/
def admitWrite (state : PanelWriteState) (panelId : String) (now : Nat) (poisoned : Bool) :
    PanelWriteState × Bool :=
  if poisoned then (state, false)
  else
    let times := state.fresh panelId now
    if writesPerWindow ≤ times.length then (state.keep panelId now times, false)
    else
      ({ state.keep panelId now (times ++ [now]) with
          admitted := state.admitted ++ [⟨panelId, now⟩] }, true)

/-- The times of the writes that a panel made. -/
def times (state : PanelWriteState) (panelId : String) : List Nat :=
  (state.admitted.filter fun write => write.panelId == panelId).map Admission.time

/-- The writes of a panel within the window that ends at a time, or at the latest one
that the panel was asked at. -/
def withinWindow (state : PanelWriteState) (panelId : String) (now : Nat) : List Nat :=
  (state.times panelId).filter fun time =>
    decide (max (state.latest panelId) now - time < rateWindow)

end PanelWriteState

/-! ## A write request -/

/-- `WriteRequest`; the body as it is written out again. -/
structure WriteRequest where
  method : String
  path : String
  body : Option Bytes

/-- A call of `relay_write`, with all that it reads. -/
structure Call where
  panelId : String
  authorized : Bool
  /-- The request, where it can be parsed. -/
  request : Option WriteRequest
  around : Surroundings
  /-- The consent row, where the table can be read. -/
  consent : Option (Option PanelWriteConsent)
  now : Nat
  poisoned : Bool

/-- What a call comes to. -/
inductive Outcome where
  | unauthorized
  | invalid
  | denied (reason : String)
  | failed
  | dispatched (method path : String)
  deriving DecidableEq

section Relay

variable (crates : Crates)

/-- Hand the request to the router. -/
def dispatch (router : Bool) (request : WriteRequest) : Outcome :=
  if router = false then .failed
  else
    match crates.web.uriPath request.path with
    | some path => .dispatched request.method path
    | none => .failed

/-- The checks of `relay_write` on the consent, the size and the rate. -/
def relayDeclared (state : PanelWriteState) (call : Call) (request : WriteRequest)
    (digest version : String) : PanelWriteState × Outcome :=
  match call.consent with
  | none => (state, .failed)
  | some none => (state, .denied "the operator has not consented to its writes")
  | some (some consent) =>
      if consentHolds consent digest version = false then
        (state,
          .denied "its declared writes or its version changed since the consent was given")
      else if maxWriteBodyBytes < (request.body.getD []).length then
        (state, .denied s!"the request body is larger than {maxWriteBodyBytes} bytes")
      else
        match state.admitWrite call.panelId call.now call.poisoned with
        | (next, false) =>
            (next, .denied s!"it made more than {writesPerWindow} writes in the last minute")
        | (next, true) => (next, dispatch crates next.router request)

/-- `relay_write` -/
def relayWrite (state : PanelWriteState) (call : Call) : PanelWriteState × Outcome :=
  if call.authorized = false then (state, .unauthorized)
  else
    match call.request with
    | none => (state, .invalid)
    | some request =>
        match findPanel crates call.around call.panelId with
        | none => (state, .denied "it is not an installed panel")
        | some module =>
            match evaluateEligibility crates call.around module with
            | .error why => (state, .denied why)
            | .ok eligible =>
                let entry := request.method ++ " " ++ request.path
                if entry ∉ module.manifest.writes then
                  (state, .denied s!"{entry} is not one of the writes it declares")
                else
                  relayDeclared crates state call request
                    (writesDigest crates.sha256 module.manifest.writes) eligible.connectorVersion

/-- The gate is given its router, or relays a write. -/
inductive Label where
  | installRouter
  | relay (call : Call)

/-- One step. -/
def step : Action PanelWriteState Label
  | state, .installRouter => some { state with router := true }
  | state, .relay call => some (relayWrite crates state call).1

end Relay

/-! ## What a dispatch stands on -/

variable {crates : Crates} {state next : PanelWriteState} {call : Call} {method path : String}

/-- The window keeps every write that still counts. -/
structure Windowed (state : PanelWriteState) : Prop where
  kept : ∀ panelId, (state.withinWindow panelId 0).Sublist (state.recent panelId)

/-- What is dropped from the front of a list is none of what is sought in it. -/
theorem filter_sublist_dropWhile {α : Type} {sought dropped : α → Bool} {items : List α}
    (apart : ∀ item, dropped item = true → sought item = false) :
    (items.filter sought).Sublist (items.dropWhile dropped) := by
  induction items with
  | nil => exact List.Sublist.refl _
  | cons item items ih =>
      rw [List.dropWhile_cons]
      split
      · next gone =>
        rw [List.filter_cons_of_neg (by simp [apart item gone])]
        exact ih
      · exact List.filter_sublist

theorem windowed_init : Windowed .init where
  kept := fun _ => List.Sublist.refl _

namespace PanelWriteState

variable {panelId other : String} {now : Nat}

/-- What counts at a later time counted at an earlier one. -/
theorem withinWindow_eq_filter :
    state.withinWindow panelId now =
      (state.withinWindow panelId 0).filter fun time =>
        decide (max (state.latest panelId) now - time < rateWindow) := by
  unfold withinWindow
  rw [List.filter_filter]
  apply List.filter_congr
  intro time _
  rw [← Bool.decide_and, decide_eq_decide]
  omega

/-- The times that are not yet dropped hold those within the window. -/
theorem withinWindow_sublist_fresh (windowed : Windowed state) (panelId : String) (now : Nat) :
    (state.withinWindow panelId now).Sublist (state.fresh panelId now) := by
  rw [withinWindow_eq_filter]
  apply ((windowed.kept panelId).filter _).trans
  apply filter_sublist_dropWhile
  intro time gone
  simp only [decide_eq_true_eq, decide_eq_false_iff_not] at gone ⊢
  omega

theorem windowed_admitWrite {poisoned : Bool} (windowed : Windowed state) :
    Windowed (state.admitWrite panelId now poisoned).1 := by
  have within := withinWindow_sublist_fresh windowed panelId now
  unfold admitWrite
  dsimp only
  split
  · exact windowed
  · split
    · constructor
      intro other
      by_cases same : other = panelId
      · subst same
        simpa [withinWindow, keep, times] using within
      · simpa [withinWindow, keep, times, same] using windowed.kept other
    · constructor
      intro other
      by_cases same : other = panelId
      · subst same
        simp only [withinWindow, keep, times, List.filter_append, List.map_append, if_true,
          Nat.max_zero]
        have single :
            ([⟨other, now⟩] : List Admission).filter (fun write => write.panelId == other) =
              [⟨other, now⟩] := by
          simp
        rw [single]
        exact within.append List.filter_sublist
      · have notThis : ¬panelId = other := fun equal => same equal.symm
        simpa [withinWindow, keep, times, same, notThis] using windowed.kept other

/-- A write is let through only while fewer than the maximum are within the window. -/
theorem length_withinWindow_of_admitWrite {poisoned : Bool} (windowed : Windowed state)
    (through : (state.admitWrite panelId now poisoned).2 = true) :
    (state.withinWindow panelId now).length < writesPerWindow := by
  have within := (withinWindow_sublist_fresh windowed panelId now).length_le
  unfold admitWrite at through
  dsimp only at through
  split at through
  · cases through
  · split at through
    · cases through
    · omega

end PanelWriteState

/-- What a write has passed before the window is asked. -/
structure Checked (crates : Crates) (call : Call) (request : WriteRequest) (module : FoundModule)
    (granted : Eligible) (consent : PanelWriteConsent) : Prop where
  asked : call.request = some request
  panel : findPanel crates call.around call.panelId = some module
  eligible : evaluateEligibility crates call.around module = .ok granted
  declared : request.method ++ " " ++ request.path ∈ module.manifest.writes
  parsed : parseWrite (request.method ++ " " ++ request.path) = .ok (request.method, request.path)
  consented : call.consent = some (some consent)
  digest : consent.writesDigest = writesDigest crates.sha256 module.manifest.writes
  version : consent.connectorVersion = granted.connectorVersion
  body : (request.body.getD []).length ≤ maxWriteBodyBytes

/-- A relay leaves the window alone and dispatches nothing, or it has checked everything
and does what the window says. -/
inductive Relayed (crates : Crates) (state : PanelWriteState) (call : Call) :
    PanelWriteState × Outcome → Prop where
  | refused {outcome : Outcome} (quiet : ∀ method path, outcome ≠ .dispatched method path) :
      Relayed crates state call (state, outcome)
  | full {request : WriteRequest} {module : FoundModule} {granted : Eligible}
      {consent : PanelWriteConsent} {reason : String}
      (checked : Checked crates call request module granted consent)
      (shut : (state.admitWrite call.panelId call.now call.poisoned).2 = false) :
      Relayed crates state call
        ((state.admitWrite call.panelId call.now call.poisoned).1, .denied reason)
  | through {request : WriteRequest} {module : FoundModule} {granted : Eligible}
      {consent : PanelWriteConsent}
      (checked : Checked crates call request module granted consent)
      (opened : (state.admitWrite call.panelId call.now call.poisoned).2 = true) :
      Relayed crates state call
        ((state.admitWrite call.panelId call.now call.poisoned).1,
          dispatch crates (state.admitWrite call.panelId call.now call.poisoned).1.router request)

/-- A declared entry that is the request's method and path is accepted as these. -/
theorem parseWrite_of_mem {request : WriteRequest} {module : FoundModule}
    (panel : findPanel crates call.around call.panelId = some module)
    (mem : request.method ++ " " ++ request.path ∈ module.manifest.writes) :
    parseWrite (request.method ++ " " ++ request.path) = .ok (request.method, request.path) := by
  have valid := validateWrites_of_findModuleIn crates.quote panel
  rcases parseWrite_of_validateWrites valid mem with ⟨method, path, parsed⟩
  rcases (accepted_of_parseWrite parsed).eq_of_written rfl with ⟨rfl, rfl⟩
  exact parsed

theorem relayed (crates : Crates) (state : PanelWriteState) (call : Call) :
    Relayed crates state call (relayWrite crates state call) := by
  unfold relayWrite
  dsimp only
  split
  · exact .refused (by simp)
  · split
    · exact .refused (by simp)
    · next request asked =>
      split
      · exact .refused (by simp)
      · next module panel =>
        split
        · exact .refused (by simp)
        · next granted eligible =>
          split
          · exact .refused (by simp)
          · next declared =>
            unfold relayDeclared
            split
            · exact .refused (by simp)
            · exact .refused (by simp)
            · next consent consented =>
              split
              · exact .refused (by simp)
              · next holds =>
                split
                · exact .refused (by simp)
                · next small =>
                  simp only [consentHolds, Bool.not_eq_false, Bool.and_eq_true, beq_iff_eq]
                    at holds
                  have checked : Checked crates call request module granted consent :=
                    { asked := asked
                      panel := panel
                      eligible := eligible
                      declared := not_not.mp declared
                      parsed := parseWrite_of_mem panel (not_not.mp declared)
                      consented := consented
                      digest := holds.1
                      version := holds.2
                      body := not_lt.mp small }
                  split
                  · next after shut =>
                    have first : (state.admitWrite call.panelId call.now call.poisoned).1 = after :=
                      congrArg Prod.fst shut
                    rw [← first]
                    exact .full checked (congrArg Prod.snd shut)
                  · next after opened =>
                    have first : (state.admitWrite call.panelId call.now call.poisoned).1 = after :=
                      congrArg Prod.fst opened
                    rw [← first]
                    exact .through checked (congrArg Prod.snd opened)

theorem Windowed.step {label : Label} (windowed : Windowed state)
    (stepEq : step crates state label = some next) : Windowed next := by
  cases label with
  | installRouter =>
      cases stepEq
      exact ⟨windowed.kept⟩
  | relay call =>
      rw [← Option.some.inj stepEq]
      have done := relayed crates state call
      generalize relayWrite crates state call = result at done
      cases done with
      | refused quiet => exact windowed
      | full checked shut => exact PanelWriteState.windowed_admitWrite windowed
      | through checked opened => exact PanelWriteState.windowed_admitWrite windowed

theorem dispatched_of_dispatch {router : Bool} {request : WriteRequest}
    (outcome : dispatch crates router request = .dispatched method path) :
    request.method = method ∧ crates.web.uriPath request.path = some path := by
  unfold dispatch at outcome
  split at outcome
  · cases outcome
  · split at outcome
    · next parsed =>
      cases outcome
      exact ⟨rfl, parsed⟩
    · cases outcome

/-- A dispatched write has been checked, and fewer than the maximum of the panel's writes
are within the window. -/
theorem checked_of_dispatched (windowed : Windowed state)
    (outcome : (relayWrite crates state call).2 = .dispatched method path) :
    ∃ request module granted consent, Checked crates call request module granted consent ∧
      request.method = method ∧ crates.web.uriPath request.path = some path ∧
      (state.withinWindow call.panelId call.now).length < writesPerWindow := by
  have done := relayed crates state call
  generalize relayWrite crates state call = result at done outcome
  cases done with
  | refused quiet => exact absurd outcome (quiet method path)
  | full checked shut => cases outcome
  | @through request module granted consent checked opened =>
      rcases dispatched_of_dispatch outcome with ⟨methodEq, pathEq⟩
      exact ⟨request, module, granted, consent, checked, methodEq, pathEq,
        PanelWriteState.length_withinWindow_of_admitWrite windowed opened⟩

theorem windowed_of_run {labels : List Label} (ran : run (step crates) .init labels = some state) :
    Windowed state :=
  run_invariant Windowed (fun _ _ _ windowed stepEq => windowed.step stepEq) windowed_init ran

/-- After any writes, a write is dispatched only if everything was checked and the window
admits it; what is dispatched reaches no denied route; and a consent holds for a list
with the same entries only. -/
theorem write_gate (crates : Crates) :
    (∀ labels state, run (step crates) .init labels = some state →
      ∀ call method path, (relayWrite crates state call).2 = .dispatched method path →
        ∃ request module granted consent, Checked crates call request module granted consent ∧
          request.method = method ∧ crates.web.uriPath request.path = some path ∧
          (state.withinWindow call.panelId call.now).length < writesPerWindow) ∧
      (∀ entry method path, parseWrite entry = .ok (method, path) →
        ∀ uri, crates.web.uriPath path = some uri →
          ∀ otherMethod route, crates.web.reached otherMethod uri = some route →
            isDenied route = false) ∧
      (Function.Injective crates.sha256 → ∀ first second,
        validateWrites crates.quote first = .ok () → validateWrites crates.quote second = .ok () →
          writesDigest crates.sha256 first = writesDigest crates.sha256 second →
            ∀ entry, entry ∈ first ↔ entry ∈ second) := by
  refine ⟨?_, ?_, ?_⟩
  · intro labels state ran call method path outcome
    exact checked_of_dispatched (windowed_of_run ran) outcome
  · intro entry method path parsed uri uriEq otherMethod route reached
    exact (accepted_of_parseWrite parsed).reaches_allowed uriEq reached
  · intro injective first second firstValid secondValid equal entry
    exact mem_iff_of_writesDigest_eq injective firstValid secondValid equal

/-! ## A connector that sends to one agent -/

/-- SHA-256 of the declaration below. -/
def sendDigest : Bytes :=
  [0x99, 0xDE, 0x2C, 0x6F, 0x44, 0x95, 0x13, 0x27, 0x7B, 0xA1, 0x85, 0x43, 0xA8, 0x45,
   0xC3, 0x5E, 0x64, 0xE6, 0xC6, 0x06, 0x14, 0x36, 0xAC, 0x01, 0xB3, 0x28, 0xD9, 0x9E,
   0xF6, 0x61, 0x46, 0x7A]

/-- SHA-256 on the texts that are hashed for the panel below. -/
def consoleSha256 : Digest :=
  tabulated
    [(List.replicate 64 0x36, Seal.emptyInner),
      (List.replicate 64 0x5C ++ Seal.emptyInner, Seal.emptyOuter),
      (utf8 "POST /api/chat/agent.manager/send", sendDigest)]

theorem consoleSha256_injective : Function.Injective consoleSha256 :=
  tabulated_injective (by decide) (by decide)

/-- A router of three routes, for paths of plain characters. -/
def consoleWeb : Web where
  uriPath := fun uri =>
    if uri.toList.all fun c => c.isAlphanum || ['/', '.', '-', '_'].contains c then some uri
    else none
  reached := fun method path =>
    ["/api/chat/{agent_id}/send", "/api/modules/{id}/write", "/api/hub-access/renew"].find?
      fun route => method == "POST" && segmentsMatch (segments route) (segments path)
  uriPath_eq := by
    intro uri path _ _ _ parsed
    split at parsed
    · exact (Option.some.inj parsed).symm
    · cases parsed
  reached_matches := by
    intro method path route reached
    have found := List.find?_some reached
    simp only [Bool.and_eq_true] at found
    exact found.2

/-- Libraries for a console. -/
def consoleCrates : Crates where
  mgpSeal := Mcp.strictCrate
  sha256 := consoleSha256
  listing := ⟨id, fun entries => List.Perm.refl entries⟩
  web := consoleWeb
  quote := id

/-- A connector of the standard level with one panel, and its sealed tree. -/
def consoleAround : Surroundings where
  placed := []
  connectors :=
    [⟨"ops", "/srv/ops",
      [⟨"console", "Operations", "index.html", ["POST /api/chat/agent.manager/send"]⟩]⟩]
  receipt := fun _ => some (some ⟨"standard", some (Seal.treeSeal consoleSha256 [] Seal.emptyTree),
    "1.0.0"⟩)
  installRoot := fun connector => "/srv/" ++ connector
  canonical := fun _ => some ["srv", "ops"]
  sealKey := some []
  tree := fun _ => some Seal.emptyTree

/-- A message to the manager, sent by the panel. -/
def consoleCall : Call where
  panelId := "ops-console"
  authorized := true
  request := some ⟨"POST", "/api/chat/agent.manager/send", some (utf8 "1")⟩
  around := consoleAround
  consent := some (some ⟨hexEncode sendDigest, "1.0.0"⟩)
  now := 0
  poisoned := false

/-- The message is sent, to a route that is allowed, under a consent to that one entry. -/
theorem write_gate_console :
    (∃ request module granted consent,
        Checked consoleCrates consoleCall request module granted consent ∧
          request.method = "POST" ∧
          consoleWeb.uriPath request.path = some "/api/chat/agent.manager/send" ∧
          ({ PanelWriteState.init with router := true }.withinWindow "ops-console" 0).length <
            writesPerWindow) ∧
      isDenied "/api/chat/{agent_id}/send" = false ∧
      ∀ entry, entry ∈ ["POST /api/chat/agent.manager/send", "POST /api/chat/agent.manager/send"] ↔
        entry ∈ ["POST /api/chat/agent.manager/send"] := by
  rcases write_gate consoleCrates with ⟨dispatches, reaches, consents⟩
  refine ⟨?_, ?_, ?_⟩
  · exact dispatches [.installRouter] _ rfl consoleCall "POST" "/api/chat/agent.manager/send"
      (by decide +kernel)
  · exact reaches "POST /api/chat/agent.manager/send" "POST" "/api/chat/agent.manager/send"
      (by decide +kernel) "/api/chat/agent.manager/send" (by decide +kernel) "POST" _
      (by decide +kernel)
  · have equal : writesDigest consoleSha256
        ["POST /api/chat/agent.manager/send", "POST /api/chat/agent.manager/send"] =
          writesDigest consoleSha256 ["POST /api/chat/agent.manager/send"] := by
      rw [writesDigest, List.mergeSort_of_pairwise (by simp)]
      simp [writesDigest]
    exact consents consoleSha256_injective _ _ (by decide +kernel) (by decide +kernel) equal

end ClotoCore.Panels
