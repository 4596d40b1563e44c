import ClotoCore.Events.Bus

/-!
# Who can grant a permission

A plugin's effective permissions grow in one place only, the arm for
`PermissionGranted`.  That arm does not look at the issuer of its envelope, so a
plugin's reply grants as much as the kernel does.
-/

namespace ClotoCore.Events

open ClotoCore.Transition

variable {config : Config} {state next : State} {label : Label}

/-- The envelope that a label settles. -/
def settled (state : State) : Label → Option EnvelopedEvent
  | .settle _ =>
      match state.current with
      | some ⟨item, _, .dispatched⟩ => some item.envelope
      | _ => none
  | _ => none

/-! ## What a step does to the permissions -/

@[simp]
theorem permissions_recordEvent (state : State) (seqEvent : SequencedEvent) :
    (state.recordEvent config seqEvent).permissions = state.permissions :=
  rfl

@[simp]
theorem permissions_log (state : State) (effects : List Effect) :
    (state.log effects).permissions = state.permissions :=
  rfl

@[simp]
theorem permissions_send (state : State) (item : Item) :
    (state.send item).permissions = state.permissions :=
  rfl

@[simp]
theorem permissions_sendAll (state : State) (items : List Item) :
    (state.sendAll items).permissions = state.permissions :=
  rfl

@[simp]
theorem permissions_settleExternal (state : State) (item : Item) (resolution : Resolution)
    (callbackId serverId message : String) (metadata : Option Json.Value) :
    (settleExternal config state item resolution callbackId serverId message
      metadata).permissions = state.permissions :=
  rfl

@[simp]
theorem permissions_settleAction (state : State) (envelope : EnvelopedEvent) (seqId : Nat)
    (requester : ClotoId) (now : Nat) :
    (settleAction config state envelope seqId requester now).permissions = state.permissions := by
  simp only [settleAction]
  split <;> rfl

theorem permissions_dispatchEvent {item : Item} {seqId : Nat}
    {replies : List (String × ClotoEventData)}
    (dispatched : dispatchEvent config state item seqId replies = some next) :
    next.permissions = state.permissions := by
  simp only [dispatchEvent] at dispatched
  split at dispatched
  · split at dispatched
    · cases dispatched
      rfl
    · cases dispatched
  · split at dispatched
    · cases dispatched
      rfl
    · cases dispatched

/-- Settling changes the permissions only for a `PermissionGranted`. -/
theorem permissions_settleEvent (processing : Processing) (resolution : Resolution) :
    (settleEvent config state processing resolution).permissions =
      match processing.item.envelope.event.data with
      | .permissionGranted pluginId permission =>
          (settlePermission config state pluginId permission).permissions
      | _ => state.permissions := by
  simp only [settleEvent]
  split <;> simp_all
  split <;> simp

theorem settle_eq_some {resolution : Resolution}
    (stepEq : step config state (.settle resolution) = some next) :
    ∃ item seqEvent, state.current = some ⟨item, seqEvent, .dispatched⟩ ∧
      next = settleEvent config { state with current := none } ⟨item, seqEvent, .dispatched⟩
        resolution := by
  simp only [step] at stepEq
  split at stepEq
  · rename_i item seqEvent currentEq
    exact ⟨item, seqEvent, currentEq, (Option.some.inj stepEq).symm⟩
  · cases stepEq

/-- Apart from settling, no step gives a plugin a permission. -/
theorem permissions_of_step (stepEq : step config state label = some next)
    (notSettling : settled state label = none) {id : ClotoId} {permission : Permission}
    (held : permission ∈ next.permissions id) : permission ∈ state.permissions id := by
  cases label with
  | inject event =>
      cases stepEq
      exact held
  | receive index =>
      simp only [step] at stepEq
      split at stepEq
      · cases stepEq
        exact held
      · cases stepEq
  | dispatch replies =>
      simp only [step] at stepEq
      split at stepEq
      · rwa [permissions_dispatchEvent stepEq] at held
      · cases stepEq
  | settle resolution =>
      obtain ⟨item, seqEvent, currentEq, _⟩ := settle_eq_some stepEq
      simp [settled, currentEq] at notSettling
  | handlerEmit index event =>
      obtain ⟨turn, _, rfl⟩ := Option.map_eq_some_iff.mp stepEq
      exact held
  | turnEnds index =>
      obtain ⟨turn, _, rfl⟩ := Option.map_eq_some_iff.mp stepEq
      exact held
  | revoke pluginId revoked =>
      cases stepEq
      simp only at held
      split at held
      · rename_i same
        rw [same]
        exact (List.mem_filter.mp held).1
      · exact held
  | cleanup count =>
      cases stepEq
      exact held

/-- Settling, in terms of the envelope that is settled. -/
theorem permissions_of_settled {envelope : EnvelopedEvent}
    (stepEq : step config state label = some next)
    (settling : settled state label = some envelope) :
    next.permissions =
      match envelope.event.data with
      | .permissionGranted pluginId permission =>
          (settlePermission config state pluginId permission).permissions
      | _ => state.permissions := by
  cases label with
  | settle resolution =>
      obtain ⟨item, seqEvent, currentEq, rfl⟩ := settle_eq_some stepEq
      obtain rfl : item.envelope = envelope := by simpa [settled, currentEq] using settling
      rw [permissions_settleEvent]
      cases item.envelope.event.data with
      | permissionGranted pluginId permission =>
          simp only [settlePermission]
          split <;> rfl
      | _ => rfl
  | _ => simp [settled] at settling

/-! ## Who grants -/

/-- The envelope is a grant by the kernel. -/
def KernelGrant (envelope : EnvelopedEvent) : Prop :=
  envelope.issuer = none ∧
    ∃ pluginId permission, envelope.event.data = .permissionGranted pluginId permission

/-- A step without escalation: a permission appears only when a grant of the
kernel is settled, and a plugin's grant changes nobody's permissions. -/
structure WithoutEscalation (config : Config) (state : State) (label : Label) : Prop where
  grows : ∀ next, step config state label = some next → ∀ id permission,
    permission ∈ next.permissions id → permission ∉ state.permissions id →
      ∃ envelope, settled state label = some envelope ∧ KernelGrant envelope
  inert : ∀ next, step config state label = some next → ∀ envelope issuer pluginId permission,
    settled state label = some envelope → envelope.issuer = some issuer →
      envelope.event.data = .permissionGranted pluginId permission →
        next.permissions = state.permissions

/-- The step settles no plugin's grant of a legacy permission that the named
plugin does not hold yet. -/
def GrantsHarmless (config : Config) (state : State) (label : Label) : Prop :=
  ∀ envelope issuer pluginId permission legacy, settled state label = some envelope →
    envelope.issuer = some issuer →
      envelope.event.data = .permissionGranted pluginId permission →
        Permission.parse permission = some legacy →
          legacy ∈ state.permissions (config.fromName pluginId)

/-- Granting a held permission changes nothing. -/
theorem permissions_update_of_mem {id : ClotoId} {permission : Permission}
    (held : permission ∈ state.permissions id) :
    (state.updateEffectivePermissions id permission).permissions = state.permissions := by
  funext other
  simp [State.updateEffectivePermissions, held]

theorem mem_permissions_update {id : ClotoId} {permission : Permission} :
    permission ∈ (state.updateEffectivePermissions id permission).permissions id := by
  by_cases held : permission ∈ state.permissions id
  · rw [permissions_update_of_mem held]
    exact held
  · simp [State.updateEffectivePermissions, held]

/-- One step is without escalation exactly when it settles no harmful grant. -/
theorem withoutEscalation_iff (stepEq : step config state label = some next) :
    WithoutEscalation config state label ↔ GrantsHarmless config state label := by
  constructor
  · intro without envelope issuer pluginId permission legacy settling issued granted parsed
    have unchanged := without.inert next stepEq envelope issuer pluginId permission settling
      issued granted
    have changed := permissions_of_settled stepEq settling
    simp only [granted, settlePermission, parsed] at changed
    rw [← unchanged, changed]
    exact mem_permissions_update
  · intro harmless
    constructor
    case grows =>
      intro other otherEq id permission held fresh
      cases settling : settled state label with
      | none => exact absurd (permissions_of_step otherEq settling held) fresh
      | some envelope =>
          refine ⟨envelope, rfl, ?_⟩
          have permissionsEq := permissions_of_settled otherEq settling
          split at permissionsEq
          · rename_i pluginId text granted
            cases issued : envelope.issuer with
            | none => exact ⟨issued, pluginId, text, granted⟩
            | some issuer =>
                exfalso
                simp only [settlePermission] at permissionsEq
                split at permissionsEq
                · rename_i legacy parsed
                  have alreadyHeld := harmless envelope issuer pluginId text legacy settling issued
                    granted parsed
                  rw [permissions_update_of_mem alreadyHeld] at permissionsEq
                  exact fresh (permissionsEq ▸ held)
                · exact fresh (permissionsEq ▸ held)
          · exact absurd (permissionsEq ▸ held) fresh
    case inert =>
      intro other otherEq envelope issuer pluginId permission settling issued granted
      have permissionsEq := permissions_of_settled otherEq settling
      simp only [granted, settlePermission] at permissionsEq
      split at permissionsEq
      · rename_i legacy parsed
        rw [permissionsEq]
        exact permissions_update_of_mem
          (harmless envelope issuer pluginId permission legacy settling issued granted parsed)
      · exact permissionsEq

/-- A run is without escalation exactly when it settles no harmful grant. -/
theorem run_withoutEscalation_iff {start target : State} {labels : List Label}
    (ran : run (step config) start labels = some target) :
    Along (step config) (WithoutEscalation config) start labels ↔
      Along (step config) (GrantsHarmless config) start labels :=
  along_congr (fun _ _ _ stepEq => withoutEscalation_iff stepEq) ran

/-! ## A plugin grants itself a permission -/

/-- No run of any kernel, from any state, has an escalation. -/
def NoSelfEscalation : Prop :=
  ∀ (config : Config) (start target : State) (labels : List Label),
    run (step config) start labels = some target →
      Along (step config) (WithoutEscalation config) start labels

/-- A kernel with the one plugin `plugin.hal`. -/
def halConfig : Config where
  plugins := ["plugin.hal"]
  maxEventDepth := 10
  maxHistorySize := 50
  fromName := fun name =>
    if name = "plugin.hal" then 0x7e0dfbcdf8bd5c55bd4539811f82345a else 0
  admits := fun earlier requester now =>
    (earlier.filter fun check => check.1 = requester ∧ now < check.2 + 1).length < 20
  jsonText := fun _ => ""

/-- A kernel that has just started. -/
def freshState : State where
  pending := []
  current := none
  permissions := fun _ => []
  history := []
  nextSeq := 1
  rateChecks := []
  turns := []
  effects := []
  sent := []

/-- What the arms obtain from outside in the sample runs. -/
def sampleResolution : Resolution where
  now := 0
  messageId := "m-1"
  targetAgentId := "agent.a"
  agentName := "A"
  engineId := "engine.a"

/-- `plugin.hal` answers a notification with a grant to itself. -/
def selfGrantRun : List Label :=
  [.inject ⟨7, .other "SystemNotification"⟩, .receive 0,
    .dispatch [("plugin.hal", .permissionGranted "plugin.hal" "InputControl")],
    .settle sampleResolution, .receive 0, .dispatch []]

/-- Where the run stands before the grant is settled. -/
theorem exists_selfGrantRun : ∃ state item seqEvent,
    run (step halConfig) freshState selfGrantRun = some state ∧
      state.current = some ⟨item, seqEvent, .dispatched⟩ ∧
      item.envelope.issuer = some (halConfig.fromName "plugin.hal") ∧
      item.envelope.event.data = .permissionGranted "plugin.hal" "InputControl" ∧
      state.permissions (halConfig.fromName "plugin.hal") = [] :=
  ⟨_, _, _, rfl, rfl, rfl, rfl, rfl⟩

theorem not_noSelfEscalation : ¬ NoSelfEscalation := by
  intro noEscalation
  obtain ⟨state, item, seqEvent, ran, currentEq, issued, granted, unheld⟩ := exists_selfGrantRun
  have stepEq : step halConfig state (.settle sampleResolution) = some
      (settleEvent halConfig { state with current := none } ⟨item, seqEvent, .dispatched⟩
        sampleResolution) := by
    simp only [step, currentEq]
  have along := noEscalation halConfig freshState _ (selfGrantRun ++ [.settle sampleResolution])
    (run_append_eq_some_iff.mpr ⟨state, ran, run_cons_eq_some_iff.mpr ⟨_, stepEq, rfl⟩⟩)
  have harmless := (withoutEscalation_iff stepEq).mp (along.of_run ran).1
  have held := harmless item.envelope _ _ _ .inputControl (by simp [settled, currentEq]) issued
    granted rfl
  rw [unheld] at held
  exact absurd held List.not_mem_nil

theorem run_withoutEscalation_iff_selfGrantRun : ∃ state,
    run (step halConfig) freshState selfGrantRun = some state ∧
      (Along (step halConfig) (WithoutEscalation halConfig) freshState selfGrantRun ↔
        Along (step halConfig) (GrantsHarmless halConfig) freshState selfGrantRun) := by
  obtain ⟨state, _, _, ran, _⟩ := exists_selfGrantRun
  exact ⟨state, ran, run_withoutEscalation_iff ran⟩

end ClotoCore.Events
