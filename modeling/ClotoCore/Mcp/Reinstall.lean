import ClotoCore.Mcp.Persistence

/-!
# Installing a server again

An install, an update and a registration all write the row of their server with
the same upsert, which keeps the stored seal where the new one is null.  What
was installed last is kept beside the table, so that the two can be compared
after every operation.
-/

namespace ClotoCore.Mcp

open ClotoCore.Transition

/-! ## Registrations -/

/-- `EnvVarDef` -/
structure EnvVarDef where
  name : String
  default : Option String

/-- `RegistryEntry`, as far as the registration reads it. -/
structure RegistryEntry where
  id : String
  version : String
  description : String
  trustLevel : String
  envVars : List EnvVarDef

/-- The environment of an installed server: the defaults of the catalog under the
overrides of the request, as a map whose first binding of a name counts. -/
def RegistryEntry.env (entry : RegistryEntry) (overrides : List (String × String)) :
    List (String × String) :=
  overrides ++
    (entry.envVars.filterMap fun var => var.default.map fun value => (var.name, value)).reverse

/-- `add_server`, up to the configuration that it hands on. -/
def addServer (id command : String) (args : List String) (mgp : Option MgpServerConfig)
    (magicSeal : Option String) (env : List (String × String)) : McpServerConfig where
  id := id
  command := command
  args := args
  env := env
  transport := "stdio"
  url := none
  authToken := none
  autoRestart := some true
  requiredPermissions := []
  displayName := none
  mgp := mgp
  restartPolicy := none
  magicSeal := magicSeal
  isolation := none
  marketplaceId := none
  protocolEra := none

/-- `set_marketplace_fields` -/
def setMarketplaceFields (table : ServerTable) (name version marketplaceId : String)
    (trustLevel : Option String) (now : Int) : ServerTable where
  rows := fun id =>
    if id = name then
      (table.rows name).map fun row =>
        { row with
          installedVersion := some version
          marketplaceId := some marketplaceId
          trustLevel
          updatedAt := some now }
    else table.rows id
  named := by
    intro id row here
    split at here
    · rename_i same
      rcases Option.map_eq_some_iff.mp here with ⟨stored, there, rfl⟩
      rw [same]
      exact table.named name stored there
    · exact table.named id row here

/-- What one install registers, and how its writes to the database went. -/
structure Install where
  entry : RegistryEntry
  command : String
  args : List String
  /-- The seal that the verdict allows, `none` to register unsealed. -/
  magicSeal : Option String
  envOverrides : List (String × String)
  autoStart : Bool
  now : Int
  saved : Except String Unit
  fieldsSet : Bool

/-- The configuration that an install adds. -/
def Install.config (install : Install) : McpServerConfig :=
  addServer install.entry.id install.command install.args
    (some ⟨some install.entry.trustLevel⟩) install.magicSeal
    (install.entry.env install.envOverrides)

/-- `finish_registration`: a server that could not be added is only logged, and the
marketplace fields are set all the same. -/
def finishRegistration (json : SerdeJson) (kernel : Kernel) (world : Surroundings)
    (store : Store) (install : Install) : Store :=
  let id := install.entry.id
  let added := (addServerConfig json kernel world store install.config none
    (some install.entry.description) install.now install.saved).1
  { table :=
      if install.fieldsSet then
        setMarketplaceFields added.table id install.entry.version id
          (some install.entry.trustLevel) install.now
      else added.table
    manager :=
      if install.autoStart then added.manager
      else (added.manager.stopServer id).toOption.getD added.manager }

/-- The row of a server is deleted. -/
def ServerTable.delete (table : ServerTable) (id : String) : ServerTable where
  rows := Function.update table.rows id none
  named := by
    intro other row here
    by_cases same : other = id
    · subst same
      rw [Function.update_self] at here
      contradiction
    · rw [Function.update_of_ne same] at here
      exact table.named other row here

/-! ## Runs -/

/-- The seal and the trust level of one install. -/
structure Installed where
  magicSeal : Option String
  trustLevel : Option String

/-- The kernel's store, and what the last install of each server carried whose row
was written; no step reads it. -/
structure Registry where
  store : Store
  last : String → Option Installed

/-- A store in which nothing was installed yet by the run. -/
def Registry.initial (store : Store) : Registry where
  store := store
  last := fun _ => none

/-- An operation on the rows, with the surroundings its connection meets. -/
inductive Registration where
  /-- An install or an update from the catalog. -/
  | install (world : Surroundings) (install : Install)
  /-- A registration through the API, a script or an agent. -/
  | register (world : Surroundings) (config : McpServerConfig)
      (scriptContent description : Option String) (now : Int) (saved : Except String Unit)
  /-- A removal, and whether its row could be deleted. -/
  | remove (id : String) (deleted : Bool)

/-- What the registry knows after a row was written, or was not. -/
def Registry.recorded (registry : Registry) (id : String) (installed : Installed) :
    Except String Unit → String → Option Installed
  | .ok () => Function.update registry.last id (some installed)
  | .error _ => registry.last

/-- What an operation leaves behind. -/
def Registry.operate (json : SerdeJson) (kernel : Kernel) (registry : Registry) :
    Registration → Registry
  | .install world install =>
      { store := finishRegistration json kernel world registry.store install
        last := registry.recorded install.entry.id
          ⟨install.magicSeal, some install.entry.trustLevel⟩ install.saved }
  | .register world config scriptContent description now saved =>
      { store := (addServerConfig json kernel world registry.store config scriptContent description
          now saved).1
        last := registry.recorded config.id ⟨config.magicSeal, config.configTrust⟩ saved }
  | .remove id deleted =>
      match registry.store.manager.removeServer id with
      | .error _ => registry
      | .ok manager =>
          if deleted then
            { store := ⟨registry.store.table.delete id, manager⟩
              last := Function.update registry.last id none }
          else { registry with store := { registry.store with manager } }

/-- Every operation can be called in every state. -/
def registrationStep (json : SerdeJson) (kernel : Kernel) : Action Registry Registration :=
  fun registry registration => some (registry.operate json kernel registration)

/-! ## Stale rows -/

/-- Every row carries the seal and the trust level of the last install. -/
def Fresh (registry : Registry) : Prop :=
  ∀ id row installed, registry.store.table.rows id = some row →
    registry.last id = some installed →
    row.magicSeal = installed.magicSeal ∧ row.trustLevel = installed.trustLevel

/-- An operation that keeps nothing of an earlier install: an unsealed one finds no
stored seal and one without a trust level no stored trust level.  Where the row
cannot be written and its marketplace fields can, the trust level is the one of
the last install. -/
def Replaces (registry : Registry) : Registration → Prop
  | .install _ install =>
      (install.saved = .ok () → install.magicSeal = none →
        ∀ stored, registry.store.table.rows install.entry.id = some stored →
          stored.magicSeal = none) ∧
      (install.saved ≠ .ok () → install.fieldsSet = true →
        ∀ stored installed, registry.store.table.rows install.entry.id = some stored →
          registry.last install.entry.id = some installed →
          installed.trustLevel = some install.entry.trustLevel)
  | .register _ config _ _ _ saved =>
      saved = .ok () →
        (config.magicSeal = none →
          ∀ stored, registry.store.table.rows config.id = some stored → stored.magicSeal = none) ∧
        (config.configTrust = none →
          ∀ stored, registry.store.table.rows config.id = some stored → stored.trustLevel = none)
  | .remove _ _ => True

section Steps

variable {json : SerdeJson} {kernel : Kernel} {before after : Registry} {id : String}
  {row : McpServerRecord} {installed : Installed}

/-- A row that is replaced together with its last install is the only one to be
compared. -/
theorem fresh_replaced_iff (fresh : Fresh before)
    (here : after.store.table.rows id = some row)
    (others : ∀ other, other ≠ id → after.store.table.rows other = before.store.table.rows other)
    (last : after.last = Function.update before.last id (some installed)) :
    Fresh after ↔ row.magicSeal = installed.magicSeal ∧ row.trustLevel = installed.trustLevel := by
  constructor
  · intro stays
    apply stays id row installed here
    rw [last, Function.update_self]
  · intro agrees other otherRow otherInstalled there lastThere
    rw [last] at lastThere
    by_cases same : other = id
    · subst same
      rw [Function.update_self] at lastThere
      cases here.symm.trans there
      cases lastThere
      exact agrees
    · rw [others other same] at there
      rw [Function.update_of_ne same] at lastThere
      exact fresh other otherRow otherInstalled there lastThere

/-- What is stored for the other servers stays. -/
theorem rows_saveMcpServer_of_ne {table : ServerTable} {record : McpServerRecord} {now : Int}
    {other : String} (apart : other ≠ record.name) :
    (saveMcpServer table record now).rows other = table.rows other :=
  Function.update_of_ne apart ..

theorem rows_setMarketplaceFields_of_ne {table : ServerTable} {name version marketplaceId : String}
    {trustLevel : Option String} {now : Int} {other : String} (apart : other ≠ name) :
    (setMarketplaceFields table name version marketplaceId trustLevel now).rows other =
      table.rows other :=
  if_neg apart

/-- A registration is fresh exactly if the row keeps nothing. -/
theorem fresh_register_iff (fresh : Fresh before) {world : Surroundings} {config : McpServerConfig}
    {scriptContent description : Option String} {now : Int} {saved : Except String Unit} :
    Fresh (before.operate json kernel
      (.register world config scriptContent description now saved)) ↔
      Replaces before (.register world config scriptContent description now saved) := by
  cases saved with
  | error message =>
      have kept : Fresh (before.operate json kernel
          (.register world config scriptContent description now (.error message))) := fresh
      apply iff_of_true kept
      intro isSaved
      contradiction
  | ok =>
      let record := serverRecord json config scriptContent description now
      let row := before.store.table.upsert record now
      let installed : Installed := ⟨config.magicSeal, config.configTrust⟩
      have saved : SavedRow json before.store.table config row := savedRow_upsert ..
      have table : (before.operate json kernel
          (.register world config scriptContent description now (.ok ()))).store.table =
            saveMcpServer before.store.table record now := table_addServerConfig ..
      have replaced : Fresh (before.operate json kernel
          (.register world config scriptContent description now (.ok ()))) ↔
            row.magicSeal = installed.magicSeal ∧ row.trustLevel = installed.trustLevel := by
        apply fresh_replaced_iff fresh
        · rw [table]
          exact rows_saveMcpServer record
        · intro other apart
          rw [table]
          exact rows_saveMcpServer_of_ne apart
        · rfl
      rw [replaced, saved.magicSeal, saved.trustLevel, merged_eq_iff, merged_eq_iff]
      constructor
      · intro nothing isSaved
        exact nothing
      · intro replaces
        exact replaces rfl

/-- The row that an install leaves where it could be written. -/
theorem row_finishRegistration (json : SerdeJson) (kernel : Kernel) (world : Surroundings)
    (store : Store) {install : Install} (isSaved : install.saved = .ok ()) :
    ∃ row, (finishRegistration json kernel world store install).table.rows install.entry.id =
        some row ∧
      row.magicSeal = merged McpServerRecord.magicSeal store.table install.entry.id
        install.magicSeal ∧
      row.trustLevel = some install.entry.trustLevel := by
  let record := serverRecord json install.config none (some install.entry.description) install.now
  let row := store.table.upsert record install.now
  have saved : SavedRow json store.table install.config row := savedRow_upsert ..
  have here : (saveMcpServer store.table record install.now).rows install.entry.id = some row :=
    rows_saveMcpServer record
  have trustLevel : row.trustLevel = some install.entry.trustLevel := by
    rw [saved.trustLevel]
    rfl
  unfold finishRegistration
  dsimp only
  rw [isSaved, table_addServerConfig]
  cases install.fieldsSet with
  | false => exact ⟨row, here, saved.magicSeal, trustLevel⟩
  | true =>
      refine ⟨{ row with
        installedVersion := some install.entry.version
        marketplaceId := some install.entry.id
        trustLevel := some install.entry.trustLevel
        updatedAt := some install.now }, ?_, saved.magicSeal, rfl⟩
      simp only [setMarketplaceFields, if_true]
      rw [here]
      rfl

/-- An install changes no other row. -/
theorem rows_finishRegistration_of_ne {store : Store} {world : Surroundings} {install : Install}
    {other : String} (apart : other ≠ install.entry.id) :
    (finishRegistration json kernel world store install).table.rows other =
      store.table.rows other := by
  have added : (addServerConfig json kernel world store install.config none
      (some install.entry.description) install.now install.saved).1.table.rows other =
        store.table.rows other := by
    cases install.saved with
    | error message => rfl
    | ok =>
        rw [table_addServerConfig]
        exact rows_saveMcpServer_of_ne apart
  unfold finishRegistration
  dsimp only
  split
  · rw [rows_setMarketplaceFields_of_ne apart, added]
  · exact added

/-- An install whose row was written is fresh exactly if it keeps no seal. -/
theorem fresh_install_iff_of_saved (fresh : Fresh before) {world : Surroundings}
    {install : Install} (isSaved : install.saved = .ok ()) :
    Fresh (before.operate json kernel (.install world install)) ↔
      (install.magicSeal = none →
        ∀ stored, before.store.table.rows install.entry.id = some stored →
          stored.magicSeal = none) := by
  let installed : Installed := ⟨install.magicSeal, some install.entry.trustLevel⟩
  rcases row_finishRegistration json kernel world before.store isSaved with
    ⟨row, here, magicSeal, trustLevel⟩
  have replaced : Fresh (before.operate json kernel (.install world install)) ↔
      row.magicSeal = installed.magicSeal ∧ row.trustLevel = installed.trustLevel := by
    apply fresh_replaced_iff fresh here
    · intro other apart
      exact rows_finishRegistration_of_ne apart
    · simp only [Registry.operate, isSaved]
      rfl
  rw [replaced, and_iff_left trustLevel, magicSeal]
  exact merged_eq_iff

/-- An install whose row could not be written is fresh exactly if it brings no new
trust level. -/
theorem fresh_install_iff_of_unsaved (fresh : Fresh before) {world : Surroundings}
    {install : Install} (unsaved : install.saved ≠ .ok ()) :
    Fresh (before.operate json kernel (.install world install)) ↔
      (install.fieldsSet = true →
        ∀ stored installed, before.store.table.rows install.entry.id = some stored →
          before.last install.entry.id = some installed →
          installed.trustLevel = some install.entry.trustLevel) := by
  let marked := setMarketplaceFields before.store.table install.entry.id install.entry.version
    install.entry.id (some install.entry.trustLevel) install.now
  have outcome :
      (before.operate json kernel (.install world install)).store.table =
          (if install.fieldsSet then marked else before.store.table) ∧
        (before.operate json kernel (.install world install)).last = before.last := by
    cases saved : install.saved with
    | ok => exact absurd saved unsaved
    | error message =>
        simp only [Registry.operate, finishRegistration, addServerConfig, saved]
        exact ⟨rfl, rfl⟩
  unfold Fresh
  rw [outcome.1, outcome.2]
  cases install.fieldsSet with
  | false =>
      apply iff_of_true fresh
      intro fieldsSet
      contradiction
  | true =>
      have here : marked.rows install.entry.id = (before.store.table.rows install.entry.id).map _ :=
        if_pos rfl
      constructor
      · intro stays fieldsSet stored installed there lastThere
        rw [there] at here
        exact (stays install.entry.id _ installed here lastThere).2.symm
      · intro sameLevel id row installed found lastFound
        by_cases same : id = install.entry.id
        · subst same
          rcases Option.map_eq_some_iff.mp (here.symm.trans found) with ⟨stored, there, rfl⟩
          constructor
          · exact (fresh _ stored installed there lastFound).1
          · exact (sameLevel rfl stored installed there lastFound).symm
        · apply fresh id row installed _ lastFound
          rw [← found]
          exact (rows_setMarketplaceFields_of_ne same).symm

/-- An install is fresh exactly if the row keeps nothing. -/
theorem fresh_install_iff (fresh : Fresh before) {world : Surroundings} {install : Install} :
    Fresh (before.operate json kernel (.install world install)) ↔
      Replaces before (.install world install) := by
  unfold Replaces
  by_cases isSaved : install.saved = .ok ()
  · rw [fresh_install_iff_of_saved fresh isSaved]
    constructor
    · intro keepsNothing
      exact ⟨fun _ => keepsNothing, fun unsaved => absurd isSaved unsaved⟩
    · intro replaces
      exact replaces.1 isSaved
  · rw [fresh_install_iff_of_unsaved fresh isSaved]
    constructor
    · intro sameLevel
      exact ⟨fun saved => absurd saved isSaved, fun _ => sameLevel⟩
    · intro replaces
      exact replaces.2 isSaved

/-- A removal leaves no row of the server and no last install. -/
theorem fresh_remove (fresh : Fresh before) {deleted : Bool} :
    Fresh (before.operate json kernel (.remove id deleted)) := by
  unfold Registry.operate
  dsimp only
  split
  · exact fresh
  · split
    · intro other row installed here lastHere
      by_cases same : other = id
      · subst same
        simp [ServerTable.delete] at here
      · simp only [ServerTable.delete, Function.update_of_ne same] at here
        simp only [Function.update_of_ne same] at lastHere
        exact fresh other row installed here lastHere
    · exact fresh

theorem fresh_operate_iff (fresh : Fresh before) (registration : Registration) :
    Fresh (before.operate json kernel registration) ↔ Replaces before registration := by
  cases registration with
  | install world install => exact fresh_install_iff fresh
  | register world config scriptContent description now saved => exact fresh_register_iff fresh
  | remove id deleted => exact iff_of_true (fresh_remove fresh) trivial

/-- The next boot has the seal and the trust level of the last install. -/
theorem Fresh.boot (fresh : Fresh before) {loaded : McpServerConfig}
    (boots : bootConfig json before.store.table id = some loaded)
    (last : before.last id = some installed) :
    loaded.magicSeal = installed.magicSeal ∧ loaded.configTrust = installed.trustLevel := by
  rcases Option.bind_eq_some_iff.mp boots with ⟨row, here, read⟩
  split at read
  · cases read
    rw [configTrust_persisted]
    exact fresh id row installed here last
  · contradiction

end Steps

theorem fresh_initial (store : Store) : Fresh (.initial store) := by
  intro id row installed here last
  cases last

/-- In a run from any store, the rows carry what was installed last in every state
exactly if every operation keeps nothing of an earlier install. -/
theorem fresh_throughout_iff (json : SerdeJson) (kernel : Kernel) (store : Store)
    (registrations : List Registration) :
    (∀ count registry, run (registrationStep json kernel) (.initial store)
        (registrations.take count) = some registry → Fresh registry) ↔
      Along (registrationStep json kernel) Replaces (.initial store) registrations := by
  have ran : run (registrationStep json kernel) (.initial store) registrations =
      some (registrations.foldl (Registry.operate json kernel) (.initial store)) :=
    run_eq_some_foldl (fun _ _ => rfl) _ _
  apply throughout_iff_along _ (fresh_initial store) ran
  intro registry registration next fresh stepEq
  cases stepEq
  exact fresh_operate_iff fresh registration

/-! ## A seal that stays -/

/-- The rows carry what was installed last in every state that the operations
reach. -/
def NeverStale : Prop :=
  ∀ (json : SerdeJson) (kernel : Kernel) (store : Store) (registrations : List Registration)
    (registry : Registry),
    run (registrationStep json kernel) (.initial store) registrations = some registry →
      Fresh registry

/-- An install of one catalog entry under a seal, or under none. -/
def installWith (magicSeal : Option String) : Registration :=
  .install (fileServer 0)
    { entry := ⟨"a", "1.0.0", "A server for files", "standard", []⟩
      command := "node"
      args := []
      magicSeal
      envOverrides := []
      autoStart := true
      now := 0
      saved := .ok ()
      fieldsSet := true }

/-- A sealed install and an unsealed one after it. -/
def sealedThenUnsealed : List Registration :=
  [installWith (some "sha256:00"), installWith none]

/-- The seal of the first install stays. -/
theorem not_neverStale : ¬NeverStale := by
  intro never
  let registry := sealedThenUnsealed.foldl (Registry.operate quotedJson openKernel)
    (.initial ⟨.empty, .empty⟩)
  have ran : run (registrationStep quotedJson openKernel) (.initial ⟨.empty, .empty⟩)
      sealedThenUnsealed = some registry := run_eq_some_foldl (fun _ _ => rfl) _ _
  have stored : (registry.store.table.rows "a").map McpServerRecord.magicSeal =
      some (some "sha256:00") := by decide +kernel
  rcases Option.map_eq_some_iff.mp stored with ⟨row, here, magicSeal⟩
  have fresh := never quotedJson openKernel _ sealedThenUnsealed registry ran
  have unsealed : row.magicSeal = none := (fresh "a" row ⟨none, some "standard"⟩ here rfl).1
  rw [magicSeal] at unsealed
  contradiction

end ClotoCore.Mcp
