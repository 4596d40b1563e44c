import ClotoCore.Lookup.Dictionary
import ClotoCore.Mcp.Reinstall

/-!
# The environment of an updated server

An update of a server sends its environment again, with empty texts for the secrets that
the dialog does not show.  The environment that is stored is read first and what is sent is
laid on it, since the row is written with the new environment as a whole.
-/

namespace ClotoCore.Mcp.UpdateEnv

open ClotoCore.Lookup

/-! ## The handler -/

/-- `HashMap<String, String>` -/
abbrev Env := Dictionary String String

/-- `InstallRequest`, whose server is the one of the entry. -/
structure InstallRequest where
  env : Option Env
  autoStart : Option Bool
  update : Option Bool

/-- How far an install gets: it stops before it registers anything, or its files launch no
process, or a server is registered. -/
inductive Arrival where
  | stops
  | static
  | registers (command : String) (args : List String) (magicSeal : Option String) (now : Int)
      (saved : Except String Unit) (fieldsSet : Bool)

/-- What an install meets: whether it is admitted at all, which reads of the database
succeed, whether the files on disk are those of a connector without a process, and how far
it gets. -/
structure Course where
  admitted : Bool
  rowsRead : Bool
  serversRead : Bool
  registersNoServer : Bool
  arrival : Arrival

/-- `existing_env`: only the rows of active servers are read. -/
def existingEnv (json : SerdeJson) (serversRead : Bool) (table : ServerTable) (id : String) :
    List (String × String) :=
  if serversRead then
    match table.rows id with
    | some row => if row.isActive then (json.envFromStr row.env).getD [] else []
    | none => []
  else []

/-- `blocks_a_fresh_install` -/
def blocksAFreshInstall (course : Course) (table : ServerTable) (id : String) : Bool :=
  (course.rowsRead && (table.rows id).any (·.command != placeholderCommand)) ||
    course.registersNoServer

/-- The overrides that an install starts from. -/
def envOverrides (json : SerdeJson) (course : Course) (table : ServerTable) (id : String)
    (request : InstallRequest) : List (String × String) :=
  let requestEnv := request.env.getD (Keyed.empty Prod.fst)
  if request.update.getD false && blocksAFreshInstall course table id then
    requestEnv.items.filter (!·.2.isEmpty) ++ existingEnv json course.serversRead table id
  else requestEnv.items

/-- `install_handler` and the task that it spawns: the store behind them, and whether the
server was installed. -/
def installHandler (json : SerdeJson) (kernel : Kernel) (world : Surroundings) (store : Store)
    (entry : RegistryEntry) (request : InstallRequest) (course : Course) : Store × Bool :=
  let isUpdate := request.update.getD false
  if !course.admitted then (store, false)
  else if blocksAFreshInstall course store.table entry.id && !isUpdate then (store, false)
  else
    let overrides := envOverrides json course store.table entry.id request
    let stopped : Store :=
      if isUpdate then
        { store with manager := (store.manager.stopServer entry.id).toOption.getD store.manager }
      else store
    match course.arrival with
    | .stops => (stopped, false)
    | .static => (stopped, true)
    | .registers command args magicSeal now saved fieldsSet =>
        (finishRegistration json kernel world stopped
          { entry
            command
            args
            magicSeal
            envOverrides := overrides
            autoStart := request.autoStart.getD true
            now
            saved
            fieldsSet }, true)

/-! ## Secrets -/

/-- An update that sends an environment. -/
def updateRequest (env : Option Env) (autoStart : Option Bool) : InstallRequest where
  env := env
  autoStart := autoStart
  update := some true

/-- What is sent for a variable. -/
def sentValue (env : Option Env) (key : String) : Option String :=
  (env.getD (Keyed.empty Prod.fst)).value key

/-- What is to be stored for a variable: the text that is sent, and the old one where it is
empty. -/
def wanted (env : Option Env) (key old : String) : String :=
  ((sentValue env key).filter (!·.isEmpty)).getD old

/-- Every variable of the environment that was stored is still stored, and an environment
that cannot be read is left as it is. -/
def KeepsEnv (json : SerdeJson) (id : String) (env : Option Env) (before : Store)
    (after : Store × Bool) : Prop :=
  ∀ row, before.table.rows id = some row →
    ∃ next, after.1.table.rows id = some next ∧
      match json.envFromStr row.env with
      | none => next.env = row.env
      | some stored => ∀ key old, stored.lookup key = some old →
          ∃ kept, json.envFromStr next.env = some kept ∧
            kept.lookup key = some (if after.2 then wanted env key old else old)

/-! ## Which updates keep them -/

/-- Whether the row of the server is written. -/
def Arrival.writes : Arrival → Bool
  | .registers _ _ _ _ (.ok ()) _ => true
  | _ => false

/-- Whether the new version is installed. -/
def Arrival.installs : Arrival → Bool
  | .stops => false
  | _ => true

/-- What the catalog gives a variable. -/
def defaultValue (entry : RegistryEntry) (key : String) : Option String :=
  (entry.env []).lookup key

/-- The server counts as installed, its row is active and the rows can be read. -/
def ReadsBack (course : Course) (row : McpServerRecord) : Prop :=
  (course.rowsRead = true ∧ row.command ≠ placeholderCommand ∨ course.registersNoServer = true) ∧
    course.serversRead = true ∧ row.isActive = true

/-- What a variable has without the stored environment, where nothing but an empty text is
sent for it. -/
def fallback (entry : RegistryEntry) (course : Course) (row : McpServerRecord)
    (env : Option Env) (key : String) : Option String :=
  if course.rowsRead = true ∧ row.command ≠ placeholderCommand ∨ course.registersNoServer = true
  then defaultValue entry key
  else (sentValue env key).or (defaultValue entry key)

/-- An update that writes the row has read the stored environment, or what it has of each
variable without it is the same; one that installs without writing the row sends nothing
new. -/
structure Safe (json : SerdeJson) (entry : RegistryEntry) (env : Option Env) (course : Course)
    (row : McpServerRecord) : Prop where
  written : course.admitted = true → course.arrival.writes = true →
    ∃ stored, json.envFromStr row.env = some stored ∧
      (ReadsBack course row ∨ ∀ key old, stored.lookup key = some old →
        (∃ text, sentValue env key = some text ∧ text.isEmpty = false) ∨
          fallback entry course row env key = some old)
  unwritten : course.admitted = true → course.arrival.installs = true →
    course.arrival.writes = false → ∀ stored, json.envFromStr row.env = some stored →
      ∀ key old text, stored.lookup key = some old → sentValue env key = some text →
        text.isEmpty = false → text = old

/-! ## What is stored -/

variable {json : SerdeJson} {kernel : Kernel} {world : Surroundings} {store : Store}
  {entry : RegistryEntry} {env : Option Env} {autoStart : Option Bool} {course : Course}
  {row : McpServerRecord} {key : String}

theorem blocksAFreshInstall_iff (here : store.table.rows entry.id = some row) :
    blocksAFreshInstall course store.table entry.id = true ↔
      course.rowsRead = true ∧ row.command ≠ placeholderCommand ∨
        course.registersNoServer = true := by
  simp [blocksAFreshInstall, here]

theorem lookup_env (overrides : List (String × String)) :
    (entry.env overrides).lookup key = (overrides.lookup key).or (defaultValue entry key) := by
  rw [defaultValue, RegistryEntry.env, RegistryEntry.env, List.lookup_append, List.nil_append]

/-- What the overrides of an update have for a variable. -/
theorem lookup_envOverrides (here : store.table.rows entry.id = some row) :
    (envOverrides json course store.table entry.id (updateRequest env autoStart)).lookup key
      = if course.rowsRead = true ∧ row.command ≠ placeholderCommand ∨
            course.registersNoServer = true
        then ((sentValue env key).filter (!·.isEmpty)).or
          ((existingEnv json course.serversRead store.table entry.id).lookup key)
        else sentValue env key := by
  unfold envOverrides
  dsimp only
  by_cases blocks : course.rowsRead = true ∧ row.command ≠ placeholderCommand ∨
      course.registersNoServer = true
  · rw [if_pos blocks, (blocksAFreshInstall_iff here).mpr blocks]
    change ((_ : List (String × String)) ++ _).lookup key = _
    rw [List.lookup_append, Dictionary.lookup_filter]
    rfl
  · have open' : blocksAFreshInstall course store.table entry.id = false := by
      rw [← Bool.not_eq_true, blocksAFreshInstall_iff here]
      exact blocks
    rw [if_neg blocks, open', Bool.and_false, if_neg Bool.false_ne_true,
      ← Dictionary.value_eq_lookup]
    rfl

/-- The marketplace fields are not the environment. -/
theorem env_setMarketplaceFields {table : ServerTable} {name version marketplaceId : String}
    {trustLevel : Option String} {now : Int} (here : table.rows name = some row) :
    ∃ next, (setMarketplaceFields table name version marketplaceId trustLevel now).rows name
        = some next ∧ next.env = row.env := by
  refine ⟨{ row with
    installedVersion := some version
    marketplaceId := some marketplaceId
    trustLevel
    updatedAt := some now }, ?_, rfl⟩
  simp only [setMarketplaceFields, if_true, here, Option.map_some]

/-- The environment of a row behind a registration. -/
theorem env_finishRegistration (json : SerdeJson) (kernel : Kernel) (world : Surroundings)
    (store : Store) (install : Install) (saved : install.saved = .ok ()) :
    ∃ next, (finishRegistration json kernel world store install).table.rows install.entry.id
        = some next ∧
      next.env = json.envToString (install.entry.env install.envOverrides) := by
  let record := serverRecord json install.config none (some install.entry.description) install.now
  have written : SavedRow json store.table install.config (store.table.upsert record install.now) :=
    savedRow_upsert ..
  have here : (saveMcpServer store.table record install.now).rows install.entry.id
      = some (store.table.upsert record install.now) := rows_saveMcpServer record
  unfold finishRegistration
  dsimp only
  rw [saved, table_addServerConfig]
  cases install.fieldsSet with
  | false => exact ⟨_, here, written.env⟩
  | true =>
      rcases env_setMarketplaceFields here with ⟨next, found, same⟩
      exact ⟨next, found, same.trans written.env⟩

/-- A registration that does not write the row changes no environment. -/
theorem env_finishRegistration_of_unsaved (json : SerdeJson) (kernel : Kernel)
    (world : Surroundings) (store : Store) (install : Install) {message : String}
    (unsaved : install.saved = .error message)
    (here : store.table.rows install.entry.id = some row) :
    ∃ next, (finishRegistration json kernel world store install).table.rows install.entry.id
        = some next ∧ next.env = row.env := by
  unfold finishRegistration
  dsimp only
  rw [unsaved]
  have kept : (addServerConfig json kernel world store install.config none
      (some install.entry.description) install.now (.error message)).1.table = store.table := rfl
  rw [kept]
  cases install.fieldsSet with
  | false => exact ⟨row, here, rfl⟩
  | true => exact env_setMarketplaceFields here

/-- What an update leaves in the row: the environment that it writes, or the old one. -/
theorem installHandler_cases (json : SerdeJson) (kernel : Kernel) (world : Surroundings)
    (env : Option Env) (autoStart : Option Bool) (course : Course)
    (here : store.table.rows entry.id = some row) :
    ∃ next, (installHandler json kernel world store entry (updateRequest env autoStart)
        course).1.table.rows entry.id = some next ∧
      (installHandler json kernel world store entry (updateRequest env autoStart) course).2
        = (course.admitted && course.arrival.installs) ∧
      (course.admitted = true → course.arrival.writes = true →
        next.env = json.envToString (entry.env (envOverrides json course store.table entry.id
          (updateRequest env autoStart)))) ∧
      ((course.admitted = true → course.arrival.writes = false) → next.env = row.env) := by
  unfold installHandler
  have update : (updateRequest env autoStart).update.getD false = true := rfl
  dsimp only
  rw [update]
  cases course.admitted with
  | false => exact ⟨row, here, rfl, by simp, fun _ => rfl⟩
  | true =>
      rw [Bool.not_true, if_neg Bool.false_ne_true, Bool.and_false, if_neg Bool.false_ne_true]
      cases arrival : course.arrival with
      | stops => exact ⟨row, here, rfl, by simp [Arrival.writes], fun _ => rfl⟩
      | «static» => exact ⟨row, here, rfl, by simp [Arrival.writes], fun _ => rfl⟩
      | registers command args magicSeal now saved fieldsSet =>
          cases saved with
          | ok =>
              rcases env_finishRegistration json kernel world
                { store with manager :=
                  (store.manager.stopServer entry.id).toOption.getD store.manager }
                ⟨entry, command, args, magicSeal, envOverrides json course store.table
                  entry.id (updateRequest env autoStart), autoStart.getD true, now, .ok (),
                  fieldsSet⟩ rfl with ⟨next, found, written⟩
              exact ⟨next, found, rfl, fun _ _ => written, fun unwritten => by
                cases unwritten rfl⟩
          | error message =>
              rcases env_finishRegistration_of_unsaved json kernel world
                { store with manager :=
                  (store.manager.stopServer entry.id).toOption.getD store.manager }
                ⟨entry, command, args, magicSeal, envOverrides json course store.table
                  entry.id (updateRequest env autoStart), autoStart.getD true, now,
                  .error message, fieldsSet⟩ rfl here with ⟨next, found, kept⟩
              exact ⟨next, found, rfl, by simp [Arrival.writes], fun _ => kept⟩

/-! ## Exactness -/

/-- Without the stored environment a variable has what is sent, or what is left of it. -/
theorem lookup_env_of_unread (here : store.table.rows entry.id = some row)
    (unread : existingEnv json course.serversRead store.table entry.id = [] ∨
      ¬(course.rowsRead = true ∧ row.command ≠ placeholderCommand ∨
        course.registersNoServer = true)) :
    (entry.env (envOverrides json course store.table entry.id
        (updateRequest env autoStart))).lookup key
      = ((sentValue env key).filter (!·.isEmpty)).or (fallback entry course row env key) := by
  rw [lookup_env, lookup_envOverrides here, fallback]
  split
  · next blocks =>
    rw [unread.resolve_right (not_not_intro blocks)]
    simp
  · cases sent : sentValue env key with
    | none => simp [Option.filter]
    | some text => cases empty : text.isEmpty <;> simp [Option.filter, empty]

/-- The stored environment that is read counts where nothing is sent. -/
theorem lookup_env_of_read (here : store.table.rows entry.id = some row)
    (reads : ReadsBack course row) {stored : List (String × String)}
    (parsed : json.envFromStr row.env = some stored) :
    (entry.env (envOverrides json course store.table entry.id
        (updateRequest env autoStart))).lookup key
      = (((sentValue env key).filter (!·.isEmpty)).or (stored.lookup key)).or
        (defaultValue entry key) := by
  have existing : existingEnv json course.serversRead store.table entry.id = stored := by
    simp [existingEnv, here, reads.2.1, reads.2.2, parsed]
  rw [lookup_env, lookup_envOverrides here, if_pos reads.1, existing]

/-- An environment that is not read back is taken for an empty one. -/
theorem unread_of_not_readsBack (here : store.table.rows entry.id = some row)
    (not : ¬ReadsBack course row) :
    existingEnv json course.serversRead store.table entry.id = [] ∨
      ¬(course.rowsRead = true ∧ row.command ≠ placeholderCommand ∨
        course.registersNoServer = true) := by
  by_cases blocks : course.rowsRead = true ∧ row.command ≠ placeholderCommand ∨
      course.registersNoServer = true
  · left
    unfold existingEnv
    cases read : course.serversRead with
    | false => rfl
    | true =>
        have inactive : row.isActive = false := by
          rw [← Bool.not_eq_true]
          exact fun active => not ⟨blocks, read, active⟩
        simp [here, inactive]
  · exact Or.inr blocks

/-- Nothing but an empty text is sent, or the text that is wanted. -/
theorem sent_cases (env : Option Env) (key old : String) :
    (∃ text, sentValue env key = some text ∧ text.isEmpty = false ∧ wanted env key old = text ∧
        (sentValue env key).filter (!·.isEmpty) = some text) ∨
      (¬∃ text, sentValue env key = some text ∧ text.isEmpty = false) ∧ wanted env key old = old ∧
        (sentValue env key).filter (!·.isEmpty) = none := by
  cases sent : sentValue env key with
  | none => simp [wanted, sent, Option.filter]
  | some text =>
      cases empty : text.isEmpty with
      | true =>
          have blank := String.isEmpty_iff.mp empty
          simp [wanted, sent, Option.filter, blank]
      | false => simp [wanted, sent, Option.filter, empty]

/-- What the variables of an environment have to become. -/
def Becomes (json : SerdeJson) (env : Option Env) (installed : Bool) (old new : String) : Prop :=
  match json.envFromStr old with
  | none => new = old
  | some stored => ∀ key held, stored.lookup key = some held →
      ∃ kept, json.envFromStr new = some kept ∧
        kept.lookup key = some (if installed then wanted env key held else held)

/-- A row that is written keeps its environment exactly if that was read, or nothing is lost
without it. -/
theorem becomes_written_iff (here : store.table.rows entry.id = some row) :
    Becomes json env true row.env (json.envToString (entry.env (envOverrides json course store.table
        entry.id (updateRequest env autoStart)))) ↔
      ∃ stored, json.envFromStr row.env = some stored ∧
        (ReadsBack course row ∨ ∀ key old, stored.lookup key = some old →
          (∃ text, sentValue env key = some text ∧ text.isEmpty = false) ∨
            fallback entry course row env key = some old) := by
  rcases json.env (entry.env (envOverrides json course store.table entry.id
    (updateRequest env autoStart))) with ⟨loaded, read, same⟩
  unfold Becomes
  cases parsed : json.envFromStr row.env with
  | none =>
      constructor
      · intro kept
        dsimp only at kept
        rw [kept, parsed] at read
        cases read
      · rintro ⟨stored, found, -⟩
        cases found
  | some stored =>
      dsimp only
      rw [read]
      constructor
      · intro kept
        refine ⟨stored, rfl, ?_⟩
        by_cases reads : ReadsBack course row
        · exact Or.inl reads
        · right
          intro key old held
          rcases kept key old held with ⟨_, ⟨rfl⟩, value⟩
          rw [same, lookup_env_of_unread here (unread_of_not_readsBack here reads), if_pos rfl]
            at value
          rcases sent_cases env key old with ⟨text, sent, filled, -⟩ | ⟨-, isOld, nothing⟩
          · exact Or.inl ⟨text, sent, filled⟩
          · right
            rw [nothing, isOld] at value
            exact value
      · rintro ⟨_, ⟨rfl⟩, safe⟩ key old held
        refine ⟨loaded, rfl, ?_⟩
        rw [same, if_pos rfl]
        rcases safe with reads | lossless
        · rw [lookup_env_of_read here reads parsed, held]
          rcases sent_cases env key old with ⟨text, -, -, isText, found⟩ | ⟨-, isOld, nothing⟩
          · rw [found, isText]
            rfl
          · rw [nothing, isOld]
            rfl
        · by_cases reads : ReadsBack course row
          · rw [lookup_env_of_read here reads parsed, held]
            rcases sent_cases env key old with ⟨text, -, -, isText, found⟩ | ⟨-, isOld, nothing⟩
            · rw [found, isText]
              rfl
            · rw [nothing, isOld]
              rfl
          · rw [lookup_env_of_unread here (unread_of_not_readsBack here reads)]
            rcases sent_cases env key old with ⟨text, -, -, isText, found⟩ | ⟨none, isOld, nothing⟩
            · rw [found, isText]
              rfl
            · rw [nothing, isOld, (lossless key old held).resolve_left none]
              rfl

/-- A row that is not written keeps its environment exactly if nothing new is sent, or the
update does not succeed. -/
theorem becomes_unwritten_iff (installed : Bool) (text : String) :
    Becomes json env installed text text ↔
      (installed = true → ∀ stored, json.envFromStr text = some stored →
        ∀ key old new, stored.lookup key = some old → sentValue env key = some new →
          new.isEmpty = false → new = old) := by
  unfold Becomes
  cases parsed : json.envFromStr text with
  | none => simp
  | some stored =>
      dsimp only
      constructor
      · rintro kept success _ ⟨rfl⟩ key old new held sent filled
        rcases kept key old held with ⟨_, ⟨rfl⟩, value⟩
        rw [held, if_pos success] at value
        rcases sent_cases env key old with ⟨given, found, -, isGiven, -⟩ | ⟨none, -⟩
        · rw [sent] at found
          cases found
          rw [isGiven] at value
          exact (Option.some.inj value).symm
        · exact absurd ⟨new, sent, filled⟩ none
      · intro nothing key old held
        refine ⟨stored, rfl, ?_⟩
        rw [held]
        cases installed with
        | false => rfl
        | true =>
            rw [if_pos rfl]
            rcases sent_cases env key old with ⟨text, sent, filled, isText, -⟩ | ⟨-, isOld, -⟩
            · rw [isText, nothing rfl stored rfl key old text held sent filled]
            · rw [isOld]

/-- An update keeps the stored environment exactly if it is safe. -/
theorem installHandler_keepsEnv_iff (json : SerdeJson) (kernel : Kernel) (world : Surroundings)
    (store : Store) (entry : RegistryEntry) (env : Option Env) (autoStart : Option Bool)
    (course : Course) :
    KeepsEnv json entry.id env store
        (installHandler json kernel world store entry (updateRequest env autoStart) course) ↔
      ∀ row, store.table.rows entry.id = some row → Safe json entry env course row := by
  unfold KeepsEnv
  apply forall₂_congr
  intro row here
  rcases installHandler_cases json kernel world env autoStart course here with
    ⟨next, found, installed, written, kept⟩
  rw [found, installed]
  have becomes : (∃ other, some next = some other ∧
      Becomes json env (course.admitted && course.arrival.installs) row.env other.env) ↔
        Becomes json env (course.admitted && course.arrival.installs) row.env next.env := by
    simp
  refine becomes.trans ?_
  have installsOf : course.arrival.writes = true → course.arrival.installs = true := by
    cases course.arrival <;> simp [Arrival.writes, Arrival.installs]
  by_cases writes : course.admitted = true ∧ course.arrival.writes = true
  · rw [writes.1, installsOf writes.2, Bool.and_self, written writes.1 writes.2,
      becomes_written_iff here]
    constructor
    · intro safe
      refine ⟨fun _ _ => safe, fun _ _ unwritten => ?_⟩
      rw [writes.2] at unwritten
      cases unwritten
    · intro safe
      exact safe.written writes.1 writes.2
  · have unwritten : course.admitted = true → course.arrival.writes = false := by
      intro admitted
      rw [← Bool.not_eq_true]
      exact fun isWritten => writes ⟨admitted, isWritten⟩
    rw [kept unwritten, becomes_unwritten_iff, Bool.and_eq_true]
    constructor
    · intro nothing
      exact ⟨fun admitted isWritten => absurd ⟨admitted, isWritten⟩ writes,
        fun admitted installs _ => nothing ⟨admitted, installs⟩⟩
    · intro safe success
      exact safe.unwritten success.1 success.2 (unwritten success.1)

/-! ## A secret that is not read back -/

/-- The row of a server with a secret. -/
def secretRow (isActive : Bool) : McpServerRecord :=
  { McpServerRecord.default with
    name := "a"
    command := "node"
    env := quotedJson.envToString [("API_KEY", "secret")]
    isActive := isActive }

/-- A database whose one row has a secret. -/
def secretStore (isActive : Bool) : Store where
  table := saveMcpServer .empty (secretRow isActive) 0
  manager := .empty

/-- An install that goes through, whether or not the active rows can be read. -/
def plainCourse (serversRead : Bool) : Course where
  admitted := true
  rowsRead := true
  serversRead := serversRead
  registersNoServer := false
  arrival := .registers "node" [] none 0 (.ok ()) true

/-- A new version of that server. -/
def filesEntry : RegistryEntry :=
  ⟨"a", "1.0.1", "A server for files", "standard", []⟩

/-- The update of the server that sends no environment. -/
def secretUpdate (isActive serversRead : Bool) : Store × Bool :=
  installHandler quotedJson openKernel (fileServer 0) (secretStore isActive) filesEntry
    (updateRequest none none) (plainCourse serversRead)

/-- What is stored after it has no secret, where the row is not read back. -/
theorem env_secretUpdate {isActive serversRead : Bool}
    (unread : (isActive && serversRead) = false) :
    ((secretUpdate isActive serversRead).1.table.rows "a").map
      (fun row => quotedJson.envFromStr row.env) = some (some []) := by
  cases isActive with
  | false => cases serversRead <;> decide +kernel
  | true =>
      cases serversRead with
      | false => decide +kernel
      | true => cases unread

theorem not_keepsEnv_of_unread {isActive serversRead : Bool}
    (unread : (isActive && serversRead) = false) :
    ¬ KeepsEnv quotedJson "a" none (secretStore isActive) (secretUpdate isActive serversRead) := by
  intro keeps
  rcases keeps (secretRow isActive) rfl with ⟨next, found, becomes⟩
  have parsed : quotedJson.envFromStr (secretRow isActive).env = some [("API_KEY", "secret")] := by
    cases isActive <;> decide +kernel
  have written := env_secretUpdate unread
  rw [parsed] at becomes
  rcases becomes "API_KEY" "secret" rfl with ⟨env, read, value⟩
  rw [found, Option.map_some, read] at written
  cases written
  cases value

/-- An update loses the secret of a server when the read of the active rows fails, and when
the server is not active. -/
theorem unread_secret_lost :
    ¬ KeepsEnv quotedJson "a" none (secretStore true) (secretUpdate true false) ∧
      ¬ KeepsEnv quotedJson "a" none (secretStore false) (secretUpdate false true) :=
  ⟨not_keepsEnv_of_unread rfl, not_keepsEnv_of_unread rfl⟩

end ClotoCore.Mcp.UpdateEnv
