import ClotoCore.Installer.Materialize

/-!
# Where an install reaches

Three texts of the catalog and the manifest and every name in the archive become
paths.  The archive's names are checked, the install directory is one name; the
subdirectory, the first panel and the binary's name are joined without a check.
An install stays where it belongs exactly when those joins do.
-/

namespace ClotoCore.Installer

open ClotoCore.Encoding ClotoCore.Lexical ClotoCore.Seal

/-! ## The areas of an install -/

/-- The staging directory and the target, with what lies in them. -/
def Input.InArea (input : Input) (path : FilePath) : Prop :=
  ∃ target, input.entry.resolveInstallDir input.serversDir = .ok target ∧
    ((input.staging target).Within path ∨ target.Within path)

/-- The directories that lead to where the kernel wants an install, and its log. -/
def Input.LeadsThere (input : Input) (path : FilePath) : Prop :=
  path.Within (clean input.serversDir) ∨ path.Within (dirOfText input.installLog) ∨
    ∃ target, input.entry.resolveInstallDir input.serversDir = .ok target ∧
      path.Within (input.staging target)

/-- What an install may do: everything in its areas, and to the places the kernel
itself names only what they are for. -/
def Input.Permits (input : Input) : Touch → Prop
  | .made path => input.InArea path ∨ input.LeadsThere path
  | .wrote path => input.InArea path ∨ path = clean input.installLog
  | .removed path => input.InArea path ∨ path = input.archive
  | .hashed path => ∃ target, input.entry.resolveInstallDir input.serversDir = .ok target ∧
      (input.staging target).Within path

/-- An install stays in its areas. -/
structure Confined (input : Input) (world : World) (disk : Disk) : Prop where
  touches : ∀ touch ∈ (run input world disk).1.touched, input.Permits touch
  strict : ∀ target, input.entry.resolveInstallDir input.serversDir = .ok target →
    (clean input.serversDir).StrictlyWithin target
  handed : ∀ result, (run input world disk).2 = .finished result → result.installed = true →
    ∃ installDir serverPath, result.installDir = some installDir ∧
      result.serverPath = some serverPath ∧ installDir.Within serverPath ∧
        ∀ path ∈ result.launch.path, installDir.Within path

/-! ## The joins that are not checked -/

/-- The build writes to the `Cargo.toml` of the server it finds. -/
def PatchesCargo (input : Input) (world : World) (target : FilePath) (machine : Machine) : Prop :=
  (readManifest world (input.serverUnder (input.staging target)) machine).buildsAServer
      input.launchableConnectorTypes = true ∧
    input.entry.isRust = true ∧
    (machine.find world.cwd (cargoToml (input.serverUnder (input.staging target)))).isSome = true ∧
    (cargoPatch world (input.serverUnder (input.staging target)) machine).isSome = true ∧
    world.faults.patchCargo ≠ some .unopened

/-- The staged tree gets to its place. -/
def Swaps (input : Input) (world : World) (staged : Staged) (machine : Machine) : Prop :=
  ((machine.removeAll world.cwd world.faults.clearTarget staged.target).1.rename world.cwd
    world.faults.rename (input.staging staged.target) staged.target).2 = true

/-- What the unpacked connector declares. -/
def Input.declared (input : Input) (world : World) (target : FilePath) (machine : Machine) :
    Declaration :=
  readManifest world (input.serverUnder (input.staging target)) machine

/-- What a connector that ships a server is started from. -/
def Input.startedUnder (input : Input) (declaration : Declaration) (server : FilePath) :
    Option FilePath :=
  if declaration.buildsAServer input.launchableConnectorTypes = false then none
  else if input.entry.isRust then some (input.binary server)
  else some (script server)

/-- The entry point of a connector: what it is started from, else its first panel. -/
def Input.entryPointUnder (input : Input) (declaration : Declaration) (server : FilePath) :
    Option FilePath :=
  if declaration.buildsAServer input.launchableConnectorTypes = false then
    declaration.entryPoint.map fun entryFile => joinText server (utf8 entryFile)
  else input.startedUnder declaration server

/-- The names that are joined without a check stay inside, where the run uses them. -/
structure JoinsStay (input : Input) (world : World) (machine : Machine) : Prop where
  /-- The `Cargo.toml` that is patched. -/
  patched : ∀ target, (toUnpacked input world machine).2 = .ok target →
    PatchesCargo input world target (toUnpacked input world machine).1 →
      input.Permits (.wrote (cargoToml (input.serverUnder (input.staging target))))
  /-- The entry point that is hashed. -/
  hashed : ∀ built, (toBuilt input world machine).2 = .ok built →
    hashesEntryPoint input = true →
      ∀ path ∈ input.entryPointUnder
          (input.declared world built.target (toUnpacked input world machine).1)
          (input.serverUnder (input.staging built.target)),
        (input.staging built.target).Within path
  /-- The server that is reported, and what starts it. -/
  handed : ∀ staged, (stage input world machine).2 = .ok staged →
    Swaps input world staged (stage input world machine).1 →
      staged.target.Within (input.serverUnder staged.target) ∧
        ∀ path ∈ input.startedUnder
            (input.declared world staged.target (toUnpacked input world machine).1)
            (input.serverUnder staged.target),
          staged.target.Within path

/-! ## The stages -/

variable {input : Input} {world : World} {machine : Machine} {target : FilePath}

theorem segmentOf_append_stagingSuffix (component : Bytes) :
    segmentOf (component ++ stagingSuffix) = .name (component ++ stagingSuffix) := by
  have long : 8 ≤ (component ++ stagingSuffix).length := by
    rw [List.length_append]
    exact Nat.le_add_left _ _
  have notShort : ∀ text : Bytes, text.length < 8 → component ++ stagingSuffix ≠ text := by
    rintro text short rfl
    exact absurd long (Nat.not_le.mpr short)
  rw [segmentOf, if_neg, if_neg (notShort _ (by decide))]
  rintro (empty | here)
  · exact notShort _ (by decide) empty
  · exact notShort _ (by decide) here

/-- The staging directory is one name under the directory for temporary files. -/
theorem staging_eq (resolved : input.entry.resolveInstallDir input.serversDir = .ok target) :
    input.staging target
      = (clean input.tmpDir).descend [input.entry.effectiveInstallDir ++ stagingSuffix] := by
  rcases resolveInstallDir_eq_ok resolved with ⟨single, rfl⟩
  have unseparated : separator ∉ input.entry.effectiveInstallDir ++ stagingSuffix := by
    rw [List.mem_append, not_or]
    exact ⟨(singleNormal_ordinary single).2, by decide⟩
  have baseEq : base ((clean input.serversDir).descend [input.entry.effectiveInstallDir])
      = input.entry.effectiveInstallDir := by
    simp [base, Path.base?, Path.descend]
  rw [Input.staging, baseEq, joinText, segmentsOf_of_unseparated unseparated,
    segmentOf_append_stagingSuffix]
  rfl

theorem staging_named (resolved : input.entry.resolveInstallDir input.serversDir = .ok target) :
    (input.staging target).names ≠ [] := by
  rw [staging_eq resolved]
  simp [Path.descend]

theorem permits_of_insideOf
    (resolved : input.entry.resolveInstallDir input.serversDir = .ok target) {touch : Touch}
    (inside : insideOf (input.staging target) touch) : input.Permits touch := by
  cases touch with
  | made path =>
      rcases inside with within | leads
      · exact Or.inl ⟨target, resolved, Or.inl within⟩
      · exact Or.inr (Or.inr (Or.inr ⟨target, resolved, leads⟩))
  | wrote path => exact Or.inl ⟨target, resolved, Or.inl inside⟩
  | removed path => exact Or.inl ⟨target, resolved, Or.inl inside⟩
  | hashed path => exact ⟨target, resolved, inside⟩

theorem andThen_only {α β : Type} {allowed : Touch → Prop} {first : Machine × Except Stop α}
    {next : α → Machine → Machine × Except Stop β} (left : Only allowed machine first.1)
    (right : ∀ value, first.2 = .ok value → Only allowed first.1 (next value first.1).1) :
    Only allowed machine (andThen first next).1 := by
  rw [andThen]
  split
  · exact left
  · rename_i value ended
    exact left.trans (right value ended)

theorem andThen_eq_ok {α β : Type} {first : Machine × Except Stop α}
    {next : α → Machine → Machine × Except Stop β} {value : β}
    (ended : (andThen first next).2 = .ok value) :
    ∃ middle, first.2 = .ok middle ∧ andThen first next = next middle first.1 := by
  rw [andThen] at ended ⊢
  split at ended
  · cases ended
  · rename_i middle firstEnded
    exact ⟨middle, firstEnded, rfl⟩

theorem prepare_eq_ok (ended : (prepare input world machine).2 = .ok target) :
    input.entry.resolveInstallDir input.serversDir = .ok target := by
  unfold prepare at ended
  split at ended
  · cases ended
  · simp only at ended
    split at ended
    · cases ended
    · split at ended
      · cases ended
      · rename_i resolved
        split at ended
        · cases ended
        · cases ended
          exact resolved

theorem prepare_only : Only input.Permits machine (prepare input world machine).1 := by
  unfold prepare
  split
  · exact Only.refl _ _
  · have servers : Only input.Permits machine (machine.mkdirAll world.cwd world.faults.mkdirServers
        (clean input.serversDir)).1 :=
      Only.mkdirAll fun ancestor above => Or.inr (Or.inl above)
    simp only
    split
    · exact servers
    · split
      · exact servers
      · rename_i target resolved
        have removed : input.Permits (.removed (input.staging target)) :=
          permits_of_insideOf resolved (Path.within_refl _)
        have made : ∀ ancestor : FilePath, ancestor.Within (input.staging target) →
            input.Permits (.made ancestor) :=
          fun ancestor above => permits_of_insideOf resolved (Or.inr above)
        split
        · exact (servers.trans (Only.removeAll removed)).trans (Only.mkdirAll made)
        · exact (servers.trans (Only.removeAll removed)).trans (Only.mkdirAll made)

theorem unpack_eq_ok {unpacked : FilePath}
    (ended : (unpack input world target machine).2 = .ok unpacked) : unpacked = target := by
  unfold unpack at ended
  simp only at ended
  split at ended <;> cases ended
  rfl

theorem unpack_inside :
    Inside world.cwd (input.staging target) machine (unpack input world target machine).1 := by
  unfold unpack
  simp only
  split
  · exact Inside.extractWith
  · exact Inside.extractWith

theorem unpack_only (resolved : input.entry.resolveInstallDir input.serversDir = .ok target) :
    Only input.Permits machine (unpack input world target machine).1 :=
  unpack_inside.only.mono fun _ => permits_of_insideOf resolved

theorem toUnpacked_eq_ok (ended : (toUnpacked input world machine).2 = .ok target) :
    input.entry.resolveInstallDir input.serversDir = .ok target := by
  rcases andThen_eq_ok ended with ⟨prepared, preparedEnded, stepEq⟩
  rw [toUnpacked, stepEq] at ended
  rw [unpack_eq_ok ended]
  exact prepare_eq_ok preparedEnded

theorem toUnpacked_only : Only input.Permits machine (toUnpacked input world machine).1 := by
  apply andThen_only prepare_only
  intro prepared ended
  exact unpack_only (prepare_eq_ok ended)

/-! ## Building -/

/-- A file that is read can be written. -/
theorem writeFile_touches {content held : Bytes} {path : FilePath} {fault : Option WriteFault}
    (read : machine.readFile world.cwd path = some held) (opened : fault ≠ some .unopened) :
    .wrote path ∈ (machine.writeFile world.cwd fault path content).1.touched := by
  have found : machine.disk.get (locate world.cwd path) = some (.leaf (.file held)) := by
    rw [Machine.readFile, Machine.find] at read
    split at read
    · rename_i content found
      cases read
      exact found
    · cases read
  have nonempty : locate world.cwd path ≠ [] := by
    intro empty
    rw [empty] at found
    cases found
  have free : ¬machine.disk.HasDirectory (locate world.cwd path) := by
    simp [Disk.HasDirectory, found, Node.isDirectory]
  unfold Machine.writeFile
  rw [if_neg (by simp [free, Disk.places_of_get found nonempty])]
  cases fault with
  | none => simp [Machine.put]
  | some fault =>
      cases fault with
      | unopened => exact absurd rfl opened
      | cut written => simp [Machine.put]

theorem patchCargo_only {server : FilePath} {allowed : Touch → Prop}
    (fine : (cargoPatch world server machine).isSome = true →
      world.faults.patchCargo ≠ some .unopened → allowed (.wrote (cargoToml server))) :
    Only allowed machine (patchCargo world server machine) := by
  unfold patchCargo
  split
  · exact Only.refl _ _
  · rename_i content patched
    by_cases opened : world.faults.patchCargo = some .unopened
    · unfold Machine.writeFile
      split
      · exact Only.refl _ _
      · rw [opened]
        exact Only.refl _ _
    · exact Only.writeFile (fine (by rw [patched]; rfl) opened)

theorem patchCargo_touches {server : FilePath}
    (patches : (cargoPatch world server machine).isSome = true)
    (opened : world.faults.patchCargo ≠ some .unopened) :
    .wrote (cargoToml server) ∈ (patchCargo world server machine).touched := by
  rcases Option.isSome_iff_exists.mp patches with ⟨content, patched⟩
  have read : ∃ held, machine.readFile world.cwd (cargoToml server) = some held := by
    unfold cargoPatch at patched
    split at patched
    · cases patched
    · split at patched
      · cases patched
      · rename_i held read
        exact ⟨held, read⟩
  rcases read with ⟨held, read⟩
  unfold patchCargo
  rw [patched]
  exact writeFile_touches read opened

theorem appendLog_only : Only input.Permits machine (appendLog input world machine) := by
  unfold appendLog
  split
  · exact Only.refl _ _
  · exact (Only.mkdirAll fun ancestor above => Or.inr (Or.inr (Or.inl above))).trans
      (Only.writeFile (Or.inr rfl))

/-- Children leave no trace in what the installer did. -/
theorem Only.child {allowed : Touch → Prop} {before after : Machine}
    (only : Only allowed before after)
    (disk : Disk) : Only allowed before { after with disk := disk } :=
  only

theorem ensureVenv_only {allowed : Touch → Prop} :
    Only allowed machine (ensureVenv input world machine).1 := by
  unfold ensureVenv
  simp only
  split
  · exact Only.refl _ _
  · exact (Only.refl _ _).child _

theorem pythonEnv_only {server : FilePath} :
    Only input.Permits machine (pythonEnv input world server machine).1 := by
  have venv : Only input.Permits machine (ensureVenv input world machine).1 := ensureVenv_only
  unfold pythonEnv
  apply Only.child
  refine Only.trans ?_ appendLog_only
  split
  · split
    · exact venv.child _
    · exact venv
  · exact venv

/-- What a build does beyond what is permitted is the patch of a `Cargo.toml`. -/
theorem build_only :
    Only (fun touch => input.Permits touch ∨ (PatchesCargo input world target machine ∧
        touch = .wrote (cargoToml (input.serverUnder (input.staging target)))))
      machine (build input world target machine).1 := by
  unfold build
  simp only
  split
  · exact Only.refl _ _
  · rename_i builds
    split
    · rename_i rust
      unfold rustBuild cargoBuild
      split
      · exact Only.refl _ _
      · rename_i present
        have patched : Only (fun touch => input.Permits touch ∨
            (PatchesCargo input world target machine ∧
              touch = .wrote (cargoToml (input.serverUnder (input.staging target)))))
            machine (patchCargo world (input.serverUnder (input.staging target)) machine) := by
          apply patchCargo_only
          intro patches opened
          exact Or.inr ⟨⟨by simpa using builds, rust,
            Option.isSome_iff_ne_none.mpr (by simpa using present), patches, opened⟩, rfl⟩
        simp only
        split
        · exact patched
        · exact patched.child _
    · exact pythonEnv_only.mono fun _ => Or.inl

/-- A `Cargo.toml` that is patched is written. -/
theorem build_touches (patches : PatchesCargo input world target machine) :
    .wrote (cargoToml (input.serverUnder (input.staging target)))
      ∈ (build input world target machine).1.touched := by
  rcases patches with ⟨builds, rust, present, patches, opened⟩
  have touched := patchCargo_touches patches opened
  unfold build
  simp only [builds, rust, Bool.true_eq_false, if_false, if_true]
  unfold rustBuild cargoBuild
  have there : ¬(machine.find world.cwd
      (cargoToml (input.serverUnder (input.staging target)))).isNone = true := by
    simpa using Option.isSome_iff_ne_none.mp present
  simp only [if_neg there]
  split
  · exact touched
  · exact touched

/-- What is built is read off the texts that are joined. -/
theorem build_eq_ok {built : Built} (ended : (build input world target machine).2 = .ok built) :
    built.target = target ∧
      input.entryPointUnder (input.declared world target machine)
        (input.serverUnder (input.staging target)) = some built.entryPoint ∧
      input.startedUnder (input.declared world target machine) (input.serverUnder target)
        = built.launch.path := by
  unfold build at ended
  unfold Input.entryPointUnder Input.startedUnder Input.declared
  simp only at ended
  split at ended
  · rename_i serves
    rw [if_pos serves, if_pos serves]
    unfold panelEntry at ended
    split at ended
    · cases ended
    · rename_i entryFile declared
      simp only at ended
      split at ended <;> cases ended
      rw [declared]
      exact ⟨rfl, rfl, rfl⟩
  · rename_i serves
    rw [if_neg serves, if_neg serves, if_neg serves]
    split at ended
    · rename_i rust
      rw [if_pos rust, if_pos rust]
      unfold rustBuild at ended
      simp only at ended
      split at ended
      · cases ended
      · cases ended
      · split at ended <;> cases ended
        exact ⟨rfl, rfl, rfl⟩
    · rename_i python
      rw [if_neg python, if_neg python]
      unfold pythonBuild at ended
      simp only at ended
      split at ended <;> cases ended
      exact ⟨rfl, rfl, rfl⟩

theorem toBuilt_eq_ok {built : Built} (ended : (toBuilt input world machine).2 = .ok built) :
    (toUnpacked input world machine).2 = .ok built.target ∧
      input.entry.resolveInstallDir input.serversDir = .ok built.target := by
  rcases andThen_eq_ok ended with ⟨target, unpacked, stepEq⟩
  rw [toBuilt, stepEq] at ended
  rw [(build_eq_ok ended).1]
  exact ⟨unpacked, toUnpacked_eq_ok unpacked⟩

/-- The paths of what is built, by the declaration of what was unpacked. -/
theorem toBuilt_paths {built : Built} (ended : (toBuilt input world machine).2 = .ok built) :
    input.entryPointUnder (input.declared world built.target (toUnpacked input world machine).1)
        (input.serverUnder (input.staging built.target)) = some built.entryPoint ∧
      input.startedUnder (input.declared world built.target (toUnpacked input world machine).1)
        (input.serverUnder built.target) = built.launch.path := by
  rcases andThen_eq_ok ended with ⟨target, unpacked, stepEq⟩
  rw [toBuilt, stepEq] at ended
  obtain ⟨targetEq, paths⟩ := build_eq_ok ended
  rw [targetEq]
  exact paths

/-! ## The verdict and the end -/

theorem judge_only {built : Built} :
    Only (fun touch => hashesEntryPoint input = true ∧ touch = .hashed built.entryPoint)
      machine (judge input world built machine).1 := by
  unfold judge
  simp only
  split
  · rename_i hashes
    exact ⟨[.hashed built.entryPoint], rfl, fun _ mem => ⟨hashes, List.mem_singleton.mp mem⟩⟩
  · exact Only.refl _ _

theorem judge_touches {built : Built} (hashes : hashesEntryPoint input = true) :
    .hashed built.entryPoint ∈ (judge input world built machine).1.touched := by
  unfold judge
  simp [hashes]

theorem judge_eq_ok {built : Built} {staged : Staged}
    (ended : (judge input world built machine).2 = .ok staged) : staged.toBuilt = built := by
  unfold judge at ended
  simp only at ended
  split at ended <;> cases ended
  rfl

theorem stage_eq_ok {staged : Staged} (ended : (stage input world machine).2 = .ok staged) :
    (toBuilt input world machine).2 = .ok staged.toBuilt := by
  rcases andThen_eq_ok ended with ⟨built, builtEnded, stepEq⟩
  rw [stage, stepEq] at ended
  rw [judge_eq_ok ended]
  exact builtEnded

theorem sweep_only : Only input.Permits machine (sweep input world machine) := by
  unfold sweep
  split
  · exact Only.refl _ _
  · rename_i target resolved
    have removed : input.Permits (.removed (input.staging target)) :=
      permits_of_insideOf resolved (Path.within_refl _)
    exact (Only.removeAll removed).trans (Only.remove (Or.inr rfl))

theorem swap_only {staged : Staged}
    (resolved : input.entry.resolveInstallDir input.serversDir = .ok staged.target) :
    Only input.Permits machine (swap input world staged machine).1 := by
  have targetArea : input.InArea staged.target :=
    ⟨staged.target, resolved, Or.inr (Path.within_refl _)⟩
  have stagingArea : input.InArea (input.staging staged.target) :=
    ⟨staged.target, resolved, Or.inl (Path.within_refl _)⟩
  have cleared : Only input.Permits machine
      (machine.removeAll world.cwd world.faults.clearTarget staged.target).1 :=
    Only.removeAll (Or.inl targetArea)
  have renamed := cleared.trans
    (Only.rename (Or.inl stagingArea) (Or.inl targetArea) :
      Only input.Permits _ (Machine.rename world.cwd _ world.faults.rename
        (input.staging staged.target) staged.target).1)
  unfold swap
  simp only
  split
  · exact renamed.trans (Only.remove (Or.inr rfl))
  · exact renamed

/-- The end of a run adds only what is permitted. -/
theorem run_only {disk : Disk} :
    Only input.Permits (stage input world (begin disk)).1 (run input world disk).1 := by
  unfold run
  simp only
  split
  · exact Only.refl _ _
  · exact sweep_only
  · rename_i staged ended
    exact swap_only (toBuilt_eq_ok (stage_eq_ok ended)).2

/-- Up to the build only what is permitted is done, and the patch. -/
theorem toBuilt_only :
    Only (fun touch => input.Permits touch ∨ ∃ target,
        (toUnpacked input world machine).2 = .ok target ∧
          PatchesCargo input world target (toUnpacked input world machine).1 ∧
            touch = .wrote (cargoToml (input.serverUnder (input.staging target))))
      machine (toBuilt input world machine).1 := by
  apply andThen_only
  · exact toUnpacked_only.mono fun _ => Or.inl
  · intro target ended
    apply build_only.mono
    rintro touch (permitted | ⟨patches, touchEq⟩)
    · exact Or.inl permitted
    · exact Or.inr ⟨target, ended, patches, touchEq⟩

theorem stage_only :
    Only (fun touch => input.Permits touch ∨
        (∃ target, (toUnpacked input world machine).2 = .ok target ∧
          PatchesCargo input world target (toUnpacked input world machine).1 ∧
            touch = .wrote (cargoToml (input.serverUnder (input.staging target)))) ∨
        ∃ built, (toBuilt input world machine).2 = .ok built ∧ hashesEntryPoint input = true ∧
          touch = .hashed built.entryPoint)
      machine (stage input world machine).1 := by
  apply andThen_only
  · apply toBuilt_only.mono
    rintro touch (permitted | patched)
    · exact Or.inl permitted
    · exact Or.inr (Or.inl patched)
  · intro built ended
    apply judge_only.mono
    rintro touch ⟨hashes, touchEq⟩
    exact Or.inr (Or.inr ⟨built, ended, hashes, touchEq⟩)

theorem patched_mem (ended : (toUnpacked input world machine).2 = .ok target)
    (patches : PatchesCargo input world target (toUnpacked input world machine).1) :
    .wrote (cargoToml (input.serverUnder (input.staging target)))
      ∈ (stage input world machine).1.touched := by
  have there : .wrote (cargoToml (input.serverUnder (input.staging target)))
      ∈ (toBuilt input world machine).1.touched := by
    rw [toBuilt, andThen, ended]
    exact build_touches patches
  rw [stage, andThen]
  split
  · exact there
  · exact judge_only.mem there

theorem hashed_mem {built : Built} (ended : (toBuilt input world machine).2 = .ok built)
    (hashes : hashesEntryPoint input = true) :
    .hashed built.entryPoint ∈ (stage input world machine).1.touched := by
  rw [stage, andThen, ended]
  exact judge_touches hashes

/-! ## Which runs install -/

/-- The run ends without having installed anything. -/
def Stop.Uninstalled : Stop → Prop
  | .bare .aborted => True
  | .bare (.finished result) => result.installed = false
  | .swept result => result.installed = false

/-- Whatever stops the stage installs nothing. -/
def StopsUninstalled {α : Type} (step : Machine × Except Stop α) : Prop :=
  ∀ stop, step.2 = .error stop → stop.Uninstalled

theorem StopsUninstalled.andThen {α β : Type} {first : Machine × Except Stop α}
    {next : α → Machine → Machine × Except Stop β} (left : StopsUninstalled first)
    (right : ∀ value machine, StopsUninstalled (next value machine)) :
    StopsUninstalled (andThen first next) := by
  intro stop ended
  rw [Installer.andThen] at ended
  split at ended
  · rename_i stopped firstEnded
    cases ended
    exact left stop firstEnded
  · exact right _ _ stop ended

theorem prepare_uninstalled : StopsUninstalled (prepare input world machine) := by
  intro stop ended
  unfold prepare at ended
  split at ended
  · cases ended
    trivial
  · simp only at ended
    split at ended
    · cases ended
      trivial
    · split at ended
      · cases ended
        rfl
      · split at ended <;> cases ended
        trivial

theorem unpack_uninstalled : StopsUninstalled (unpack input world target machine) := by
  intro stop ended
  unfold unpack at ended
  simp only at ended
  split at ended <;> cases ended
  rfl

theorem build_uninstalled : StopsUninstalled (build input world target machine) := by
  intro stop ended
  unfold build at ended
  simp only at ended
  split at ended
  · unfold panelEntry at ended
    split at ended
    · cases ended
      rfl
    · simp only at ended
      split at ended <;> cases ended
      rfl
  · split at ended
    · unfold rustBuild at ended
      simp only at ended
      split at ended
      · cases ended
        trivial
      · cases ended
        rfl
      · split at ended <;> cases ended
        rfl
    · unfold pythonBuild at ended
      simp only at ended
      split at ended <;> cases ended
      rfl

theorem judge_uninstalled {built : Built} : StopsUninstalled (judge input world built machine) := by
  intro stop ended
  unfold judge at ended
  simp only at ended
  split at ended <;> cases ended <;> rfl

theorem stage_uninstalled : StopsUninstalled (stage input world machine) := by
  apply StopsUninstalled.andThen
  · apply StopsUninstalled.andThen
    · exact StopsUninstalled.andThen prepare_uninstalled fun _ _ => unpack_uninstalled
    · exact fun _ _ => build_uninstalled
  · exact fun _ _ => judge_uninstalled

/-- What the kernel is told of an installed tree. -/
def Staged.result (input : Input) (staged : Staged) : Result where
  ok := true
  installed := true
  installDir := some staged.target
  serverPath := some (input.serverUnder staged.target)
  launch := staged.launch
  venv := staged.venv
  sealResult := some staged.sealResult

/-- What is installed was staged and swapped in. -/
theorem run_installed_iff {disk : Disk} {result : Result} :
    (run input world disk).2 = .finished result ∧ result.installed = true ↔
      ∃ staged, (stage input world (begin disk)).2 = .ok staged ∧
        Swaps input world staged (stage input world (begin disk)).1 ∧
          result = staged.result input := by
  have uninstalled : StopsUninstalled (stage input world (begin disk)) := stage_uninstalled
  unfold run
  generalize stage input world (begin disk) = staged at uninstalled ⊢
  rcases staged with ⟨ready, stop | staged⟩
  · have notInstalled := uninstalled stop rfl
    simp only [reduceCtorEq, false_and, exists_false, iff_false, not_and]
    cases stop with
    | bare ending =>
        intro same installed
        cases same
        exact absurd (installed.symm.trans notInstalled) (by decide)
    | swept given =>
        intro same installed
        cases same
        exact absurd (installed.symm.trans notInstalled) (by decide)
  · simp only [swap, Except.ok.injEq]
    split
    · rename_i renamed
      constructor
      · rintro ⟨same, _⟩
        cases same
        exact ⟨staged, rfl, renamed, rfl⟩
      · rintro ⟨other, rfl, _, rfl⟩
        exact ⟨rfl, rfl⟩
    · rename_i refused
      constructor
      · rintro ⟨same, _⟩
        cases same
      · rintro ⟨other, rfl, swapped, _⟩
        exact absurd swapped refused

/-! ## Exactly when an install stays in its areas -/

/-- In an install that stays in its areas, the joins that are not checked do. -/
theorem Confined.joinsStay {disk : Disk} (confined : Confined input world disk) :
    JoinsStay input world (begin disk) := by
  have ends : Only input.Permits (stage input world (begin disk)).1 (run input world disk).1 :=
    run_only
  constructor
  · intro target ended patches
    exact confined.touches _ (ends.mem (patched_mem ended patches))
  · intro built ended hashes
    rcases confined.touches _ (ends.mem (hashed_mem ended hashes)) with ⟨target, resolved, inside⟩
    have resolvedBuilt : input.entry.resolveInstallDir input.serversDir = .ok built.target :=
      (toBuilt_eq_ok ended).2
    rw [resolved] at resolvedBuilt
    cases resolvedBuilt
    intro path entry
    rw [(toBuilt_paths ended).1] at entry
    cases entry
    exact inside
  · intro staged ended swapped
    rcases run_installed_iff.mpr ⟨staged, ended, swapped, rfl⟩ with ⟨finished, installed⟩
    rcases confined.handed _ finished installed with
      ⟨installDir, serverPath, dirEq, serverEq, inside, launched⟩
    cases dirEq
    cases serverEq
    rw [(toBuilt_paths (stage_eq_ok ended)).2]
    exact ⟨inside, launched⟩

/-- Whatever the archive holds, an install whose unchecked joins stay inside does. -/
theorem JoinsStay.confined {disk : Disk} (stays : JoinsStay input world (begin disk)) :
    Confined input world disk := by
  have ends : Only input.Permits (stage input world (begin disk)).1 (run input world disk).1 :=
    run_only
  constructor
  · intro touch mem
    rcases (stage_only.trans (ends.mono fun _ => Or.inl)) with ⟨added, addedEq, fine⟩
    have inAdded : touch ∈ added := by
      have all : touch ∈ (begin disk).touched ++ added := addedEq ▸ mem
      simpa [begin] using all
    rcases fine touch inAdded with permitted | ⟨target, ended, patches, rfl⟩ |
      ⟨built, ended, hashes, rfl⟩
    · exact permitted
    · exact stays.patched target ended patches
    · exact ⟨built.target, (toBuilt_eq_ok ended).2,
        stays.hashed built ended hashes _ (toBuilt_paths ended).1⟩
  · intro target resolved
    exact resolveInstallDir_strictlyWithin resolved
  · intro result finished installed
    rcases run_installed_iff.mp ⟨finished, installed⟩ with ⟨staged, ended, swapped, rfl⟩
    rcases stays.handed staged ended swapped with ⟨inside, launched⟩
    rw [(toBuilt_paths (stage_eq_ok ended)).2] at launched
    exact ⟨staged.target, input.serverUnder staged.target, rfl, rfl, inside, launched⟩

/-- An install stays where it belongs exactly when the names that are joined
without a check do. -/
theorem confined_iff (input : Input) (world : World) (disk : Disk) :
    Confined input world disk ↔ JoinsStay input world (begin disk) :=
  ⟨Confined.joinsStay, JoinsStay.confined⟩

/-! ## Names that cannot lead out -/

/-- No element of the text is `..`. -/
def PlainText (text : Bytes) : Prop :=
  Segment.up ∉ segmentsOf text

instance (text : Bytes) : Decidable (PlainText text) :=
  inferInstanceAs (Decidable (¬_))

theorem PlainText.within {text : Bytes} (plain : PlainText text) (root : FilePath) :
    root.Within (joinText root text) :=
  Path.within_join plain

/-- The texts that are joined without a check never go up. -/
structure PlainNames (input : Input) (world : World) : Prop where
  subdir : PlainText input.archiveSubdir
  binary : PlainText (utf8 (input.entry.binName.getD ("mgp-" ++ input.entry.directory)))
  panels : ∀ content wire, world.unmarshal content = some wire →
    ∀ panel ∈ wire.panels, PlainText (utf8 (trim panel))

section Plain

variable (plain : PlainNames input world)

include plain

theorem serverUnder_within (root : FilePath) : root.Within (input.serverUnder root) := by
  rw [Input.serverUnder]
  split
  · exact Path.within_refl _
  · exact plain.subdir.within root

theorem binary_within (server : FilePath) : server.Within (input.binary server) := by
  have targetPlain : PlainText (utf8 "target") := by decide
  have releasePlain : PlainText (utf8 "release") := by decide
  exact ((targetPlain.within _).trans (releasePlain.within _)).trans (plain.binary.within _)

/-- The first panel that an unpacked connector declares. -/
theorem declared_plain {entryFile : String}
    (declares : (input.declared world target machine).entryPoint = some entryFile) :
    PlainText (utf8 entryFile) := by
  unfold Input.declared readManifest at declares
  split at declares
  · cases declares
  · split at declares
    · cases declares
    · rename_i wire decoded
      rcases Option.bind_eq_some_iff.mp decoded with ⟨content, _, unmarshalled⟩
      have mem := List.mem_of_head? declares
      simp only [Declaration.ofWire, List.mem_eraseDups, List.mem_filter, List.mem_map] at mem
      rcases mem with ⟨⟨panel, panelMem, rfl⟩, _⟩
      exact plain.panels content wire unmarshalled panel panelMem

/-- What is started lies in the connector's directory. -/
theorem startedUnder_within {declaration : Declaration} {server path : FilePath}
    (mem : path ∈ input.startedUnder declaration server) : server.Within path := by
  have scriptPlain : PlainText (utf8 "server.py") := by decide
  unfold Input.startedUnder at mem
  split at mem
  · cases mem
  · split at mem <;> cases mem
    · exact binary_within plain server
    · exact scriptPlain.within server

theorem entryPointUnder_within {server path : FilePath}
    (mem : path ∈ input.entryPointUnder (input.declared world target machine) server) :
    server.Within path := by
  unfold Input.entryPointUnder at mem
  split at mem
  · rcases Option.map_eq_some_iff.mp mem with ⟨entryFile, declares, rfl⟩
    exact (declared_plain plain declares).within server
  · exact startedUnder_within plain mem

/-- An install of plain names stays in its areas, whatever the archive holds and
wherever the run stops. -/
theorem PlainNames.confined (disk : Disk) : Confined input world disk := by
  have manifestPlain : PlainText (utf8 "Cargo.toml") := by decide
  apply JoinsStay.confined
  constructor
  · intro target ended _
    exact Or.inl ⟨target, toUnpacked_eq_ok ended, Or.inl
      ((serverUnder_within plain _).trans (manifestPlain.within _))⟩
  · intro built _ _ path entry
    exact (serverUnder_within plain _).trans (entryPointUnder_within plain entry)
  · intro staged _ _
    refine ⟨serverUnder_within plain _, ?_⟩
    intro path started
    exact (serverUnder_within plain _).trans (startedUnder_within plain started)

end Plain

/-! ## A subdirectory that leads out -/

/-- Nothing goes wrong in the system. -/
def Faults.none : Faults where
  mkdirServers _ := false
  staleStaging := .none
  mkdirStaging _ := false
  extract := { detect := false, reopen := false, entries := fun _ => .none }
  readManifest := false
  readCargo := false
  patchCargo := .none
  mkdirLog _ := false
  appendLog := .none
  hash := false
  treeSeal := .none
  cleanStaging := .none
  cleanArchive := false
  clearTarget := .none
  rename := false
  finalArchive := false

/-- A world in which every child succeeds without a trace, and any file is the
given archive. -/
def World.quiet (archive : Archive) : World where
  cwd := []
  sha256 _ := []
  verify _ _ _ := false
  untar _ := some archive
  unmarshal _ := none
  uvVenv := id
  uvCommon _ := id
  uvPip _ disk := { disk := disk, ok := true }
  uvLines := []
  cargoBuild _ disk := some { disk := disk, ok := true }
  errorText := []
  describe _ := ""
  faults := .none

/-- An unsealed Python connector with a directory, unpacked from a subdirectory. -/
def pythonInput (directory : String) (subdir : Bytes) : Input where
  entry :=
    { id := "demo"
      version := "1.0.0"
      entryPointSha256 := none
      signaturePayload := none
      directory := directory
      dependencies := []
      runtime := "python"
      binName := none
      install := none }
  archivePath := utf8 "/d/tmp/a.tgz"
  subdir := some subdir
  serversDir := utf8 "/d/srv"
  tmpDir := utf8 "/d/tmp"
  uv := utf8 "uv"
  venvDir := utf8 "/d/venv"
  installLog := []
  sealKeyHex := "00"
  jwks := none
  launchableConnectorTypes := []

/-- The archive that was downloaded, and nothing else. -/
def downloaded : Disk where
  entries :=
    [(utf8 "d", .directory [(utf8 "tmp", .directory [(utf8 "a.tgz", .leaf (.file []))])])]
  wellFormed := by
    refine ⟨?_, ?_, ⟨?_, ?_, ⟨?_, ?_, trivial, trivial⟩, trivial⟩, trivial⟩
    all_goals decide

/-- An entry whose name leaves the staging directory and comes back. -/
def returningArchive : Archive where
  entries := [{ name := utf8 "r/../demo-staging/server.py", typeflag := 0x30, content := [] }]
  damaged := false

/-- The reported server lies outside the install directory. -/
def reportsOutside : Ending → Bool
  | .aborted => false
  | .finished result =>
      match result.installed, result.installDir, result.serverPath with
      | true, some installDir, some serverPath => !decide (installDir.Within serverPath)
      | _, _, _ => false

theorem Confined.not_reportsOutside {disk : Disk} (confined : Confined input world disk) :
    reportsOutside (run input world disk).2 = false := by
  unfold reportsOutside
  split
  · rfl
  · rename_i result finished
    split
    · rename_i installDir serverPath installed dirEq serverEq
      rcases confined.handed result finished installed with
        ⟨otherDir, otherServer, otherDirEq, otherServerEq, inside, _⟩
      cases dirEq.symm.trans otherDirEq
      cases serverEq.symm.trans otherServerEq
      simpa using inside
    · rfl

/-- An entry with the subdirectory `..` is installed with the servers root as its
server. -/
theorem not_confined :
    ¬Confined (pythonInput "demo" (utf8 "..")) (World.quiet returningArchive) downloaded := by
  intro confined
  have outside : reportsOutside
      (run (pythonInput "demo" (utf8 "..")) (World.quiet returningArchive) downloaded).2 = true := by
    decide +kernel
  rw [confined.not_reportsOutside] at outside
  cases outside

end ClotoCore.Installer
