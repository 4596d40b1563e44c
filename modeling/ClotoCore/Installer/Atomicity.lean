import ClotoCore.Installer.Confinement

/-!
# What a run leaves behind

A run either installs the tree the verdict was decided on, or should leave the
previous install as it was and neither a staging directory nor an archive.  Most
stops clean up; some just return, and the swap has no way back.
-/

namespace ClotoCore.Installer

open ClotoCore.Encoding ClotoCore.Lexical ClotoCore.Seal

/-! ## Atomic runs -/

/-- Neither a staging directory nor the downloaded archive is there. -/
def Input.NothingThere (input : Input) (world : World) (machine : Machine) : Prop :=
  (∀ target, input.entry.resolveInstallDir input.serversDir = .ok target →
      machine.find world.cwd (input.staging target) = none) ∧
    (input.archivePath ≠ [] → machine.find world.cwd input.archive = none)

/-- The run ends with an installed result. -/
def Installs (input : Input) (world : World) (disk : Disk) : Prop :=
  ∃ result, (run input world disk).2 = .finished result ∧ result.installed = true

/-- Whether an ending is an installed result. -/
def Ending.installed : Ending → Bool
  | .aborted => false
  | .finished result => result.installed

theorem installs_iff_installed {input : Input} {world : World} {disk : Disk} :
    Installs input world disk ↔ (run input world disk).2.installed = true := by
  rw [Installs]
  cases (run input world disk).2 with
  | aborted => simp [Ending.installed]
  | finished result => simp [Ending.installed]

/-- A run installs the staged tree or leaves nothing behind. -/
structure Atomic (input : Input) (world : World) (disk : Disk) : Prop where
  untouched : ¬Installs input world disk → ∀ target,
    input.entry.resolveInstallDir input.serversDir = .ok target →
      (run input world disk).1.disk.get (locate world.cwd target)
        = disk.get (locate world.cwd target)
  clean : ¬Installs input world disk → input.NothingThere world (run input world disk).1
  placed : Installs input world disk → ∃ staged,
    (stage input world (begin disk)).2 = .ok staged ∧
      (run input world disk).1.disk.get (locate world.cwd staged.target)
        = (stage input world (begin disk)).1.disk.get
            (locate world.cwd (input.staging staged.target))

/-! ## What the kernel and the tools are relied on for -/

/-- The places the kernel names lie beside each other. -/
structure Layout (input : Input) (cwd : RelPath) : Prop where
  staging : ∀ target, input.entry.resolveInstallDir input.serversDir = .ok target →
    Apart (locate cwd (input.staging target)) (locate cwd target)
  archive : ∀ target, input.entry.resolveInstallDir input.serversDir = .ok target →
    Apart (locate cwd input.archive) (locate cwd target) ∧
      Apart (locate cwd input.archive) (locate cwd (input.staging target))

/-- `uv` and `cargo` do not remove the directory they build in. -/
structure Tools (world : World) (staging : RelPath) : Prop where
  uvVenv : ∀ disk : Disk, disk.HasDirectory staging → (world.uvVenv disk).HasDirectory staging
  uvCommon : ∀ (source : FilePath) (disk : Disk), disk.HasDirectory staging →
    (world.uvCommon source disk).HasDirectory staging
  uvPip : ∀ (server : FilePath) (disk : Disk), disk.HasDirectory staging →
    (world.uvPip server disk).disk.HasDirectory staging
  cargoBuild : ∀ (server : FilePath) (disk : Disk) (child : Child), disk.HasDirectory staging →
    world.cargoBuild server disk = some child → child.disk.HasDirectory staging

/-! ## When a run is atomic -/

/-- The archive is not there, or can be removed. -/
def ArchiveGoes (input : Input) (world : World) (machine : Machine) : Prop :=
  ∀ node, machine.find world.cwd input.archive = some node →
    world.faults.cleanArchive = false ∧ removable node = true

/-- Wherever the run stops, there is nothing to clean up or it is cleaned up. -/
structure LeavesNothing (input : Input) (world : World) (machine : Machine) : Prop where
  /-- Where the input is refused, nothing is there to begin with. -/
  refused : sealKey input = none → input.NothingThere world machine
  /-- Where the run just returns once it has made directories, nothing is there. -/
  early : sealKey input ≠ none → ∀ ending,
    (toUnpacked input world machine).2 = .error (.bare ending) →
      input.NothingThere world (toUnpacked input world machine).1
  /-- `cargo` can be started. -/
  started : ∀ target, (toUnpacked input world machine).2 = .ok target → ∀ ending,
    (build input world target (toUnpacked input world machine).1).2 ≠ .error (.bare ending)
  /-- Where the run cleans up, it can, and the build has not reached the target. -/
  swept : ∀ result, (stage input world machine).2 = .error (.swept result) →
    world.faults.cleanStaging = none ∧ ArchiveGoes input world (stage input world machine).1 ∧
      ∀ target, (toUnpacked input world machine).2 = .ok target →
        (build input world target (toUnpacked input world machine).1).1.disk.get
            (locate world.cwd target)
          = (toUnpacked input world machine).1.disk.get (locate world.cwd target)
  /-- What may be swapped in can be. -/
  swapped : ∀ staged, (stage input world machine).2 = .ok staged →
    Swaps input world staged (stage input world machine).1

/-! ## The target before the build -/

variable {input : Input} {world : World} {machine : Machine} {target : FilePath}

theorem locate_target (resolved : input.entry.resolveInstallDir input.serversDir = .ok target) :
    locate world.cwd target
      = locate world.cwd (clean input.serversDir) ++ [input.entry.effectiveInstallDir] := by
  rw [(resolveInstallDir_eq_ok resolved).2, locate_descend]

theorem locate_staging_ne_nil
    (resolved : input.entry.resolveInstallDir input.serversDir = .ok target) :
    locate world.cwd (input.staging target) ≠ [] := by
  rw [staging_eq resolved, locate_descend]
  simp

/-- Making the servers root leaves the target alone. -/
theorem servers_keeps (resolved : input.entry.resolveInstallDir input.serversDir = .ok target)
    (fails : FilePath → Bool) :
    (machine.mkdirAll world.cwd fails (clean input.serversDir)).1.disk.get (locate world.cwd target)
      = machine.disk.get (locate world.cwd target) := by
  apply find_mkdirEach
  intro ancestor mem below
  have above := below.trans (locate_mono (Path.within_of_mem_lineage mem))
  rw [locate_target resolved] at above
  have lengths := above.length_le
  rw [List.length_append, List.length_singleton] at lengths
  exact absurd lengths (Nat.not_succ_le_self _)

theorem prepare_keeps (layout : Layout input world.cwd)
    (resolved : input.entry.resolveInstallDir input.serversDir = .ok target) :
    (prepare input world machine).1.disk.get (locate world.cwd target)
      = machine.disk.get (locate world.cwd target) := by
  have apart := layout.staging target resolved
  unfold prepare
  split
  · rfl
  · simp only [resolved]
    split
    · exact servers_keeps resolved _
    · have staged : ∀ ready : Machine,
          ((ready.removeAll world.cwd world.faults.staleStaging (input.staging target)).1.mkdirAll
              world.cwd world.faults.mkdirStaging (input.staging target)).1.disk.get
            (locate world.cwd target) = ready.disk.get (locate world.cwd target) := by
        intro ready
        rw [Machine.mkdirAll, find_mkdirEach, find_removeAll apart]
        intro ancestor mem below
        exact apart.2 (below.trans (locate_mono (Path.within_of_mem_lineage mem)))
      split
      · rw [staged, servers_keeps resolved]
      · rw [staged, servers_keeps resolved]

theorem prepare_hasDirectory (ended : (prepare input world machine).2 = .ok target) :
    (prepare input world machine).1.disk.HasDirectory
      (locate world.cwd (input.staging target)) := by
  have named := staging_named (prepare_eq_ok ended)
  unfold prepare at ended ⊢
  split at ended
  · cases ended
  · rename_i accepted
    rw [if_neg accepted]
    simp only at ended ⊢
    split at ended
    · cases ended
    · rename_i made
      rw [if_neg made]
      split at ended
      · cases ended
      · rename_i given resolved
        split at ended
        · cases ended
        · rename_i stagedMade
          cases ended
          rw [if_neg stagedMade]
          exact hasDirectory_of_mkdirAll named (by simpa using stagedMade)

theorem prepare_not_swept {result : Result} :
    (prepare input world machine).2 ≠ .error (.swept result) := by
  intro ended
  unfold prepare at ended
  split at ended
  · cases ended
  · simp only at ended
    split at ended
    · cases ended
    · split at ended
      · cases ended
      · split at ended <;> cases ended

theorem toUnpacked_keeps (layout : Layout input world.cwd)
    (resolved : input.entry.resolveInstallDir input.serversDir = .ok target) :
    (toUnpacked input world machine).1.disk.get (locate world.cwd target)
      = machine.disk.get (locate world.cwd target) := by
  rw [toUnpacked, andThen]
  split
  · exact prepare_keeps layout resolved
  · rename_i given ended
    have same : given = target := by
      have both := (prepare_eq_ok ended).symm.trans resolved
      cases both
      rfl
    rw [same, unpack_inside.keeps _ (layout.staging target resolved)]
    exact prepare_keeps layout resolved

/-! ## The build and the verdict -/

section Staging

variable {staging : RelPath} (tools : Tools world staging)

theorem appendLog_hasDirectory (there : machine.disk.HasDirectory staging) :
    (appendLog input world machine).disk.HasDirectory staging := by
  unfold appendLog
  split
  · exact there
  · exact hasDirectory_writeFile (hasDirectory_mkdirEach there)

include tools

theorem pythonEnv_hasDirectory {server : FilePath} (there : machine.disk.HasDirectory staging) :
    (pythonEnv input world server machine).1.disk.HasDirectory staging := by
  have venv : (ensureVenv input world machine).1.disk.HasDirectory staging := by
    unfold ensureVenv
    simp only
    split
    · exact there
    · exact tools.uvVenv _ there
  unfold pythonEnv
  apply tools.uvPip
  apply appendLog_hasDirectory
  split
  · split
    · exact tools.uvCommon _ _ venv
    · exact venv
  · exact venv

theorem cargoBuild_hasDirectory {server : FilePath} (there : machine.disk.HasDirectory staging) :
    (cargoBuild world server machine).1.disk.HasDirectory staging := by
  have patched : (patchCargo world server machine).disk.HasDirectory staging := by
    unfold patchCargo
    split
    · exact there
    · exact hasDirectory_writeFile there
  unfold cargoBuild
  split
  · exact there
  · simp only
    split
    · exact patched
    · rename_i child started
      exact tools.cargoBuild _ _ child patched started

theorem build_hasDirectory (there : machine.disk.HasDirectory staging) :
    (build input world target machine).1.disk.HasDirectory staging := by
  unfold build
  simp only
  split
  · exact there
  · split
    · exact cargoBuild_hasDirectory tools there
    · exact pythonEnv_hasDirectory tools there

end Staging

theorem judge_disk (built : Built) : (judge input world built machine).1.disk = machine.disk := by
  unfold judge
  simp only
  split <;> rfl

theorem judge_not_bare {built : Built} {ending : Ending} :
    (judge input world built machine).2 ≠ .error (.bare ending) := by
  intro ended
  unfold judge at ended
  simp only at ended
  split at ended <;> cases ended

theorem toUnpacked_hasDirectory (ended : (prepare input world machine).2 = .ok target) :
    (toUnpacked input world machine).1.disk.HasDirectory
      (locate world.cwd (input.staging target)) := by
  rw [toUnpacked, andThen, ended]
  exact unpack_inside.directories _ (prepare_hasDirectory ended)

theorem stage_hasDirectory (tools : Tools world (locate world.cwd (input.staging target)))
    (ended : (prepare input world machine).2 = .ok target) :
    (stage input world machine).1.disk.HasDirectory (locate world.cwd (input.staging target)) := by
  have unpacked := toUnpacked_hasDirectory ended
  have built : (toBuilt input world machine).1.disk.HasDirectory
      (locate world.cwd (input.staging target)) := by
    rw [toBuilt, andThen]
    split
    · exact unpacked
    · exact build_hasDirectory tools unpacked
  rw [stage, andThen]
  split
  · exact built
  · rw [judge_disk]
    exact built

/-- A stop that cleans up comes behind an empty staging directory. -/
theorem prepared_of_swept {result : Result}
    (ended : (stage input world machine).2 = .error (.swept result)) :
    ∃ target, (prepare input world machine).2 = .ok target := by
  cases prepared : (prepare input world machine).2 with
  | ok target => exact ⟨target, rfl⟩
  | error stop =>
      rw [stage, toBuilt, toUnpacked] at ended
      simp only [andThen, prepared] at ended
      cases ended
      exact absurd prepared prepare_not_swept

theorem prepared_of_unpacked (ended : (toUnpacked input world machine).2 = .ok target) :
    (prepare input world machine).2 = .ok target := by
  rcases andThen_eq_ok ended with ⟨prepared, preparedEnded, stepEq⟩
  rw [toUnpacked, stepEq] at ended
  rw [unpack_eq_ok ended]
  exact preparedEnded

/-- A stop that just returns is one before unpacking, or that of `cargo`. -/
theorem stage_bare {ending : Ending}
    (ended : (stage input world machine).2 = .error (.bare ending)) :
    ((toUnpacked input world machine).2 = .error (.bare ending) ∧
        (stage input world machine).1 = (toUnpacked input world machine).1) ∨
      ∃ target, (toUnpacked input world machine).2 = .ok target ∧
        (build input world target (toUnpacked input world machine).1).2 =
          .error (.bare ending) := by
  cases unpacked : (toUnpacked input world machine).2 with
  | error stop =>
      rw [stage, toBuilt] at ended ⊢
      simp only [andThen, unpacked] at ended ⊢
      cases ended
      exact Or.inl ⟨rfl, trivial⟩
  | ok target =>
      refine Or.inr ⟨target, rfl, ?_⟩
      rw [stage, toBuilt] at ended
      simp only [andThen, unpacked] at ended
      cases built : (build input world target (toUnpacked input world machine).1).2 with
      | error stop =>
          simp only [built] at ended
          cases ended
          rfl
      | ok built' =>
          simp only [built] at ended
          exact absurd ended judge_not_bare

/-- At every stop the target is what the build left of it. -/
theorem stage_keeps (layout : Layout input world.cwd)
    (resolved : input.entry.resolveInstallDir input.serversDir = .ok target)
    (kept : (toUnpacked input world machine).2 = .ok target →
      (build input world target (toUnpacked input world machine).1).1.disk.get
          (locate world.cwd target)
        = (toUnpacked input world machine).1.disk.get (locate world.cwd target)) :
    (stage input world machine).1.disk.get (locate world.cwd target)
      = machine.disk.get (locate world.cwd target) := by
  have built : (toBuilt input world machine).1.disk.get (locate world.cwd target)
      = machine.disk.get (locate world.cwd target) := by
    rw [toBuilt, andThen]
    split
    · exact toUnpacked_keeps layout resolved
    · rename_i given ended
      have same : given = target := by
        have both := (toUnpacked_eq_ok ended).symm.trans resolved
        cases both
        rfl
      rw [same] at ended ⊢
      rw [kept ended]
      exact toUnpacked_keeps layout resolved
  rw [stage, andThen]
  split
  · exact built
  · rw [judge_disk]
    exact built

/-! ## Cleaning up and swapping -/

theorem locate_archive_ne_nil (layout : Layout input world.cwd)
    (resolved : input.entry.resolveInstallDir input.serversDir = .ok target) :
    locate world.cwd input.archive ≠ [] := by
  intro empty
  apply (layout.archive target resolved).1.1
  rw [empty]
  exact List.nil_prefix

theorem sweep_eq (resolved : input.entry.resolveInstallDir input.serversDir = .ok target) :
    sweep input world machine
      = ((machine.removeAll world.cwd world.faults.cleanStaging (input.staging target)).1.remove
          world.cwd world.faults.cleanArchive input.archive).1 := by
  rw [sweep]
  split
  · rename_i refused
    rw [resolved] at refused
    cases refused
  · rename_i given resolvedGiven
    rw [resolved] at resolvedGiven
    cases resolvedGiven
    rfl

/-- Cleaning up leaves the target alone. -/
theorem sweep_keeps (layout : Layout input world.cwd)
    (resolved : input.entry.resolveInstallDir input.serversDir = .ok target) :
    (sweep input world machine).disk.get (locate world.cwd target)
      = machine.disk.get (locate world.cwd target) := by
  rw [sweep_eq resolved, find_remove (layout.archive target resolved).1,
    find_removeAll (layout.staging target resolved)]

/-- What cleaning up achieves. -/
theorem sweep_nothingThere_iff (layout : Layout input world.cwd)
    (resolved : input.entry.resolveInstallDir input.serversDir = .ok target)
    (there : machine.disk.HasDirectory (locate world.cwd (input.staging target)))
    (named : input.archivePath ≠ []) :
    input.NothingThere world (sweep input world machine) ↔
      world.faults.cleanStaging = none ∧ ArchiveGoes input world machine := by
  have apart := layout.archive target resolved
  have stagingGone : (sweep input world machine).find world.cwd (input.staging target) = none ↔
      world.faults.cleanStaging = none := by
    rw [Machine.find, sweep_eq resolved, find_remove apart.2]
    cases fault : world.faults.cleanStaging with
    | none => simp [removeAll_absent (locate_staging_ne_nil resolved)]
    | some left =>
        have stays := removeAll_left (locate_staging_ne_nil resolved) there
        rcases Disk.hasDirectory_iff.mp (stays left) with ⟨entries, found⟩
        simp [found]
  have archiveGone : (sweep input world machine).find world.cwd input.archive = none ↔
      ArchiveGoes input world machine := by
    rw [Machine.find, sweep_eq resolved, remove_absent_iff (locate_archive_ne_nil layout resolved),
      ArchiveGoes]
    simp only [Machine.find, find_removeAll apart.2.symm]
  rw [Input.NothingThere, archiveGone]
  constructor
  · rintro ⟨staging, archive⟩
    exact ⟨stagingGone.mp (staging target resolved), archive named⟩
  · rintro ⟨staging, archive⟩
    refine ⟨?_, fun _ => archive⟩
    intro given resolvedGiven
    rw [resolved] at resolvedGiven
    cases resolvedGiven
    exact stagingGone.mpr staging

/-- A swap that fails leaves the staging directory. -/
theorem swap_failed (layout : Layout input world.cwd) {staged : Staged}
    (resolved : input.entry.resolveInstallDir input.serversDir = .ok staged.target)
    (there : machine.disk.HasDirectory (locate world.cwd (input.staging staged.target)))
    (failed : ¬Swaps input world staged machine) :
    (swap input world staged machine).1.disk.HasDirectory
      (locate world.cwd (input.staging staged.target)) := by
  rw [Swaps, Bool.not_eq_true] at failed
  unfold swap
  simp only [failed, Bool.false_eq_true, if_false, rename_refused failed]
  rw [Disk.HasDirectory, find_removeAll (layout.staging _ resolved).symm]
  exact there

/-- A swap that succeeds puts the staged tree in its place. -/
theorem swap_placed (layout : Layout input world.cwd) {staged : Staged}
    (resolved : input.entry.resolveInstallDir input.serversDir = .ok staged.target)
    (swapped : Swaps input world staged machine) :
    (swap input world staged machine).1.disk.get (locate world.cwd staged.target)
      = machine.disk.get (locate world.cwd (input.staging staged.target)) := by
  have apart := layout.staging _ resolved
  rw [Swaps] at swapped
  unfold swap
  simp only [swapped, if_true]
  rw [find_remove (layout.archive _ resolved).1, rename_moved swapped apart,
    find_removeAll apart.symm]

theorem archivePath_ne_nil (ended : (prepare input world machine).2 = .ok target) :
    input.archivePath ≠ [] := by
  intro empty
  have refused : sealKey input = none := by
    rw [sealKey, if_pos (Or.inl empty)]
  rw [prepare, refused] at ended
  cases ended

/-! ## Exactly the atomic runs -/

/-- A directory is something. -/
theorem not_nothingThere {machine : Machine}
    (resolved : input.entry.resolveInstallDir input.serversDir = .ok target)
    (there : machine.disk.HasDirectory (locate world.cwd (input.staging target))) :
    ¬input.NothingThere world machine := by
  rintro ⟨absent, _⟩
  rcases Disk.hasDirectory_iff.mp there with ⟨entries, found⟩
  have gone : machine.disk.get (locate world.cwd (input.staging target)) = none :=
    absent target resolved
  rw [gone] at found
  cases found

theorem installs_iff {disk : Disk} :
    Installs input world disk ↔ ∃ staged,
      (stage input world (begin disk)).2 = .ok staged ∧
        Swaps input world staged (stage input world (begin disk)).1 := by
  constructor
  · rintro ⟨result, finished, installed⟩
    rcases run_installed_iff.mp ⟨finished, installed⟩ with ⟨staged, ended, swapped, _⟩
    exact ⟨staged, ended, swapped⟩
  · rintro ⟨staged, ended, swapped⟩
    exact ⟨_, run_installed_iff.mpr ⟨staged, ended, swapped, rfl⟩⟩

theorem run_bare {disk : Disk} {ending : Ending}
    (ended : (stage input world (begin disk)).2 = .error (.bare ending)) :
    (run input world disk).1 = (stage input world (begin disk)).1 := by
  simp only [run, ended]

theorem run_swept {disk : Disk} {result : Result}
    (ended : (stage input world (begin disk)).2 = .error (.swept result)) :
    (run input world disk).1 = sweep input world (stage input world (begin disk)).1 := by
  simp only [run, ended]

theorem run_ok {disk : Disk} {staged : Staged}
    (ended : (stage input world (begin disk)).2 = .ok staged) :
    (run input world disk).1
      = (swap input world staged (stage input world (begin disk)).1).1 := by
  simp only [run, ended]

/-- Input that is refused is returned on at once. -/
theorem toUnpacked_refused (refused : sealKey input = none) :
    toUnpacked input world machine = (machine, .error (.bare .aborted)) := by
  have isNone : (sealKey input).isNone = true := by rw [refused]; rfl
  have prepared : prepare input world machine = (machine, .error (.bare .aborted)) := by
    rw [prepare, if_pos isNone]
  rw [toUnpacked, andThen, prepared]

theorem stage_of_unpacked_error {stop : Stop}
    (ended : (toUnpacked input world machine).2 = .error stop) :
    stage input world machine = ((toUnpacked input world machine).1, .error stop) := by
  simp only [stage, toBuilt, andThen, ended]

/-- Behind unpacking, the stage leaves the file system of the build. -/
theorem stage_disk (ended : (toUnpacked input world machine).2 = .ok target) :
    (stage input world machine).1.disk
      = (build input world target (toUnpacked input world machine).1).1.disk := by
  have built : toBuilt input world machine
      = build input world target (toUnpacked input world machine).1 := by
    simp only [toBuilt, andThen, ended]
  rw [stage, andThen, built]
  split
  · rfl
  · rw [judge_disk]

theorem stage_of_build_bare {ending : Ending}
    (ended : (toUnpacked input world machine).2 = .ok target)
    (bare : (build input world target (toUnpacked input world machine).1).2
      = .error (.bare ending)) :
    (stage input world machine).2 = .error (.bare ending) := by
  simp only [stage, toBuilt, andThen, ended, bare]

section Exactly

variable {disk : Disk} (layout : Layout input world.cwd)
  (tools : ∀ target, input.entry.resolveInstallDir input.serversDir = .ok target →
    Tools world (locate world.cwd (input.staging target)))

include layout tools

/-- An atomic run leaves nothing, wherever it stops. -/
theorem Atomic.leavesNothing (atomic : Atomic input world disk) :
    LeavesNothing input world (begin disk) := by
  have notInstalled : ∀ stop, (stage input world (begin disk)).2 = .error stop →
      ¬Installs input world disk := by
    intro stop ended installs
    rcases installs_iff.mp installs with ⟨staged, staging, _⟩
    rw [ended] at staging
    cases staging
  have early : ∀ ending, (toUnpacked input world (begin disk)).2 = .error (.bare ending) →
      input.NothingThere world (toUnpacked input world (begin disk)).1 := by
    intro ending ended
    have stopped := stage_of_unpacked_error ended
    have clean := atomic.clean (notInstalled _ (by rw [stopped]))
    rw [run_bare (by rw [stopped]), stopped] at clean
    exact clean
  constructor
  · intro refused
    have returned := @toUnpacked_refused input world (begin disk) refused
    have nothing := early .aborted (by rw [returned])
    rw [returned] at nothing
    exact nothing
  · intro _ ending ended
    exact early ending ended
  · intro target ended ending bare
    have stopped := stage_of_build_bare ended bare
    have clean := atomic.clean (notInstalled _ stopped)
    rw [run_bare stopped] at clean
    have prepared := prepared_of_unpacked ended
    exact not_nothingThere (prepare_eq_ok prepared)
      (stage_hasDirectory (tools target (prepare_eq_ok prepared)) prepared) clean
  · intro result ended
    rcases prepared_of_swept ended with ⟨target, prepared⟩
    have resolved := prepare_eq_ok prepared
    have there := stage_hasDirectory (tools target resolved) prepared
    have clean := atomic.clean (notInstalled _ ended)
    have untouched := atomic.untouched (notInstalled _ ended) target resolved
    rw [run_swept ended] at clean untouched
    rcases (sweep_nothingThere_iff layout resolved there
      (archivePath_ne_nil prepared)).mp clean with ⟨stagingGoes, archiveGoes⟩
    refine ⟨stagingGoes, archiveGoes, ?_⟩
    intro given unpacked
    have same : given = target := by
      have both := (toUnpacked_eq_ok unpacked).symm.trans resolved
      cases both
      rfl
    rw [same] at unpacked ⊢
    rw [sweep_keeps layout resolved, stage_disk unpacked] at untouched
    rw [untouched, toUnpacked_keeps layout resolved]
    rfl
  · intro staged ended
    by_contra failed
    have notHere : ¬Installs input world disk := by
      intro installs
      rcases installs_iff.mp installs with ⟨other, staging, swapped⟩
      rw [ended] at staging
      cases staging
      exact failed swapped
    have clean := atomic.clean notHere
    rw [run_ok ended] at clean
    have unpacked := (toBuilt_eq_ok (stage_eq_ok ended)).1
    have prepared := prepared_of_unpacked unpacked
    have resolved := prepare_eq_ok prepared
    exact not_nothingThere resolved
      (swap_failed layout resolved
        (stage_hasDirectory (tools staged.target resolved) prepared) failed) clean

/-- A run that leaves nothing wherever it stops is atomic. -/
theorem LeavesNothing.atomic (leaves : LeavesNothing input world (begin disk)) :
    Atomic input world disk := by
  have installs : ∀ staged, (stage input world (begin disk)).2 = .ok staged →
      Installs input world disk := by
    intro staged ended
    exact installs_iff.mpr ⟨staged, ended, leaves.swapped staged ended⟩
  constructor
  · intro notInstalled target resolved
    cases ended : (stage input world (begin disk)).2 with
    | ok staged => exact absurd (installs staged ended) notInstalled
    | error stop =>
        cases stop with
        | bare ending =>
            rw [run_bare ended]
            rcases stage_bare ended with ⟨_, stageEq⟩ | ⟨given, unpacked, bare⟩
            · rw [stageEq, toUnpacked_keeps layout resolved]
              rfl
            · exact absurd bare (leaves.started given unpacked ending)
        | swept result =>
            rw [run_swept ended, sweep_keeps layout resolved,
              stage_keeps layout resolved ((leaves.swept result ended).2.2 target)]
            rfl
  · intro notInstalled
    cases ended : (stage input world (begin disk)).2 with
    | ok staged => exact absurd (installs staged ended) notInstalled
    | error stop =>
        cases stop with
        | bare ending =>
            rw [run_bare ended]
            rcases stage_bare ended with ⟨early, stageEq⟩ | ⟨given, unpacked, bare⟩
            · rw [stageEq]
              by_cases refused : sealKey input = none
              · rw [toUnpacked_refused refused]
                exact leaves.refused refused
              · exact leaves.early refused ending early
            · exact absurd bare (leaves.started given unpacked ending)
        | swept result =>
            rcases prepared_of_swept ended with ⟨target, prepared⟩
            have resolved := prepare_eq_ok prepared
            rcases leaves.swept result ended with ⟨stagingGoes, archiveGoes, _⟩
            rw [run_swept ended]
            exact (sweep_nothingThere_iff layout resolved
              (stage_hasDirectory (tools target resolved) prepared)
              (archivePath_ne_nil prepared)).mpr ⟨stagingGoes, archiveGoes⟩
  · intro installed
    rcases installs_iff.mp installed with ⟨staged, ended, swapped⟩
    have resolved := (toBuilt_eq_ok (stage_eq_ok ended)).2
    refine ⟨staged, ended, ?_⟩
    rw [run_ok ended]
    exact swap_placed layout resolved swapped

end Exactly

/-- Where the places lie beside each other and the tools keep the staging directory,
a run is atomic exactly when there is nothing to clean up where it just returns, the
clean-up and the swap succeed, and the build has not reached the target. -/
theorem atomic_iff (input : Input) (world : World) (disk : Disk) (layout : Layout input world.cwd)
    (tools : ∀ target, input.entry.resolveInstallDir input.serversDir = .ok target →
      Tools world (locate world.cwd (input.staging target))) :
    Atomic input world disk ↔ LeavesNothing input world (begin disk) :=
  ⟨Atomic.leavesNothing layout tools, LeavesNothing.atomic layout tools⟩

/-! ## What is installed bears its seal -/

/-- The tree at a path is what the path leads to. -/
theorem tree_congr {left right : Disk} {path other : RelPath}
    (same : left.get path = right.get other) : left.tree path = right.tree other := by
  have objects : left.object path = right.object other := by
    have mapped := (left.map_node_object path).trans
      (same.trans (right.map_node_object other).symm)
    exact Option.map_injective (fun _ _ nodes => Object.ext nodes) mapped
  rw [Disk.tree, Disk.tree, objects]

/-- A verified tree is sealed as it is staged. -/
theorem judge_sealed {built : Built} {staged : Staged} {localSeal : String}
    (ended : (judge input world built machine).2 = .ok staged)
    (verified : staged.sealResult = .verified localSeal) :
    Go.computeTreeSeal world.sha256 (world.describe (input.staging staged.target))
        ((sealKey input).getD [])
        (machine.disk.tree (locate world.cwd (input.staging staged.target))) = .ok localSeal := by
  have same := judge_eq_ok ended
  unfold judge at ended
  simp only at ended
  have sealedAs : sealStaged input world (input.staging built.target) built.entryPoint
      ((sealKey input).getD []) machine = .verified localSeal := by
    split at ended <;> cases ended
    exact verified
  rw [same]
  unfold sealStaged at sealedAs
  split at sealedAs
  · cases sealedAs
  · cases sealedAs
  · cases sealedAs
  · split at sealedAs
    · cases sealedAs
    · rename_i minted mintedEq
      cases sealedAs
      rw [mintSeal] at mintedEq
      split at mintedEq
      · cases mintedEq
      · exact mintedEq

/-- The seal that is reported for a verified install is that of the tree at its place. -/
theorem installed_sealed {disk : Disk} {staged : Staged} {localSeal : String}
    (layout : Layout input world.cwd) (ended : (stage input world (begin disk)).2 = .ok staged)
    (swapped : Swaps input world staged (stage input world (begin disk)).1)
    (verified : staged.sealResult = .verified localSeal) :
    Go.computeTreeSeal world.sha256 (world.describe (input.staging staged.target))
        ((sealKey input).getD [])
        ((run input world disk).1.disk.tree (locate world.cwd staged.target)) = .ok localSeal := by
  have resolved := (toBuilt_eq_ok (stage_eq_ok ended)).2
  rcases andThen_eq_ok ended with ⟨built, _, stepEq⟩
  have staging : (stage input world (begin disk)).1.disk
      = (toBuilt input world (begin disk)).1.disk := by
    rw [stage, stepEq, judge_disk]
  have placed := swap_placed layout resolved swapped
  rw [← run_ok ended, staging] at placed
  rw [tree_congr placed]
  rw [stage, stepEq] at ended
  exact judge_sealed ended verified

/-! ## A refusal that leaves the archive -/

theorem tools_quiet (archive : Archive) (staging : RelPath) :
    Tools (World.quiet archive) staging where
  uvVenv _ there := there
  uvCommon _ _ there := there
  uvPip _ _ there := there
  cargoBuild _ _ child there started := by
    cases started
    exact there

theorem layout_pythonInput : Layout (pythonInput "demo" []) [] := by
  constructor
  · intro target resolved
    rcases resolveInstallDir_eq_ok resolved with ⟨_, rfl⟩
    decide +kernel
  · intro target resolved
    rcases resolveInstallDir_eq_ok resolved with ⟨_, rfl⟩
    decide +kernel

/-- An install whose places lie apart, with tools that leave no trace. -/
theorem atomic_iff_pythonInput :
    Atomic (pythonInput "demo" []) (World.quiet returningArchive) downloaded ↔
      LeavesNothing (pythonInput "demo" []) (World.quiet returningArchive)
        (begin downloaded) :=
  atomic_iff _ _ _ layout_pythonInput fun _ _ => tools_quiet _ _

/-- An entry whose directory is `..` is refused, and its archive stays. -/
theorem not_atomic :
    ¬Atomic (pythonInput ".." []) (World.quiet returningArchive) downloaded := by
  intro atomic
  have refused : (run (pythonInput ".." []) (World.quiet returningArchive) downloaded).2.installed
      = false := by
    decide +kernel
  have stays : ((run (pythonInput ".." []) (World.quiet returningArchive) downloaded).1.find []
      (pythonInput ".." []).archive).isSome = true := by
    decide +kernel
  have named : (pythonInput ".." []).archivePath ≠ [] := by
    decide +kernel
  have notInstalled : ¬Installs (pythonInput ".." []) (World.quiet returningArchive) downloaded := by
    rw [installs_iff_installed, refused]
    exact Bool.false_ne_true
  have gone := (atomic.clean notInstalled).2 named
  rw [show (World.quiet returningArchive).cwd = [] from rfl] at gone
  rw [gone] at stays
  cases stays

end ClotoCore.Installer
