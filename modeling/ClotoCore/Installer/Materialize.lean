import ClotoCore.Installer.Extract
import ClotoCore.Seal.GoTree
import ClotoCore.Seal.GoVerdict

/-!
# Materializing an install

Stage 2 of an install: unpack the archive into a staging directory, build the
connector there, decide the verdict on the staged tree and only then swap it in.
The child processes, the archive and manifest formats and the failures of the
system are parameters; what the stage does about them is the program's.
-/

namespace ClotoCore.Installer

open ClotoCore.Encoding ClotoCore.Lexical ClotoCore.Seal

/-! ## Input -/

/-- What the kernel hands this stage.  What only a child process is told is left out. -/
structure Input where
  entry : CatalogEntry
  archivePath : Bytes
  subdir : Option Bytes
  serversDir : Bytes
  tmpDir : Bytes
  uv : Bytes
  venvDir : Bytes
  installLog : Bytes
  sealKeyHex : String
  jwks : Option Json.Value
  launchableConnectorTypes : List String

/-- The connector's own manifest, as `json.Unmarshal` reads it. -/
structure Wire where
  connectorType : Option String
  /-- The `entry` of every panel. -/
  panels : List String

/-- `Declaration` -/
structure Declaration where
  connectorType : String
  declared : Bool
  panelEntries : List String

/-- What a child process leaves behind, and whether it succeeded. -/
structure Child where
  disk : Disk
  ok : Bool

/-- What goes wrong in the system, call by call. -/
structure Faults where
  mkdirServers : FilePath → Bool
  staleStaging : Option RemoveFault
  mkdirStaging : FilePath → Bool
  extract : ExtractFaults
  /-- The manifest cannot be read. -/
  readManifest : Bool
  /-- `Cargo.toml` cannot be read. -/
  readCargo : Bool
  patchCargo : Option WriteFault
  mkdirLog : FilePath → Bool
  appendLog : Option WriteFault
  /-- The entry point cannot be read. -/
  hash : Bool
  /-- The staged tree cannot be read, and the text of the error. -/
  treeSeal : Option Bytes
  cleanStaging : Option RemoveFault
  cleanArchive : Bool
  clearTarget : Option RemoveFault
  rename : Bool
  /-- The archive cannot be removed behind the swap. -/
  finalArchive : Bool

/-- What the run meets. -/
structure World where
  cwd : RelPath
  sha256 : Digest
  /-- The signature check of a key, an input and a signature. -/
  verify : Bytes → Bytes → Bytes → Bool
  /-- Decompressing and reading a tarball. -/
  untar : Bytes → Option Archive
  /-- `json.Unmarshal` into the manifest's shape. -/
  unmarshal : Bytes → Option Wire
  uvVenv : Disk → Disk
  uvCommon : FilePath → Disk → Disk
  uvPip : FilePath → Disk → Child
  /-- The lines `uv` writes. -/
  uvLines : Bytes
  /-- `none` when `cargo` cannot be started. -/
  cargoBuild : FilePath → Disk → Option Child
  /-- The text of an error of the system. -/
  errorText : Bytes
  /-- A path as text, for messages. -/
  describe : FilePath → String
  faults : Faults

/-! ## Results -/

/-- The virtualenv used. -/
structure VenvState where
  dir : Bytes
  python : FilePath
  created : Bool

/-- The verdict, with the local seal when verified. -/
inductive SealResult where
  | verified (localSeal : String)
  | unsealed (reason : UnsealedReason)
  | tamper (code : TamperCode) (message : String)
  | error (message : Bytes)

/-- What the kernel is to start: the command and its arguments. -/
inductive Launch where
  | nothing
  /-- `python`, with the script as its argument. -/
  | python (script : FilePath)
  | binary (path : FilePath)

/-- What is handed over to be started. -/
def Launch.path : Launch → Option FilePath
  | .nothing => none
  | .python script => some script
  | .binary path => some path

/-- `Result` -/
structure Result where
  ok : Bool
  installed : Bool
  installDir : Option FilePath
  serverPath : Option FilePath
  launch : Launch
  venv : Option VenvState
  sealResult : Option SealResult

/-- The result of a step that failed. -/
def Result.stepError : Result where
  ok := false
  installed := false
  installDir := none
  serverPath := none
  launch := .nothing
  venv := none
  sealResult := none

/-- How a run ends. -/
inductive Ending where
  /-- With an error, and no result. -/
  | aborted
  | finished (result : Result)

/-- How a run ends before the swap. -/
inductive Stop where
  /-- It returns as it stands. -/
  | bare (ending : Ending)
  /-- The staging directory and the archive are removed first. -/
  | swept (result : Result)

/-! ## The manifest -/

/-- `FileName` -/
def manifestName : Bytes := utf8 "cloto-connector.json"

/-- `DefaultConnectorType` -/
def defaultConnectorType : String := "mgp_server"

/-- What a connector without a manifest declares. -/
def Declaration.absent : Declaration where
  connectorType := defaultConnectorType
  declared := false
  panelEntries := []

/-- A manifest reduced to what the engine acts on. -/
def Declaration.ofWire (wire : Wire) : Declaration where
  connectorType :=
    match wire.connectorType.map trim with
    | some declared => if declared = "" then defaultConnectorType else declared
    | none => defaultConnectorType
  declared := true
  panelEntries := ((wire.panels.map trim).filter fun entry => entry != "").eraseDups

/-- `BuildsAServer` -/
def Declaration.buildsAServer (declaration : Declaration) (launchable : List String) : Bool :=
  let launchable := if launchable = [] then [defaultConnectorType] else launchable
  launchable.contains declaration.connectorType

/-- `EntryPoint` -/
def Declaration.entryPoint (declaration : Declaration) : Option String :=
  declaration.panelEntries.head?

/-! ## Names of the run -/

/-- What the name of a staging directory ends in. -/
def stagingSuffix : Bytes := utf8 "-staging"

/-- The staging directory of a target. -/
def Input.staging (input : Input) (target : FilePath) : FilePath :=
  joinText (clean input.tmpDir) (base target ++ stagingSuffix)

/-- The connector's directory inside the archive. -/
def Input.archiveSubdir (input : Input) : Bytes :=
  trimSlashes (match input.subdir with
    | some subdir => subdir
    | none => (input.entry.rawUrlSubdir.map utf8).getD [])

/-- The connector's directory under a root. -/
def Input.serverUnder (input : Input) (root : FilePath) : FilePath :=
  if input.archiveSubdir = [] then root else joinText root input.archiveSubdir

/-- The binary of a Rust connector, on Unix. -/
def Input.binary (input : Input) (server : FilePath) : FilePath :=
  let name := input.entry.binName.getD ("mgp-" ++ input.entry.directory)
  joinText (joinText (joinText server (utf8 "target")) (utf8 "release")) (utf8 name)

/-- `server.py` -/
def script (server : FilePath) : FilePath :=
  joinText server (utf8 "server.py")

/-- `Cargo.toml` -/
def cargoToml (server : FilePath) : FilePath :=
  joinText server (utf8 "Cargo.toml")

/-- The archive. -/
def Input.archive (input : Input) : FilePath :=
  clean input.archivePath

/-- `filepath.Dir` of a text. -/
def dirOfText (text : Bytes) : FilePath :=
  clean (text.reverse.dropWhile fun byte => byte != separator).reverse

/-- The value of a hexadecimal digit. -/
def digitValue (c : Char) : Option UInt8 :=
  if '0' ≤ c ∧ c ≤ '9' then some (UInt8.ofNat (c.toNat - 48))
  else if 'a' ≤ c ∧ c ≤ 'f' then some (UInt8.ofNat (c.toNat - 87))
  else if 'A' ≤ c ∧ c ≤ 'F' then some (UInt8.ofNat (c.toNat - 55))
  else none

/-- `hex.DecodeString` -/
def decodeHex : List Char → Option Bytes
  | [] => some []
  | high :: low :: rest => do
      let high ← digitValue high
      let low ← digitValue low
      let bytes ← decodeHex rest
      some ((high * 16 + low) :: bytes)
  | [_] => none

/-- One stage after another, unless the run stops. -/
def andThen {α β : Type} (first : Machine × Except Stop α)
    (next : α → Machine → Machine × Except Stop β) : Machine × Except Stop β :=
  match first.2 with
  | .error stop => (first.1, .error stop)
  | .ok value => next value first.1

section Stages

variable (input : Input) (world : World)

/-! ## Before the archive is opened -/

/-- The seal key, unless the input is refused. -/
def sealKey : Option Bytes :=
  if input.archivePath = [] ∨ input.serversDir = [] ∨ input.tmpDir = [] then none
  else if input.sealKeyHex = "" then none
  else
    match decodeHex (trim input.sealKeyHex).toList with
    | none => none
    | some [] => none
    | some key =>
        if input.entry.isRust = false ∧ (input.uv = [] ∨ input.venvDir = []) then none else some key

/-- From the servers root to an empty staging directory: the target. -/
def prepare (machine : Machine) : Machine × Except Stop FilePath :=
  if (sealKey input).isNone then (machine, .error (.bare .aborted))
  else
    let servers := machine.mkdirAll world.cwd world.faults.mkdirServers (clean input.serversDir)
    if servers.2 = false then (servers.1, .error (.bare .aborted))
    else
      match input.entry.resolveInstallDir input.serversDir with
      | .error _ => (servers.1, .error (.bare (.finished .stepError)))
      | .ok target =>
          let cleared :=
            servers.1.removeAll world.cwd world.faults.staleStaging (input.staging target)
          let staging :=
            cleared.1.mkdirAll world.cwd world.faults.mkdirStaging (input.staging target)
          if staging.2 = false then (staging.1, .error (.bare .aborted))
          else (staging.1, .ok target)

/-! ## Unpacking -/

/-- Unpack the archive into the staging directory. -/
def unpack (target : FilePath) (machine : Machine) : Machine × Except Stop FilePath :=
  let staging := input.staging target
  let archive := (machine.readFile world.cwd input.archive).bind world.untar
  let unpacked :=
    if input.archiveSubdir = [] then
      tarballStripped world.cwd archive world.faults.extract staging machine
    else
      subdirSelective world.cwd archive world.faults.extract staging input.archiveSubdir
        input.entry.needsCommon machine
  (unpacked.1,
    match unpacked.2 with
    | .error _ => .error (.swept .stepError)
    | .ok () => .ok target)

/-! ## Building -/

/-- What a build leaves for the verdict and the registration. -/
structure Built where
  target : FilePath
  entryPoint : FilePath
  launch : Launch
  venv : Option VenvState

/-- `manifest.Read` -/
def readManifest (server : FilePath) (machine : Machine) : Declaration :=
  if world.faults.readManifest then .absent
  else
    match (machine.readFile world.cwd (joinText server manifestName)).bind world.unmarshal with
    | none => .absent
    | some wire => .ofWire wire

/-- A connector that ships no server: the file its first panel is served from. -/
def panelEntry (target server : FilePath) (declaration : Declaration) (machine : Machine) :
    Except Stop Built :=
  match declaration.entryPoint with
  | none => .error (.swept .stepError)
  | some entryFile =>
      let entryPoint := joinText server (utf8 entryFile)
      if (machine.find world.cwd entryPoint).isSome then
        .ok { target := target, entryPoint := entryPoint, launch := .nothing, venv := none }
      else .error (.swept .stepError)

/-- The line that keeps a parent workspace from absorbing the package. -/
def workspaceTable : Bytes := utf8 "\n[workspace]\n"

/-- What `cargoBuild` writes to the `Cargo.toml` it finds, if it patches it. -/
def cargoPatch (server : FilePath) (machine : Machine) : Option Bytes :=
  if world.faults.readCargo then none
  else
    match machine.readFile world.cwd (cargoToml server) with
    | none => none
    | some content =>
        if utf8 "[workspace]" <:+: content then none else some (content ++ workspaceTable)

/-- The patch of `Cargo.toml`.  A patch that fails is only warned about. -/
def patchCargo (server : FilePath) (machine : Machine) : Machine :=
  match cargoPatch world server machine with
  | none => machine
  | some content =>
      (machine.writeFile world.cwd world.faults.patchCargo (cargoToml server) content).1

/-- `cargoBuild`; `none` in the result when `cargo` cannot be started. -/
def cargoBuild (server : FilePath) (machine : Machine) : Machine × Option Bool :=
  if (machine.find world.cwd (cargoToml server)).isNone then (machine, some false)
  else
    let patched := patchCargo world server machine
    match world.cargoBuild server patched.disk with
    | none => (patched, none)
    | some child => ({ patched with disk := child.disk }, some child.ok)

/-- The build of a Rust connector. -/
def rustBuild (target staged final : FilePath) (machine : Machine) :
    Machine × Except Stop Built :=
  let build := cargoBuild world staged machine
  (build.1,
    match build.2 with
    | none => .error (.bare .aborted)
    | some false => .error (.swept .stepError)
    | some true =>
        if (build.1.find world.cwd (input.binary staged)).isSome then
          .ok
            { target := target
              entryPoint := input.binary staged
              launch := .binary (input.binary final)
              venv := none }
        else .error (.swept .stepError))

/-- `resolveCommonSource` -/
def resolveCommonSource (server : FilePath) (machine : Machine) : Option FilePath :=
  let candidates :=
    [joinText (dir server) (utf8 "common"), joinText (clean input.serversDir) (utf8 "common")]
  candidates.find? fun candidate =>
    (machine.readFile world.cwd (joinText candidate (utf8 "pyproject.toml"))).isSome

/-- The marker of a virtualenv. -/
def venvMarker : FilePath :=
  joinText (clean input.venvDir) (utf8 "pyvenv.cfg")

/-- The virtualenv, created when it is not there. -/
def ensureVenv (machine : Machine) : Machine × VenvState :=
  let state :=
    { dir := input.venvDir
      python := joinText (joinText (clean input.venvDir) (utf8 "bin")) (utf8 "python")
      created := false : VenvState }
  if (machine.find world.cwd (venvMarker input)).isSome then (machine, state)
  else
    let made := { machine with disk := world.uvVenv machine.disk }
    (made, { state with created := (made.find world.cwd (venvMarker input)).isSome })

/-- The lines of `uv` are appended to the install log, when there is one. -/
def appendLog (machine : Machine) : Machine :=
  if input.installLog = [] then machine
  else
    let made := (machine.mkdirAll world.cwd world.faults.mkdirLog (dirOfText input.installLog)).1
    let held := (made.readFile world.cwd (clean input.installLog)).getD []
    (made.writeFile world.cwd world.faults.appendLog (clean input.installLog)
      (held ++ world.uvLines)).1

/-- `pythonEnv` -/
def pythonEnv (server : FilePath) (machine : Machine) : Machine × Option VenvState :=
  let venv := ensureVenv input world machine
  let common :=
    if input.entry.needsCommon then
      match resolveCommonSource input world server venv.1 with
      | some source => { venv.1 with disk := world.uvCommon source venv.1.disk }
      | none => venv.1
    else venv.1
  let logged := appendLog input world common
  let child := world.uvPip server logged.disk
  ({ logged with disk := child.disk }, if child.ok then some venv.2 else none)

/-- The build of a Python connector. -/
def pythonBuild (target staged final : FilePath) (machine : Machine) :
    Machine × Except Stop Built :=
  let built := pythonEnv input world staged machine
  (built.1,
    match built.2 with
    | none => .error (.swept .stepError)
    | some venv =>
        .ok
          { target := target
            entryPoint := script staged
            launch := .python (script final)
            venv := some venv })

/-- Build the connector against the staged tree. -/
def build (target : FilePath) (machine : Machine) : Machine × Except Stop Built :=
  let staged := input.serverUnder (input.staging target)
  let final := input.serverUnder target
  let declaration := readManifest world staged machine
  if declaration.buildsAServer input.launchableConnectorTypes = false then
    (machine, panelEntry world target staged declaration machine)
  else if input.entry.isRust then rustBuild input world target staged final machine
  else pythonBuild input world target staged final machine

/-! ## The verdict -/

/-- The hash of the entry point. -/
def hashEntryPoint (entryPoint : FilePath) (machine : Machine) : Except Bytes String :=
  match if world.faults.hash then none else machine.readFile world.cwd entryPoint with
  | none => .error world.errorText
  | some content => .ok (hexEncode (world.sha256 content))

/-- The tree at a path, when a directory is there. -/
def Disk.tree (disk : Disk) (path : RelPath) : Option InstallTree :=
  match disk.object path with
  | some ⟨.directory entries, wellFormed⟩ => some ⟨entries, wellFormed⟩
  | _ => none

/-- The local seal of the staged tree. -/
def mintSeal (staging : FilePath) (key : Bytes) (machine : Machine) : Except Bytes String :=
  match world.faults.treeSeal with
  | some text => .error text
  | none =>
      Go.computeTreeSeal world.sha256 (world.describe staging) key
        (machine.disk.tree (locate world.cwd staging))

/-- `decide`, on the staged tree. -/
def sealStaged (staging entryPoint : FilePath) (key : Bytes) (machine : Machine) : SealResult :=
  match Go.installVerdict world.verify input.entry.toEntry (hashEntryPoint world entryPoint machine)
      input.jwks with
  | .error message => .error message
  | .ok (.tamper code message) => .tamper code message
  | .ok (.unsealed reason) => .unsealed reason
  | .ok .verified =>
      match mintSeal world staging key machine with
      | .error message => .error message
      | .ok localSeal => .verified localSeal

/-- Whether the verdict reads the entry point. -/
def hashesEntryPoint : Bool :=
  trim (input.entry.entryPointSha256.getD "") != ""

/-- What is staged, and may replace the previous install. -/
structure Staged extends Built where
  sealResult : SealResult

/-- The verdict, which refuses a tree that was tampered with or cannot be read. -/
def judge (built : Built) (machine : Machine) : Machine × Except Stop Staged :=
  let read :=
    if hashesEntryPoint input then
      { machine with touched := machine.touched ++ [.hashed built.entryPoint] }
    else machine
  let sealResult :=
    sealStaged input world (input.staging built.target) built.entryPoint
      ((sealKey input).getD []) machine
  (read,
    match sealResult with
    | .tamper _ _ | .error _ =>
        .error (.swept
          { Result.stepError with ok := true, venv := built.venv, sealResult := some sealResult })
    | _ => .ok { built with sealResult := sealResult })

/-- Up to the unpacked archive. -/
def toUnpacked (machine : Machine) : Machine × Except Stop FilePath :=
  andThen (prepare input world machine) (unpack input world)

/-- Up to the connector that was built. -/
def toBuilt (machine : Machine) : Machine × Except Stop Built :=
  andThen (toUnpacked input world machine) (build input world)

/-- Everything before the swap. -/
def stage (machine : Machine) : Machine × Except Stop Staged :=
  andThen (toBuilt input world machine) (judge input world)

/-! ## The end of a run -/

/-- `removeStaging` and `removeArchive`.  What cannot be removed is only warned about. -/
def sweep (machine : Machine) : Machine :=
  match input.entry.resolveInstallDir input.serversDir with
  | .error _ => machine
  | .ok target =>
      let cleared :=
        (machine.removeAll world.cwd world.faults.cleanStaging (input.staging target)).1
      (cleared.remove world.cwd world.faults.cleanArchive input.archive).1

/-- Swap the staged tree in. -/
def swap (staged : Staged) (machine : Machine) : Machine × Ending :=
  let cleared :=
    (machine.removeAll world.cwd world.faults.clearTarget staged.target).1
  let renamed :=
    cleared.rename world.cwd world.faults.rename (input.staging staged.target) staged.target
  if renamed.2 then
    ((renamed.1.remove world.cwd world.faults.finalArchive input.archive).1,
      .finished
        { ok := true
          installed := true
          installDir := some staged.target
          serverPath := some (input.serverUnder staged.target)
          launch := staged.launch
          venv := staged.venv
          sealResult := some staged.sealResult })
  else (renamed.1, .aborted)

/-- A run before its first step. -/
def begin (disk : Disk) : Machine where
  disk := disk
  touched := []

/-- `Run` -/
def run (disk : Disk) : Machine × Ending :=
  let staged := stage input world (begin disk)
  match staged.2 with
  | .error (.bare ending) => (staged.1, ending)
  | .error (.swept result) => (sweep input world staged.1, .finished result)
  | .ok ready => swap input world ready staged.1

end Stages

end ClotoCore.Installer
