import ClotoCore.Defender.Receipt
import Mathlib.Order.Basic
import Mathlib.Order.Lattice

/-!
# What an uninstall could remove

The candidates come from the receipt, with the files that belong to a database, from the
prefix that the caller states, and from the places where a platform keeps artifacts that
no receipt records.
-/

namespace ClotoCore.Defender

open ClotoCore.Encoding

/-- `PurgeTier` -/
inductive PurgeTier where
  | application
  | userData
  | assets
  | everything
  deriving DecidableEq

namespace PurgeTier

/-- The number of a tier. -/
def level : PurgeTier → Nat
  | .application => 1
  | .userData => 2
  | .assets => 3
  | .everything => 4

theorem level_injective : Function.Injective level := by
  intro first second same
  cases first <;> cases second <;> first | rfl | cases same

/-- The tiers are ordered by their levels. -/
instance : LinearOrder PurgeTier :=
  LinearOrder.lift' level level_injective

/-- `PurgeTier::includes` -/
def includes (tier entry : PurgeTier) : Bool :=
  entry.level ≤ tier.level

theorem includes_iff {tier entry : PurgeTier} : tier.includes entry = true ↔ entry ≤ tier := by
  rw [includes, decide_eq_true_iff]
  rfl

end PurgeTier

/-- `PurgeKind` -/
inductive PurgeKind where
  | file
  | dir
  | service
  | registry
  deriving DecidableEq

/-- An entry of this kind is removed from the disk. -/
def PurgeKind.onDisk : PurgeKind → Bool
  | .file | .dir => true
  | .service | .registry => false

/-- `PurgeSource` -/
inductive PurgeSource where
  | receipt
  | platform
  | legacy
  | derived
  deriving DecidableEq

/-- `classify_exact` -/
def classifyExact (id : String) : Option PurgeTier :=
  if id ∈ ["binary", "app_bundle", "install_prefix", "install_scripts", "service", "autostart"] then
    some .application
  else if id ∈ ["start_menu_shortcut", "start_menu_shortcut_user", "desktop_shortcut",
      "desktop_shortcut_user", "desktop_entry"] then some .application
  else if id ∈ ["db", "seal_key", "env", "setup_marker", "attachments", "avatars", "vrm", "logs",
      "tmp", "mcp_config"] then some .userData
  else if id ∈ ["mcp_servers_root", "mcp_sandbox", "bin", "models", "voicevox", "speech"] then
    some .assets
  else if id ∈ ["data_dir", "install_data", "receipt", "webview", "registry_uninstall"] then
    some .everything
  else none

/-- `classify` -/
def classify (id : String) : PurgeTier :=
  match classifyExact id with
  | some tier => tier
  | none =>
      if id.startsWith "mcp:" then .assets
      else if id.startsWith "icon_" then .application
      else .userData

/-- `Existence` -/
inductive Existence where
  | present
  | unreadable
  | missing
  deriving DecidableEq

/-- The machine as the planner sees it: what `symlink_metadata`, `exists`, `is_file` and
`read_dir` answer, the files that are the same one, and `str::to_lowercase` on the text of
a path. -/
structure Host where
  os : Os
  currentDir : Option PathBuf
  stat : PathBuf → Existence
  pathExists : PathBuf → Bool
  isFile : PathBuf → Bool
  readDir : PathBuf → Option (List Name)
  sameFile : PathBuf → PathBuf → Bool
  toLowercase : PathBuf → PathBuf

/-- `ProbeRoots` -/
structure ProbeRoots where
  home : Option PathBuf
  platformData : Option PathBuf
  platformCache : Option PathBuf
  platformLocal : Option PathBuf
  exeDir : Option PathBuf
  exe : Option PathBuf
  programData : Option PathBuf
  publicDir : Option PathBuf
  desktop : Option PathBuf
  systemShare : Option PathBuf

/-- `PlanRequest`, with the path that `DATABASE_URL` names. -/
structure PlanRequest where
  dataDir : PathBuf
  tier : PurgeTier
  installPrefix : Option PathBuf
  roots : ProbeRoots
  databasePath : Option PathBuf

/-- `Candidate`.  The path of a registry key is its text. -/
structure Candidate where
  id : String
  kind : PurgeKind
  path : Option PathBuf
  key : Option String
  name : Option String
  tier : PurgeTier
  source : PurgeSource
  secret : Bool

/-- `SkipReason` -/
inductive SkipReason where
  | absent
  | aboveTier
  | coveredByParent
  | unsafePath
  deriving DecidableEq

/-- `SkippedEntry` -/
structure SkippedEntry where
  id : String
  reason : SkipReason
  path : Option PathBuf

/-- `Candidate::path_entry` -/
def Candidate.pathEntry (id : String) (kind : PurgeKind) (path : PathBuf) (tier : PurgeTier)
    (source : PurgeSource) : Candidate where
  id := id
  kind := kind
  path := some path
  key := none
  name := none
  tier := tier
  source := source
  secret := false

/-- A text from its bytes. -/
def textOf (bytes : Bytes) : String :=
  (String.fromUTF8? ⟨⟨toStringLossy bytes⟩⟩).getD ""

namespace PathBuf

/-- `Path::file_name` -/
def fileName (path : PathBuf) : Option Name :=
  match path.components.getLast? with
  | some (.normal name) => some name
  | _ => none

/-- `Path::parent`, spelled anew. -/
def parent (path : PathBuf) : Option PathBuf :=
  match path.components.getLast? with
  | some (.normal _) | some .curDir | some .parentDir =>
      some (path.components.dropLast.foldl push empty)
  | _ => none

/-- `Path::file_stem` of a file name. -/
def stem (name : Name) : Name :=
  let before := (name.reverse.dropWhile fun byte => byte != 46).drop 1
  if before = [] then name else before.reverse

end PathBuf

/-- The names of a directory that come out of a test, in the order of their bytes. -/
def sortedNames (names : List Name) (fits : Name → Bool) : List Name :=
  (names.filter fits).mergeSort fun first second => decide (first ≤ second)

/-- `sqlite_sidecars` -/
def sqliteSidecars (host : Host) (db : PathBuf) : List PathBuf :=
  match db.parent, db.fileName with
  | some dir, some base =>
      match host.readDir dir with
      | some names =>
          (sortedNames names fun name => base.length < name.length && base.isPrefixOf name).map
            fun name => dir.push (.normal name)
      | none => []
  | _, _ => []

/-- `sidecar_id` -/
def sidecarId (db sidecar : PathBuf) : String :=
  let base := (db.fileName.getD []).length
  "db" ++ textOf ((sidecar.fileName.getD []).drop base)

/-- `PRODUCT_NAME` -/
def productName : String := "ClotoCore"

/-- `MANUFACTURER` -/
def manufacturer : String := "cloto"

/-- `PRODUCT_KEY_COMPONENTS` -/
def productKeyComponents : List String := ["Software", manufacturer, productName]

/-- `START_MENU_REL` -/
def startMenuRel : PathBuf := relative ["Microsoft", "Windows", "Start Menu", "Programs"]

/-- A candidate under a probed directory, if there is the directory. -/
def probed (id : String) (kind : PurgeKind) (root : Option PathBuf) (names : List String)
    (tier : PurgeTier) : List Candidate :=
  root.toList.map fun dir => .pathEntry id kind (dir.join (relative names)) tier .platform

/-- `identifier_container_candidates` -/
def identifierContainerCandidates (roots : ProbeRoots) : List Candidate :=
  probed "webview_0" .dir roots.platformLocal ["com.cloto.app"] .everything ++
    probed "webview_1" .dir roots.platformData ["com.cloto.app"] .everything

/-- A registry key that goes with everything. -/
def registryCandidate (id key : String) : Candidate where
  id := id
  kind := .registry
  path := none
  key := some key
  name := none
  tier := .everything
  source := .platform
  secret := false

/-- The uninstall keys of both names in both hives. -/
def uninstallRegistryCandidates : List Candidate :=
  ["ClotoCore", "cloto-system"].flatMap fun key =>
    [("HKLM", "hklm"), ("HKCU", "hkcu")].map fun hive =>
      registryCandidate ("registry_uninstall_" ++ hive.2 ++ "_" ++ key)
        (hive.1 ++ "\\Software\\Microsoft\\Windows\\CurrentVersion\\Uninstall\\" ++ key)

/-- `product_registry_candidates` -/
def productRegistryCandidates : List Candidate :=
  [("HKLM", "hklm"), ("HKCU", "hkcu")].map fun hive =>
    registryCandidate ("registry_product_" ++ hive.2)
      ("\\".intercalate (hive.1 :: productKeyComponents))

/-- `icon_candidates` -/
def iconCandidates (host : Host) (share : PathBuf) (exe : Option PathBuf) : List PathBuf :=
  match exe.bind PathBuf.fileName with
  | none => []
  | some binary =>
      let hicolor := share.join (relative ["icons", "hicolor"])
      let icon := PathBuf.stem (PathBuf.stem binary) ++ utf8 ".png"
      let sizes := sortedNames ((host.readDir hicolor).getD []) fun _ => true
      (sizes.map fun size =>
        ((hicolor.push (.normal size)).join (relative ["apps"])).push (.normal icon)).filter
          host.isFile

/-- `desktop_integration_candidates` -/
def desktopIntegrationCandidates (host : Host) (roots : ProbeRoots) : List Candidate :=
  match host.os with
  | .windows =>
      let programs := ["Microsoft", "Windows", "Start Menu", "Programs"]
      let shortcut := productName ++ ".lnk"
      probed "start_menu_shortcut" .file roots.programData (programs ++ [shortcut]) .application ++
        probed "start_menu_shortcut_user" .file roots.platformData (programs ++ [shortcut])
          .application ++
        probed "desktop_shortcut" .file roots.publicDir ["Desktop", shortcut] .application ++
        probed "desktop_shortcut_user" .file roots.desktop [shortcut] .application
  | .linux =>
      match roots.systemShare with
      | none => []
      | some share =>
          .pathEntry "desktop_entry" .file
              (share.join (relative ["applications", productName ++ ".desktop"])) .application
              .platform ::
            (iconCandidates host share roots.exe).zipIdx.map fun icon =>
              .pathEntry s!"icon_{icon.2}" .file icon.1 .application .platform
  | .macos => []

/-- The unit of the service. -/
def systemdUnit : PathBuf := absolute ["etc", "systemd", "system", "cloto.service"]

/-- The agent of the service, under a home directory. -/
def launchAgent : List String := ["Library", "LaunchAgents", "com.cloto.system.plist"]

/-- `platform_candidates` -/
def platformCandidates (host : Host) (roots : ProbeRoots) : List Candidate :=
  match host.os with
  | .macos =>
      probed "autostart" .file roots.home launchAgent .application ++
        probed "webview_0" .dir roots.home ["Library", "WebKit", "com.cloto.app"] .everything ++
        probed "webview_1" .dir roots.home ["Library", "Caches", "com.cloto.app"] .everything ++
        probed "webview_2" .dir roots.home ["Library", "Application Support", "com.cloto.app"]
          .everything ++
        probed "webview_3" .dir roots.home
          ["Library", "Saved Application State", "com.cloto.app.savedState"] .everything
  | .linux =>
      .pathEntry "autostart" .file systemdUnit .application .platform ::
        (probed "webview_0" .dir roots.platformData ["com.cloto.app"] .everything ++
          probed "webview_1" .dir roots.platformCache ["com.cloto.app"] .everything ++
          desktopIntegrationCandidates host roots)
  | .windows =>
      identifierContainerCandidates roots ++ uninstallRegistryCandidates ++
        productRegistryCandidates ++ desktopIntegrationCandidates host roots

/-- `APP_DATA_DIR_NAME` -/
def appDataDirName : String := "cloto-system"

/-- `resolve_db_path` -/
def resolveDbPath (databasePath : Option PathBuf) (dataDir : PathBuf) : PathBuf :=
  databasePath.getD (dataDir.join (relative ["cloto_memories.db"]))

/-- `drift_hits` -/
def driftHits (host : Host) (resolved liveDb : PathBuf) (candidates : List PathBuf) :
    List PathBuf :=
  candidates.filter fun candidate =>
    let db := candidate.join (relative ["cloto_memories.db"])
    candidate.components != resolved.components && host.pathExists db && !host.sameFile db liveDb

/-- `legacy_candidates` -/
def legacyCandidates (host : Host) (request : PlanRequest) : List Candidate :=
  let candidates :=
    (request.roots.exeDir.toList.map fun dir => dir.join (relative ["data"])) ++
      request.roots.platformData.toList.map fun dir => dir.join (relative [appDataDirName])
  let liveDb := resolveDbPath request.databasePath request.dataDir
  (driftHits host request.dataDir liveDb candidates).zipIdx.map fun hit =>
    .pathEntry s!"legacy_data_dir_{hit.2}" .dir hit.1 .everything .legacy

/-- What `PurgeKind` an entry of the receipt has. -/
def EntryKind.purgeKind : EntryKind → PurgeKind
  | .file => .file
  | .dir => .dir
  | .service => .service

/-- The candidate that an entry of the receipt becomes. -/
def ReceiptEntry.candidate (entry : ReceiptEntry) : Candidate where
  id := entry.id
  kind := entry.kind.purgeKind
  path := entry.path
  key := none
  name := entry.name
  tier := classify entry.id
  source := .receipt
  secret := entry.secret

/-- The candidates that belong to a database of the receipt. -/
def sidecarCandidates (host : Host) (entry : ReceiptEntry) : List Candidate :=
  match entry.kind, entry.path with
  | .file, some db =>
      if entry.id = "db" then
        (sqliteSidecars host db).map fun sidecar =>
          .pathEntry (sidecarId db sidecar) .file sidecar (classify entry.id) .derived
      else []
  | _, _ => []

/-- The entries of the receipt that can be acted on. -/
def expressed (receipt : Option Receipt) : List ReceiptEntry :=
  (receipt.toList.flatMap Receipt.entries).filter fun entry => !entry.unrepresentable

/-- The entries of the receipt whose path is not in it. -/
def unexpressed (receipt : Option Receipt) : List ReceiptEntry :=
  (receipt.toList.flatMap Receipt.entries).filter fun entry => entry.unrepresentable

/-- `collect_candidates`, with what the platform and the scan have found. -/
def collectCandidates (host : Host) (request : PlanRequest) (receipt : Option Receipt)
    (found : List Candidate) : List Candidate × List SkippedEntry :=
  ((expressed receipt).flatMap (fun entry => entry.candidate :: sidecarCandidates host entry) ++
      (request.installPrefix.toList.map fun path =>
        .pathEntry "install_prefix" .dir path .application .receipt) ++ found,
    (unexpressed receipt).map fun entry => ⟨entry.id, .unsafePath, entry.path⟩)

end ClotoCore.Defender
