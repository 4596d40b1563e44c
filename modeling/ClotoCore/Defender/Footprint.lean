import ClotoCore.Defender.Candidates

/-!
# What the program records of itself

At every start the kernel records its data directory with the parts of it that are there,
the running binary with the directories that it is laid out in, the database, and the
file of its settings.  The last two need not lie in any of the directories.
-/

namespace ClotoCore.Defender

open ClotoCore.Encoding

/-- `Path::extension` of a file name. -/
def PathBuf.extension (name : Name) : Option Name :=
  if (name.reverse.dropWhile fun byte => byte != 46).drop 1 = [] then none
  else some (name.reverse.takeWhile fun byte => byte != 46).reverse

/-- `app_bundle_of` -/
def appBundleOf (exe : PathBuf) : Option PathBuf :=
  exe.parent.bind fun macosDir =>
    if macosDir.fileName = some (utf8 "MacOS") then
      macosDir.parent.bind fun contents =>
        if contents.fileName = some (utf8 "Contents") then
          contents.parent.bind fun bundle =>
            if bundle.fileName.bind PathBuf.extension = some (utf8 "app") then some bundle
            else none
        else none
    else none

/-- `prefix_dir_of` -/
def prefixDirOf (exe : PathBuf) : Option PathBuf :=
  exe.parent.bind fun dir => if dir.parent.isSome then some dir else none

/-- `NSIS_UNINSTALLER` -/
def nsisUninstaller : String := "uninstall.exe"

/-- `install_prefix_of` -/
def installPrefixOf (host : Host) (exe : PathBuf) : Option PathBuf :=
  (prefixDirOf exe).bind fun dir =>
    if host.isFile (dir.join (relative [nsisUninstaller])) then some dir else none

/-- What the running process is told: its binary, the directory of the binary and the data
directory by the configuration, and the paths that `CLOTO_ENV_PATH` and `DATABASE_URL`
name. -/
structure Process where
  exe : Option PathBuf
  exeDir : PathBuf
  configDataDir : PathBuf
  envPath : Option PathBuf
  databasePath : Option PathBuf

/-- `resolve_env_target` -/
def resolveEnvTarget (host : Host) (process : Process) : PathBuf :=
  match process.envPath with
  | some path => path
  | none =>
      let candidates := (host.currentDir.toList ++ [process.exeDir, process.configDataDir]).map
        fun dir => dir.join (relative [".env"])
      (candidates.find? host.pathExists).getD (process.configDataDir.join (relative [".env"]))

/-- `binary_entries` -/
def binaryEntries (host : Host) (exe : PathBuf) : List ReceiptEntry :=
  [.file "binary" exe] ++ (appBundleOf exe).toList.map (.dir "app_bundle") ++
    (installPrefixOf host exe).toList.map (.dir "install_prefix")

/-- The directories of the data directory that are recorded where they are there. -/
def dataDirs : List (String × String) :=
  [("attachments", "attachments"), ("avatars", "avatars"), ("vrm", "vrm"), ("speech", "speech"),
    ("mcp_servers_root", "mcp-servers"), ("mcp_sandbox", "mcp-sandbox"), ("bin", "bin"),
    ("logs", "logs"), ("tmp", "tmp")]

/-- A path that is recorded where something is at it. -/
def recordedAt (host : Host) (path : PathBuf) (entry : PathBuf → ReceiptEntry) :
    List ReceiptEntry :=
  if host.pathExists path then [entry path] else []

/-- `boot_entries` -/
def bootEntries (host : Host) (process : Process) (dataDir : PathBuf) : List ReceiptEntry :=
  [.dir "data_dir" dataDir] ++ process.exe.toList.flatMap (binaryEntries host) ++
    recordedAt host (resolveDbPath process.databasePath dataDir) (.file "db") ++
    dataDirs.flatMap (fun part => recordedAt host (dataDir.join (relative [part.2])) (.dir part.1)) ++
    recordedAt host (dataDir.join (relative ["setup-complete.json"])) (.file "setup_marker") ++
    recordedAt host (dataDir.join (relative ["seal.key"]))
      (fun path => (ReceiptEntry.file "seal_key" path).asSecret) ++
    recordedAt host (resolveEnvTarget host process)
      fun path => (ReceiptEntry.file "env" path).asSecret

end ClotoCore.Defender
