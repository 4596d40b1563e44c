import ClotoCore.Defender.Execute
import ClotoCore.Installer.Catalog

/-!
# Entries of the marketplace

A catalog entry has an id, and a directory under the servers root where its install goes.
A server that is installed has a row by its name.  Where its files are is said by the
catalog, by the arguments of the row, and by the id.
-/

namespace ClotoCore.Marketplace

open ClotoCore.Encoding
open ClotoCore.Defender (Name Piece PathBuf Platform)

/-! ## The catalog and the rows -/

/-- What an entry of the catalog says of where its install is. -/
structure RegistryEntry where
  id : String
  directory : String
  deriving DecidableEq

/-- `effective_install_dir` -/
def effectiveInstallDir (entry : RegistryEntry) : Bytes :=
  let raw := if entry.directory.isEmpty then utf8 entry.id else utf8 entry.directory
  let last := Installer.lastElement (Installer.trimSlashes raw)
  if last = [] then raw else last

/-- A row of `mcp_servers`, with its arguments where that column parses. -/
structure ServerRow where
  name : String
  command : String
  args : Option (List String)
  marketplaceId : Option String
  isActive : Bool
  deriving DecidableEq

/-! ## Paths -/

/-- What a name between separators asks for. -/
def pieceOf (text : Bytes) : Piece :=
  if text = [] then .empty
  else if text = utf8 "." then .dot
  else if text = utf8 ".." then .up
  else .normal text

/-- A text as a path, on Unix. -/
def pathOf (text : Bytes) : PathBuf where
  drive := none
  rooted := text.head? = some Seal.separator
  pieces := (text.splitOn Seal.separator).map pieceOf

/-- Where the kernel runs, and where it has its data. -/
structure Host where
  platform : Platform
  dataDir : PathBuf
  kernelDir : PathBuf

/-- `resolve_servers_dir` -/
def Host.serversRoot (host : Host) : PathBuf :=
  host.dataDir.join (Defender.relative ["mcp-servers"])

/-- `install_dir_from_args` -/
def installDirFromArgs (args : Option (List String)) (serversRoot : PathBuf) : Option Bytes :=
  args.bind fun args => args.findSome? fun arg =>
    let path := pathOf (utf8 arg)
    if path.startsWith serversRoot then
      match path.components.drop serversRoot.components.length with
      | .normal name :: _ => some name
      | _ => none
    else none

/-! ## Where a directory is sought -/

/-- Whether a server id could leave the servers root. -/
def leavesRoot (serverId : String) : Bool :=
  serverId.toList.contains '/' || serverId.toList.contains '\\'
    || serverId.toList.tails.any fun rest => ['.', '.'].isPrefixOf rest

/-- The names under which `uninstall_handler` seeks a directory, where the arguments of the
row may be `unread`. -/
def candidates (host : Host) (catalog : Option (List RegistryEntry)) (rows : List ServerRow)
    (unread : Bool) (serverId : String) : List Bytes :=
  let registeredArgs :=
    if unread then none else (rows.find? fun row => row.name = serverId).bind ServerRow.args
  let catalogDir :=
    (catalog.bind fun entries => entries.find? fun entry => entry.id = serverId).map
      effectiveInstallDir
  let argsDir := installDirFromArgs registeredArgs host.serversRoot
  [catalogDir, argsDir, some (utf8 serverId)].reduceOption.foldl
    (fun found dir => if found.contains dir then found else found ++ [dir]) []

end ClotoCore.Marketplace
