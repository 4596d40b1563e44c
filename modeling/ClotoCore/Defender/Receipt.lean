import ClotoCore.Defender.Paths

/-!
# The install receipt

The receipt is the ledger of what the program has put on a machine, one entry for
each id.
-/

namespace ClotoCore.Defender

/-- `EntryKind` -/
inductive EntryKind where
  | file
  | dir
  | service
  deriving DecidableEq

/-- `ReceiptEntry` -/
structure ReceiptEntry where
  id : String
  kind : EntryKind
  path : Option PathBuf
  name : Option String
  secret : Bool
  unrepresentable : Bool
  deriving DecidableEq

/-- `Receipt` -/
structure Receipt where
  receiptVersion : Nat
  appVersion : String
  installedAt : String
  updatedAt : String
  entries : List ReceiptEntry
  deriving DecidableEq

/-- `RECEIPT_VERSION` -/
def receiptVersion : Nat := 1

/-- `record_path`: a path as a text, and whether the text is not the path. -/
def recordPath (path : PathBuf) : PathBuf × Bool :=
  match path.representable with
  | some rendered => (rendered, false)
  | none => (path.display, true)

namespace ReceiptEntry

/-- `ReceiptEntry::file` -/
def file (id : String) (path : PathBuf) : ReceiptEntry where
  id := id
  kind := .file
  path := some (recordPath path).1
  name := none
  secret := false
  unrepresentable := (recordPath path).2

/-- `ReceiptEntry::dir` -/
def dir (id : String) (path : PathBuf) : ReceiptEntry where
  id := id
  kind := .dir
  path := some (recordPath path).1
  name := none
  secret := false
  unrepresentable := (recordPath path).2

/-- `ReceiptEntry::service` -/
def service (id name : String) : ReceiptEntry where
  id := id
  kind := .service
  path := none
  name := some name
  secret := false
  unrepresentable := false

/-- `ReceiptEntry::secret` -/
def asSecret (entry : ReceiptEntry) : ReceiptEntry :=
  { entry with secret := true }

end ReceiptEntry

/-- `receipt_path` -/
def receiptPath (dataDir : PathBuf) : PathBuf :=
  dataDir.join (relative ["installed.json"])

/-- Replace the entry of an id, or add one. -/
def upsert (entries : List ReceiptEntry) (entry : ReceiptEntry) : List ReceiptEntry :=
  match entries with
  | [] => [entry]
  | first :: rest => if first.id = entry.id then entry :: rest else first :: upsert rest entry

/-- The version of the program and the time of a change. -/
structure Stamp where
  appVersion : String
  now : String

/-- The receipt that `record` writes, over the one that it has read. -/
def Receipt.record (dataDir : PathBuf) (stamp : Stamp) (loaded : Option Receipt)
    (entries : List ReceiptEntry) : Receipt :=
  let receipt := loaded.getD ⟨Defender.receiptVersion, stamp.appVersion, stamp.now, stamp.now, []⟩
  let recorded := entries.foldl upsert receipt.entries
  { receipt with
    appVersion := stamp.appVersion
    updatedAt := stamp.now
    entries :=
      if recorded.any fun entry => entry.id == "receipt" then recorded
      else recorded ++ [.file "receipt" (receiptPath dataDir)] }

/-- The receipt that `remove` writes, if it writes one. -/
def Receipt.remove (stamp : Stamp) (loaded : Option Receipt) (id : String) : Option Receipt :=
  loaded.bind fun receipt =>
    let kept := receipt.entries.filter fun entry => entry.id != id
    if kept.length = receipt.entries.length then none
    else some { receipt with updatedAt := stamp.now, entries := kept }

/-- The entry of an id. -/
def Receipt.lookup (receipt : Receipt) (id : String) : Option ReceiptEntry :=
  receipt.entries.find? fun entry => entry.id == id

theorem find?_upsert (entries : List ReceiptEntry) (entry : ReceiptEntry) (id : String) :
    ((upsert entries entry).find? fun other => other.id == id)
      = if entry.id = id then some entry else entries.find? fun other => other.id == id := by
  induction entries with
  | nil =>
      by_cases same : entry.id = id <;> simp [upsert, same]
  | cons first rest ih =>
      rw [upsert]
      by_cases replaced : first.id = entry.id
      · rw [if_pos replaced]
        by_cases same : entry.id = id
        · simp [same]
        · have other : first.id ≠ id := fun equal => same (replaced.symm.trans equal)
          simp [same, other]
      · rw [if_neg replaced]
        by_cases here : first.id = id
        · have other : entry.id ≠ id := fun equal => replaced (here.trans equal.symm)
          simp [here, other]
        · simp [here, ih]

/-- The last of some entries with an id. -/
def lastEntry (entries : List ReceiptEntry) (id : String) : Option ReceiptEntry :=
  entries.reverse.find? fun entry => entry.id == id

/-- Of the entries that are put in one after the other the last one of an id counts. -/
theorem find?_foldl_upsert (entries base : List ReceiptEntry) (id : String) :
    ((entries.foldl upsert base).find? fun other => other.id == id)
      = (lastEntry entries id).or (base.find? fun other => other.id == id) := by
  induction entries generalizing base with
  | nil => rfl
  | cons entry rest ih =>
      rw [List.foldl_cons, ih, find?_upsert, lastEntry, lastEntry, List.reverse_cons,
        List.find?_append, Option.or_assoc]
      congr 1
      by_cases same : entry.id = id <;> simp [same]

/-- What is found among the recorded entries is found in the receipt. -/
theorem Receipt.lookup_record {dataDir : PathBuf} {stamp : Stamp} {loaded : Option Receipt}
    {entries : List ReceiptEntry} {id : String} {entry : ReceiptEntry}
    (found : (lastEntry entries id).or (loaded.bind fun receipt => receipt.lookup id)
      = some entry) :
    (Receipt.record dataDir stamp loaded entries).lookup id = some entry := by
  have recorded : ((entries.foldl upsert
      (loaded.getD
        ⟨Defender.receiptVersion, stamp.appVersion, stamp.now, stamp.now, []⟩).entries).find?
        fun other => other.id == id) = some entry := by
    rw [find?_foldl_upsert, ← found]
    cases loaded <;> rfl
  unfold Receipt.record Receipt.lookup
  dsimp only
  split
  · exact recorded
  · rw [List.find?_append, recorded]
    rfl

/-- The other entries are left when one is removed. -/
theorem Receipt.lookup_remove {stamp : Stamp} {loaded : Option Receipt} {removed id : String}
    {receipt : Receipt} (written : Receipt.remove stamp loaded removed = some receipt)
    (other : id ≠ removed) :
    receipt.lookup id = loaded.bind fun receipt => receipt.lookup id := by
  cases loaded with
  | none => cases written
  | some before =>
      simp only [Receipt.remove, Option.bind_some] at written
      split at written
      · cases written
      · cases written
        simp only [Receipt.lookup, Option.bind_some, List.find?_filter]
        congr 1
        funext entry
        by_cases same : entry.id = id
        · simp [same, other]
        · simp [same]

end ClotoCore.Defender
