import ClotoCore.Audit.Chain
import ClotoCore.Transition.Run
import Mathlib.Data.List.Count

/-!
# Concurrent audit writers

Any number of writers append to `audit_logs`.  An attempt takes the write lock
with `BEGIN IMMEDIATE`, reads the newest chain hash, inserts a row linked to it
and commits; it can fail at every statement, and a spawned write is tried up to
three times.  The insert fires the retention trigger, which deletes the rows
older than its cutoff in the same transaction.

A step is one statement of one writer, so every interleaving that the lock
admits is a run.
-/

namespace ClotoCore.Audit

open ClotoCore.Encoding ClotoCore.Transition

/-- `AUDIT_MAX_RETRIES`. -/
def auditMaxRetries : Nat :=
  3

/-- The two ways a write is made: `spawn_audit_log` retries, a direct call of
`write_audit_log` does not. -/
inductive Caller where
  | spawned
  | direct
  deriving DecidableEq

/-- How many attempts a caller makes. -/
def Caller.attempts : Caller → Nat
  | .spawned => auditMaxRetries
  | .direct => 1

/-- A write in the hands of its caller: what is left to try and, once known,
whether it was reported as successful. -/
structure Write where
  entry : AuditLogEntry
  attemptsLeft : Nat
  reported : Option Bool
  deriving DecidableEq

/-- A committed row with the row it was linked to, the write it belongs to, and
whether the writer saw its commit succeed. -/
structure Link where
  writer : Nat
  prior : Option AuditRow
  row : AuditRow
  acknowledged : Bool
  deriving DecidableEq

/-- How far the open transaction has come. -/
inductive Phase where
  | begun
  | selected (newestRow : Option AuditRow)
  | inserted (link : Link) (table : List AuditRow) (cutoff : String)
  deriving DecidableEq

/-- The transaction that holds the write lock. -/
structure Transaction where
  writer : Nat
  phase : Phase
  deriving DecidableEq

/-- The committed database: the rows by ascending id and the next row id.
`links` and `cutoffs` record what the committed transactions did; no step reads
them. -/
structure Database where
  table : List AuditRow
  nextId : Nat
  links : List Link
  cutoffs : List String
  deriving DecidableEq

/-- The database and its writers. -/
structure State where
  db : Database
  writes : List Write
  tx : Option Transaction
  deriving DecidableEq

/-- One statement of one writer. -/
inductive Label where
  | submit (caller : Caller) (entry : AuditLogEntry)
  | beginImmediate (writer : Nat)
  | beginFails (writer : Nat)
  | select (writer : Nat)
  | insert (writer : Nat) (cutoff : String)
  | commit (writer : Nat)
  | commitUnacknowledged (writer : Nat)
  | rollback (writer : Nat)

/-- `ORDER BY id DESC LIMIT 1`. -/
def newest : List AuditRow → Option AuditRow
  | [] => none
  | row :: rest =>
      match newest rest with
      | none => some row
      | some other => if other.id < row.id then some row else some other

/-- The `audit_log_cleanup` trigger: rows whose timestamp text is below the
cutoff are deleted. -/
def cleanup (cutoff : String) (rows : List AuditRow) : List AuditRow :=
  rows.filter fun row => ¬ row.timestamp < cutoff

/-- The row that an attempt inserts behind the row it read. -/
def insertedRow (sha256 : Digest) (entry : AuditLogEntry) (newestRow : Option AuditRow)
    (id : Nat) : AuditRow where
  toAuditLogEntry := entry
  id := id
  chainHash := some <| computeChainHash sha256 (newestRow.bind AuditRow.chainHash)
    (canonicalData entry.timestamp entry)

/-- A failed attempt uses up one try; after the last one the write is reported
as lost. -/
def Write.fail (write : Write) : Write where
  entry := write.entry
  attemptsLeft := write.attemptsLeft - 1
  reported := if write.attemptsLeft ≤ 1 then some false else none

/-- An acknowledged commit is reported as success. -/
def Write.succeed (write : Write) : Write :=
  { write with reported := some true }

/-- Give the lock back after an attempt of `writer` that is reported as failed. -/
def State.failed (state : State) (writer : Nat) : State :=
  { state with tx := none, writes := state.writes.modify writer Write.fail }

/-- Make the open transaction's table the table. -/
def Database.committed (db : Database) (link : Link) (table : List AuditRow)
    (cutoff : String) : Database where
  table := table
  nextId := link.row.id + 1
  links := db.links ++ [link]
  cutoffs := db.cutoffs ++ [cutoff]

/-- The phase of the transaction, when it is `writer`'s. -/
def State.phaseOf (state : State) (writer : Nat) : Option Phase :=
  match state.tx with
  | none => none
  | some tx => if tx.writer = writer then some tx.phase else none

/-- The write that `writer` still has to finish. -/
def State.pending (state : State) (writer : Nat) : Option Write :=
  state.writes[writer]?.filter fun write => write.reported = none

/-- `write_audit_log_inner`, one statement at a time, for every writer. -/
def step (sha256 : Digest) : Action State Label
  | state, .submit caller entry =>
      some { state with writes := state.writes ++ [⟨entry, caller.attempts, none⟩] }
  | state, .beginImmediate writer =>
      match state.tx, state.pending writer with
      | none, some _ => some { state with tx := some ⟨writer, .begun⟩ }
      | _, _ => none
  | state, .beginFails writer =>
      match state.phaseOf writer, state.pending writer with
      | none, some _ => some { state with writes := state.writes.modify writer Write.fail }
      | _, _ => none
  | state, .select writer =>
      match state.phaseOf writer with
      | some .begun => some { state with tx := some ⟨writer, .selected (newest state.db.table)⟩ }
      | _ => none
  | state, .insert writer cutoff =>
      match state.phaseOf writer, state.pending writer with
      | some (.selected newestRow), some write =>
          let row := insertedRow sha256 write.entry newestRow state.db.nextId
          let table := cleanup cutoff (state.db.table ++ [row])
          some { state with
            tx := some ⟨writer, .inserted ⟨writer, newestRow, row, true⟩ table cutoff⟩ }
      | _, _ => none
  | state, .commit writer =>
      match state.phaseOf writer with
      | some (.inserted link table cutoff) =>
          some
            { db := state.db.committed link table cutoff
              writes := state.writes.modify writer Write.succeed
              tx := none }
      | _ => none
  | state, .commitUnacknowledged writer =>
      -- The time limit runs out while the commit is under way: the rows stay.
      match state.phaseOf writer with
      | some (.inserted link table cutoff) =>
          let lost := { link with acknowledged := false }
          some ({ state with db := state.db.committed lost table cutoff }.failed writer)
      | _ => none
  | state, .rollback writer =>
      match state.phaseOf writer with
      | some _ => some (state.failed writer)
      | none => none

end ClotoCore.Audit
