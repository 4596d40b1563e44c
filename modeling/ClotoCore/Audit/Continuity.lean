import ClotoCore.Audit.Writers
import Mathlib.Order.Nat

/-!
# Continuity of the audit chain

The write lock makes every committed transaction read the newest row and insert
behind it with nothing in between.  Retention is the one thing that removes
rows, so a row's predecessor is the row before it in the table unless retention
has deleted that row.
-/

namespace ClotoCore.Audit

open ClotoCore.Encoding ClotoCore.Transition

variable {sha256 : Digest}

/-! ## The newest row -/

theorem newest_eq_none_iff {rows : List AuditRow} : newest rows = none ↔ rows = [] := by
  cases rows with
  | nil => simp [newest]
  | cons row rest =>
      simp only [newest]
      split
      · simp
      · split <;> simp

theorem newest_spec {rows : List AuditRow} {best : AuditRow} (found : newest rows = some best) :
    best ∈ rows ∧ ∀ row ∈ rows, row.id ≤ best.id := by
  induction rows generalizing best with
  | nil => simp [newest] at found
  | cons row rest ih =>
      simp only [newest] at found
      split at found
      · rename_i restNone
        obtain rfl : row = best := by simpa using found
        simp [newest_eq_none_iff.mp restNone]
      · rename_i other restSome
        obtain ⟨mem, greatest⟩ := ih restSome
        split at found
        · rename_i below
          obtain rfl : row = best := by simpa using found
          refine ⟨List.mem_cons_self, ?_⟩
          intro candidate candidateMem
          rcases List.mem_cons.mp candidateMem with rfl | candidateMem
          · exact le_rfl
          · exact le_trans (greatest candidate candidateMem) below.le
        · rename_i above
          obtain rfl : other = best := by simpa using found
          refine ⟨List.mem_cons_of_mem _ mem, ?_⟩
          intro candidate candidateMem
          rcases List.mem_cons.mp candidateMem with rfl | candidateMem
          · exact not_lt.mp above
          · exact greatest candidate candidateMem

/-- Rows by strictly ascending id. -/
abbrev Ascending (rows : List AuditRow) : Prop :=
  rows.Pairwise fun first second => first.id < second.id

/-- In a list with strictly ascending keys, a key determines its member. -/
theorem eq_of_key_eq {α : Type} {key : α → Nat} {items : List α}
    (ascending : items.Pairwise fun first second => key first < key second) {first second : α}
    (firstMem : first ∈ items) (secondMem : second ∈ items) (keyEq : key first = key second) :
    first = second := by
  induction items with
  | nil => simp at firstMem
  | cons item rest ih =>
      obtain ⟨headBelow, restAscending⟩ := List.pairwise_cons.mp ascending
      rcases List.mem_cons.mp firstMem with rfl | firstMem
      · rcases List.mem_cons.mp secondMem with rfl | secondMem
        · rfl
        · exact absurd keyEq (headBelow second secondMem).ne
      · rcases List.mem_cons.mp secondMem with secondEq | secondMem
        · rw [secondEq] at keyEq
          exact absurd keyEq.symm (headBelow first firstMem).ne
        · exact ih restAscending firstMem secondMem

theorem Ascending.nodup {rows : List AuditRow} (ascending : Ascending rows) : rows.Nodup :=
  ascending.imp fun below same => by simp [same] at below

/-- Ascending rows are determined by their members. -/
theorem Ascending.ext {first second : List AuditRow} (firstAscending : Ascending first)
    (secondAscending : Ascending second) (members : ∀ row, row ∈ first ↔ row ∈ second) :
    first = second := by
  have perm : first.Perm second :=
    (List.perm_ext_iff_of_nodup firstAscending.nodup secondAscending.nodup).mpr members
  refine perm.eq_of_pairwise ?_ firstAscending secondAscending
  intro left right _ _ below above
  exact absurd below above.asymm

/-- In ascending rows the newest one is the member of greatest id. -/
theorem newest_eq_some {rows : List AuditRow} (ascending : Ascending rows) {best : AuditRow}
    (mem : best ∈ rows) (greatest : ∀ row ∈ rows, row.id ≤ best.id) :
    newest rows = some best := by
  cases found : newest rows with
  | none => simp [newest_eq_none_iff.mp found] at mem
  | some other =>
      obtain ⟨otherMem, otherGreatest⟩ := newest_spec found
      have idEq : other.id = best.id :=
        le_antisymm (greatest other otherMem) (otherGreatest best mem)
      rw [eq_of_key_eq ascending otherMem mem idEq]

/-- The row before `row` in the table. -/
def preceding (rows : List AuditRow) (row : AuditRow) : Option AuditRow :=
  newest (rows.filter fun other => other.id < row.id)

/-! ## What one transaction does -/

/-- A transaction on `db` that has read the newest row and inserted behind it. -/
structure Insertion (sha256 : Digest) (db : Database) (link : Link) (table : List AuditRow)
    (cutoff : String) : Prop where
  prior : link.prior = newest db.table
  id : link.row.id = db.nextId
  hash : link.row.chainHash =
    some (link.row.link sha256 (link.prior.bind AuditRow.chainHash))
  table : table = cleanup cutoff (db.table ++ [link.row])

/-- The rows of a database from before chain hashes were introduced. -/
structure Legacy where
  rows : List AuditRow
  ascending : Ascending rows
  unhashed : ∀ row ∈ rows, row.chainHash = none

/-- A row that was in the database at some time. -/
def Database.Stored (legacy : Legacy) (db : Database) (row : AuditRow) : Prop :=
  row ∈ legacy.rows ∨ ∃ link ∈ db.links, link.row = row

/-- The row is below the cutoff of a committed retention. -/
def Database.Expired (db : Database) (row : AuditRow) : Prop :=
  ∃ cutoff ∈ db.cutoffs, row.timestamp < cutoff

/-- The committed database, as the transactions leave it. -/
structure Continuous (sha256 : Digest) (legacy : Legacy) (db : Database) : Prop where
  ascending : Ascending db.table
  bounded : ∀ row, db.Stored legacy row → row.id < db.nextId
  stored : ∀ row ∈ db.table, db.Stored legacy row
  retained : ∀ row, db.Stored legacy row → row ∈ db.table ∨ db.Expired row
  increasing : db.links.Pairwise fun first second => first.row.id < second.row.id
  hashed : ∀ link ∈ db.links,
    link.row.chainHash = some (link.row.link sha256 (link.prior.bind AuditRow.chainHash))
  behind : ∀ link ∈ db.links, ∀ prior, link.prior = some prior →
    prior.id < link.row.id ∧ db.Stored legacy prior
  between : ∀ link ∈ db.links, ∀ row ∈ db.table, row.id < link.row.id →
    ∃ prior, link.prior = some prior ∧ row.id ≤ prior.id
  linked : (∀ link ∈ db.links, ¬ db.Expired link.row) →
    Linked sha256 none (db.links.map Link.row) ∧
      chainTip none (db.links.map Link.row) = (newest db.table).bind AuditRow.chainHash

theorem mem_cleanup {cutoff : String} {rows : List AuditRow} {row : AuditRow} :
    row ∈ cleanup cutoff rows ↔ row ∈ rows ∧ ¬ row.timestamp < cutoff := by
  simp [cleanup]

section Commit

variable {legacy : Legacy} {db : Database} {link : Link} {table : List AuditRow}
  {cutoff : String}

theorem stored_committed {row : AuditRow} :
    (db.committed link table cutoff).Stored legacy row ↔
      db.Stored legacy row ∨ row = link.row := by
  simp only [Database.Stored, Database.committed, List.mem_append, List.mem_singleton]
  constructor
  · rintro (old | ⟨other, mem | rfl, rfl⟩)
    · exact .inl (.inl old)
    · exact .inl (.inr ⟨other, mem, rfl⟩)
    · exact .inr rfl
  · rintro ((old | ⟨other, mem, rfl⟩) | rfl)
    · exact .inl old
    · exact .inr ⟨other, .inl mem, rfl⟩
    · exact .inr ⟨link, .inr rfl, rfl⟩

theorem expired_committed {row : AuditRow} :
    (db.committed link table cutoff).Expired row ↔ db.Expired row ∨ row.timestamp < cutoff := by
  simp only [Database.Expired, Database.committed, List.mem_append, List.mem_singleton]
  constructor
  · rintro ⟨other, mem | rfl, below⟩
    · exact .inl ⟨other, mem, below⟩
    · exact .inr below
  · rintro (⟨other, mem, below⟩ | below)
    · exact ⟨other, .inl mem, below⟩
    · exact ⟨cutoff, .inr rfl, below⟩

/-- The rows of an open insertion are ascending. -/
theorem Continuous.ascending_inserted (holds : Continuous sha256 legacy db)
    (insertion : Insertion sha256 db link table cutoff) : Ascending (db.table ++ [link.row]) := by
  rw [Ascending, List.pairwise_append]
  refine ⟨holds.ascending, List.pairwise_singleton _ _, ?_⟩
  intro row mem inserted insertedMem
  obtain rfl := List.mem_singleton.mp insertedMem
  rw [insertion.id]
  exact holds.bounded row (holds.stored row mem)

theorem Continuous.row_id_lt (holds : Continuous sha256 legacy db)
    (insertion : Insertion sha256 db link table cutoff) {row : AuditRow}
    (stored : db.Stored legacy row) : row.id < link.row.id := by
  rw [insertion.id]
  exact holds.bounded row stored

/-- A committed insertion keeps the database continuous. -/
theorem Continuous.committed (holds : Continuous sha256 legacy db)
    (insertion : Insertion sha256 db link table cutoff) :
    Continuous sha256 legacy (db.committed link table cutoff) := by
  have tableMem : ∀ row, row ∈ table ↔
      (row ∈ db.table ∨ row = link.row) ∧ ¬ row.timestamp < cutoff := by
    intro row
    rw [insertion.table, mem_cleanup, List.mem_append, List.mem_singleton]
  have ascending : Ascending table := by
    rw [insertion.table]
    exact (holds.ascending_inserted insertion).filter _
  constructor
  case ascending => exact ascending
  case bounded =>
    intro row stored
    show row.id < link.row.id + 1
    rcases stored_committed.mp stored with stored | rfl
    · exact Nat.lt_succ_of_lt (holds.row_id_lt insertion stored)
    · exact Nat.lt_succ_self _
  case stored =>
    intro row mem
    rw [stored_committed]
    rcases ((tableMem row).mp mem).1 with mem | rfl
    · exact .inl (holds.stored row mem)
    · exact .inr rfl
  case retained =>
    intro row stored
    rw [expired_committed]
    show row ∈ table ∨ _
    rw [tableMem]
    rcases stored_committed.mp stored with stored | rfl
    · rcases holds.retained row stored with mem | expired
      · by_cases below : row.timestamp < cutoff
        · exact .inr (.inr below)
        · exact .inl ⟨.inl mem, below⟩
      · exact .inr (.inl expired)
    · by_cases below : link.row.timestamp < cutoff
      · exact .inr (.inr below)
      · exact .inl ⟨.inr rfl, below⟩
  case increasing =>
    show (db.links ++ [link]).Pairwise _
    rw [List.pairwise_append]
    refine ⟨holds.increasing, List.pairwise_singleton _ _, ?_⟩
    intro old mem new newMem
    obtain rfl := List.mem_singleton.mp newMem
    exact holds.row_id_lt insertion (.inr ⟨old, mem, rfl⟩)
  case hashed =>
    intro other mem
    rcases List.mem_append.mp mem with mem | mem
    · exact holds.hashed other mem
    · obtain rfl := List.mem_singleton.mp mem
      exact insertion.hash
  case behind =>
    intro other mem prior priorEq
    rw [stored_committed]
    rcases List.mem_append.mp mem with mem | mem
    · obtain ⟨below, stored⟩ := holds.behind other mem prior priorEq
      exact ⟨below, .inl stored⟩
    · obtain rfl := List.mem_singleton.mp mem
      have stored := holds.stored prior (newest_spec (insertion.prior ▸ priorEq)).1
      exact ⟨holds.row_id_lt insertion stored, .inl stored⟩
  case between =>
    intro other mem row rowMem below
    rcases List.mem_append.mp mem with mem | mem
    · rcases ((tableMem row).mp rowMem).1 with rowMem | rfl
      · exact holds.between other mem row rowMem below
      · exact absurd below (holds.row_id_lt insertion (.inr ⟨other, mem, rfl⟩)).asymm
    · obtain rfl := List.mem_singleton.mp mem
      rcases ((tableMem row).mp rowMem).1 with rowMem | rfl
      · rw [insertion.prior]
        cases found : newest db.table with
        | none => simp [newest_eq_none_iff.mp found] at rowMem
        | some prior => exact ⟨prior, rfl, (newest_spec found).2 row rowMem⟩
      · exact absurd below (lt_irrefl _)
  case linked =>
    intro unexpired
    have rowUnexpired := unexpired link (List.mem_append_right _ List.mem_cons_self)
    rw [expired_committed, not_or] at rowUnexpired
    obtain ⟨linked, tip⟩ := holds.linked fun other mem expired =>
      unexpired other (List.mem_append_left _ mem) (expired_committed.mpr (.inl expired))
    show Linked sha256 none ((db.links ++ [link]).map Link.row) ∧
      chainTip none ((db.links ++ [link]).map Link.row) = (newest table).bind AuditRow.chainHash
    rw [List.map_append, List.map_singleton, linked_append, chainTip_append, tip,
      ← insertion.prior]
    refine ⟨⟨linked, insertion.hash⟩, ?_⟩
    have newestEq : newest table = some link.row := by
      apply newest_eq_some ascending ((tableMem _).mpr ⟨.inr rfl, rowUnexpired.2⟩)
      intro row mem
      rcases ((tableMem row).mp mem).1 with mem | rfl
      · exact (holds.row_id_lt insertion (holds.stored row mem)).le
      · exact le_rfl
    rw [newestEq]
    rfl

end Commit

/-! ## Writes and their links -/

theorem pending_eq_some_iff {state : State} {writer : Nat} {write : Write} :
    state.pending writer = some write ↔
      state.writes[writer]? = some write ∧ write.reported = none := by
  simp [State.pending, Option.filter_eq_some_iff]

theorem phaseOf_eq_some_iff {state : State} {writer : Nat} {phase : Phase} :
    state.phaseOf writer = some phase ↔ state.tx = some ⟨writer, phase⟩ := by
  simp only [State.phaseOf]
  split
  · rename_i txNone
    simp [txNone]
  · rename_i tx txSome
    rcases tx with ⟨holder, held⟩
    by_cases same : holder = writer
    · simp [txSome, same]
    · simp [txSome, same]

@[simp]
theorem Write.fail_entry (write : Write) : write.fail.entry = write.entry :=
  rfl

@[simp]
theorem Write.succeed_entry (write : Write) : write.succeed.entry = write.entry :=
  rfl

theorem Write.fail_reported_ne (write : Write) : write.fail.reported ≠ some true := by
  simp only [Write.fail]
  split <;> simp

/-- The links that `writer` saw committed. -/
def Database.linksOf (db : Database) (writer : Nat) : List Link :=
  db.links.filter fun link => link.writer = writer ∧ link.acknowledged = true

/-- Every link belongs to a write and carries its entry; a write has one
acknowledged link when it was reported as successful, and none otherwise. -/
structure Accounted (state : State) : Prop where
  owner : ∀ link ∈ state.db.links, ∃ write,
    state.writes[link.writer]? = some write ∧ link.row.toAuditLogEntry = write.entry
  count : ∀ writer write, state.writes[writer]? = some write →
    (state.db.linksOf writer).length = if write.reported = some true then 1 else 0

theorem getElem?_snoc_eq_some_iff {α : Type} {items : List α} {last item : α} {index : Nat} :
    (items ++ [last])[index]? = some item ↔
      items[index]? = some item ∨ index = items.length ∧ last = item := by
  rw [List.getElem?_append]
  split
  · rename_i inside
    simp [inside.ne]
  · rename_i outside
    rw [List.getElem?_singleton, List.getElem?_eq_none (Nat.le_of_not_lt outside)]
    by_cases at_end : index = items.length
    · simp [at_end]
    · have beyond : index - items.length ≠ 0 := by omega
      simp [at_end, beyond]

theorem Accounted.submit {state : State} (holds : Accounted state) {write : Write}
    (unreported : write.reported = none) :
    Accounted { state with writes := state.writes ++ [write] } := by
  constructor
  case owner =>
    intro link mem
    obtain ⟨owner, found, entryEq⟩ := holds.owner link mem
    exact ⟨owner, getElem?_snoc_eq_some_iff.mpr (.inl found), entryEq⟩
  case count =>
    intro writer other found
    rcases getElem?_snoc_eq_some_iff.mp found with found | ⟨rfl, rfl⟩
    · exact holds.count writer other found
    · -- No link belongs to a write that was not there before.
      have noLinks : state.db.linksOf state.writes.length = [] := by
        rw [Database.linksOf, List.filter_eq_nil_iff]
        intro link mem own
        obtain ⟨owner, found, _⟩ := holds.owner link mem
        have inside := (List.getElem?_eq_some_iff.mp found).1
        have sameWriter : link.writer = state.writes.length := (of_decide_eq_true own).1
        exact absurd sameWriter inside.ne
      show (state.db.linksOf state.writes.length).length = _
      rw [noLinks, unreported]
      simp

/-- Changing the bookkeeping of an unreported write, with `new` as its links. -/
theorem Accounted.modify {state : State} (holds : Accounted state) {writer : Nat} {write : Write}
    (pending : state.pending writer = some write) {change : Write → Write}
    (entryEq : (change write).entry = write.entry) {db : Database} {new : List Link}
    (linksEq : db.links = state.db.links ++ new)
    (owned : ∀ link ∈ new, link.writer = writer ∧ link.row.toAuditLogEntry = write.entry)
    (counted : (new.filter fun link => link.acknowledged).length =
      if (change write).reported = some true then 1 else 0) (tx : Option Transaction) :
    Accounted { db := db, writes := state.writes.modify writer change, tx := tx } := by
  obtain ⟨found, unreported⟩ := pending_eq_some_iff.mp pending
  have newWrite : (state.writes.modify writer change)[writer]? = some (change write) := by
    rw [List.getElem?_modify_eq, found]
    rfl
  constructor
  case owner =>
    intro link mem
    rw [linksEq] at mem
    rcases List.mem_append.mp mem with mem | mem
    · obtain ⟨owner, ownerFound, ownerEntry⟩ := holds.owner link mem
      by_cases same : writer = link.writer
      · subst same
        obtain rfl : write = owner := Option.some.inj (found.symm.trans ownerFound)
        exact ⟨change write, newWrite, ownerEntry.trans entryEq.symm⟩
      · exact ⟨owner, by rw [List.getElem?_modify_ne _ _ same, ownerFound], ownerEntry⟩
    · obtain ⟨rfl, rowEntry⟩ := owned link mem
      exact ⟨change write, newWrite, rowEntry.trans entryEq.symm⟩
  case count =>
    intro other otherWrite otherFound
    show (db.linksOf other).length = _
    have split : db.linksOf other = state.db.linksOf other ++
        new.filter fun link => link.writer = other ∧ link.acknowledged = true := by
      rw [Database.linksOf, linksEq, List.filter_append]
      rfl
    rw [split, List.length_append]
    by_cases same : writer = other
    · subst same
      obtain rfl : change write = otherWrite := Option.some.inj (newWrite.symm.trans otherFound)
      have none := holds.count writer write found
      rw [unreported] at none
      rw [none, ← counted]
      have own : (new.filter fun link => link.writer = writer ∧ link.acknowledged = true) =
          new.filter fun link => link.acknowledged := by
        apply List.filter_congr
        intro link mem
        simp [(owned link mem).1]
      rw [own]
      simp
    · have foreign : (new.filter fun link => link.writer = other ∧ link.acknowledged = true) =
          [] := by
        rw [List.filter_eq_nil_iff]
        intro link mem own
        exact same ((owned link mem).1.symm.trans (of_decide_eq_true own).1)
      rw [List.getElem?_modify_ne _ _ same] at otherFound
      rw [foreign, holds.count other otherWrite otherFound]
      rfl

/-! ## Runs -/

/-- What the open transaction has done, phase by phase. -/
def PhaseHolds (sha256 : Digest) (state : State) (writer : Nat) (write : Write) :
    Phase → Prop
  | .begun => True
  | .selected newestRow => newestRow = newest state.db.table
  | .inserted link table cutoff =>
      Insertion sha256 state.db link table cutoff ∧ link.writer = writer ∧
        link.acknowledged = true ∧ link.row.toAuditLogEntry = write.entry

/-- The invariant of every run. -/
structure WritersInv (sha256 : Digest) (legacy : Legacy) (state : State) : Prop where
  continuous : Continuous sha256 legacy state.db
  accounted : Accounted state
  holder : ∀ writer phase, state.tx = some ⟨writer, phase⟩ →
    ∃ write, state.pending writer = some write ∧ PhaseHolds sha256 state writer write phase

/-- A database with rows from before chain hashes were introduced, and no writer
yet. -/
def Legacy.initial (legacy : Legacy) (nextId : Nat) : State where
  db := { table := legacy.rows, nextId := nextId, links := [], cutoffs := [] }
  writes := []
  tx := none

theorem newest_legacy_chainHash (legacy : Legacy) :
    (newest legacy.rows).bind AuditRow.chainHash = none := by
  cases found : newest legacy.rows with
  | none => rfl
  | some row => exact legacy.unhashed row (newest_spec found).1

theorem writersInv_initial {legacy : Legacy} {nextId : Nat}
    (fresh : ∀ row ∈ legacy.rows, row.id < nextId) :
    WritersInv sha256 legacy (legacy.initial nextId) := by
  have onlyLegacy : ∀ row, (legacy.initial nextId).db.Stored legacy row → row ∈ legacy.rows := by
    rintro row (mem | ⟨link, mem, _⟩)
    · exact mem
    · simp [Legacy.initial] at mem
  constructor
  case continuous =>
    constructor
    case ascending => exact legacy.ascending
    case bounded => exact fun row stored => fresh row (onlyLegacy row stored)
    case stored => exact fun row mem => .inl mem
    case retained => exact fun row stored => .inl (onlyLegacy row stored)
    case linked => exact fun _ => ⟨trivial, (newest_legacy_chainHash legacy).symm⟩
    all_goals simp [Legacy.initial]
  case accounted => constructor <;> simp [Legacy.initial]
  case holder => simp [Legacy.initial]

section Steps

variable {legacy : Legacy} {state next : State} {writer : Nat}

/-- An attempt that does not change the committed database: its write fails. -/
theorem WritersInv.attemptFails (holds : WritersInv sha256 legacy state) {write : Write}
    (pending : state.pending writer = some write) (tx : Option Transaction)
    (others : ∀ holder phase, tx = some ⟨holder, phase⟩ →
      state.tx = some ⟨holder, phase⟩ ∧ holder ≠ writer) :
    WritersInv sha256 legacy
      { state with writes := state.writes.modify writer Write.fail, tx := tx } where
  continuous := holds.continuous
  accounted := holds.accounted.modify pending rfl (List.append_nil _).symm (by simp)
    (by simp [write.fail_reported_ne]) tx
  holder := by
    intro holder phase txEq
    obtain ⟨held, different⟩ := others holder phase txEq
    obtain ⟨other, otherPending, phaseHolds⟩ := holds.holder holder phase held
    obtain ⟨found, unreported⟩ := pending_eq_some_iff.mp otherPending
    refine ⟨other, pending_eq_some_iff.mpr ⟨?_, unreported⟩, phaseHolds⟩
    exact (List.getElem?_modify_ne _ _ different.symm).trans found

/-- An attempt that commits its insertion, acknowledged or not. -/
theorem WritersInv.commits (holds : WritersInv sha256 legacy state) {link : Link}
    {table : List AuditRow} {cutoff : String}
    (held : state.tx = some ⟨writer, .inserted link table cutoff⟩) {change : Write → Write}
    (entryEq : ∀ write, (change write).entry = write.entry) (acknowledged : Bool)
    (counted : ∀ write, (change write).reported = some true ↔ acknowledged = true) :
    WritersInv sha256 legacy
      { db := state.db.committed { link with acknowledged := acknowledged } table cutoff
        writes := state.writes.modify writer change
        tx := none } := by
  obtain ⟨write, pending, insertion, linkWriter, _, rowEntry⟩ := holds.holder _ _ held
  constructor
  case continuous =>
    exact holds.continuous.committed
      ⟨insertion.prior, insertion.id, insertion.hash, insertion.table⟩
  case accounted =>
    refine holds.accounted.modify pending (entryEq write) rfl ?_ ?_ none
    · intro other mem
      obtain rfl := List.mem_singleton.mp mem
      exact ⟨linkWriter, rowEntry⟩
    · cases acknowledged <;> simp [counted]
  case holder => simp

/-- The transaction goes on to its next phase. -/
theorem WritersInv.advance (holds : WritersInv sha256 legacy state) {write : Write}
    (pending : state.pending writer = some write) {phase : Phase}
    (phaseHolds : PhaseHolds sha256 state writer write phase) :
    WritersInv sha256 legacy { state with tx := some ⟨writer, phase⟩ } where
  continuous := holds.continuous
  accounted := ⟨holds.accounted.owner, holds.accounted.count⟩
  holder := by
    intro other otherPhase txEq
    obtain ⟨rfl, rfl⟩ := Transaction.mk.inj (Option.some.inj txEq)
    exact ⟨write, pending, phaseHolds⟩

theorem WritersInv.submit (holds : WritersInv sha256 legacy state) (caller : Caller)
    (entry : AuditLogEntry) :
    WritersInv sha256 legacy
      { state with writes := state.writes ++ [⟨entry, caller.attempts, none⟩] } where
  continuous := holds.continuous
  accounted := holds.accounted.submit rfl
  holder := by
    intro holder phase held
    obtain ⟨write, pending, phaseHolds⟩ := holds.holder holder phase held
    obtain ⟨found, unreported⟩ := pending_eq_some_iff.mp pending
    exact ⟨write, pending_eq_some_iff.mpr
      ⟨getElem?_snoc_eq_some_iff.mpr (.inl found), unreported⟩, phaseHolds⟩

theorem WritersInv.step (holds : WritersInv sha256 legacy state) {label : Label}
    (stepEq : step sha256 state label = some next) : WritersInv sha256 legacy next := by
  cases label with
  | submit caller entry =>
      cases stepEq
      exact holds.submit caller entry
  | beginImmediate writer =>
      simp only [Audit.step] at stepEq
      split at stepEq
      · rename_i pending
        cases stepEq
        exact holds.advance pending trivial
      · simp at stepEq
  | beginFails writer =>
      simp only [Audit.step] at stepEq
      split at stepEq
      · rename_i notHolding pending
        cases stepEq
        refine holds.attemptFails pending state.tx ?_
        rintro holder phase held
        refine ⟨held, ?_⟩
        rintro rfl
        simp [phaseOf_eq_some_iff.mpr held] at notHolding
      · simp at stepEq
  | select writer =>
      simp only [Audit.step] at stepEq
      split at stepEq
      · rename_i phaseEq
        cases stepEq
        obtain ⟨write, pending, _⟩ := holds.holder _ _ (phaseOf_eq_some_iff.mp phaseEq)
        exact holds.advance pending rfl
      · simp at stepEq
  | insert writer cutoff =>
      simp only [Audit.step] at stepEq
      split at stepEq
      · rename_i newestRow write phaseEq pending
        cases stepEq
        obtain ⟨_, _, newestEq⟩ := holds.holder _ _ (phaseOf_eq_some_iff.mp phaseEq)
        exact holds.advance pending ⟨⟨newestEq, rfl, rfl, rfl⟩, rfl, rfl, rfl⟩
      · simp at stepEq
  | commit writer =>
      simp only [Audit.step] at stepEq
      split at stepEq
      · rename_i link table cutoff phaseEq
        cases stepEq
        have held := phaseOf_eq_some_iff.mp phaseEq
        obtain ⟨_, _, _, _, acknowledged, _⟩ := holds.holder _ _ held
        have committed := holds.commits held Write.succeed_entry true (by simp [Write.succeed])
        rwa [← acknowledged] at committed
      · simp at stepEq
  | commitUnacknowledged writer =>
      simp only [Audit.step] at stepEq
      split at stepEq
      · rename_i link table cutoff phaseEq
        cases stepEq
        exact holds.commits (phaseOf_eq_some_iff.mp phaseEq) Write.fail_entry false
          (by simp [Write.fail_reported_ne])
      · simp at stepEq
  | rollback writer =>
      simp only [Audit.step] at stepEq
      split at stepEq
      · rename_i phase phaseEq
        cases stepEq
        obtain ⟨write, pending, _⟩ := holds.holder _ _ (phaseOf_eq_some_iff.mp phaseEq)
        exact holds.attemptFails pending none (by simp)
      · simp at stepEq

end Steps

theorem writersInv_of_run {legacy : Legacy} {nextId : Nat}
    (fresh : ∀ row ∈ legacy.rows, row.id < nextId) {labels : List Label} {state : State}
    (ran : run (step sha256) (legacy.initial nextId) labels = some state) :
    WritersInv sha256 legacy state :=
  run_invariant (WritersInv sha256 legacy) (fun _ _ _ holds stepEq => holds.step stepEq)
    (writersInv_initial fresh) ran

/-! ## What the table says -/

/-- The audit table of a run, read with retention in mind. -/
structure RetainedChain (sha256 : Digest) (legacy : Legacy) (state : State) : Prop where
  /-- A row is linked to the row before it, or to a row that retention deleted. -/
  chained : ∀ row ∈ state.db.table, row ∉ legacy.rows → ∃ link ∈ state.db.links,
    link.row = row ∧
      row.chainHash = some (row.link sha256 (link.prior.bind AuditRow.chainHash)) ∧
      (link.prior = preceding state.db.table row ∨
        ∃ prior, link.prior = some prior ∧ prior ∉ state.db.table ∧ state.db.Expired prior)
  /-- No two rows of the table share a predecessor. -/
  unforked : ∀ first ∈ state.db.links, ∀ second ∈ state.db.links,
    first.row ∈ state.db.table → second.row ∈ state.db.table →
      first.prior = second.prior → first = second
  /-- While retention has deleted no chained row, the chain verifies from its
  genesis row. -/
  linked : (∀ link ∈ state.db.links, ¬ state.db.Expired link.row) →
    Linked sha256 none (state.db.table.filter fun row => row.chainHash.isSome)
  /-- A rolled-back attempt leaves no link. -/
  rolledBack : ∀ writer next, step sha256 state (.rollback writer) = some next →
    next.db = state.db
  /-- A write reported as successful has one acknowledged link, which carries its
  entry and is in the table unless retention deleted it. -/
  reportedOnce : ∀ writer write, state.writes[writer]? = some write →
    write.reported = some true → ∃ link, state.db.linksOf writer = [link] ∧
      link.row.toAuditLogEntry = write.entry ∧
      (link.row ∈ state.db.table ∨ state.db.Expired link.row)
  /-- It has no other link where none of its commits was cut off. -/
  linkedOnce : ∀ writer write, state.writes[writer]? = some write →
    write.reported = some true →
    (∀ link ∈ state.db.links, link.writer = writer → link.acknowledged = true) →
      ∃ link, (state.db.links.filter fun link => link.writer = writer) = [link]

section Consequences

variable {legacy : Legacy} {db : Database}

theorem Continuous.prior_eq (holds : Continuous sha256 legacy db) {link : Link}
    (mem : link ∈ db.links) :
    link.prior = preceding db.table link.row ∨
      ∃ prior, link.prior = some prior ∧ prior ∉ db.table ∧ db.Expired prior := by
  cases priorEq : link.prior with
  | none =>
      left
      symm
      rw [preceding, newest_eq_none_iff, List.filter_eq_nil_iff]
      intro row rowMem below
      obtain ⟨prior, priorSome, _⟩ := holds.between link mem row rowMem (by simpa using below)
      rw [priorEq] at priorSome
      cases priorSome
  | some prior =>
      obtain ⟨below, stored⟩ := holds.behind link mem prior priorEq
      by_cases inTable : prior ∈ db.table
      · left
        symm
        apply newest_eq_some (holds.ascending.filter _)
        · exact List.mem_filter.mpr ⟨inTable, by simpa using below⟩
        · intro row rowMem
          obtain ⟨rowMem, rowBelow⟩ := List.mem_filter.mp rowMem
          obtain ⟨other, otherEq, le⟩ :=
            holds.between link mem row rowMem (by simpa using rowBelow)
          obtain rfl : prior = other := Option.some.inj (priorEq.symm.trans otherEq)
          exact le
      · right
        refine ⟨prior, rfl, inTable, ?_⟩
        rcases holds.retained prior stored with kept | expired
        · exact absurd kept inTable
        · exact expired

/-- Of two rows in the table, the later one's predecessor is not below the
earlier one. -/
theorem Continuous.prior_ne (holds : Continuous sha256 legacy db) {first second : Link}
    (firstMem : first ∈ db.links) (secondMem : second ∈ db.links)
    (inTable : first.row ∈ db.table) (below : first.row.id < second.row.id) :
    first.prior ≠ second.prior := by
  intro same
  obtain ⟨prior, priorEq, le⟩ := holds.between second secondMem first.row inTable below
  have lt := (holds.behind first firstMem prior (same.trans priorEq)).1
  omega

theorem Continuous.unforked (holds : Continuous sha256 legacy db) {first second : Link}
    (firstMem : first ∈ db.links) (secondMem : second ∈ db.links)
    (firstTable : first.row ∈ db.table) (secondTable : second.row ∈ db.table)
    (same : first.prior = second.prior) : first = second := by
  rcases lt_trichotomy first.row.id second.row.id with below | idEq | above
  · exact absurd same (holds.prior_ne firstMem secondMem firstTable below)
  · exact eq_of_key_eq holds.increasing firstMem secondMem idEq
  · exact absurd same.symm (holds.prior_ne secondMem firstMem secondTable above)

/-- Without expiry the hashed rows of the table are exactly the inserted rows. -/
theorem Continuous.hashedRows_eq (holds : Continuous sha256 legacy db)
    (unexpired : ∀ link ∈ db.links, ¬ db.Expired link.row) :
    (db.table.filter fun row => row.chainHash.isSome) = db.links.map Link.row := by
  apply Ascending.ext (holds.ascending.filter _) (List.pairwise_map.mpr holds.increasing)
  intro row
  rw [List.mem_filter, List.mem_map]
  constructor
  · rintro ⟨mem, hashed⟩
    rcases holds.stored row mem with old | inserted
    · simp [legacy.unhashed row old] at hashed
    · exact inserted
  · rintro ⟨link, mem, rfl⟩
    refine ⟨?_, by simp [holds.hashed link mem]⟩
    rcases holds.retained link.row (.inr ⟨link, mem, rfl⟩) with kept | expired
    · exact kept
    · exact absurd expired (unexpired link mem)

end Consequences

/-- Where no commit of a writer was cut off, it saw all of its links committed. -/
theorem Database.linksOf_eq {db : Database} {writer : Nat}
    (seen : ∀ link ∈ db.links, link.writer = writer → link.acknowledged = true) :
    db.linksOf writer = db.links.filter fun link => link.writer = writer := by
  apply List.filter_congr
  intro link mem
  rw [decide_eq_decide]
  exact and_iff_left_of_imp (seen link mem)

theorem WritersInv.linksOf_eq_singleton {legacy : Legacy} {state : State} {writer : Nat}
    {write : Write} (inv : WritersInv sha256 legacy state)
    (found : state.writes[writer]? = some write) (reported : write.reported = some true) :
    ∃ link, state.db.linksOf writer = [link] := by
  have count := inv.accounted.count writer write found
  rw [if_pos reported] at count
  exact List.length_eq_one_iff.mp count

/-- Every run of any number of writers, interleaved and failing in any way,
leaves a chain that is continuous up to retention. -/
theorem retainedChain_of_run (sha256 : Digest) {legacy : Legacy} {nextId : Nat}
    (fresh : ∀ row ∈ legacy.rows, row.id < nextId) {labels : List Label} {state : State}
    (ran : run (step sha256) (legacy.initial nextId) labels = some state) :
    RetainedChain sha256 legacy state := by
  have inv := writersInv_of_run fresh ran
  have holds := inv.continuous
  constructor
  case chained =>
    intro row mem notLegacy
    rcases holds.stored row mem with old | ⟨link, linkMem, rfl⟩
    · exact absurd old notLegacy
    · exact ⟨link, linkMem, rfl, holds.hashed link linkMem, holds.prior_eq linkMem⟩
  case unforked =>
    exact fun first firstMem second secondMem => holds.unforked firstMem secondMem
  case linked =>
    intro unexpired
    rw [holds.hashedRows_eq unexpired]
    exact (holds.linked unexpired).1
  case rolledBack =>
    intro writer next stepEq
    simp only [step] at stepEq
    split at stepEq
    · cases stepEq
      rfl
    · cases stepEq
  case reportedOnce =>
    intro writer write found reported
    obtain ⟨link, single⟩ := inv.linksOf_eq_singleton found reported
    have own : link ∈ state.db.linksOf writer := by simp [single]
    obtain ⟨mem, isOwn⟩ := List.mem_filter.mp own
    obtain ⟨owner, ownerFound, entryEq⟩ := inv.accounted.owner link mem
    have sameWriter : link.writer = writer := (of_decide_eq_true isOwn).1
    rw [sameWriter, found] at ownerFound
    obtain rfl : write = owner := Option.some.inj ownerFound
    exact ⟨link, single, entryEq, holds.retained link.row (.inr ⟨link, mem, rfl⟩)⟩
  case linkedOnce =>
    intro writer write found reported seen
    rw [← Database.linksOf_eq seen]
    exact inv.linksOf_eq_singleton found reported

/-! ## Retention cuts the chain -/

/-- Continuity without regard to retention: the whole table verifies from the
genesis value, and every write reported as successful is in it once. -/
structure Unbroken (sha256 : Digest) (state : State) : Prop where
  linked : Linked sha256 none state.db.table
  reportedOnce : ∀ writer write, state.writes[writer]? = some write →
    write.reported = some true → ∃ link, state.db.linksOf writer = [link] ∧
      link.row.toAuditLogEntry = write.entry ∧ link.row ∈ state.db.table

/-- A new database. -/
def Legacy.empty : Legacy where
  rows := []
  ascending := .nil
  unhashed := by simp

/-- Every run from a new database leaves an unbroken chain. -/
def ChainContinuity : Prop :=
  ∀ (sha256 : Digest) (labels : List Label) (state : State),
    run (step sha256) (Legacy.empty.initial 1) labels = some state → Unbroken sha256 state

/-- An entry of January. -/
def januaryEntry : AuditLogEntry where
  timestamp := "2026-01-03T08:00:00+00:00"
  eventType := "ENGINE_SELECTED"
  actorId := some "admin"
  targetId := some "agent.a"
  permission := none
  result := "ok"
  reason := ""
  metadata := none
  traceId := none

/-- A write of January and a write of July, whose insert deletes what is older
than 90 days. -/
def retentionRun : List Label :=
  [.submit .direct januaryEntry, .beginImmediate 0, .select 0, .insert 0 "2025-10-05 08:00:00",
    .commit 0, .submit .spawned deniedRow.toAuditLogEntry, .beginImmediate 1, .select 1,
    .insert 1 "2026-04-02 09:00:00", .commit 1]

/-- The digest of the row of January. -/
def januaryDigest : Bytes :=
  [195, 223, 166, 213, 132, 78, 76, 232, 132, 167, 38, 38, 131, 77, 162, 224, 196, 22, 125,
   85, 133, 19, 119, 20, 185, 114, 237, 111, 143, 44, 243, 41]

/-- The digest of the row of July, which is linked to it. -/
def julyDigest : Bytes :=
  [126, 241, 23, 238, 132, 168, 227, 99, 175, 251, 200, 61, 95, 141, 247, 130, 185, 163,
   247, 244, 171, 244, 22, 223, 184, 194, 197, 147, 177, 63, 146, 172]

/-- SHA-256 on the texts that `retentionRun` hashes, and on the text that a
verification of its table from the genesis value hashes. -/
def retentionDigest : Digest :=
  tabulated
    [(utf8 "2026-01-03T08:00:00+00:00|ENGINE_SELECTED|admin|agent.a|ok", januaryDigest),
      (utf8 ("c3dfa6d5844e4ce884a72626834da2e0c4167d5585137714b972ed6f8f2cf329" ++
        "|2026-07-01T09:00:00+00:00|TOOL_CALL|agent.a||denied"), julyDigest),
      (utf8 "2026-07-01T09:00:00+00:00|TOOL_CALL|agent.a||denied", deniedDigest)]

theorem retentionRun_breaks :
    (run (step retentionDigest) (Legacy.empty.initial 1) retentionRun).any
      (fun state => ¬ Linked retentionDigest none state.db.table) = true := by
  decide +kernel

theorem not_chainContinuity : ¬ ChainContinuity := by
  intro continuity
  obtain ⟨state, ran, broken⟩ := (Option.any_eq_true _ _).mp retentionRun_breaks
  exact of_decide_eq_true broken (continuity retentionDigest retentionRun state ran).linked

theorem retainedChain_retentionRun : ∃ state,
    run (step retentionDigest) (Legacy.empty.initial 1) retentionRun = some state ∧
      RetainedChain retentionDigest Legacy.empty state := by
  have finishes : (run (step retentionDigest) (Legacy.empty.initial 1) retentionRun).isSome := by
    decide +kernel
  obtain ⟨state, ran⟩ := Option.isSome_iff_exists.mp finishes
  exact ⟨state, ran, retainedChain_of_run retentionDigest (by simp [Legacy.empty]) ran⟩

end ClotoCore.Audit
