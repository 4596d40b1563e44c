import ClotoCore.Encoding.Digest
import Mathlib.Data.List.Forall2
import Mathlib.Data.List.Induction

/-!
# The audit log's hash chain

Every audit row stores a chain hash computed from the preceding row's chain
hash and from a canonical text of five of its own columns.  The text joins the
columns with `|`, writes `NULL` as the empty text, and leaves the permission,
the reason, the metadata and the trace id out.

Two chains that verify and end in the same hash therefore agree in those five
columns only as far as the joined text tells them apart.
`entries_eq_iff_sameShape` says exactly how far that is.
-/

namespace ClotoCore.Audit

open ClotoCore.Encoding

/-- `AuditLogEntry`, with the timestamp and the metadata in the text form in
which the writer stores them. -/
structure AuditLogEntry where
  timestamp : String
  eventType : String
  actorId : Option String
  targetId : Option String
  permission : Option String
  result : String
  reason : String
  metadata : Option String
  traceId : Option String
  deriving DecidableEq

/-- A row of `audit_logs`: an entry with its row id and its chain hash. -/
structure AuditRow extends AuditLogEntry where
  id : Nat
  chainHash : Option String
  deriving DecidableEq

/-- `canonical_data`: the text a chain hash is computed over. -/
def canonicalData (timestamp : String) (entry : AuditLogEntry) : String :=
  timestamp ++ "|" ++ entry.eventType ++ "|" ++ entry.actorId.getD "" ++ "|" ++
    entry.targetId.getD "" ++ "|" ++ entry.result

/-- `compute_chain_hash`: the digest of `previous|data`, or of `data` alone for
the genesis row. -/
def computeChainHash (sha256 : Digest) (previous : Option String) (data : String) : String :=
  match previous with
  | some previous => hexEncode (sha256 (utf8 previous ++ utf8 "|" ++ utf8 data))
  | none => hexEncode (sha256 (utf8 data))

/-- The chain hash a row must carry behind `previous`. -/
def AuditRow.link (sha256 : Digest) (previous : Option String) (row : AuditRow) : String :=
  computeChainHash sha256 previous (canonicalData row.timestamp row.toAuditLogEntry)

/-- Link-by-link verification: every row's hash recomputed from the previous
row's hash and from its own columns. -/
def Linked (sha256 : Digest) : Option String → List AuditRow → Prop
  | _, [] => True
  | previous, row :: rest =>
      row.chainHash = some (row.link sha256 previous) ∧ Linked sha256 row.chainHash rest

instance (sha256 : Digest) : (previous : Option String) → (rows : List AuditRow) →
    Decidable (Linked sha256 previous rows)
  | _, [] => isTrue trivial
  | _, row :: rest =>
      have := instDecidableLinked sha256 row.chainHash rest
      inferInstanceAs (Decidable (_ ∧ _))

/-- The chain hash of the last row, or `previous` when there is no row. -/
def chainTip : Option String → List AuditRow → Option String
  | previous, [] => previous
  | _, row :: rest => chainTip row.chainHash rest

/-- The recorded fields of a sequence of rows. -/
def entries (rows : List AuditRow) : List AuditLogEntry :=
  rows.map AuditRow.toAuditLogEntry

/-- Two rows that no hash needs to tell apart: their canonical texts are cut at
the same places, their `NULL` columns are the same, and the columns outside the
canonical text are equal. -/
structure SameShape (first second : AuditRow) : Prop where
  timestamp : first.timestamp.length = second.timestamp.length
  eventType : first.eventType.length = second.eventType.length
  actorId : first.actorId.map String.length = second.actorId.map String.length
  targetId : first.targetId.map String.length = second.targetId.map String.length
  permission : first.permission = second.permission
  reason : first.reason = second.reason
  metadata : first.metadata = second.metadata
  traceId : first.traceId = second.traceId

/-! ## What one link determines -/

theorem bar_notMem_hexDigits : '|' ∉ hexDigits := by
  decide

theorem computeChainHash_eq_hexEncode (sha256 : Digest) (previous : Option String)
    (data : String) : ∃ bytes, computeChainHash sha256 previous data = hexEncode bytes := by
  cases previous with
  | none => exact ⟨_, rfl⟩
  | some previous => exact ⟨_, rfl⟩

/-- No chain hash contains the separator. -/
theorem bar_notMem_computeChainHash (sha256 : Digest) (previous : Option String)
    (data : String) : '|' ∉ (computeChainHash sha256 previous data).toList := by
  obtain ⟨bytes, hashEq⟩ := computeChainHash_eq_hexEncode sha256 previous data
  rw [hashEq, toList_hexEncode]
  intro mem
  exact bar_notMem_hexDigits (mem_hexDigits_of_mem_hexChars mem)

theorem computeChainHash_some_eq (sha256 : Digest) (previous data : String) :
    computeChainHash sha256 (some previous) data =
      hexEncode (sha256 (utf8 (previous ++ "|" ++ data))) := by
  simp only [computeChainHash, utf8_append]

variable {sha256 : Digest}

/-- Behind hashes of the same kind, equal links come from equal predecessors and
equal canonical texts. -/
theorem computeChainHash_inj (injective : Function.Injective sha256)
    {first second : String} {firstData secondData : String}
    (firstFree : '|' ∉ first.toList) (secondFree : '|' ∉ second.toList)
    (equal : computeChainHash sha256 (some first) firstData =
      computeChainHash sha256 (some second) secondData) :
    first = second ∧ firstData = secondData := by
  rw [computeChainHash_some_eq, computeChainHash_some_eq] at equal
  have textEq : first ++ "|" ++ firstData = second ++ "|" ++ secondData :=
    utf8_injective (injective (hexEncode_injective equal))
  have charsEq : first.toList ++ '|' :: firstData.toList =
      second.toList ++ '|' :: secondData.toList := by
    simpa using congrArg String.toList textEq
  obtain ⟨previousEq, dataEq⟩ := append_cons_inj_of_notMem firstFree secondFree charsEq
  exact ⟨String.toList_inj.mp previousEq, String.toList_inj.mp dataEq⟩

theorem computeChainHash_none_inj (injective : Function.Injective sha256)
    {firstData secondData : String}
    (equal : computeChainHash sha256 none firstData = computeChainHash sha256 none secondData) :
    firstData = secondData :=
  utf8_injective (injective (hexEncode_injective equal))

/-- A column of known width is read off the front of a joined text. -/
theorem column_inj {first second firstRest secondRest : String}
    (width : first.length = second.length)
    (equal : first ++ ("|" ++ firstRest) = second ++ ("|" ++ secondRest)) :
    first = second ∧ firstRest = secondRest := by
  have charsEq : first.toList ++ '|' :: firstRest.toList =
      second.toList ++ '|' :: secondRest.toList := by
    simpa using congrArg String.toList equal
  obtain ⟨columnEq, restEq⟩ := List.append_inj charsEq
    (by rw [String.length_toList, String.length_toList]; exact width)
  exact ⟨String.toList_inj.mp columnEq, String.toList_inj.mp (List.cons.inj restEq).2⟩

/-- A nullable column is determined by its text and its width. -/
theorem option_eq_of_getD_eq {first second : Option String}
    (width : first.map String.length = second.map String.length)
    (equal : first.getD "" = second.getD "") : first = second := by
  cases first <;> cases second <;> simp_all

theorem getD_length_eq {first second : Option String}
    (width : first.map String.length = second.map String.length) :
    (first.getD "").length = (second.getD "").length := by
  cases first <;> cases second <;> simp_all

/-- Rows of one shape with one canonical text record the same entry. -/
theorem entry_eq_of_sameShape {first second : AuditRow} (shape : SameShape first second)
    (dataEq : canonicalData first.timestamp first.toAuditLogEntry =
      canonicalData second.timestamp second.toAuditLogEntry) :
    first.toAuditLogEntry = second.toAuditLogEntry := by
  simp only [canonicalData, String.append_assoc] at dataEq
  obtain ⟨timestampEq, dataEq⟩ := column_inj shape.timestamp dataEq
  obtain ⟨eventTypeEq, dataEq⟩ := column_inj shape.eventType dataEq
  obtain ⟨actorTextEq, dataEq⟩ := column_inj (getD_length_eq shape.actorId) dataEq
  obtain ⟨targetTextEq, resultEq⟩ := column_inj (getD_length_eq shape.targetId) dataEq
  have actorIdEq := option_eq_of_getD_eq shape.actorId actorTextEq
  have targetIdEq := option_eq_of_getD_eq shape.targetId targetTextEq
  rcases first with ⟨⟨⟩, _, _⟩
  rcases second with ⟨⟨⟩, _, _⟩
  have permissionEq := shape.permission
  have reasonEq := shape.reason
  have metadataEq := shape.metadata
  have traceIdEq := shape.traceId
  simp_all

theorem sameShape_of_entry_eq {first second : AuditRow}
    (equal : first.toAuditLogEntry = second.toAuditLogEntry) : SameShape first second := by
  constructor <;> simp [equal]

/-! ## Whole chains -/

@[simp]
theorem chainTip_append (previous : Option String) (rows : List AuditRow) (row : AuditRow) :
    chainTip previous (rows ++ [row]) = row.chainHash := by
  induction rows generalizing previous with
  | nil => rfl
  | cons first rest ih => exact ih first.chainHash

/-- A chain verifies up to its last row exactly when that row is linked to the
tip of the rows before it. -/
theorem linked_append {previous : Option String} {rows : List AuditRow} {row : AuditRow} :
    Linked sha256 previous (rows ++ [row]) ↔
      Linked sha256 previous rows ∧
        row.chainHash = some (row.link sha256 (chainTip previous rows)) := by
  induction rows generalizing previous with
  | nil => simp [Linked, chainTip]
  | cons first rest ih =>
      simp only [List.cons_append, Linked, chainTip, ih, and_assoc]

/-- The tip of a verified non-empty chain is a hash, so it contains no
separator. -/
theorem chainTip_of_linked {rows : List AuditRow} (linked : Linked sha256 none rows)
    (nonempty : rows ≠ []) :
    ∃ hash, chainTip none rows = some hash ∧ '|' ∉ hash.toList := by
  rcases List.eq_nil_or_concat' rows with rfl | ⟨init, last, rfl⟩
  · exact absurd rfl nonempty
  · obtain ⟨_, hashEq⟩ := linked_append.mp linked
    exact ⟨last.link sha256 (chainTip none init), by rw [chainTip_append, hashEq],
      bar_notMem_computeChainHash _ _ _⟩

/-- One step back along two verified chains of one length: equal tips come from
equal canonical texts behind equal tips. -/
theorem link_step_back (injective : Function.Injective sha256)
    {firstInit secondInit : List AuditRow} {first second : AuditRow}
    (firstLinked : Linked sha256 none (firstInit ++ [first]))
    (secondLinked : Linked sha256 none (secondInit ++ [second]))
    (sameLength : firstInit.length = secondInit.length)
    (tipEq : first.chainHash = second.chainHash) :
    chainTip none firstInit = chainTip none secondInit ∧
      canonicalData first.timestamp first.toAuditLogEntry =
        canonicalData second.timestamp second.toAuditLogEntry := by
  obtain ⟨firstLinked, firstHash⟩ := linked_append.mp firstLinked
  obtain ⟨secondLinked, secondHash⟩ := linked_append.mp secondLinked
  have linkEq : first.link sha256 (chainTip none firstInit) =
      second.link sha256 (chainTip none secondInit) := by
    simpa [firstHash, secondHash] using tipEq
  cases firstInit with
  | nil =>
      -- Both rows are genesis rows.
      obtain rfl : secondInit = [] := List.length_eq_zero_iff.mp sameLength.symm
      exact ⟨rfl, computeChainHash_none_inj injective linkEq⟩
  | cons firstHead firstTail =>
      have secondNonempty : secondInit ≠ [] := by
        rintro rfl
        simp at sameLength
      obtain ⟨firstPrevious, firstTip, firstFree⟩ :=
        chainTip_of_linked firstLinked (List.cons_ne_nil _ _)
      obtain ⟨secondPrevious, secondTip, secondFree⟩ :=
        chainTip_of_linked secondLinked secondNonempty
      rw [firstTip, secondTip] at linkEq ⊢
      obtain ⟨previousEq, dataEq⟩ := computeChainHash_inj injective firstFree secondFree linkEq
      exact ⟨by rw [previousEq], dataEq⟩

theorem forall₂_snoc {α : Type} {Related : α → α → Prop} {firstInit secondInit : List α}
    {first second : α} (sameLength : firstInit.length = secondInit.length)
    (related : List.Forall₂ Related (firstInit ++ [first]) (secondInit ++ [second])) :
    List.Forall₂ Related firstInit secondInit ∧ Related first second := by
  have initRelated := List.forall₂_take firstInit.length related
  have lastRelated := List.forall₂_drop firstInit.length related
  rw [List.take_left, sameLength, List.take_left] at initRelated
  rw [List.drop_left, sameLength, List.drop_left] at lastRelated
  exact ⟨initRelated, (List.forall₂_cons.mp lastRelated).1⟩

/-- Rows of one shape, row by row, in chains that verify and share their tip
record the same entries. -/
theorem entries_eq_of_sameShape (injective : Function.Injective sha256)
    {first second : List AuditRow} (firstLinked : Linked sha256 none first)
    (secondLinked : Linked sha256 none second)
    (tipEq : chainTip none first = chainTip none second)
    (shapes : List.Forall₂ SameShape first second) : entries first = entries second := by
  -- The argument runs from the shared tip back to the genesis rows.
  induction first using List.reverseRecOn generalizing second with
  | nil =>
      cases shapes
      rfl
  | append_singleton firstInit firstLast ih =>
      rcases List.eq_nil_or_concat' second with rfl | ⟨secondInit, secondLast, rfl⟩
      · have lengthEq := shapes.length_eq
        simp at lengthEq
      · have sameLength : firstInit.length = secondInit.length := by
          simpa using shapes.length_eq
        obtain ⟨initShapes, lastShape⟩ := forall₂_snoc sameLength shapes
        rw [chainTip_append, chainTip_append] at tipEq
        obtain ⟨previousEq, dataEq⟩ :=
          link_step_back injective firstLinked secondLinked sameLength tipEq
        have initEq := ih (linked_append.mp firstLinked).1 (linked_append.mp secondLinked).1
          previousEq initShapes
        have lastEq := entry_eq_of_sameShape lastShape dataEq
        simp only [entries, List.map_append, List.map_cons, List.map_nil, lastEq]
        rw [show firstInit.map AuditRow.toAuditLogEntry = _ from initEq]
        rfl

theorem sameShape_of_entries_eq {first second : List AuditRow}
    (equal : entries first = entries second) : List.Forall₂ SameShape first second := by
  induction first generalizing second with
  | nil =>
      obtain rfl : second = [] := by simpa [entries] using equal.symm
      exact .nil
  | cons row rows ih =>
      cases second with
      | nil => simp [entries] at equal
      | cons secondRow secondRows =>
          obtain ⟨rowEq, restEq⟩ := List.cons.inj equal
          exact .cons (sameShape_of_entry_eq rowEq) (ih restEq)

/-! ## Tamper evidence -/

/-- Tamper evidence: two sequences of rows that verify link by link and end in
the same chain hash record the same entries. -/
def TamperEvident : Prop :=
  ∀ (sha256 : Digest), Function.Injective sha256 → ∀ first second : List AuditRow,
    Linked sha256 none first → Linked sha256 none second →
      chainTip none first = chainTip none second → entries first = entries second

/-- Two verified chains with one tip record the same entries exactly when they
have the same number of rows and agree, row by row, in the width and presence of
the hashed columns and in the content of the columns that are not hashed. -/
theorem entries_eq_iff_sameShape (injective : Function.Injective sha256)
    {first second : List AuditRow} (firstLinked : Linked sha256 none first)
    (secondLinked : Linked sha256 none second)
    (tipEq : chainTip none first = chainTip none second) :
    entries first = entries second ↔ List.Forall₂ SameShape first second := by
  constructor
  · exact sameShape_of_entries_eq
  · exact entries_eq_of_sameShape injective firstLinked secondLinked tipEq

/-- The SHA-256 digest of the canonical text of `deniedRow`. -/
def deniedDigest : Bytes :=
  [107, 165, 94, 195, 31, 222, 148, 227, 116, 24, 194, 250, 79, 48, 162, 101, 33, 233,
    253, 167, 233, 221, 60, 107, 62, 229, 245, 177, 146, 130, 113, 122]

/-- The SHA-256 digest of the canonical text of `retriedRow` behind the hash of `deniedRow`. -/
def retriedDigest : Bytes :=
  [123, 148, 4, 70, 186, 15, 251, 48, 2, 158, 126, 46, 45, 241, 136, 24, 108, 124, 166, 222,
    60, 59, 179, 172, 74, 214, 85, 49, 179, 16, 133, 206]

/-- SHA-256 on the two texts that the sample rows hash. -/
def sampleDigest : Digest :=
  tabulated [(utf8 "2026-07-01T09:00:00+00:00|TOOL_CALL|agent.a||denied", deniedDigest),
    (utf8 ("6ba55ec31fde94e37418c2fa4f30a26521e9fda7e9dd3c6b3ee5f5b19282717a" ++
      "|2026-07-01T09:00:04+00:00|TOOL_CALL|agent.a||success"), retriedDigest)]

theorem sampleDigest_injective : Function.Injective sampleDigest :=
  tabulated_injective (by decide) (by decide)

/-- A genesis row as the writer stores it. -/
def deniedRow : AuditRow where
  timestamp := "2026-07-01T09:00:00+00:00"
  eventType := "TOOL_CALL"
  actorId := some "agent.a"
  targetId := none
  permission := some "NetworkAccess"
  result := "denied"
  reason := "rate limited"
  metadata := none
  traceId := none
  id := 1
  chainHash := some "6ba55ec31fde94e37418c2fa4f30a26521e9fda7e9dd3c6b3ee5f5b19282717a"

/-- The row that the writer links to it. -/
def retriedRow : AuditRow where
  timestamp := "2026-07-01T09:00:04+00:00"
  eventType := "TOOL_CALL"
  actorId := some "agent.a"
  targetId := none
  permission := some "NetworkAccess"
  result := "success"
  reason := "within the limit"
  metadata := none
  traceId := none
  id := 2
  chainHash := some "7b940446ba0ffb30029e7e2e2df188186c7ca6de3c3bb3ac4ad65531b31085ce"

/-- The first row with its reason rewritten in place. -/
def editedRow : AuditRow :=
  { deniedRow with reason := "" }

theorem linked_deniedRow : Linked sampleDigest none [deniedRow, retriedRow] := by
  decide +kernel

theorem linked_editedRow : Linked sampleDigest none [editedRow, retriedRow] := by
  decide +kernel

theorem not_tamperEvident : ¬ TamperEvident := by
  intro evident
  have equal := evident sampleDigest sampleDigest_injective [deniedRow, retriedRow]
    [editedRow, retriedRow] linked_deniedRow linked_editedRow rfl
  revert equal
  decide

theorem entries_eq_iff_sameShape_deniedRow :
    entries [deniedRow, retriedRow] = entries [editedRow, retriedRow] ↔
      List.Forall₂ SameShape [deniedRow, retriedRow] [editedRow, retriedRow] :=
  entries_eq_iff_sameShape sampleDigest_injective linked_deniedRow linked_editedRow rfl

end ClotoCore.Audit
