import ClotoCore.Encoding.Text
import ClotoCore.Json.Value

/-!
# Signed releases

What a hub signs about a release, as the canonical message of the installer.
The message is a list of `name=value` lines whose values are not escaped: it
determines the release exactly when neither the id nor the version holds what
introduces the version line.
-/

namespace ClotoCore.Seal

open ClotoCore.Encoding

/-! ## Catalog entries and verdicts -/

/-- A catalog entry, restricted to what the verdict reads. -/
structure Entry where
  id : String
  version : String
  entryPointSha256 : Option String
  signaturePayload : Option Json.Value

/-- Why an install proceeds without a local seal. -/
inductive UnsealedReason where
  | noEntryPointHash
  | noSignature
  | malformedSignatureBlock
  | undecodableSignature
  | hubKeyUnavailable
  | malformedArchiveBinding
  deriving DecidableEq

/-- Which well-formed claim does not match what was delivered. -/
inductive TamperCode where
  | integrityMismatch
  | signatureInvalid
  deriving DecidableEq

/-- The install-time decision on one catalog entry. -/
inductive Verdict where
  | verified
  | unsealed (reason : UnsealedReason)
  | tamper (code : TamperCode) (message : String)
  deriving DecidableEq

/-- The refusal of an entry point that is not the catalog's. -/
def integrityMessage (id expected actual : String) : String :=
  s!"entry point integrity check failed for '{id}': catalog expects sha256 {expected}, installed file hashes to {actual}"

/-- The refusal of a signature that does not verify. -/
def signatureMessage (id kid : String) : String :=
  s!"Ed25519 seal verification failed for '{id}': the catalog's signature does not match its signed identity under hub key '{kid}' — refusing install"

/-- What a `dual-v2` seal says about the archive it was signed over. -/
inductive ArchiveBinding where
  | absent
  | malformed
  | bound (sha256 : String) (length : UInt64)
  deriving DecidableEq

/-! ## Canonical messages -/

/-- `CanonicalMessageV1` -/
def canonicalMessageV1 (connectorId version entryPointSha256 : String) : Bytes :=
  utf8 ("mgp-seal/v1\nconnector_id=" ++ connectorId ++ "\nversion=" ++ version
    ++ "\nentry_point_sha256=" ++ entryPointSha256 ++ "\n")

/-- `CanonicalMessageV2` -/
def canonicalMessageV2 (connectorId version entryPointSha256 archiveSha256 : String)
    (archiveLength : UInt64) : Bytes :=
  utf8 ("mgp-seal/v2\nconnector_id=" ++ connectorId ++ "\nversion=" ++ version
    ++ "\nentry_point_sha256=" ++ entryPointSha256 ++ "\narchive_sha256=" ++ archiveSha256
    ++ "\narchive_length=" ++ archiveLength.toNat.repr ++ "\n")

/-- A digest as the catalog writes it: 64 hexadecimal digits. -/
@[ext]
structure HexDigest where
  text : String
  sized : text.toList.length = 64
  hex : ∀ c ∈ text.toList, isHexChar c = true

/-- What a hub signs about a release, with the archive when the seal binds one. -/
@[ext]
structure Release where
  id : String
  version : String
  entryPoint : HexDigest
  archive : Option (HexDigest × UInt64)

/-- The message that is signed for a release. -/
def Release.message (release : Release) : Bytes :=
  match release.archive with
  | none => canonicalMessageV1 release.id release.version release.entryPoint.text
  | some (sha256, length) =>
      canonicalMessageV2 release.id release.version release.entryPoint.text sha256.text length

/-- What introduces the version line, behind the line break. -/
def versionLine : List Char := "version=".toList

/-- A field holds a line break and what introduces the version line. -/
def HoldsVersionLine (field : String) : Prop :=
  '\n' :: versionLine <:+: field.toList

theorem not_holdsVersionLine_of_notMem {field : String} (absent : '\n' ∉ field.toList) :
    ¬HoldsVersionLine field :=
  fun holds => absent (holds.subset List.mem_cons_self)

theorem newline_not_isHexChar : isHexChar '\n' = false := by
  decide

theorem HexDigest.newline_notMem (digest : HexDigest) : '\n' ∉ digest.text.toList := by
  intro mem
  have hex := digest.hex '\n' mem
  rw [newline_not_isHexChar] at hex
  cases hex

theorem newline_notMem_toDigits (value : Nat) : '\n' ∉ Nat.toDigits 10 value := by
  intro mem
  have digit := Nat.isDigit_of_mem_toDigits (by decide) (by decide) mem
  exact absurd digit (by decide)

/-! ## What a message determines -/

/-- The names of the lines, without the line breaks between them. -/
def magic : List Char := "mgp-seal/v".toList

/-- The front of the line of the connector. -/
def idLine : List Char := "\nconnector_id=".toList

/-- The front of the line of the entry point's digest. -/
def entryPointLine : List Char := "entry_point_sha256=".toList

/-- The front of the line of the archive's digest. -/
def archiveLine : List Char := "archive_sha256=".toList

/-- The front of the line of the archive's length. -/
def lengthLine : List Char := "archive_length=".toList

/-- The characters up to the end of the version line. -/
def identityChars (messageVersion : Char) (id version : List Char) : List Char :=
  magic ++ messageVersion :: (idLine ++ (id ++ '\n' :: (versionLine ++ version)))

/-- A line behind the identity. -/
def lineChars (name value : List Char) : List Char :=
  '\n' :: (name ++ value)

theorem utf8_congr {left right : String} (equal : left.toList = right.toList) :
    utf8 left = utf8 right := by
  rw [String.toList_inj.mp equal]

theorem canonicalMessageV1_eq (id version hash : String) :
    canonicalMessageV1 id version hash
      = utf8 (String.ofList (identityChars '1' id.toList version.toList
          ++ lineChars entryPointLine hash.toList ++ ['\n'])) := by
  have head : "mgp-seal/v1\nconnector_id=".toList = magic ++ '1' :: idLine := by decide
  have versionHead : "\nversion=".toList = '\n' :: versionLine := by decide
  have hashHead : "\nentry_point_sha256=".toList = '\n' :: entryPointLine := by decide
  have newline : "\n".toList = ['\n'] := by decide
  rw [canonicalMessageV1]
  apply utf8_congr
  simp only [String.toList_ofList, String.toList_append, head, versionHead, hashHead, newline,
    identityChars, lineChars, List.append_assoc, List.cons_append]

theorem canonicalMessageV2_eq (id version hash archive : String) (length : UInt64) :
    canonicalMessageV2 id version hash archive length
      = utf8 (String.ofList (identityChars '2' id.toList version.toList
          ++ lineChars entryPointLine hash.toList ++ lineChars archiveLine archive.toList
          ++ lineChars lengthLine (Nat.toDigits 10 length.toNat) ++ ['\n'])) := by
  have head : "mgp-seal/v2\nconnector_id=".toList = magic ++ '2' :: idLine := by decide
  have versionHead : "\nversion=".toList = '\n' :: versionLine := by decide
  have hashHead : "\nentry_point_sha256=".toList = '\n' :: entryPointLine := by decide
  have archiveHead : "\narchive_sha256=".toList = '\n' :: archiveLine := by decide
  have lengthHead : "\narchive_length=".toList = '\n' :: lengthLine := by decide
  have newline : "\n".toList = ['\n'] := by decide
  rw [canonicalMessageV2]
  apply utf8_congr
  simp only [String.toList_ofList, String.toList_append, head, versionHead, hashHead, archiveHead,
    lengthHead, newline, Nat.toList_repr, identityChars, lineChars, List.append_assoc,
    List.cons_append]

/-- A last line without a line break is found again. -/
theorem lineChars_inj {left right name leftValue rightValue : List Char} (nameFree : '\n' ∉ name)
    (leftFree : '\n' ∉ leftValue) (rightFree : '\n' ∉ rightValue)
    (equal : left ++ lineChars name leftValue = right ++ lineChars name rightValue) :
    left = right ∧ leftValue = rightValue := by
  have leftTail : '\n' ∉ name ++ leftValue := by simp [nameFree, leftFree]
  have rightTail : '\n' ∉ name ++ rightValue := by simp [nameFree, rightFree]
  rcases append_cons_inj_of_notMem_right leftTail rightTail equal with ⟨frontEq, tailEq⟩
  exact ⟨frontEq, List.append_cancel_left tailEq⟩

theorem identityChars_inj {left right : Char} {leftId rightId leftVersion rightVersion : List Char}
    (equal : identityChars left leftId leftVersion = identityChars right rightId rightVersion) :
    left = right ∧ leftId ++ '\n' :: (versionLine ++ leftVersion)
      = rightId ++ '\n' :: (versionLine ++ rightVersion) := by
  rcases List.cons.inj (List.append_cancel_left equal) with ⟨versionEq, restEq⟩
  exact ⟨versionEq, List.append_cancel_left restEq⟩

/-- The first line tells the message versions apart. -/
theorem identityChars_append_ne {leftId rightId leftVersion rightVersion : List Char}
    (leftRest rightRest : List Char) :
    identityChars '1' leftId leftVersion ++ leftRest
      ≠ identityChars '2' rightId rightVersion ++ rightRest := by
  intro equal
  simp only [identityChars, List.append_assoc, List.cons_append] at equal
  have versionEq := (List.cons.inj (List.append_cancel_left equal)).1
  exact absurd versionEq (by decide)

/-- The characters of a message before its last line break. -/
def Release.chars (release : Release) : List Char :=
  match release.archive with
  | none =>
      identityChars '1' release.id.toList release.version.toList
        ++ lineChars entryPointLine release.entryPoint.text.toList
  | some (sha256, length) =>
      identityChars '2' release.id.toList release.version.toList
        ++ lineChars entryPointLine release.entryPoint.text.toList
        ++ lineChars archiveLine sha256.text.toList
        ++ lineChars lengthLine (Nat.toDigits 10 length.toNat)

theorem Release.message_eq (release : Release) :
    release.message = utf8 (String.ofList (release.chars ++ ['\n'])) := by
  rcases release with ⟨id, version, entryPoint, archive⟩
  cases archive with
  | none => exact canonicalMessageV1_eq id version entryPoint.text
  | some binding =>
      exact canonicalMessageV2_eq id version entryPoint.text binding.1.text binding.2

theorem Release.message_eq_iff {left right : Release} :
    left.message = right.message ↔ left.chars = right.chars := by
  constructor
  · intro equal
    rw [Release.message_eq, Release.message_eq] at equal
    have charsEq := congrArg String.toList (utf8_injective equal)
    rw [String.toList_ofList, String.toList_ofList] at charsEq
    exact List.append_cancel_right charsEq
  · intro equal
    rw [Release.message_eq, Release.message_eq, equal]

/-- Two releases have the same fields behind the version line, and the same
characters up to its end. -/
theorem Release.fields_of_chars_eq {left right : Release} (equal : left.chars = right.chars) :
    left.entryPoint = right.entryPoint ∧ left.archive = right.archive ∧
      left.id.toList ++ '\n' :: (versionLine ++ left.version.toList)
        = right.id.toList ++ '\n' :: (versionLine ++ right.version.toList) := by
  rcases left with ⟨leftId, leftVersion, leftHash, leftArchive⟩
  rcases right with ⟨rightId, rightVersion, rightHash, rightArchive⟩
  cases leftArchive with
  | none =>
      cases rightArchive with
      | none =>
          rcases lineChars_inj (by decide) leftHash.newline_notMem rightHash.newline_notMem equal
            with ⟨identityEq, hashEq⟩
          exact ⟨HexDigest.ext (String.toList_inj.mp hashEq), rfl, (identityChars_inj identityEq).2⟩
      | some rightBinding =>
          simp only [Release.chars, List.append_assoc] at equal
          exact absurd equal (identityChars_append_ne _ _)
  | some leftBinding =>
      cases rightArchive with
      | none =>
          simp only [Release.chars, List.append_assoc] at equal
          exact absurd equal.symm (identityChars_append_ne _ _)
      | some rightBinding =>
          rcases leftBinding with ⟨leftSha, leftLength⟩
          rcases rightBinding with ⟨rightSha, rightLength⟩
          rcases lineChars_inj (by decide) (newline_notMem_toDigits _) (newline_notMem_toDigits _)
            equal with ⟨beforeLength, digitsEq⟩
          rcases lineChars_inj (by decide) leftSha.newline_notMem rightSha.newline_notMem
            beforeLength with ⟨beforeArchive, shaEq⟩
          rcases lineChars_inj (by decide) leftHash.newline_notMem rightHash.newline_notMem
            beforeArchive with ⟨identityEq, hashEq⟩
          have lengthEq : leftLength = rightLength :=
            UInt64.toNat_inj.mp (toDigits_injective digitsEq)
          have shaDigestEq : leftSha = rightSha := HexDigest.ext (String.toList_inj.mp shaEq)
          exact ⟨HexDigest.ext (String.toList_inj.mp hashEq), by rw [shaDigestEq, lengthEq],
            (identityChars_inj identityEq).2⟩

/-- The message of a release is the message of no other. -/
def Release.Determined (release : Release) : Prop :=
  ∀ other : Release, other.message = release.message → other = release

theorem Release.determined_of_plain {release : Release} (idPlain : ¬HoldsVersionLine release.id)
    (versionPlain : ¬HoldsVersionLine release.version) : release.Determined := by
  intro other equal
  rcases Release.fields_of_chars_eq (Release.message_eq_iff.mp equal).symm
    with ⟨hashEq, archiveEq, identityEq⟩
  rcases append_marker_inj (by decide) idPlain versionPlain identityEq with ⟨idEq, versionEq⟩
  exact Release.ext (String.toList_inj.mp idEq.symm) (String.toList_inj.mp versionEq.symm)
    hashEq.symm archiveEq.symm

/-- Moving the cut between id and version keeps the message. -/
theorem Release.message_recut (release : Release) (id version : List Char)
    (equal : id ++ '\n' :: (versionLine ++ version)
      = release.id.toList ++ '\n' :: (versionLine ++ release.version.toList)) :
    ({ release with id := String.ofList id, version := String.ofList version } : Release).message
      = release.message := by
  rw [Release.message_eq_iff]
  rcases release with ⟨releaseId, releaseVersion, hash, archive⟩
  have identityEq : ∀ messageVersion,
      identityChars messageVersion id version
        = identityChars messageVersion releaseId.toList releaseVersion.toList := by
    intro messageVersion
    simp only [identityChars, equal]
  cases archive with
  | none => simp only [Release.chars, String.toList_ofList, identityEq]
  | some binding => simp only [Release.chars, String.toList_ofList, identityEq]

/-- A message determines its release exactly when neither the id nor the version
holds what introduces the version line. -/
theorem Release.determined_iff {release : Release} :
    release.Determined ↔ ¬HoldsVersionLine release.id ∧ ¬HoldsVersionLine release.version := by
  constructor
  · intro determined
    constructor
    · rintro ⟨before, behind, idEq⟩
      have same := determined _ (release.message_recut before
        (behind ++ '\n' :: (versionLine ++ release.version.toList)) (by simp [← idEq]))
      have idLength := congrArg (fun release : Release => release.id.toList.length) same
      simp [← idEq] at idLength
    · rintro ⟨before, behind, versionEq⟩
      have same := determined _ (release.message_recut
        (release.id.toList ++ '\n' :: (versionLine ++ before)) behind (by simp [← versionEq]))
      have idLength := congrArg (fun release : Release => release.id.toList.length) same
      simp at idLength
  · rintro ⟨idPlain, versionPlain⟩
    exact Release.determined_of_plain idPlain versionPlain

end ClotoCore.Seal
