import ClotoCore.Encoding.Base64
import ClotoCore.Seal.Release

/-!
# The installer's verdict

The installer reads a catalog entry and the hub's key document with Go's JSON
decoder, selects the hub key and decides.  A verified verdict stands on a hash
that matches and on a signature over the message of a release the entry
describes.
-/

namespace ClotoCore.Seal.Go

open ClotoCore.Encoding ClotoCore.Json

/-- The members of a JSON object, decoded into a map. -/
abbrev Members := List (String × Value)

/-! ## Decoding -/

/-- `json.Unmarshal` into a string; null leaves the empty string in place. -/
def unmarshalString : Value → Option String
  | .string text => some text
  | .null => some ""
  | _ => none

/-- `json.Unmarshal` into a map; null leaves a nil map, which has no members. -/
def unmarshalMap : Value → Option (Option Members)
  | .object members => some (some members)
  | .null => some none
  | _ => none

/-- A member of a map, or none of a nil map. -/
def mapGet (members : Option Members) (name : String) : Option Value :=
  members.bind fun members => lastValue members name

/-- `SignatureField`; a nil map is returned as absent. -/
def signatureField (entry : Entry) (name : String) : Option Members :=
  match entry.signaturePayload with
  | none => none
  | some payload =>
      match unmarshalMap payload with
      | none => none
      | some members =>
          match mapGet members name with
          | none => none
          | some raw =>
              match unmarshalMap raw with
              | none => none
              | some object => object

/-! ## The archive binding -/

/-- `asUint64`: the text of a number with a point or an exponent is turned down,
and one with a sign or beyond 64 bits does not parse; neither does the text of
any other value. -/
def asUint64 : Value → Option UInt64
  | .number literal =>
      if literal.fraction ≠ [] ∨ literal.exponent ≠ none then none
      else if literal.negative then none
      else if literal.integer < UInt64.size then some (UInt64.ofNat literal.integer)
      else none
  | _ => none

/-- `isHex`; a text with other than hexadecimal digits is none in bytes or in
characters. -/
def isHex (text : String) (length : Nat) : Bool :=
  text.toList.length == length && text.toList.all isHexChar

/-- The binding of an archive block with these fields. -/
def bindingOfFields (sha256 : Option String) (length : Option UInt64) : ArchiveBinding :=
  match sha256 with
  | none => .malformed
  | some sha256 =>
      match length with
      | none => .malformed
      | some length =>
          let sha256 := trim sha256
          if isHex sha256 64 then .bound (toAsciiLowercase sha256) length else .malformed

/-- `ReadArchiveBinding` -/
def readArchiveBinding (entry : Entry) : ArchiveBinding :=
  match signatureField entry "archive" with
  | none => .absent
  | some archive =>
      bindingOfFields ((lastValue archive "sha256").bind unmarshalString)
        ((lastValue archive "length").bind asUint64)

/-! ## The hub key -/

/-- `keyIDMaxLen` -/
def keyIdMaxLen : Nat := 256

/-- `ParseJWK`, a key and its id. -/
def parseJwk (jwk : Option Members) : Except String (Bytes × String) :=
  let field (name : String) : Option String := (mapGet jwk name).bind unmarshalString
  if field "kty" ≠ some "OKP" then .error "JWK `kty` must be \"OKP\""
  else if field "crv" ≠ some "Ed25519" then .error "JWK `crv` must be \"Ed25519\""
  else if (field "alg").any (· ≠ "EdDSA") then .error "JWK `alg` must be \"EdDSA\" when present"
  else if (field "use").any (· ≠ "sig") then .error "JWK `use` must be \"sig\" when present"
  else
    match field "kid" with
    | none => .error "JWK is missing the `kid` field"
    | some kid =>
        if kid = "" ∨ keyIdMaxLen < (utf8 kid).length then
          .error s!"JWK `kid` must be non-empty and at most {keyIdMaxLen} bytes"
        else
          match field "x" with
          | none => .error "JWK is missing the `x` field"
          | some x =>
              match Base64.rawUrl.decodeString x with
              | none => .error "JWK `x` is not valid base64url-no-pad"
              | some raw =>
                  if raw.length ≠ 32 then
                    .error s!"JWK `x` must decode to exactly 32 bytes (got {raw.length})"
                  else .ok (raw, kid)

/-- The case folding by which the decoder matches a member with a field. -/
def foldName (name : String) : List Char :=
  name.toList.map foldChar

/-- The decoder writes an array over the maps of an earlier one: an object adds
its members to the map in place, null empties it, and any other element is an
error. -/
def decodeElements : List (Option Members) → List Value → Option (List (Option Members))
  | slots, [] => some slots
  | slots, item :: items => do
      let slot ← match item with
        | .object members => some (some ((slots.head?.bind id).getD [] ++ members))
        | .null => some none
        | _ => none
      let rest ← decodeElements slots.tail items
      some (slot :: rest)

/-- The `Keys` field while the decoder reads a document: the maps that were ever
written, and how many of them the field shows. -/
structure KeysField where
  slots : List (Option Members)
  shown : Nat

/-- One member of the document. -/
def decodeMember (field : KeysField) (member : String × Value) : Option KeysField :=
  if foldName member.1 = foldName "keys" then
    match member.2 with
    | .null => some ⟨[], 0⟩
    | .array [] => some ⟨[], 0⟩
    | .array items => (decodeElements field.slots items).map fun slots => ⟨slots, items.length⟩
    | _ => none
  else some field

/-- `json.Unmarshal` into `struct { Keys []map[string]json.RawMessage }`. -/
def decodeKeys : Value → Option (List (Option Members))
  | .object members =>
      (members.foldlM decodeMember ⟨[], 0⟩).map fun field => field.slots.take field.shown
  | .null => some []
  | _ => none

/-- The first key of a list with an id. -/
def firstKey (keys : List (Option Members)) (kid : String) : Option Bytes :=
  match keys with
  | [] => none
  | jwk :: rest =>
      match parseJwk jwk with
      | .error _ => firstKey rest kid
      | .ok (key, id) => if id = kid then some key else firstKey rest kid

/-- `KeyFromJWKS` -/
def keyFromJwks (jwks : Option Value) (kid : String) : Option Bytes :=
  match jwks with
  | none => none
  | some document =>
      match decodeKeys document with
      | none => none
      | some keys => firstKey keys kid

/-- `SignatureKeyID` -/
def signatureKeyId (entry : Entry) : String :=
  match signatureField entry "ed25519" with
  | none => ""
  | some block => ((lastValue block "key_id").bind unmarshalString).getD ""

/-! ## The decision -/

/-- `ed25519Domain` -/
def ed25519Domain : String := "mgp-seal-ed25519-v1"

section Decision

variable (verify : Bytes → Bytes → Bytes → Bool)

/-- `VerifyEd25519`, over the signature check of a key, an input and a signature. -/
def verifyEd25519 (key : Bytes) (keyId : String) (message sig : Bytes) : Bool :=
  verify key (utf8 ed25519Domain ++ 0 :: (utf8 keyId ++ 0 :: message)) sig

/-- The message `Decide` reconstructs under an archive binding. -/
def canonicalMessage (entry : Entry) (expected : String) : ArchiveBinding → Option Bytes
  | .bound sha256 length =>
      some (canonicalMessageV2 entry.id entry.version expected sha256 length)
  | .absent => some (canonicalMessageV1 entry.id entry.version expected)
  -- a binding that cannot be parsed must not fall back to v1
  | .malformed => none

/-- The Ed25519 layer of `Decide`, behind the integrity check. -/
def decideSignature (entry : Entry) (expected : String) (hubKey : Option Bytes) : Verdict :=
  match signatureField entry "ed25519" with
  | none => .unsealed .noSignature
  | some ed =>
      match (lastValue ed "sig").bind unmarshalString,
          (lastValue ed "key_id").bind unmarshalString with
      | some sigB64, some kid =>
          match Base64.std.decodeString (trim sigB64) with
          | none => .unsealed .undecodableSignature
          | some sig =>
              if sig.length ≠ 64 ∨ kid = "" ∨ keyIdMaxLen < (utf8 kid).length then
                .unsealed .undecodableSignature
              else
                match hubKey with
                | none => .unsealed .hubKeyUnavailable
                | some key =>
                    match canonicalMessage entry expected (readArchiveBinding entry) with
                    | none => .unsealed .malformedArchiveBinding
                    | some canonical =>
                        if verifyEd25519 verify key kid canonical sig then .verified
                        else .tamper .signatureInvalid (signatureMessage entry.id kid)
      | _, _ => .unsealed .malformedSignatureBlock

/-- `Decide` -/
protected def decide (entry : Entry) (installedEntryPointSha256 : Except Bytes String)
    (hubKey : Option Bytes) : Except Bytes Verdict :=
  let expected := trim (entry.entryPointSha256.getD "")
  if expected = "" then .ok (.unsealed .noEntryPointHash)
  else
    match installedEntryPointSha256 with
    | .error text => .error text
    | .ok actual =>
        if equalFold actual expected then .ok (decideSignature verify entry expected hubKey)
        else .ok (.tamper .integrityMismatch (integrityMessage entry.id expected actual))

/-- The verdict of an install, under the key the entry names. -/
def installVerdict (entry : Entry) (installedEntryPointSha256 : Except Bytes String)
    (jwks : Option Value) : Except Bytes Verdict :=
  Go.decide verify entry installedEntryPointSha256 (keyFromJwks jwks (signatureKeyId entry))

end Decision

/-! ## What a verified verdict stands on -/

variable {verify : Bytes → Bytes → Bytes → Bool}

/-- The signature layer verifies only a signature that checks under the hub key,
over the message the entry gives. -/
theorem decideSignature_verified {entry : Entry} {expected : String} {hubKey : Option Bytes}
    (verified : decideSignature verify entry expected hubKey = .verified) :
    ∃ key message sig, hubKey = some key ∧
      canonicalMessage entry expected (readArchiveBinding entry) = some message ∧
      verifyEd25519 verify key (signatureKeyId entry) message sig = true := by
  rw [decideSignature] at verified
  cases block : signatureField entry "ed25519" with
  | none => simp [block] at verified
  | some ed =>
      simp only [block] at verified
      split at verified
      · rename_i sigB64 kid sigEq kidEq
        split at verified
        · cases verified
        · rename_i sig sigDecoded
          split at verified
          · cases verified
          · split at verified
            · cases verified
            · rename_i key
              split at verified
              · cases verified
              · rename_i message messageEq
                split at verified
                · rename_i checked
                  have kidNamed : signatureKeyId entry = kid := by
                    simp [signatureKeyId, block, kidEq]
                  exact ⟨key, message, sig, rfl, messageEq, by rw [kidNamed]; exact checked⟩
                · cases verified
      · cases verified

/-- The hash of a built entry point: 32 bytes. -/
abbrev TreeHash := { hash : Bytes // hash.length = 32 }

/-- What an archive binding says of a release. -/
def bindingOf (release : Release) : ArchiveBinding :=
  match release.archive with
  | none => .absent
  | some (sha256, length) => .bound sha256.text length

/-- The release is the one the entry describes. -/
structure Describes (entry : Entry) (release : Release) : Prop where
  id : release.id = entry.id
  version : release.version = entry.version
  entryPoint : release.entryPoint.text = trim (entry.entryPointSha256.getD "")
  archive : readArchiveBinding entry = bindingOf release

theorem bindingOfFields_bound {recorded : Option String} {recordedLength : Option UInt64}
    {sha256 : String} {length : UInt64}
    (bound : bindingOfFields recorded recordedLength = .bound sha256 length) :
    sha256.toList.length = 64 ∧ ∀ c ∈ sha256.toList, isHexChar c = true := by
  cases recorded with
  | none => simp [bindingOfFields] at bound
  | some text =>
      cases recordedLength with
      | none => simp [bindingOfFields] at bound
      | some given =>
          simp only [bindingOfFields] at bound
          split at bound
          · rename_i hex
            simp only [isHex, Bool.and_eq_true, beq_iff_eq, List.all_eq_true] at hex
            rw [ArchiveBinding.bound.injEq] at bound
            rw [← bound.1, toList_toAsciiLowercase]
            constructor
            · rw [List.length_map]
              exact hex.1
            · intro c mem
              rcases List.mem_map.mp mem with ⟨original, originalMem, rfl⟩
              exact isHexChar_lowerChar (hex.2 original originalMem)
          · cases bound

theorem readArchiveBinding_bound {entry : Entry} {sha256 : String} {length : UInt64}
    (bound : readArchiveBinding entry = .bound sha256 length) :
    sha256.toList.length = 64 ∧ ∀ c ∈ sha256.toList, isHexChar c = true := by
  rw [readArchiveBinding] at bound
  split at bound
  · cases bound
  · exact bindingOfFields_bound bound

/-- A catalog hash that matches a tree hash is a digest in hexadecimal. -/
theorem hexDigest_of_equalFold {treeHash : TreeHash} {expected : String}
    (hashMatches : equalFold (hexEncode treeHash.1) expected = true) :
    ∃ digest : HexDigest, digest.text = expected ∧
      toAsciiLowercase digest.text = hexEncode treeHash.1 := by
  have hex : ∀ c ∈ (hexEncode treeHash.1).toList, c ∈ hexDigits := fun _ mem =>
    mem_hexDigits_of_mem_hexEncode mem
  have lowered := (equalFold_iff_of_hex hex).mp hashMatches
  have sized : expected.toList.length = 64 := by
    have lengths := congrArg (fun text : String => text.toList.length) lowered
    simp only [toList_toAsciiLowercase, List.length_map, toList_hexEncode, length_hexChars,
      treeHash.2] at lengths
    exact lengths
  exact ⟨⟨expected, sized, isHexChar_of_toAsciiLowercase_eq hex lowered⟩, rfl, lowered⟩

/-- The message the entry gives is the message of a release it describes. -/
theorem exists_release {entry : Entry} {digest : HexDigest} {message : Bytes}
    (expected : digest.text = trim (entry.entryPointSha256.getD ""))
    (given : canonicalMessage entry digest.text (readArchiveBinding entry) = some message) :
    ∃ release, Describes entry release ∧ release.entryPoint = digest ∧
      release.message = message := by
  cases binding : readArchiveBinding entry with
  | malformed => simp [binding, canonicalMessage] at given
  | absent =>
      simp only [binding, canonicalMessage, Option.some.injEq] at given
      refine ⟨⟨entry.id, entry.version, digest, none⟩, ⟨rfl, rfl, expected, binding⟩, rfl, ?_⟩
      simp only [Release.message, given]
  | bound sha256 length =>
      simp only [binding, canonicalMessage, Option.some.injEq] at given
      rcases readArchiveBinding_bound binding with ⟨sized, hex⟩
      refine ⟨⟨entry.id, entry.version, digest, some (⟨sha256, sized, hex⟩, length)⟩,
        ⟨rfl, rfl, expected, binding⟩, rfl, ?_⟩
      simp only [Release.message, given]

/-- A verified verdict stands on the tree hash and on a signature over the
message of a release the entry describes. -/
theorem installVerdict_verified {entry : Entry} {jwks : Option Value} {treeHash : TreeHash}
    (verified : installVerdict verify entry (.ok (hexEncode treeHash.1)) jwks = .ok .verified) :
    ∃ release key sig, Describes entry release ∧
      toAsciiLowercase release.entryPoint.text = hexEncode treeHash.1 ∧
      keyFromJwks jwks (signatureKeyId entry) = some key ∧
      verifyEd25519 verify key (signatureKeyId entry) release.message sig = true := by
  rw [installVerdict, Go.decide] at verified
  split at verified
  · cases verified
  · split at verified
    · rename_i hashMatches
      have signatureVerified := Except.ok.inj verified
      rcases decideSignature_verified signatureVerified with ⟨key, message, sig, keyEq,
        given, checked⟩
      rcases hexDigest_of_equalFold hashMatches with ⟨digest, expected, lowered⟩
      rw [← expected] at given
      rcases exists_release expected given with ⟨release, describes, digestEq, rfl⟩
      exact ⟨release, key, sig, describes, by rw [digestEq]; exact lowered, keyEq, checked⟩
    · cases verified

/-- A verified verdict means the release the entry describes, and the message
means the release, exactly when neither the id nor the version of the release
holds what introduces the version line. -/
theorem verified_and_determined_iff (release : Release) :
    ((∀ (verify : Bytes → Bytes → Bytes → Bool) (entry : Entry) (jwks : Option Value)
      (treeHash : TreeHash),
      installVerdict verify entry (.ok (hexEncode treeHash.1)) jwks = .ok .verified →
        ∃ described key sig, Describes entry described ∧
          toAsciiLowercase described.entryPoint.text = hexEncode treeHash.1 ∧
          keyFromJwks jwks (signatureKeyId entry) = some key ∧
          verifyEd25519 verify key (signatureKeyId entry) described.message sig = true) ∧
      ∀ other : Release, other.message = release.message → other = release) ↔
    ¬HoldsVersionLine release.id ∧ ¬HoldsVersionLine release.version := by
  rw [← Release.determined_iff, Release.Determined]
  constructor
  · rintro ⟨_, determined⟩
    exact determined
  · intro determined
    constructor
    · intro verify entry jwks treeHash verified
      exact installVerdict_verified verified
    · exact determined

/-! ## A live entry -/

/-- A catalog entry as the hub signed it. -/
def liveEntry : Entry where
  id := "cpersona"
  version := "2.4.41"
  entryPointSha256 := some "2ed5b73e21f015e4d512e3896240d9dc72920145d65ca62600175a6d74a86acc"
  signaturePayload := some (.object
    [("archive", .object
      [("length", .number (.ofNat 266814)),
        ("sha256", .string "6661e841f319e17b5d72ffacd54fb96e38474fd58a08aaa3496e6229c7549f35")]),
      ("ed25519", .object
        [("key_id", .string "clotohub-master-v1"),
          ("sig", .string ("xGghUfdR47lcgd5SLFjBG2hDhIzWJX7L4yKydzjHhgMD"
            ++ "+cgGSvkppmiCIJbpQ9p2XMRsdw+rK58g6Htl9jNNDw=="))])])

/-- The installed entry point hashes to what the catalog records. -/
def liveHash : TreeHash :=
  ⟨[0x2E, 0xD5, 0xB7, 0x3E, 0x21, 0xF0, 0x15, 0xE4, 0xD5, 0x12, 0xE3, 0x89, 0x62, 0x40, 0xD9, 0xDC,
    0x72, 0x92, 0x01, 0x45, 0xD6, 0x5C, 0xA6, 0x26, 0x00, 0x17, 0x5A, 0x6D, 0x74, 0xA8, 0x6A, 0xCC],
    rfl⟩

/-- The hub's public key. -/
def liveJwk : Members :=
  [("alg", .string "EdDSA"), ("crv", .string "Ed25519"), ("kid", .string "clotohub-master-v1"),
    ("kty", .string "OKP"), ("use", .string "sig"),
    ("x", .string "6eQ-Rf_zveCxBTeU9HFCbvhCLOKHqlNe84dOp0d0fws")]

/-- The hub's key document. -/
def liveJwks : Value :=
  .object [("keys", .array [.object liveJwk])]

/-- The signature check, on the one input recorded for the hub's key. -/
def recordedVerify (key input sig : Bytes) : Bool :=
  some key == Base64.rawUrl.decodeString "6eQ-Rf_zveCxBTeU9HFCbvhCLOKHqlNe84dOp0d0fws"
    && some sig == Base64.std.decodeString ("xGghUfdR47lcgd5SLFjBG2hDhIzWJX7L4yKydzjHhgMD"
      ++ "+cgGSvkppmiCIJbpQ9p2XMRsdw+rK58g6Htl9jNNDw==")
    && input == utf8 ("mgp-seal-ed25519-v1\x00clotohub-master-v1\x00"
      ++ "mgp-seal/v2\nconnector_id=cpersona\nversion=2.4.41\nentry_point_sha256="
      ++ "2ed5b73e21f015e4d512e3896240d9dc72920145d65ca62600175a6d74a86acc\narchive_sha256="
      ++ "6661e841f319e17b5d72ffacd54fb96e38474fd58a08aaa3496e6229c7549f35\narchive_length=266814\n")

/-- The digest the live entry records. -/
def liveDigest : HexDigest where
  text := "2ed5b73e21f015e4d512e3896240d9dc72920145d65ca62600175a6d74a86acc"
  sized := by decide
  hex := List.all_eq_true.mp (by decide)

/-- A release of the live id and version. -/
def liveRelease : Release where
  id := "cpersona"
  version := "2.4.41"
  entryPoint := liveDigest
  archive := none

/-- The live entry verifies, and its verdict means the release it describes. -/
theorem verified_and_determined_iff_liveEntry :
    ∃ described key sig, Describes liveEntry described ∧
      toAsciiLowercase described.entryPoint.text = hexEncode liveHash.1 ∧
      keyFromJwks (some liveJwks) (signatureKeyId liveEntry) = some key ∧
      verifyEd25519 recordedVerify key (signatureKeyId liveEntry) described.message sig = true :=
  ((verified_and_determined_iff liveRelease).mpr
    ⟨not_holdsVersionLine_of_notMem (by decide), not_holdsVersionLine_of_notMem (by decide)⟩).1
      recordedVerify liveEntry (some liveJwks) liveHash (by decide +kernel)

/-- A release whose id runs on into a version line. -/
def runOnId : Release where
  id := "demo\nversion=1"
  version := "2"
  entryPoint := liveDigest
  archive := none

/-- A release whose version runs on into a version line. -/
def runOnVersion : Release where
  id := "demo"
  version := "1\nversion=2"
  entryPoint := liveDigest
  archive := none

/-- Two releases can share their message, and so a signature. -/
theorem not_messagesDistinct :
    ¬∀ left right : Release, left.message = right.message → left = right := by
  intro distinct
  have sameTail : "demo\nversion=1".toList ++ '\n' :: ("version=".toList ++ "2".toList)
      = "demo".toList ++ '\n' :: ("version=".toList ++ "1\nversion=2".toList) := by
    iterate 5 rw [String.toList_ofList]
    rfl
  have sameMessage : runOnId.message = runOnVersion.message := by
    rw [Release.message_eq_iff]
    exact congrArg (fun tail => magic ++ '1' :: (idLine ++ tail) ++
      lineChars entryPointLine liveDigest.text.toList) sameTail
  have sameVersion := congrArg Release.version (distinct runOnId runOnVersion sameMessage)
  exact absurd sameVersion (by decide)

end ClotoCore.Seal.Go
