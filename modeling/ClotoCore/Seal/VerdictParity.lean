import ClotoCore.Seal.Attempt

/-!
# Kernel and installer on one entry

Once an entry reaches its signature check, the two JSON readers part in four
places: at an archive block that is no object, at two keys of one id, at an
element of the key list that is no key, and at names that fold into `keys`.
Kernel and installer agree on exactly the inputs that reach none of them.
-/

namespace ClotoCore.Seal

open ClotoCore.Encoding ClotoCore.Json

/-! ## The keys of a document -/

/-- The keys that parse, with their ids. -/
def keysOf (maps : List (Option Go.Members)) : List (String × Bytes) :=
  maps.filterMap fun jwk => (Go.parseJwk jwk).toOption.map fun pair => (pair.2, pair.1)

/-- The elements of the `keys` member. -/
def jwksElements (jwks : Option Value) : List Value :=
  ((jwks.bind fun document => document.get "keys").bind Value.asArray).getD []

/-- The keys among the elements of the `keys` member. -/
def documentKeys (jwks : Option Value) : List (String × Bytes) :=
  keysOf ((jwksElements jwks).map Value.asObject)

/-- The keys in what the installer's decoder reads. -/
def decodedKeys (jwks : Option Value) : List (String × Bytes) :=
  keysOf ((jwks.bind Go.decodeKeys).getD [])

/-- The kernel takes the last key of an id. -/
theorem hubSigningKey_eq {mgp : MgpSeal} {verify : Bytes → Bytes → Bytes → Bool}
    (documented : mgp.Documented verify) (jwks : Option Value) (kid : String) :
    hubSigningKey mgp jwks kid = lastValue (documentKeys jwks) kid := by
  cases jwks with
  | none => rfl
  | some document =>
      rw [hubSigningKey, Option.bind_some, jwksKeys, documentKeys, jwksElements, keysOf,
        List.filterMap_map, Option.bind_some]
      congr 2
      funext jwk
      rw [documented.publicKeyFromJwk, Function.comp_apply]
      cases jwk.asObject <;> rfl

/-- The installer takes the first. -/
theorem firstKey_eq (maps : List (Option Go.Members)) (kid : String) :
    Go.firstKey maps kid = (keysOf maps).lookup kid := by
  induction maps with
  | nil => rfl
  | cons jwk rest ih =>
      rw [Go.firstKey, keysOf, List.filterMap_cons, ← keysOf]
      cases Go.parseJwk jwk with
      | error text => exact ih
      | ok pair =>
          simp only [Except.toOption, Option.map_some, List.lookup_cons]
          by_cases same : pair.2 = kid
          · simp [same]
          · have differs : (kid == pair.2) = false := beq_false_of_ne (Ne.symm same)
            rw [if_neg same, differs]
            exact ih

theorem keyFromJwks_eq (jwks : Option Value) (kid : String) :
    Go.keyFromJwks jwks kid = (decodedKeys jwks).lookup kid := by
  cases jwks with
  | none => rfl
  | some document =>
      rw [Go.keyFromJwks, decodedKeys, Option.bind_some]
      cases Go.decodeKeys document with
      | none => rfl
      | some maps => exact firstKey_eq maps kid

/-! ## Decoding the key list -/

/-- An element that is neither an object nor null. -/
def IsStray (element : Value) : Prop :=
  element.asObject = none ∧ element.isNull = false

/-- The element list holds a stray element. -/
def HoldsStray (jwks : Option Value) : Prop :=
  ∃ element ∈ jwksElements jwks, IsStray element

/-- The member names that the installer's decoder takes for `keys`. -/
def foldedNames (jwks : Option Value) : List String :=
  (((jwks.bind Value.asObject).getD []).filter fun member =>
    Go.foldName member.1 = Go.foldName "keys").map Prod.fst

/-- At most one member name folds into `keys`, and it is `keys`. -/
def NamesPlain (jwks : Option Value) : Prop :=
  foldedNames jwks = [] ∨ foldedNames jwks = ["keys"]

/-- Without stray elements, a list is decoded element by element. -/
theorem decodeElements_eq {elements : List Value}
    (noStray : ¬∃ element ∈ elements, IsStray element) :
    Go.decodeElements [] elements = some (elements.map Value.asObject) := by
  induction elements with
  | nil => rfl
  | cons element rest ih =>
      simp only [List.exists_mem_cons_iff, not_or] at noStray
      have restDecoded := ih noStray.2
      cases element with
      | object members => simp [Go.decodeElements, restDecoded, Value.asObject]
      | null => simp [Go.decodeElements, restDecoded, Value.asObject]
      | _ => exact absurd ⟨rfl, rfl⟩ noStray.1

/-- With one, the decoder stops. -/
theorem decodeElements_eq_none {elements : List Value}
    (stray : ∃ element ∈ elements, IsStray element) (slots : List (Option Go.Members)) :
    Go.decodeElements slots elements = none := by
  induction elements generalizing slots with
  | nil => simp at stray
  | cons element rest ih =>
      rcases List.exists_mem_cons_iff .. |>.mp stray with elementStray | restStray
      · cases element with
        | object members => cases elementStray.1
        | null => cases elementStray.2
        | _ => rfl
      · cases element <;> simp [Go.decodeElements, ih restStray]

/-- The decoder looks at the members whose names fold into `keys`. -/
theorem foldlM_decodeMember (members : Go.Members) (field : Go.KeysField) :
    members.foldlM Go.decodeMember field
      = (members.filter fun member => Go.foldName member.1 = Go.foldName "keys").foldlM
          Go.decodeMember field := by
  rw [List.foldlM_filter]
  congr 1
  funext before member
  by_cases folds : Go.foldName member.1 = Go.foldName "keys"
  · simp [folds]
  · simp [folds, Go.decodeMember]

/-- The elements of a document whose members named like `keys` are these. -/
theorem jwksElements_object {members named : Go.Members}
    (namedEq : (members.filter fun member => Go.foldName member.1 = Go.foldName "keys") = named) :
    jwksElements (some (.object members)) = ((lastValue named "keys").bind Value.asArray).getD [] := by
  rw [← namedEq, lastValue_filter (by simp)]
  rfl

theorem length_of_decodeElements {decoded : List (Option Go.Members)} {elements : List Value}
    (decodedEq : Go.decodeElements [] elements = some decoded) :
    decoded.length = elements.length := by
  by_cases stray : ∃ element ∈ elements, IsStray element
  · rw [decodeElements_eq_none stray] at decodedEq
    cases decodedEq
  · rw [decodeElements_eq stray, Option.some.injEq] at decodedEq
    rw [← decodedEq, List.length_map]

/-- A single `keys` member is decoded to its elements. -/
theorem decodeMember_keys (value : Value) :
    ((Go.decodeMember ⟨[], 0⟩ ("keys", value)).map fun field => field.slots.take field.shown).getD []
      = (Go.decodeElements [] (value.asArray.getD [])).getD [] := by
  cases value with
  | array items =>
      cases items with
      | nil => simp [Go.decodeMember, Go.decodeElements, Value.asArray]
      | cons item rest =>
          cases decoded : Go.decodeElements [] (item :: rest) with
          | none => simp [Go.decodeMember, Value.asArray, decoded]
          | some maps =>
              have whole : maps.take (rest.length + 1) = maps :=
                List.take_of_length_le (length_of_decodeElements decoded).le
              simp [Go.decodeMember, Value.asArray, decoded, whole]
  | _ => simp [Go.decodeMember, Go.decodeElements, Value.asArray]

/-- Under plain names, the decoder reads the elements. -/
theorem decodeKeys_eq {jwks : Option Value} (plain : NamesPlain jwks) :
    (jwks.bind Go.decodeKeys).getD [] = (Go.decodeElements [] (jwksElements jwks)).getD [] := by
  cases jwks with
  | none => rfl
  | some document =>
      cases document with
      | object members =>
          rw [Option.bind_some, Go.decodeKeys, foldlM_decodeMember]
          generalize namedEq :
            (members.filter fun member => Go.foldName member.1 = Go.foldName "keys") = named
          rw [jwksElements_object namedEq]
          have names : foldedNames (some (.object members)) = named.map Prod.fst := by
            rw [foldedNames, ← namedEq]
            rfl
          rw [NamesPlain, names] at plain
          match named with
          | [] => rfl
          | [(name, value)] =>
              have nameEq : name = "keys" := by simpa using plain
              have last : lastValue [("keys", value)] "keys" = some value := by simp [lastValue]
              rw [nameEq, last, Option.bind_some, ← decodeMember_keys]
              simp
          | first :: second :: rest => simp at plain
      | _ => rfl

theorem decodedKeys_eq {jwks : Option Value} (plain : NamesPlain jwks)
    (noStray : ¬HoldsStray jwks) : decodedKeys jwks = documentKeys jwks := by
  rw [decodedKeys, decodeKeys_eq plain, decodeElements_eq noStray, Option.getD_some, documentKeys]

theorem decodedKeys_eq_nil {jwks : Option Value} (plain : NamesPlain jwks)
    (stray : HoldsStray jwks) : decodedKeys jwks = [] := by
  rw [decodedKeys, decodeKeys_eq plain, decodeElements_eq_none stray]
  rfl

/-! ## The archive binding -/

/-- The entry's `archive` member is no object. -/
def ArchiveUnread (entry : Entry) : Prop :=
  ∃ archive, payloadField entry "archive" = some archive ∧ archive.asObject = none

/-- The two readings of a length agree. -/
theorem asU64_eq (value : Value) : value.asU64 = Go.asUint64 value := by
  cases value with
  | number literal =>
      rcases literal with ⟨negative, integer, fraction, exponent⟩
      simp only [Value.asU64, Go.asUint64]
      by_cases pointed : fraction ≠ [] ∨ exponent ≠ none
      · rw [if_pos pointed, if_neg]
        rintro ⟨_, fractionEq, exponentEq, _⟩
        rcases pointed with fractional | exponential
        · exact fractional fractionEq
        · exact exponential exponentEq
      · rw [if_neg pointed]
        simp only [not_or, ne_eq, not_not] at pointed
        cases negative <;> simp [pointed]
  | _ => rfl

/-- The two readings of the archive's fields agree. -/
theorem bindingOfFields_eq (sha256 : Option Value) (length : Option UInt64) :
    bindingOfFields (sha256.bind Value.asStr) length
      = Go.bindingOfFields (sha256.bind Go.unmarshalString) length := by
  cases sha256 with
  | none => rfl
  | some value =>
      cases value with
      | string text =>
          cases length with
          | none => rfl
          | some length =>
              simp only [Option.bind_some, Value.asStr, Go.unmarshalString, bindingOfFields,
                Go.bindingOfFields, Go.isHex, Bool.and_eq_true, beq_iff_eq]
              by_cases sized : (trim text).toList.length = 64
              · by_cases hex : (trim text).toList.all isHexChar = true
                · rw [if_neg (by simp [sized, hex]), if_pos ⟨sized, hex⟩]
                · rw [if_pos (by simp [hex]), if_neg fun both => hex both.2]
              · rw [if_pos (by simp [sized]), if_neg fun both => sized both.1]
      | null =>
          have emptyNotHex : Go.isHex (trim "") 64 = false := by decide
          cases length with
          | none => rfl
          | some length =>
              simp only [Option.bind_some, Value.asStr, Go.unmarshalString, Go.bindingOfFields,
                emptyNotHex]
              rfl
      | _ => cases length <;> rfl

/-- Off an `archive` member that is no object, the bindings agree. -/
theorem archiveBinding_eq {entry : Entry} (read : ¬ArchiveUnread entry) :
    archiveBinding entry = Go.readArchiveBinding entry := by
  rw [archiveBinding, Go.readArchiveBinding, signatureField_eq, ← payloadField]
  cases archiveEq : payloadField entry "archive" with
  | none => rfl
  | some archive =>
      cases archive with
      | object members =>
          have lengthEq : (lastValue members "length").bind Value.asU64
              = (lastValue members "length").bind Go.asUint64 :=
            Option.bind_congr fun value _ => asU64_eq value
          simp only [Option.bind_some, Value.asObject, Value.getStr, Value.get]
          rw [lengthEq]
          exact bindingOfFields_eq _ _
      | _ => exact absurd ⟨_, archiveEq, rfl⟩ read

/-- On one, the kernel has no message and the installer falls back to the message
without an archive. -/
theorem archiveBinding_of_unread {entry : Entry} (unread : ArchiveUnread entry) :
    archiveBinding entry = .malformed ∧ Go.readArchiveBinding entry = .absent := by
  rcases unread with ⟨archive, archiveEq, notObject⟩
  rw [archiveBinding, Go.readArchiveBinding, signatureField_eq, ← payloadField, archiveEq]
  cases archive with
  | object members => cases notObject
  | _ => exact ⟨rfl, rfl⟩

/-! ## Where the verdicts part -/

/-- Where the two readers can part. -/
inductive Divergence where
  | unreadArchive
  | repeatedKid
  | strayElement
  | foldedName
  deriving DecidableEq

/-- The input reaches the signature check, with this key id. -/
def ReachesCheck (entry : Entry) (treeHash : Except Bytes Go.TreeHash) (kid : String) : Prop :=
  (∃ expected, HashMatches entry treeHash expected) ∧
    (blockText entry "sig").bind signatureBytes ≠ none ∧
    (blockText entry "key_id").bind boundedKeyId = some kid

/-- The readers part on the input, as the one kind of divergence. -/
def PartsAt (entry : Entry) (jwks : Option Value) (kid : String) : Divergence → Prop
  | .unreadArchive => ArchiveUnread entry ∧ (decodedKeys jwks).lookup kid ≠ none
  | .repeatedKid =>
      archiveBinding entry ≠ .malformed ∧ NamesPlain jwks ∧ ¬HoldsStray jwks ∧
        (documentKeys jwks).lookup kid ≠ lastValue (documentKeys jwks) kid
  | .strayElement =>
      archiveBinding entry ≠ .malformed ∧ NamesPlain jwks ∧ HoldsStray jwks ∧
        lastValue (documentKeys jwks) kid ≠ none
  | .foldedName =>
      archiveBinding entry ≠ .malformed ∧ ¬NamesPlain jwks ∧
        (decodedKeys jwks).lookup kid ≠ lastValue (documentKeys jwks) kid

/-- Under a usable binding, the keys differ exactly in the last three ways. -/
theorem keys_differ_iff {entry : Entry} {jwks : Option Value} {kid : String}
    (usable : archiveBinding entry ≠ .malformed) :
    (decodedKeys jwks).lookup kid ≠ lastValue (documentKeys jwks) kid ↔
      PartsAt entry jwks kid .repeatedKid ∨ PartsAt entry jwks kid .strayElement ∨
        PartsAt entry jwks kid .foldedName := by
  by_cases plain : NamesPlain jwks
  · by_cases stray : HoldsStray jwks
    · rw [decodedKeys_eq_nil plain stray, List.lookup_nil]
      simp [PartsAt, usable, plain, stray, eq_comm]
    · rw [decodedKeys_eq plain stray]
      simp [PartsAt, usable, plain, stray]
  · simp [PartsAt, usable, plain]

section Parting

variable {mgp : MgpSeal} {verify : Bytes → Bytes → Bytes → Bool} {entry : Entry}
  {jwks : Option Value} {kid : String} {sig : Bytes}

/-- With a signature and a key id, the kernel checks under the last key of the id. -/
theorem kernelAttempt_eq (documented : mgp.Documented verify) (expected : String)
    (sigEq : (blockText entry "sig").bind signatureBytes = some sig)
    (kidEq : (blockText entry "key_id").bind boundedKeyId = some kid) :
    kernelAttempt mgp entry jwks expected
      = (lastValue (documentKeys jwks) kid).bind fun key =>
          (Go.canonicalMessage entry expected (archiveBinding entry)).map fun message =>
            ⟨key, kid, message, sig⟩ := by
  rw [kernelAttempt, attemptOf_some _ _ sigEq kidEq, entrySignatureKid_eq, eq_of_boundedKeyId kidEq,
    Option.bind_some, hubSigningKey_eq documented, canonicalMessage_eq documented]

/-- The installer checks under the first key it decodes. -/
theorem installerAttempt_eq (expected : String)
    (sigEq : (blockText entry "sig").bind signatureBytes = some sig)
    (kidEq : (blockText entry "key_id").bind boundedKeyId = some kid) :
    installerAttempt entry jwks expected
      = ((decodedKeys jwks).lookup kid).bind fun key =>
          (Go.canonicalMessage entry expected (Go.readArchiveBinding entry)).map fun message =>
            ⟨key, kid, message, sig⟩ := by
  rw [← blockString_bind entry "sig" signatureBytes_empty] at sigEq
  rw [← blockString_bind entry "key_id" boundedKeyId_empty] at kidEq
  rw [installerAttempt, attemptOf_some _ _ sigEq kidEq, signatureKeyId_eq, eq_of_boundedKeyId kidEq,
    Option.getD_some, keyFromJwks_eq]

/-- Where the readers do not part, both sides have the same to check. -/
theorem attempts_eq (documented : mgp.Documented verify) {expected : String}
    (together : ∀ kid, (blockText entry "sig").bind signatureBytes ≠ none →
      (blockText entry "key_id").bind boundedKeyId = some kid →
        ∀ divergence, ¬PartsAt entry jwks kid divergence) :
    kernelAttempt mgp entry jwks expected = installerAttempt entry jwks expected := by
  cases sigEq : (blockText entry "sig").bind signatureBytes with
  | none =>
      have stringEq := (blockString_bind entry "sig" signatureBytes_empty).trans sigEq
      rw [kernelAttempt, installerAttempt, attemptOf_noSignature _ _ sigEq,
        attemptOf_noSignature _ _ stringEq]
  | some sig =>
      cases kidEq : (blockText entry "key_id").bind boundedKeyId with
      | none =>
          have stringEq := (blockString_bind entry "key_id" boundedKeyId_empty).trans kidEq
          rw [kernelAttempt, installerAttempt, attemptOf_noKeyId _ _ kidEq,
            attemptOf_noKeyId _ _ stringEq]
      | some kid =>
          have apart := together kid (by simp [sigEq]) kidEq
          rw [kernelAttempt_eq documented expected sigEq kidEq,
            installerAttempt_eq expected sigEq kidEq]
          by_cases unread : ArchiveUnread entry
          · have noKey : (decodedKeys jwks).lookup kid = none :=
              not_not.mp fun found => apart .unreadArchive ⟨unread, found⟩
            rw [(archiveBinding_of_unread unread).1, noKey]
            simp [Go.canonicalMessage]
          · rw [← archiveBinding_eq unread]
            by_cases usable : archiveBinding entry = .malformed
            · simp [usable, Go.canonicalMessage]
            · have keyEq : (decodedKeys jwks).lookup kid = lastValue (documentKeys jwks) kid := by
                by_contra differ
                rcases (keys_differ_iff usable).mp differ with repeated | stray | folded
                · exact apart .repeatedKid repeated
                · exact apart .strayElement stray
                · exact apart .foldedName folded
              rw [keyEq]

/-- A message is reconstructed from a binding that is not malformed. -/
theorem exists_canonicalMessage {binding : ArchiveBinding} (usable : binding ≠ .malformed)
    (entry : Entry) (expected : String) :
    ∃ message, Go.canonicalMessage entry expected binding = some message := by
  cases binding with
  | absent => exact ⟨_, rfl⟩
  | malformed => exact absurd rfl usable
  | bound sha256 length => exact ⟨_, rfl⟩

theorem usable_of_parts {divergence : Divergence} (parts : PartsAt entry jwks kid divergence)
    (read : ¬ArchiveUnread entry) :
    archiveBinding entry ≠ .malformed ∧
      (decodedKeys jwks).lookup kid ≠ lastValue (documentKeys jwks) kid := by
  cases divergence with
  | unreadArchive => exact absurd parts.1 read
  | repeatedKid => exact ⟨parts.1, (keys_differ_iff parts.1).mpr (Or.inl parts)⟩
  | strayElement => exact ⟨parts.1, (keys_differ_iff parts.1).mpr (Or.inr (Or.inl parts))⟩
  | foldedName => exact ⟨parts.1, (keys_differ_iff parts.1).mpr (Or.inr (Or.inr parts))⟩

/-- Where the readers part, the keys that are checked under differ. -/
theorem attempt_keys_ne (documented : mgp.Documented verify) (expected : String)
    (sigEq : (blockText entry "sig").bind signatureBytes = some sig)
    (kidEq : (blockText entry "key_id").bind boundedKeyId = some kid)
    {divergence : Divergence} (parts : PartsAt entry jwks kid divergence) :
    (kernelAttempt mgp entry jwks expected).map Attempt.key
      ≠ (installerAttempt entry jwks expected).map Attempt.key := by
  rw [kernelAttempt_eq documented expected sigEq kidEq, installerAttempt_eq expected sigEq kidEq]
  by_cases unread : ArchiveUnread entry
  · rcases archiveBinding_of_unread unread with ⟨malformed, absent⟩
    rw [malformed, absent]
    cases divergence with
    | unreadArchive =>
        rcases Option.ne_none_iff_exists'.mp parts.2 with ⟨key, found⟩
        simp [Go.canonicalMessage, found]
    | _ => exact absurd malformed parts.1
  · rcases usable_of_parts parts unread with ⟨usable, differ⟩
    rcases exists_canonicalMessage usable entry expected with ⟨message, messageEq⟩
    have keyOnly : ∀ keys : Option Bytes, ((keys.bind fun key => (some message).map fun message =>
        (⟨key, kid, message, sig⟩ : Attempt)).map Attempt.key) = keys := by
      intro keys
      cases keys <;> rfl
    rw [← archiveBinding_eq unread, messageEq, keyOnly, keyOnly]
    exact differ.symm

end Parting

/-- Kernel and installer agree on exactly the inputs on which the readers do not
part once the signature check is reached. -/
theorem verdictsAgree_iff (entry : Entry) (treeHash : Except Bytes Go.TreeHash)
    (jwks : Option Value) :
    VerdictsAgree entry treeHash jwks ↔
      ∀ kid, ReachesCheck entry treeHash kid →
        ∀ divergence, ¬PartsAt entry jwks kid divergence := by
  constructor
  · rintro agree kid ⟨⟨expected, hashMatches⟩, signed, kidEq⟩ divergence parts
    rcases Option.ne_none_iff_exists'.mp signed with ⟨sig, sigEq⟩
    let accepts : Bytes → Bytes → Bytes → Bool := fun _ _ _ => true
    have someLibrary := MgpSeal.documented_reproduced accepts
    -- what the kernel checks does not depend on the signature check
    have outcomes : ∀ verify, attemptOutcome verify
        (kernelAttempt (MgpSeal.reproduced accepts) entry jwks expected)
        = attemptOutcome verify (installerAttempt entry jwks expected) := by
      intro verify
      have documented := MgpSeal.documented_reproduced verify
      have agreed := agree verify _ documented
      rw [kernelOutcome_eq documented jwks hashMatches, installerOutcome_eq jwks hashMatches,
        kernelAttempt_eq documented expected sigEq kidEq] at agreed
      rw [kernelAttempt_eq someLibrary expected sigEq kidEq]
      exact agreed
    exact attempt_keys_ne someLibrary expected sigEq kidEq parts (key_eq_of_outcomes_eq outcomes)
  · intro together verify mgp documented
    by_cases matched : ∃ expected, HashMatches entry treeHash expected
    · rcases matched with ⟨expected, hashMatches⟩
      rw [kernelOutcome_eq documented jwks hashMatches, installerOutcome_eq jwks hashMatches,
        attempts_eq documented fun kid signed kidEq =>
          together kid ⟨⟨expected, hashMatches⟩, signed, kidEq⟩]
    · exact outcomes_eq_of_not_hashMatches jwks (not_exists.mp matched)

/-! ## An archive block that is no object -/

/-- The live entry with a text where the archive block stands. -/
def unreadEntry : Entry :=
  { Go.liveEntry with
    signaturePayload := some (.object
      [("archive", .string "6661e841f319e17b5d72ffacd54fb96e38474fd58a08aaa3496e6229c7549f35"),
        ("ed25519", .object
          [("key_id", .string "clotohub-master-v1"),
            ("sig", .string ("xGghUfdR47lcgd5SLFjBG2hDhIzWJX7L4yKydzjHhgMD"
              ++ "+cgGSvkppmiCIJbpQ9p2XMRsdw+rK58g6Htl9jNNDw=="))])]) }

/-- The signature check, on the entry's message without an archive. -/
def unreadVerify (key input sig : Bytes) : Bool :=
  some key == Base64.rawUrl.decodeString "6eQ-Rf_zveCxBTeU9HFCbvhCLOKHqlNe84dOp0d0fws"
    && some sig == Base64.std.decodeString ("xGghUfdR47lcgd5SLFjBG2hDhIzWJX7L4yKydzjHhgMD"
      ++ "+cgGSvkppmiCIJbpQ9p2XMRsdw+rK58g6Htl9jNNDw==")
    && input == utf8 ("mgp-seal-ed25519-v1\x00clotohub-master-v1\x00"
      ++ "mgp-seal/v1\nconnector_id=cpersona\nversion=2.4.41\nentry_point_sha256="
      ++ "2ed5b73e21f015e4d512e3896240d9dc72920145d65ca62600175a6d74a86acc\n")

/-- The installer verifies the entry without its archive, and the kernel does not. -/
theorem not_verdictsAgree :
    ¬∀ entry treeHash jwks, VerdictsAgree entry treeHash jwks := by
  intro agree
  have agreed := agree unreadEntry (.ok Go.liveHash) (some Go.liveJwks) unreadVerify _
    (MgpSeal.documented_reproduced _)
  exact absurd agreed (by decide +kernel)

end ClotoCore.Seal
