import ClotoCore.Seal.Verdict

/-!
# What a verdict checks

Kernel and installer either have something to check, a key, a key id, a message
and a signature, or let the install proceed unsealed.  Behind the comparison of
the hashes, both outcomes are functions of what there is to check.
-/

namespace ClotoCore.Seal

open ClotoCore.Encoding ClotoCore.Json

/-- What a verdict means for the install. -/
inductive Outcome where
  | verified
  | unsealed
  | refused
  deriving DecidableEq

/-- The outcome of the kernel's verdict. -/
def kernelOutcome : Except InstallFailure SealVerdict → Outcome
  | .ok .verified => .verified
  | .ok (.unsealed _) => .unsealed
  | .error _ => .refused

/-- The outcome of the installer's verdict. -/
def installerOutcome : Except Bytes Verdict → Outcome
  | .ok .verified => .verified
  | .ok (.unsealed _) => .unsealed
  | .ok (.tamper _ _) => .refused
  | .error _ => .refused

/-- A signature of 64 bytes. -/
def signatureBytes (text : String) : Option Bytes :=
  (Base64.std.decodeString (trim text)).filter fun sig => sig.length = 64

/-- A key id that is not empty and of bounded length. -/
def boundedKeyId (kid : String) : Option String :=
  if kid = "" ∨ Go.keyIdMaxLen < (utf8 kid).length then none else some kid

/-- The library does what the installer reproduces of it. -/
structure MgpSeal.Documented (mgp : MgpSeal) (verify : Bytes → Bytes → Bytes → Bool) : Prop where
  canonicalMessage : mgp.canonicalMessage = canonicalMessageV1
  canonicalMessageV2 : mgp.canonicalMessageV2 = Seal.canonicalMessageV2
  signatureFromBase64 : mgp.signatureFromBase64 = signatureBytes
  keyIdNew : mgp.keyIdNew = boundedKeyId
  publicKeyFromJwk : ∀ jwk, mgp.publicKeyFromJwk jwk
    = jwk.asObject.bind fun members => (Go.parseJwk (some members)).toOption
  verify : mgp.verify = Go.verifyEd25519 verify

/-- A library that does. -/
def MgpSeal.reproduced (verify : Bytes → Bytes → Bytes → Bool) : MgpSeal where
  canonicalMessage := canonicalMessageV1
  canonicalMessageV2 := Seal.canonicalMessageV2
  signatureFromBase64 := signatureBytes
  keyIdNew := boundedKeyId
  publicKeyFromJwk jwk :=
    jwk.asObject.bind fun members => (Go.parseJwk (some members)).toOption
  verify := Go.verifyEd25519 verify

theorem MgpSeal.documented_reproduced (verify : Bytes → Bytes → Bytes → Bool) :
    (MgpSeal.reproduced verify).Documented verify := by
  constructor <;> simp only [MgpSeal.reproduced, implies_true]

/-- Kernel and installer come to one outcome, whichever signatures check. -/
def VerdictsAgree (entry : Entry) (treeHash : Except Bytes Go.TreeHash) (jwks : Option Value) :
    Prop :=
  ∀ (verify : Bytes → Bytes → Bytes → Bool) (mgp : MgpSeal), mgp.Documented verify →
    kernelOutcome (kernelVerdict mgp entry (treeHash.map fun hash => hexEncode hash.1) jwks)
      = installerOutcome
          (Go.installVerdict verify entry (treeHash.map fun hash => hexEncode hash.1) jwks)

/-! ## What is checked -/

/-- A key, a key id, a message and a signature. -/
structure Attempt where
  key : Bytes
  kid : String
  message : Bytes
  sig : Bytes

/-- The outcome of checking, or of having nothing to check. -/
def attemptOutcome (verify : Bytes → Bytes → Bytes → Bool) : Option Attempt → Outcome
  | none => .unsealed
  | some attempt =>
      if Go.verifyEd25519 verify attempt.key attempt.kid attempt.message attempt.sig then .verified
      else .refused

/-- What either side has to check, from the parts it reads. -/
def attemptOf (sigB64 kid : Option String) (hubKey : Option Bytes) (message : Option Bytes) :
    Option Attempt := do
  let sig ← sigB64.bind signatureBytes
  let kid ← kid.bind boundedKeyId
  let key ← hubKey
  let message ← message
  some ⟨key, kid, message, sig⟩

/-- A member of the signature payload. -/
def payloadField (entry : Entry) (name : String) : Option Value :=
  entry.signaturePayload.bind fun payload => payload.get name

theorem signatureField_eq (entry : Entry) (name : String) :
    Go.signatureField entry name = (payloadField entry name).bind Value.asObject := by
  rw [Go.signatureField, payloadField]
  cases entry.signaturePayload with
  | none => rfl
  | some payload =>
      cases payload with
      | object members =>
          simp only [Go.unmarshalMap, Go.mapGet, Option.bind_some, Value.get]
          cases lastValue members name with
          | none => rfl
          | some raw => cases raw <;> rfl
      | _ => rfl

/-- A text member of the `ed25519` block, as the kernel reads it. -/
def blockText (entry : Entry) (name : String) : Option String :=
  (payloadField entry "ed25519").bind fun block => block.getStr name

/-- A text member of the `ed25519` block, as the installer reads it. -/
def blockString (entry : Entry) (name : String) : Option String :=
  (Go.signatureField entry "ed25519").bind fun ed =>
    (lastValue ed name).bind Go.unmarshalString

/-- The two readings of a text differ at most in an empty text. -/
theorem blockString_bind {α : Type} (entry : Entry) (name : String) {use : String → Option α}
    (useEmpty : use "" = none) :
    (blockString entry name).bind use = (blockText entry name).bind use := by
  rw [blockString, blockText, signatureField_eq]
  cases payloadField entry "ed25519" with
  | none => rfl
  | some block =>
      cases block with
      | object members =>
          simp only [Option.bind_some, Value.asObject, Value.getStr, Value.get]
          cases lastValue members name with
          | none => rfl
          | some value => cases value <;> simp [Go.unmarshalString, Value.asStr, useEmpty]
      | _ => rfl

section Attempts

variable (hubKey message : Option Bytes)

theorem attemptOf_noSignature {sigB64 kid : Option String}
    (undecoded : sigB64.bind signatureBytes = none) :
    attemptOf sigB64 kid hubKey message = none := by
  simp [attemptOf, undecoded]

theorem attemptOf_noKeyId {sigB64 kid : Option String} (unbounded : kid.bind boundedKeyId = none) :
    attemptOf sigB64 kid hubKey message = none := by
  cases decoded : sigB64.bind signatureBytes <;> simp [attemptOf, decoded, unbounded]

theorem attemptOf_some {sigB64 kid : Option String} {sig : Bytes} {keyId : String}
    (decoded : sigB64.bind signatureBytes = some sig)
    (bounded : kid.bind boundedKeyId = some keyId) :
    attemptOf sigB64 kid hubKey message
      = hubKey.bind fun key => message.map fun message => ⟨key, keyId, message, sig⟩ := by
  simp only [attemptOf, decoded, bounded]
  cases hubKey <;> cases message <;> rfl

/-- The installer's signature layer checks what it has read. -/
theorem decideSignature_outcome (verify : Bytes → Bytes → Bytes → Bool) (entry : Entry)
    (expected : String) (hubKey : Option Bytes) :
    installerOutcome (.ok (Go.decideSignature verify entry expected hubKey))
      = attemptOutcome verify (attemptOf (blockString entry "sig") (blockString entry "key_id")
          hubKey (Go.canonicalMessage entry expected (Go.readArchiveBinding entry))) := by
  rw [Go.decideSignature, blockString, blockString]
  cases Go.signatureField entry "ed25519" with
  | none =>
      rw [attemptOf_noSignature _ _ (by simp)]
      simp only [installerOutcome, attemptOutcome]
  | some ed =>
      simp only [Option.bind_some]
      cases (lastValue ed "sig").bind Go.unmarshalString with
      | none =>
          rw [attemptOf_noSignature _ _ (by simp)]
          simp only [installerOutcome, attemptOutcome]
      | some sigB64 =>
          cases (lastValue ed "key_id").bind Go.unmarshalString with
          | none =>
              rw [attemptOf_noKeyId _ _ (by simp)]
              simp only [installerOutcome, attemptOutcome]
          | some kid =>
              simp only
              cases decoded : Base64.std.decodeString (trim sigB64) with
              | none =>
                  rw [attemptOf_noSignature _ _ (by simp [signatureBytes, decoded])]
                  simp only [installerOutcome, attemptOutcome]
              | some sig =>
                  simp only
                  by_cases sized : sig.length = 64
                  · by_cases unbounded : kid = "" ∨ Go.keyIdMaxLen < (utf8 kid).length
                    · rw [if_pos (Or.inr unbounded),
                        attemptOf_noKeyId _ _ (by simp [boundedKeyId, unbounded])]
                      simp only [installerOutcome, attemptOutcome]
                    · have usable : ¬(sig.length ≠ 64 ∨ kid = "" ∨
                          Go.keyIdMaxLen < (utf8 kid).length) := by
                        simp only [not_or, not_not]
                        exact ⟨sized, not_or.mp unbounded⟩
                      have sigUsable : (some sigB64).bind signatureBytes = some sig := by
                        simp [signatureBytes, decoded, sized]
                      have kidUsable : (some kid).bind boundedKeyId = some kid := by
                        simp [boundedKeyId, unbounded]
                      rw [if_neg usable, attemptOf_some _ _ sigUsable kidUsable]
                      cases hubKey with
                      | none => simp only [installerOutcome, attemptOutcome, Option.bind_none]
                      | some key =>
                          simp only [Option.bind_some]
                          cases Go.canonicalMessage entry expected
                            (Go.readArchiveBinding entry) with
                          | none => simp only [installerOutcome, attemptOutcome, Option.map_none]
                          | some canonical =>
                              simp only [Option.map_some, attemptOutcome]
                              split <;> rfl
                  · rw [if_pos (Or.inl sized),
                      attemptOf_noSignature _ _ (by simp [signatureBytes, decoded, sized])]
                    simp only [installerOutcome, attemptOutcome]

/-- The kernel's signature layer checks what it has read. -/
theorem signatureVerdict_outcome {mgp : MgpSeal} {verify : Bytes → Bytes → Bytes → Bool}
    (documented : mgp.Documented verify) (entry : Entry) (expected : String)
    (hubKey : Option Bytes) :
    kernelOutcome (signatureVerdict mgp entry expected hubKey)
      = attemptOutcome verify (attemptOf (blockText entry "sig") (blockText entry "key_id") hubKey
          (canonicalMessage mgp entry expected (archiveBinding entry))) := by
  rw [signatureVerdict, blockText, blockText, payloadField, documented.signatureFromBase64,
    documented.keyIdNew]
  cases entry.signaturePayload.bind fun payload => payload.get "ed25519" with
  | none =>
      rw [attemptOf_noSignature _ _ (by simp)]
      simp only [kernelOutcome, attemptOutcome]
  | some block =>
      simp only [Option.bind_some]
      cases block.getStr "sig" with
      | none =>
          rw [attemptOf_noSignature _ _ (by simp)]
          simp only [kernelOutcome, attemptOutcome]
      | some sigB64 =>
          cases block.getStr "key_id" with
          | none =>
              rw [attemptOf_noKeyId _ _ (by simp)]
              simp only [kernelOutcome, attemptOutcome]
          | some kid =>
              simp only
              cases decoded : signatureBytes sigB64 with
              | none =>
                  rw [attemptOf_noSignature _ _ (by simp [decoded])]
                  simp only [kernelOutcome, attemptOutcome]
              | some sig =>
                  cases bounded : boundedKeyId kid with
                  | none =>
                      rw [attemptOf_noKeyId _ _ (by simp [bounded])]
                      simp only [kernelOutcome, attemptOutcome]
                  | some keyId =>
                      have sigUsable : (some sigB64).bind signatureBytes = some sig := by
                        rw [Option.bind_some, decoded]
                      have kidUsable : (some kid).bind boundedKeyId = some keyId := by
                        rw [Option.bind_some, bounded]
                      rw [attemptOf_some _ _ sigUsable kidUsable]
                      cases hubKey with
                      | none => simp only [kernelOutcome, attemptOutcome, Option.bind_none]
                      | some key =>
                          simp only [Option.bind_some, documented.verify]
                          cases canonicalMessage mgp entry expected (archiveBinding entry) with
                          | none => simp only [kernelOutcome, attemptOutcome, Option.map_none]
                          | some canonical =>
                              simp only [Option.map_some, attemptOutcome]
                              split <;> rfl

end Attempts

/-! ## What the two sides check -/

/-- What the kernel has to check. -/
def kernelAttempt (mgp : MgpSeal) (entry : Entry) (jwks : Option Value) (expected : String) :
    Option Attempt :=
  attemptOf (blockText entry "sig") (blockText entry "key_id")
    ((entrySignatureKid entry).bind fun kid => hubSigningKey mgp jwks kid)
    (canonicalMessage mgp entry expected (archiveBinding entry))

/-- What the installer has to check. -/
def installerAttempt (entry : Entry) (jwks : Option Value) (expected : String) : Option Attempt :=
  attemptOf (blockString entry "sig") (blockString entry "key_id")
    (Go.keyFromJwks jwks (Go.signatureKeyId entry))
    (Go.canonicalMessage entry expected (Go.readArchiveBinding entry))

/-- A key id that is used is the text it was read from. -/
theorem eq_of_boundedKeyId {text : Option String} {kid : String}
    (bounded : text.bind boundedKeyId = some kid) : text = some kid := by
  rcases Option.bind_eq_some_iff.mp bounded with ⟨given, textEq, boundedGiven⟩
  rw [boundedKeyId] at boundedGiven
  split at boundedGiven
  · cases boundedGiven
  · rw [textEq]
    exact boundedGiven

theorem boundedKeyId_empty : boundedKeyId "" = none := by
  simp [boundedKeyId]

theorem signatureBytes_empty : signatureBytes "" = none := by
  decide

theorem entrySignatureKid_eq (entry : Entry) :
    entrySignatureKid entry = blockText entry "key_id" := by
  simp only [entrySignatureKid, blockText, payloadField, Option.bind_eq_bind, Option.bind_assoc]

theorem signatureKeyId_eq (entry : Entry) :
    Go.signatureKeyId entry = (blockString entry "key_id").getD "" := by
  rw [Go.signatureKeyId, blockString]
  cases Go.signatureField entry "ed25519" <;> rfl

/-- Both sides reconstruct one message from a binding. -/
theorem canonicalMessage_eq {mgp : MgpSeal} {verify : Bytes → Bytes → Bytes → Bool}
    (documented : mgp.Documented verify) (entry : Entry) (expected : String)
    (binding : ArchiveBinding) :
    canonicalMessage mgp entry expected binding = Go.canonicalMessage entry expected binding := by
  cases binding <;>
    simp only [canonicalMessage, Go.canonicalMessage, documented.canonicalMessage,
      documented.canonicalMessageV2]

/-! ## Behind the hash -/

/-- The catalog records a hash, and it is the tree's. -/
def HashMatches (entry : Entry) (treeHash : Except Bytes Go.TreeHash) (expected : String) : Prop :=
  entry.entryPointSha256.map trim = some expected ∧
    ∃ hash, treeHash = .ok hash ∧ toAsciiLowercase expected = hexEncode hash.1

/-- Both comparisons with the tree's hash are up to the case of the digits. -/
theorem eqIgnoreAsciiCase_hexEncode_iff {hash : Bytes} {expected : String} :
    eqIgnoreAsciiCase (hexEncode hash) expected = true ↔
      toAsciiLowercase expected = hexEncode hash :=
  eqIgnoreAsciiCase_iff_of_hex fun _ mem => mem_hexDigits_of_mem_hexEncode mem

theorem equalFold_hexEncode_iff {hash : Bytes} {expected : String} :
    equalFold (hexEncode hash) expected = true ↔ toAsciiLowercase expected = hexEncode hash :=
  equalFold_iff_of_hex fun _ mem => mem_hexDigits_of_mem_hexEncode mem

theorem HashMatches.ne_empty {entry : Entry} {treeHash : Except Bytes Go.TreeHash}
    {expected : String} (hashMatches : HashMatches entry treeHash expected) : expected ≠ "" := by
  rintro rfl
  rcases hashMatches with ⟨_, hash, _, lowered⟩
  have lengths := congrArg (fun text : String => text.toList.length) lowered
  simp only [toList_toAsciiLowercase, List.length_map, toList_hexEncode, length_hexChars,
    hash.2] at lengths
  exact absurd lengths (by decide)

section Layers

variable {mgp : MgpSeal} {verify : Bytes → Bytes → Bytes → Bool} {entry : Entry}
  {treeHash : Except Bytes Go.TreeHash}

/-- Behind a hash that matches, the kernel decides on the signature. -/
theorem kernelVerdict_of_hashMatches {expected : String} (jwks : Option Value)
    (hashMatches : HashMatches entry treeHash expected) :
    kernelVerdict mgp entry (treeHash.map fun hash => hexEncode hash.1) jwks
      = signatureVerdict mgp entry expected
          ((entrySignatureKid entry).bind fun kid => hubSigningKey mgp jwks kid) := by
  have recorded := hashMatches.ne_empty
  rcases hashMatches with ⟨recordedEq, hash, rfl, lowered⟩
  simp only [kernelVerdict, installSealVerdict, recordedEq, Option.filter_some, ne_eq, recorded,
    not_false_eq_true, decide_true, if_true, Except.map,
      eqIgnoreAsciiCase_hexEncode_iff.mpr lowered]

/-- Behind a hash that matches, the installer decides on the signature. -/
theorem installVerdict_of_hashMatches {expected : String} (jwks : Option Value)
    (hashMatches : HashMatches entry treeHash expected) :
    Go.installVerdict verify entry (treeHash.map fun hash => hexEncode hash.1) jwks
      = .ok (Go.decideSignature verify entry expected
          (Go.keyFromJwks jwks (Go.signatureKeyId entry))) := by
  have recorded := hashMatches.ne_empty
  rcases hashMatches with ⟨recordedEq, hash, rfl, lowered⟩
  rcases Option.map_eq_some_iff.mp recordedEq with ⟨text, textEq, rfl⟩
  simp only [Go.installVerdict, Go.decide, textEq, Option.getD_some, recorded, if_false, Except.map,
    equalFold_hexEncode_iff.mpr lowered, if_true]

/-- Before that, both come to the same outcome. -/
theorem outcomes_eq_of_not_hashMatches (jwks : Option Value)
    (unmatched : ∀ expected, ¬HashMatches entry treeHash expected) :
    kernelOutcome (kernelVerdict mgp entry (treeHash.map fun hash => hexEncode hash.1) jwks)
      = installerOutcome
          (Go.installVerdict verify entry (treeHash.map fun hash => hexEncode hash.1) jwks) := by
  simp only [kernelVerdict, installSealVerdict, Go.installVerdict, Go.decide]
  cases recorded : entry.entryPointSha256 with
  | none => rfl
  | some text =>
      by_cases empty : trim text = ""
      · simp only [Option.map_some, Option.getD_some, empty, Option.filter_some, ne_eq,
          not_true_eq_false, decide_false, if_true]
        rfl
      · simp only [Option.map_some, Option.getD_some, empty, Option.filter_some, ne_eq,
          not_false_eq_true, decide_true, if_true, if_false]
        cases treeHash with
        | error text => rfl
        | ok hash =>
            have differs : toAsciiLowercase (trim text) ≠ hexEncode hash.1 := by
              intro lowered
              exact unmatched (trim text) ⟨by rw [recorded, Option.map_some], hash, rfl, lowered⟩
            simp only [Except.map, if_neg (mt eqIgnoreAsciiCase_hexEncode_iff.mp differs),
              if_neg (mt equalFold_hexEncode_iff.mp differs), kernelOutcome, installerOutcome]

/-- Behind a hash that matches, the kernel's outcome is that of its attempt. -/
theorem kernelOutcome_eq {expected : String} (documented : mgp.Documented verify)
    (jwks : Option Value) (hashMatches : HashMatches entry treeHash expected) :
    kernelOutcome (kernelVerdict mgp entry (treeHash.map fun hash => hexEncode hash.1) jwks)
      = attemptOutcome verify (kernelAttempt mgp entry jwks expected) := by
  rw [kernelVerdict_of_hashMatches jwks hashMatches, signatureVerdict_outcome documented,
    kernelAttempt]

/-- Behind a hash that matches, the installer's outcome is that of its attempt. -/
theorem installerOutcome_eq {expected : String} (jwks : Option Value)
    (hashMatches : HashMatches entry treeHash expected) :
    installerOutcome
        (Go.installVerdict verify entry (treeHash.map fun hash => hexEncode hash.1) jwks)
      = attemptOutcome verify (installerAttempt entry jwks expected) := by
  rw [installVerdict_of_hashMatches jwks hashMatches, decideSignature_outcome, installerAttempt]

end Layers

/-- Attempts that come to one outcome under every signature check have one key. -/
theorem key_eq_of_outcomes_eq {left right : Option Attempt}
    (agree : ∀ verify, attemptOutcome verify left = attemptOutcome verify right) :
    left.map Attempt.key = right.map Attempt.key := by
  cases left with
  | none =>
      cases right with
      | none => rfl
      | some attempt =>
          have outcomes := agree fun _ _ _ => true
          simp [attemptOutcome, Go.verifyEd25519] at outcomes
  | some attempt =>
      have outcomes := agree fun key _ _ => key == attempt.key
      cases right with
      | none => simp [attemptOutcome, Go.verifyEd25519] at outcomes
      | some other =>
          by_cases same : other.key = attempt.key
          · simp [same]
          · simp [attemptOutcome, Go.verifyEd25519, same] at outcomes

end ClotoCore.Seal
