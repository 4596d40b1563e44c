import ClotoCore.Seal.GoVerdict

/-!
# The kernel's verdict

The kernel decides on the same catalog entry and key document with serde's JSON
values.  Its messages, key parser and signature check live in a library of their
own, which is a parameter here; `Documented` is what the installer reproduces of
that library.
-/

namespace ClotoCore.Seal

open ClotoCore.Encoding ClotoCore.Json

/-- What the kernel uses of the `mgp_seal` library. -/
structure MgpSeal where
  canonicalMessage : String → String → String → Bytes
  canonicalMessageV2 : String → String → String → String → UInt64 → Bytes
  signatureFromBase64 : String → Option Bytes
  keyIdNew : String → Option String
  /-- A public key and its id. -/
  publicKeyFromJwk : Value → Option (Bytes × String)
  verify : Bytes → String → Bytes → Bytes → Bool

/-- The binding of an archive block with these fields. -/
def bindingOfFields (sha256 : Option String) (length : Option UInt64) : ArchiveBinding :=
  match sha256, length with
  | some sha256, some length =>
      let sha256 := trim sha256
      if sha256.toList.length ≠ 64 ∨ !sha256.toList.all isHexChar then .malformed
      else .bound (toAsciiLowercase sha256) length
  | _, _ => .malformed

/-- `archive_binding` -/
def archiveBinding (entry : Entry) : ArchiveBinding :=
  match entry.signaturePayload.bind fun payload => payload.get "archive" with
  | none => .absent
  | some archive =>
      bindingOfFields (archive.getStr "sha256") ((archive.get "length").bind Value.asU64)

/-- A verdict that lets the install proceed. -/
inductive SealVerdict where
  | verified
  | unsealed (reason : UnsealedReason)
  deriving DecidableEq

/-- Why an install must stop. -/
inductive InstallFailure where
  /-- `TamperSuspect` -/
  | tamper (code : TamperCode) (message : String)
  /-- The entry point could not be hashed. -/
  | unhashed (text : Bytes)
  deriving DecidableEq

section Decision

variable (mgp : MgpSeal)

/-- The keys `fetch_jwks` puts into its map, in the order it does. -/
def jwksKeys (document : Value) : List (String × Bytes) :=
  (((document.get "keys").bind Value.asArray).getD []).filterMap fun jwk =>
    (mgp.publicKeyFromJwk jwk).map fun (key, kid) => (kid, key)

/-- `hub_signing_key`; a later key replaces an earlier one of the same id. -/
def hubSigningKey (jwks : Option Value) (kid : String) : Option Bytes :=
  jwks.bind fun document => lastValue (jwksKeys mgp document) kid

/-- `entry_signature_kid` -/
def entrySignatureKid (entry : Entry) : Option String := do
  let payload ← entry.signaturePayload
  let block ← payload.get "ed25519"
  block.getStr "key_id"

/-- The message `install_seal_verdict` reconstructs under an archive binding. -/
def canonicalMessage (entry : Entry) (expected : String) : ArchiveBinding → Option Bytes
  | .bound sha256 length =>
      some (mgp.canonicalMessageV2 entry.id entry.version expected sha256 length)
  | .absent => some (mgp.canonicalMessage entry.id entry.version expected)
  | .malformed => none

/-- The Ed25519 layer of `install_seal_verdict`, behind the integrity check. -/
def signatureVerdict (entry : Entry) (expected : String) (hubKey : Option Bytes) :
    Except InstallFailure SealVerdict :=
  match entry.signaturePayload.bind fun payload => payload.get "ed25519" with
  | none => .ok (.unsealed .noSignature)
  | some block =>
      match block.getStr "sig", block.getStr "key_id" with
      | some sigB64, some kidStr =>
          match mgp.signatureFromBase64 sigB64, mgp.keyIdNew kidStr with
          | some sig, some kid =>
              match hubKey with
              | none => .ok (.unsealed .hubKeyUnavailable)
              | some pk =>
                  match canonicalMessage mgp entry expected (archiveBinding entry) with
                  | none => .ok (.unsealed .malformedArchiveBinding)
                  | some canonical =>
                      if mgp.verify pk kid canonical sig then .ok .verified
                      else .error (.tamper .signatureInvalid (signatureMessage entry.id kidStr))
          | _, _ => .ok (.unsealed .undecodableSignature)
      | _, _ => .ok (.unsealed .malformedSignatureBlock)

/-- `install_seal_verdict` -/
def installSealVerdict (entry : Entry) (installedEntryPointSha256 : Except Bytes String)
    (hubKey : Option Bytes) : Except InstallFailure SealVerdict :=
  match (entry.entryPointSha256.map trim).filter fun expected => expected ≠ "" with
  | none => .ok (.unsealed .noEntryPointHash)
  | some expected =>
      match installedEntryPointSha256 with
      | .error text => .error (.unhashed text)
      | .ok actual =>
          if eqIgnoreAsciiCase actual expected then signatureVerdict mgp entry expected hubKey
          else .error (.tamper .integrityMismatch (integrityMessage entry.id expected actual))

/-- The verdict of an install, under the key the entry names. -/
def kernelVerdict (entry : Entry) (installedEntryPointSha256 : Except Bytes String)
    (jwks : Option Value) : Except InstallFailure SealVerdict :=
  installSealVerdict mgp entry installedEntryPointSha256
    ((entrySignatureKid entry).bind fun kid => hubSigningKey mgp jwks kid)

end Decision

end ClotoCore.Seal
