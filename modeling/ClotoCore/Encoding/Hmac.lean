import ClotoCore.Encoding.Digest

/-!
# HMAC over SHA-256

The keyed digest of RFC 2104 with the 64-byte block of SHA-256.  It takes a key
of any length, and with a collision-free digest no two messages share a code.
-/

namespace ClotoCore.Encoding

variable (sha256 : Digest)

/-- The block length of SHA-256. -/
def blockLength : Nat := 64

/-- A key longer than a block is hashed; the result is filled up with zeros. -/
def blockKey (key : Bytes) : Bytes :=
  let short := if blockLength < key.length then sha256 key else key
  short ++ List.replicate (blockLength - short.length) 0

/-- `Hmac<Sha256>` of a message. -/
def hmacSha256 (key message : Bytes) : Bytes :=
  let inner := (blockKey sha256 key).map (· ^^^ 0x36)
  let outer := (blockKey sha256 key).map (· ^^^ 0x5C)
  sha256 (outer ++ sha256 (inner ++ message))

variable {sha256}

theorem hmacSha256_injective (injective : Function.Injective sha256) (key : Bytes) :
    Function.Injective (hmacSha256 sha256 key) := by
  intro left right equal
  have innerEq := List.append_cancel_left (injective equal)
  exact List.append_cancel_left (injective innerEq)

end ClotoCore.Encoding
