import ClotoCore.Encoding.Bytes

/-!
# Strict base64

Go's strict decoders: line breaks in the text are passed over, and the bits that
a last group leaves unused must be zero.  Signatures use the standard alphabet
with padding, key material the URL alphabet without.
-/

namespace ClotoCore.Encoding

/-- The alphabet and the padding of an encoding. -/
structure Base64 where
  /-- The digits of 62 and 63. -/
  last : Char × Char
  padded : Bool

/-- `base64.StdEncoding` -/
def Base64.std : Base64 where
  last := ('+', '/')
  padded := true

/-- `base64.RawURLEncoding` -/
def Base64.rawUrl : Base64 where
  last := ('-', '_')
  padded := false

namespace Base64

variable (encoding : Base64)

/-- The value of a digit. -/
def sextet (c : Char) : Option Nat :=
  if 'A' ≤ c ∧ c ≤ 'Z' then some (c.toNat - 65)
  else if 'a' ≤ c ∧ c ≤ 'z' then some (c.toNat - 71)
  else if '0' ≤ c ∧ c ≤ '9' then some (c.toNat + 4)
  else if c = encoding.last.1 then some 62
  else if c = encoding.last.2 then some 63
  else none

/-- A last group of two digits: one byte. -/
def pair (first second : Char) : Option Bytes := do
  let high ← encoding.sextet first
  let low ← encoding.sextet second
  if low % 16 = 0 then some [UInt8.ofNat (high * 4 + low / 16)] else none

/-- A last group of three digits: two bytes. -/
def triple (first second third : Char) : Option Bytes := do
  let high ← encoding.sextet first
  let middle ← encoding.sextet second
  let low ← encoding.sextet third
  if low % 4 = 0 then
    some [UInt8.ofNat (high * 4 + middle / 16), UInt8.ofNat (middle % 16 * 16 + low / 4)]
  else none

/-- A group of four digits: three bytes. -/
def quad (first second third fourth : Char) : Option Bytes := do
  let a ← encoding.sextet first
  let b ← encoding.sextet second
  let c ← encoding.sextet third
  let d ← encoding.sextet fourth
  some [UInt8.ofNat (a * 4 + b / 16), UInt8.ofNat (b % 16 * 16 + c / 4),
    UInt8.ofNat (c % 4 * 64 + d)]

/-- The groups of a text without line breaks. -/
def groups : List Char → Option Bytes
  | [] => some []
  | [first, second] => if encoding.padded then none else encoding.pair first second
  | [first, second, third] => if encoding.padded then none else encoding.triple first second third
  | first :: second :: third :: fourth :: rest =>
      if encoding.padded ∧ fourth = '=' ∧ rest = [] then
        if third = '=' then encoding.pair first second else encoding.triple first second third
      else do
        let bytes ← encoding.quad first second third fourth
        let others ← groups rest
        some (bytes ++ others)
  | _ => none

/-- `Strict().DecodeString` -/
def decodeString (text : String) : Option Bytes :=
  encoding.groups (text.toList.filter fun c => c ≠ '\r' ∧ c ≠ '\n')

end Base64

example : Base64.std.decodeString "aGk=" = some (utf8 "hi") := by decide
example : Base64.rawUrl.decodeString "aGl" = none := by decide

end ClotoCore.Encoding
