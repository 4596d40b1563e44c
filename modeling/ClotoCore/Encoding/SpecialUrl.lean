import ClotoCore.Encoding.Authority
import ClotoCore.Encoding.Text
import ClotoCore.Encoding.Utf8Lossy
import Mathlib.Algebra.Group.Nat.Defs

/-!
# URLs of schemes that have hosts

A URL of such a scheme is read into the user, the host, the port and the path that it names.
The host is decoded, brought to ASCII and read as an address if it ends in a number.  The
tables of domain names and the addresses in brackets are a parameter.
-/

namespace ClotoCore.Authority

open ClotoCore.Encoding

/-! ## Numbers -/

/-- The value of a digit. -/
def digitValue (radix : Nat) (c : Char) : Option Nat :=
  let value :=
    if '0' ≤ c ∧ c ≤ '9' then c.toNat - 48
    else if 'a' ≤ c ∧ c ≤ 'f' then c.toNat - 87
    else if 'A' ≤ c ∧ c ≤ 'F' then c.toNat - 55
    else 16
  if value < radix then some value else none

/-- The number that digits spell. -/
def number (radix : Nat) (digits : List Char) : Option Nat :=
  digits.foldlM (fun value c => (digitValue radix c).map (value * radix + ·)) 0

/-- A part of an address, which may be hexadecimal or octal. -/
def addressPart : List Char → Option Nat
  | [] => none
  | '0' :: 'x' :: digits | '0' :: 'X' :: digits => number 16 digits
  | '0' :: digits => number 8 digits
  | digits => number 10 digits

/-- The parts between the dots, of which a last empty one does not count. -/
def addressParts (text : List Char) : List (List Char) :=
  let parts := text.splitOn '.'
  if 1 < parts.length ∧ parts.getLast? = some [] then parts.dropLast else parts

/-- Whether a domain is read as an address. -/
def endsInNumber (domain : List Char) : Bool :=
  match (addressParts domain).getLast? with
  | none => false
  | some last => (last ≠ [] && last.all Char.isDigit) || (addressPart last).isSome

/-- The address of four bytes or fewer parts. -/
def parseAddress (domain : List Char) : Option Nat := do
  let parts ← (addressParts domain).mapM addressPart
  let last ← parts.getLast?
  if 4 < parts.length ∨ parts.dropLast.any (255 < ·) ∨ 256 ^ (5 - parts.length) ≤ last then none
  else some (parts.dropLast.zipIdx.foldl (fun address part => address + part.1 * 256 ^ (3 - part.2))
    last)

/-- An address in four decimal parts. -/
def serializeAddress (address : Nat) : List Char :=
  Nat.toDigits 10 (address / 256 ^ 3) ++ '.' :: Nat.toDigits 10 (address / 256 ^ 2 % 256) ++
    '.' :: Nat.toDigits 10 (address / 256 % 256) ++ '.' :: Nat.toDigits 10 (address % 256)

/-! ## Hosts -/

/-- Bytes in which a percent sign and two hexadecimal digits stand for a byte. -/
def percentDecode : Bytes → Bytes
  | byte :: high :: low :: rest =>
      if byte = 0x25 then
        match digitValue 16 (Char.ofNat high.toNat), digitValue 16 (Char.ofNat low.toNat) with
        | some first, some second => UInt8.ofNat (16 * first + second) :: percentDecode rest
        | _, _ => byte :: percentDecode (high :: low :: rest)
      else byte :: percentDecode (high :: low :: rest)
  | rest => rest

/-- The characters that no domain may hold. -/
def isForbidden (c : Char) : Bool :=
  isBlank c || c.toNat = 127 ||
    ['#', '/', ':', '<', '>', '?', '@', '[', '\\', ']', '^', '|', '%'].contains c

/-- What the reading of hosts leaves to others: the ASCII form of a domain, and the
addresses in brackets. -/
structure HostReader where
  toAscii : Bytes → Option (List Char)
  ipv6 : List Char → Option (List Char)

/-- An ASCII form is ASCII, and that of an ASCII domain its lower case; an address in
brackets has colons. -/
structure HostReader.Standard (reader : HostReader) : Prop where
  ascii : ∀ domain host, reader.toAscii domain = some host → ∀ c ∈ host, c.toNat < 128
  lower : ∀ domain host, (∀ c ∈ domain, c.toNat < 128) →
    reader.toAscii (utf8 (String.ofList domain)) = some host → host = domain.map lowerChar
  colon : ∀ text host, reader.ipv6 text = some host → ':' ∈ text

/-- The host that a text names. -/
def HostReader.parseHost (reader : HostReader) (text : List Char) : Option (List Char) :=
  if text.head? = some '[' then
    if text.getLast? = some ']' then
      (reader.ipv6 text.tail.dropLast).map fun address => '[' :: (address ++ [']'])
    else none
  else
    (reader.toAscii (toStringLossy (percentDecode (utf8 (String.ofList text))))).bind fun domain =>
      if domain.any isForbidden then none
      else if endsInNumber domain then (parseAddress domain).map serializeAddress
      else some domain

/-! ## Paths -/

/-- A piece that stands for the directory itself. -/
def isSingleDot (piece : List Char) : Bool :=
  [".", "%2e"].contains (String.ofList (piece.map lowerChar))

/-- A piece that stands for the directory above. -/
def isDoubleDot (piece : List Char) : Bool :=
  ["..", ".%2e", "%2e.", "%2e%2e"].contains (String.ofList (piece.map lowerChar))

/-- A character of a path that is written by its bytes. -/
def isPathEncoded (c : Char) : Bool :=
  isBlank c || 126 < c.toNat || ['"', '#', '<', '>', '?', '^', '\x60', '\x7b', '\x7d'].contains c

/-- A byte by its two digits. -/
def percentEncode (byte : UInt8) : List Char :=
  '%' :: (hexChars [byte]).map Char.toUpper

/-- A piece of a path as it is sent. -/
def encodePiece (piece : List Char) : List Char :=
  piece.flatMap fun c =>
    if isPathEncoded c then (utf8 (String.ofList [c])).flatMap percentEncode else [c]

/-- The pieces of a path, of which the last decides whether it ends in a slash. -/
def resolvePath (path : List (List Char)) : List (List Char) → List (List Char)
  | [] => path
  | [piece] =>
      if isDoubleDot piece then path.dropLast ++ [[]]
      else if isSingleDot piece then path ++ [[]]
      else path ++ [encodePiece piece]
  | piece :: rest =>
      resolvePath
        (if isDoubleDot piece then path.dropLast
          else if isSingleDot piece then path
          else path ++ [encodePiece piece])
        rest

/-- The path in what stands behind an authority. -/
def pathOfUrl (text : List Char) : List (List Char) :=
  let path := text.takeWhile fun c => c ≠ '?' && c ≠ '#'
  resolvePath [] ((path.drop 1).splitOnP isSlash)

/-! ## URLs -/

/-- A URL of a scheme that has a host. -/
structure SpecialUrl where
  scheme : List Char
  userInfo : Option (List Char)
  host : List Char
  port : Option Nat
  path : List (List Char)
  deriving DecidableEq

/-- The user information of an authority. -/
def userInfo (authority : List Char) : Option (List Char) :=
  if '@' ∈ authority then
    some (authority.take (authority.length - (behindUser authority).length - 1))
  else none

/-- A port, unless it is the default one or none is given. -/
def portOf (defaultPort : Nat) (text : List Char) : Option Nat :=
  if text.drop 1 = [] then none
  else
    let value := (text.drop 1).foldl (fun value c => 10 * value + (c.toNat - '0'.toNat)) 0
    if value = defaultPort then none else some value

/-- A URL of a scheme. -/
def HostReader.parseUrl (reader : HostReader) (scheme : List Char) (defaultPort : Nat)
    (url : List Char) : Option SpecialUrl :=
  (behindScheme scheme (cleaned url)).bind fun rest =>
    (hostOf reader.parseHost (behindUser (authority rest))).map fun host =>
      { scheme := scheme
        userInfo := userInfo (authority rest)
        host := host
        port := portOf defaultPort (splitHost false (behindUser (authority rest))).2
        path := pathOfUrl ((rest.dropWhile isSlash).dropWhile (!isDelimiter ·)) }

section Urls

variable {reader : HostReader} {scheme url text host : List Char} {defaultPort : Nat}

/-- A text without colons is all host. -/
theorem splitHost_of_noColon {inside : Bool} (free : ':' ∉ text) :
    splitHost inside text = (text, []) := by
  induction text generalizing inside with
  | nil => rfl
  | cons c text ih =>
      have other : c ≠ ':' := fun same => free (same ▸ List.mem_cons_self)
      have rest : ':' ∉ text := fun mem => free (List.mem_cons_of_mem _ mem)
      rw [splitHost, if_neg (by simp [other]), ih rest]

theorem mem_of_mem_behindUser {c : Char} (mem : c ∈ behindUser text) : c ∈ text :=
  (List.rtakeWhile_suffix _ _).subset mem

theorem mem_of_mem_authority {c : Char} (mem : c ∈ authority text) : c ∈ text :=
  (List.dropWhile_sublist _).subset ((List.takeWhile_prefix _).subset mem)

/-! ## The characters of a host -/

theorem isDigit_of_mem_serializeAddress {address : Nat} {c : Char}
    (mem : c ∈ serializeAddress address) : c.isDigit = true ∨ c = '.' := by
  have digits : ∀ n, c ∈ Nat.toDigits 10 n → c.isDigit = true := by
    intro n mem
    exact Nat.isDigit_of_mem_toDigits (by decide) (by decide) mem
  simp only [serializeAddress, List.mem_append, List.mem_cons] at mem
  rcases mem with ((first | rfl | second) | rfl | third) | rfl | fourth
  · exact Or.inl (digits _ first)
  · exact Or.inr rfl
  · exact Or.inl (digits _ second)
  · exact Or.inr rfl
  · exact Or.inl (digits _ third)
  · exact Or.inr rfl
  · exact Or.inl (digits _ fourth)

/-- The characters that a host is made of where it is not in brackets. -/
def InHost (c : Char) : Prop :=
  c.toNat < 128 ∧ c ≠ '%' ∧ c ≠ '\\'

theorem inHost_of_isDigit {c : Char} (plain : c.isDigit = true ∨ c = '.') : InHost c := by
  rcases plain with digit | rfl
  · refine ⟨?_, ?_, ?_⟩
    · simp only [Char.isDigit, Bool.and_eq_true, decide_eq_true_eq, UInt32.le_iff_toNat_le] at digit
      have high : c.toNat ≤ 57 := digit.2
      omega
    · rintro rfl
      exact absurd digit (by decide)
    · rintro rfl
      exact absurd digit (by decide)
  · exact ⟨by decide, by decide, by decide⟩

/-- A text without colons names a host of plain characters. -/
theorem inHost_of_parseHost (standard : reader.Standard) (free : ':' ∉ text)
    (named : reader.parseHost text = some host) : ∀ c ∈ host, InHost c := by
  unfold HostReader.parseHost at named
  split at named
  · split at named
    · rcases Option.map_eq_some_iff.mp named with ⟨address, read, -⟩
      have colon := standard.colon _ _ read
      exact absurd (List.mem_of_mem_tail (List.dropLast_subset _ colon)) free
    · cases named
  · rcases Option.bind_eq_some_iff.mp named with ⟨domain, ascii, named⟩
    split at named
    · cases named
    · rename_i allowed
      split at named
      · rcases Option.map_eq_some_iff.mp named with ⟨address, -, rfl⟩
        exact fun c mem => inHost_of_isDigit (isDigit_of_mem_serializeAddress mem)
      · cases named
        intro c mem
        refine ⟨standard.ascii _ _ ascii c mem, ?_, ?_⟩
        · rintro rfl
          exact allowed (List.any_eq_true.mpr ⟨_, mem, by decide⟩)
        · rintro rfl
          exact allowed (List.any_eq_true.mpr ⟨_, mem, by decide⟩)

/-! ## Plain domains -/

/-- The bytes of an ASCII text are its characters. -/
theorem utf8_of_ascii (ascii : ∀ c ∈ text, c.toNat < 128) :
    utf8 (String.ofList text) = text.map fun c => UInt8.ofNat c.toNat := by
  have small : ∀ n < 128, String.utf8EncodeChar (Char.ofNat n)
      = [UInt8.ofNat (Char.ofNat n).toNat] := by
    decide +kernel
  have encoded : utf8 (String.ofList text) = text.flatMap String.utf8EncodeChar := by
    simp [utf8, List.utf8Encode]
  rw [encoded, List.map_eq_flatMap]
  refine List.flatMap_congr fun c mem => ?_
  have here := small c.toNat (ascii c mem)
  rwa [Char.ofNat_toNat] at here

theorem percentDecode_of_noPercent {bytes : Bytes} (free : 0x25 ∉ bytes) :
    percentDecode bytes = bytes := by
  induction bytes using percentDecode.induct with
  | case1 _ _ rest => exact absurd List.mem_cons_self free
  | case2 high low rest => exact absurd List.mem_cons_self free
  | case3 byte high low rest other ih =>
      rw [percentDecode, if_neg other, ih fun mem => free (List.mem_cons_of_mem _ mem)]
  | case4 rest short => rw [percentDecode]; exact short

/-- A domain of plain characters is decoded to itself. -/
theorem decoded_of_plain (ascii : ∀ c ∈ text, c.toNat < 128) (noPercent : '%' ∉ text) :
    toStringLossy (percentDecode (utf8 (String.ofList text))) = utf8 (String.ofList text) := by
  have bytes : ∀ byte ∈ utf8 (String.ofList text), byte < 0x80 ∧ byte ≠ 0x25 := by
    intro byte mem
    rw [utf8_of_ascii ascii] at mem
    rcases List.mem_map.mp mem with ⟨c, here, rfl⟩
    have small : ∀ n < 128, UInt8.ofNat (Char.ofNat n).toNat < 0x80 ∧
        (UInt8.ofNat (Char.ofNat n).toNat = 0x25 → Char.ofNat n = '%') := by
      decide +kernel
    have plain := small c.toNat (ascii c here)
    rw [Char.ofNat_toNat] at plain
    exact ⟨plain.1, fun percent => noPercent (plain.2 percent ▸ here)⟩
  rw [percentDecode_of_noPercent fun mem => (bytes _ mem).2 rfl]
  exact toStringLossy_of_isUtf8 (isUtf8_of_ascii fun byte mem => (bytes byte mem).1)

/-- The host that a domain of plain characters names: itself in lower case, or the address
that this is. -/
theorem parseHost_of_plain (standard : reader.Standard) (ascii : ∀ c ∈ text, c.toNat < 128)
    (noPercent : '%' ∉ text) (free : ':' ∉ text) (named : reader.parseHost text = some host) :
    if endsInNumber (text.map lowerChar) then
      (parseAddress (text.map lowerChar)).map serializeAddress = some host
    else host = text.map lowerChar := by
  unfold HostReader.parseHost at named
  split at named
  · split at named
    · rcases Option.map_eq_some_iff.mp named with ⟨address, read, -⟩
      have colon := standard.colon _ _ read
      exact absurd (List.mem_of_mem_tail (List.dropLast_subset _ colon)) free
    · cases named
  · rw [decoded_of_plain ascii noPercent] at named
    rcases Option.bind_eq_some_iff.mp named with ⟨domain, read, named⟩
    rw [standard.lower text domain ascii read] at named
    split at named
    · cases named
    · split at named
      · rename_i number
        rw [if_pos number]
        exact named
      · rename_i name
        rw [if_neg name]
        exact (Option.some.inj named).symm

/-! ## Reading -/

/-- The host of a URL in which no colon stands behind the scheme is named by its authority. -/
theorem parseHost_of_parseUrl {rest : List Char} {read : SpecialUrl}
    (behind : behindScheme scheme (cleaned url) = some rest) (free : ':' ∉ rest)
    (parsed : reader.parseUrl scheme defaultPort url = some read) :
    reader.parseHost (behindUser (authority rest)) = some read.host := by
  rw [HostReader.parseUrl, behind, Option.bind_some, Option.map_eq_some_iff] at parsed
  rcases parsed with ⟨host, named, rfl⟩
  have noColon : ':' ∉ behindUser (authority rest) := fun mem =>
    free (mem_of_mem_authority (mem_of_mem_behindUser mem))
  unfold hostOf at named
  rw [splitHost_of_noColon noColon] at named
  split at named
  · cases named
  · split at named
    · exact named
    · cases named

/-- The host of a URL that is read is the one that it leads to. -/
theorem host_parseUrl :
    (reader.parseUrl scheme defaultPort url).map SpecialUrl.host
      = hostOfUrl reader.parseHost scheme url := by
  simp only [HostReader.parseUrl, hostOfUrl, Option.map_bind]
  congr 1
  funext rest
  simp [Function.comp_def]

end Urls

end ClotoCore.Authority
