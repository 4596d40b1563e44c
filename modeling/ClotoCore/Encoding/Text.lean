import ClotoCore.Encoding.Bytes
import Mathlib.Order.Nat

/-!
# Text

White space, letter case and decimal numbers as the program's two languages
treat them.
-/

namespace ClotoCore.Encoding

/-! ## White space -/

/-- The code points with the `White_Space` property, on which Rust's
`char::is_whitespace` and Go's `unicode.IsSpace` agree. -/
def isWhitespace (c : Char) : Bool :=
  let code := c.toNat
  (9 ≤ code && code ≤ 13) || code == 0x20 || code == 0x85 || code == 0xA0 || code == 0x1680 ||
    (0x2000 ≤ code && code ≤ 0x200A) || code == 0x2028 || code == 0x2029 || code == 0x202F ||
    code == 0x205F || code == 0x3000

/-- `split_whitespace().next()`. -/
def firstWord (text : String) : Option String :=
  match (text.toList.dropWhile isWhitespace).takeWhile fun c => !isWhitespace c with
  | [] => none
  | word => some (String.ofList word)

/-- `str::trim`, and `strings.TrimSpace`. -/
def trim (text : String) : String :=
  String.ofList ((text.toList.dropWhile isWhitespace).reverse.dropWhile isWhitespace).reverse

/-! ## Letter case -/

/-- `to_ascii_lowercase` of a character. -/
def lowerChar (c : Char) : Char :=
  if 'A' ≤ c ∧ c ≤ 'Z' then Char.ofNat (c.toNat + 32) else c

/-- `to_ascii_lowercase`; on ASCII text also `strings.ToLower`. -/
def toAsciiLowercase (text : String) : String :=
  String.ofList (text.toList.map lowerChar)

/-- `eq_ignore_ascii_case` -/
def eqIgnoreAsciiCase (left right : String) : Bool :=
  toAsciiLowercase left == toAsciiLowercase right

/-- Simple case folding as far as it reaches an ASCII letter: the Kelvin sign
folds into `k` and the long s into `s`. -/
def foldChar (c : Char) : Char :=
  if c.toNat = 0x212A then 'k'
  else if c.toNat = 0x17F then 's'
  else lowerChar c

/-- `strings.EqualFold` of an ASCII text with any text. -/
def equalFold (left right : String) : Bool :=
  left.toList.map foldChar == right.toList.map foldChar

/-- The sixteen digits of either case. -/
def isHexChar (c : Char) : Bool :=
  ('0' ≤ c && c ≤ '9') || ('a' ≤ c && c ≤ 'f') || ('A' ≤ c && c ≤ 'F')

theorem isHexChar_of_mem_hexDigits {c : Char} (mem : c ∈ hexDigits) : isHexChar c = true := by
  have all : hexDigits.all isHexChar = true := by decide
  exact List.all_eq_true.mp all c mem

theorem isHexChar_of_upper {c : Char} (upper : 'A' ≤ c ∧ c ≤ 'Z')
    (mem : Char.ofNat (c.toNat + 32) ∈ hexDigits) : isHexChar c = true := by
  have table : ∀ offset < 26, Char.ofNat (65 + offset + 32) ∈ hexDigits →
      isHexChar (Char.ofNat (65 + offset)) = true := by decide
  have low : 65 ≤ c.toNat := upper.1
  have high : c.toNat ≤ 90 := upper.2
  have code : 65 + (c.toNat - 65) = c.toNat := by omega
  have entry := table (c.toNat - 65) (by omega)
  rw [code, Char.ofNat_toNat] at entry
  exact entry mem

theorem isHexChar_lowerChar {c : Char} (hex : isHexChar c = true) :
    isHexChar (lowerChar c) = true := by
  have table : ∀ offset < 26, isHexChar (Char.ofNat (65 + offset)) = true →
      isHexChar (Char.ofNat (65 + offset + 32)) = true := by decide
  by_cases upper : 'A' ≤ c ∧ c ≤ 'Z'
  · have low : 65 ≤ c.toNat := upper.1
    have high : c.toNat ≤ 90 := upper.2
    have code : 65 + (c.toNat - 65) = c.toNat := by omega
    have entry := table (c.toNat - 65) (by omega)
    rw [code, Char.ofNat_toNat] at entry
    rw [lowerChar, if_pos upper]
    exact entry hex
  · rw [lowerChar, if_neg upper]
    exact hex

/-- A character that folds into a hexadecimal digit is one, and folds by letter
case alone. -/
theorem isHexChar_of_foldChar_mem {c : Char} (mem : foldChar c ∈ hexDigits) :
    isHexChar c = true ∧ foldChar c = lowerChar c := by
  by_cases kelvin : c.toNat = 0x212A
  · rw [foldChar, if_pos kelvin] at mem
    exact absurd mem (by decide)
  · by_cases longS : c.toNat = 0x17F
    · rw [foldChar, if_neg kelvin, if_pos longS] at mem
      exact absurd mem (by decide)
    · have folded : foldChar c = lowerChar c := by rw [foldChar, if_neg kelvin, if_neg longS]
      rw [folded] at mem
      refine ⟨?_, folded⟩
      by_cases upper : 'A' ≤ c ∧ c ≤ 'Z'
      · rw [lowerChar, if_pos upper] at mem
        exact isHexChar_of_upper upper mem
      · rw [lowerChar, if_neg upper] at mem
        exact isHexChar_of_mem_hexDigits mem

theorem lowerChar_of_mem_hexDigits {c : Char} (mem : c ∈ hexDigits) :
    lowerChar c = c ∧ foldChar c = c := by
  have all : (hexDigits.all fun c => lowerChar c == c && foldChar c == c) = true := by decide
  have both := List.all_eq_true.mp all c mem
  rw [Bool.and_eq_true, beq_iff_eq, beq_iff_eq] at both
  exact both

theorem foldChar_eq_of_lowerChar_mem {c : Char} (mem : lowerChar c ∈ hexDigits) :
    foldChar c = lowerChar c := by
  have exotic : ([0x212A, 0x17F].all fun code =>
      !hexDigits.contains (lowerChar (Char.ofNat code))) = true := by decide
  have notExotic : ∀ code ∈ [0x212A, 0x17F], c.toNat ≠ code := by
    intro code codeMem same
    have charEq : c = Char.ofNat code := by rw [← same, Char.ofNat_toNat]
    have absent := List.all_eq_true.mp exotic code codeMem
    rw [← charEq, List.contains_iff_mem.mpr mem] at absent
    cases absent
  rw [foldChar, if_neg (notExotic 0x212A (by simp)), if_neg (notExotic 0x17F (by simp))]

theorem toList_toAsciiLowercase (text : String) :
    (toAsciiLowercase text).toList = text.toList.map lowerChar :=
  String.toList_ofList

/-- Lower-case hexadecimal text equals, letter case aside, the texts that give it
in lower case. -/
theorem equalFold_iff_of_hex {text other : String} (hex : ∀ c ∈ text.toList, c ∈ hexDigits) :
    equalFold text other = true ↔ toAsciiLowercase other = text := by
  have textFolds : text.toList.map foldChar = text.toList := by
    rw [List.map_congr_left fun c mem => (lowerChar_of_mem_hexDigits (hex c mem)).2, List.map_id']
  rw [equalFold, beq_iff_eq, textFolds, ← String.toList_inj, toList_toAsciiLowercase]
  constructor
  · intro equal
    rw [equal]
    apply List.map_congr_left
    intro c mem
    have folded : foldChar c ∈ text.toList := equal ▸ List.mem_map_of_mem mem
    exact (isHexChar_of_foldChar_mem (hex _ folded)).2.symm
  · intro equal
    rw [← equal]
    apply List.map_congr_left
    intro c mem
    have lowered : lowerChar c ∈ text.toList := equal ▸ List.mem_map_of_mem mem
    exact (foldChar_eq_of_lowerChar_mem (hex _ lowered)).symm

theorem eqIgnoreAsciiCase_iff_of_hex {text other : String}
    (hex : ∀ c ∈ text.toList, c ∈ hexDigits) :
    eqIgnoreAsciiCase text other = true ↔ toAsciiLowercase other = text := by
  have textLowered : toAsciiLowercase text = text := by
    rw [← String.toList_inj, toList_toAsciiLowercase,
      List.map_congr_left fun c mem => (lowerChar_of_mem_hexDigits (hex c mem)).1, List.map_id']
  rw [eqIgnoreAsciiCase, beq_iff_eq, textLowered]
  exact eq_comm

/-- A text that is lower-case hexadecimal but for letter case is hexadecimal. -/
theorem isHexChar_of_toAsciiLowercase_eq {text other : String}
    (hex : ∀ c ∈ text.toList, c ∈ hexDigits) (equal : toAsciiLowercase other = text) :
    ∀ c ∈ other.toList, isHexChar c = true := by
  intro c mem
  have lowered : lowerChar c ∈ hexDigits := by
    apply hex
    rw [← equal, toList_toAsciiLowercase]
    exact List.mem_map_of_mem mem
  apply (isHexChar_of_foldChar_mem _).1
  rw [foldChar_eq_of_lowerChar_mem lowered]
  exact lowered

/-! ## Decimal numbers -/

/-- Decimal printing loses nothing. -/
theorem toDigits_injective : Function.Injective (Nat.toDigits 10) := by
  intro left right equal
  calc
    left = Nat.ofDigitChars 10 (Nat.toDigits 10 left) 0 := Nat.ofDigitChars_ten_toDigits.symm
    _ = Nat.ofDigitChars 10 (Nat.toDigits 10 right) 0 := by rw [equal]
    _ = right := Nat.ofDigitChars_ten_toDigits

end ClotoCore.Encoding
