import Mathlib.Data.List.Nodup
import Mathlib.Logic.Function.Basic

/-!
# Bytes, hexadecimal text and separators

The programs of this development hash byte strings and print digests as
lower-case hexadecimal.  Two facts about that carry most arguments: the
printing loses nothing, and hexadecimal text never contains a separator, so a
text can be cut at the first separator behind it.
-/

namespace ClotoCore.Encoding

universe u

/-- A byte string. -/
abbrev Bytes := List UInt8

/-- The UTF-8 bytes of a text. -/
def utf8 (text : String) : Bytes :=
  text.toByteArray.data.toList

/-- What holds of each item of a list, checked item by item. -/
theorem forall_mem_of_all {α : Type u} {Holds : α → Prop} [DecidablePred Holds] {items : List α}
    (checked : (items.all fun item => decide (Holds item)) = true) :
    ∀ item ∈ items, Holds item := fun item mem =>
  of_decide_eq_true (List.all_eq_true.mp checked item mem)

theorem utf8_injective : Function.Injective utf8 := by
  intro left right equal
  apply String.toByteArray_inj.mp
  apply ByteArray.ext
  exact Array.toList_inj.mp equal

theorem utf8_append (left right : String) : utf8 (left ++ right) = utf8 left ++ utf8 right := by
  simp [utf8]

/-! ## Cutting at a separator -/

/-- Two texts cut at the first occurrence of the same separator have equal
pieces. -/
theorem append_cons_inj_of_notMem {α : Type u} {separator : α} {left right : List α}
    {leftRest rightRest : List α} (leftFree : separator ∉ left) (rightFree : separator ∉ right)
    (equal : left ++ separator :: leftRest = right ++ separator :: rightRest) :
    left = right ∧ leftRest = rightRest := by
  induction left generalizing right with
  | nil =>
      cases right with
      | nil => simpa using equal
      | cons head tail =>
          have headEq : separator = head := (List.cons.inj equal).1
          simp [headEq] at rightFree
  | cons head tail ih =>
      cases right with
      | nil =>
          have headEq : head = separator := (List.cons.inj equal).1
          simp [headEq] at leftFree
      | cons rightHead rightTail =>
          simp only [List.mem_cons, not_or] at leftFree rightFree
          obtain ⟨headEq, tailEq⟩ := List.cons.inj equal
          obtain ⟨piecesEq, restEq⟩ := ih leftFree.2 rightFree.2 tailEq
          exact ⟨by rw [headEq, piecesEq], restEq⟩

/-- Two texts cut at the last occurrence of the same separator have equal pieces. -/
theorem append_cons_inj_of_notMem_right {α : Type u} {separator : α} {left right : List α}
    {leftRest rightRest : List α} (leftFree : separator ∉ leftRest)
    (rightFree : separator ∉ rightRest)
    (equal : left ++ separator :: leftRest = right ++ separator :: rightRest) :
    left = right ∧ leftRest = rightRest := by
  have reversed := congrArg List.reverse equal
  simp only [List.reverse_append, List.reverse_cons, List.append_assoc, List.cons_append,
    List.nil_append] at reversed
  rcases append_cons_inj_of_notMem (by simpa using leftFree) (by simpa using rightFree) reversed
    with ⟨restEq, piecesEq⟩
  exact ⟨List.reverse_inj.mp piecesEq, List.reverse_inj.mp restEq⟩

/-- A text without the separator, at the front of one cut at the separator, lies
before the cut. -/
theorem exists_eq_append_of_notMem {α : Type u} {separator : α} {front rest left leftRest : List α}
    (frontFree : separator ∉ front) (equal : left ++ separator :: leftRest = front ++ rest) :
    ∃ tail, left = front ++ tail := by
  rcases List.append_eq_append_iff.mp equal with ⟨overlap, frontEq, cutEq⟩ | ⟨tail, leftEq, _⟩
  · cases overlap with
    | nil => exact ⟨[], by simpa using frontEq.symm⟩
    | cons head more =>
        have headEq : separator = head := (List.cons.inj cutEq).1
        rw [frontEq, headEq] at frontFree
        simp at frontFree
  · exact ⟨tail, leftEq⟩

/-- A marker that begins with its only separator cuts a text at one place, unless
one of the pieces holds the marker too. -/
theorem append_marker_inj {α : Type u} {separator : α} {marker left right : List α}
    {leftRest rightRest : List α} (markerFree : separator ∉ marker)
    (leftPlain : ¬separator :: marker <:+: left)
    (leftRestPlain : ¬separator :: marker <:+: leftRest)
    (equal : left ++ separator :: (marker ++ leftRest)
      = right ++ separator :: (marker ++ rightRest)) :
    left = right ∧ leftRest = rightRest := by
  rcases List.append_eq_append_iff.mp equal with ⟨between, longer, rest⟩ | ⟨between, longer, rest⟩
  · cases between with
    | nil =>
        have restEq := List.append_cancel_left (List.cons.inj rest).2
        exact ⟨by simpa using longer.symm, restEq⟩
    | cons head between =>
        -- the right cut lies behind the left one, so the left rest holds the marker
        have restEq : marker ++ leftRest = between ++ separator :: (marker ++ rightRest) :=
          (List.cons.inj rest).2
        rcases exists_eq_append_of_notMem markerFree restEq.symm with ⟨tail, betweenEq⟩
        rw [betweenEq, List.append_assoc] at restEq
        exact absurd ⟨tail, rightRest, by simpa using (List.append_cancel_left restEq).symm⟩
          leftRestPlain
  · cases between with
    | nil =>
        have restEq := List.append_cancel_left (List.cons.inj rest).2
        exact ⟨by simpa using longer, restEq.symm⟩
    | cons head between =>
        rcases List.cons.inj rest with ⟨headEq, behind⟩
        rcases exists_eq_append_of_notMem markerFree behind.symm with ⟨tail, betweenEq⟩
        exact absurd ⟨right, tail, by simp [longer, headEq, betweenEq]⟩ leftPlain

/-! ## Lower-case hexadecimal -/

/-- The sixteen digits of `hex::encode`. -/
def hexDigits : List Char :=
  ['0', '1', '2', '3', '4', '5', '6', '7', '8', '9', 'a', 'b', 'c', 'd', 'e', 'f']

/-- The digit that prints a four-bit value. -/
def hexDigit (value : Fin 16) : Char :=
  hexDigits.get value

theorem hexDigit_injective : Function.Injective hexDigit :=
  List.nodup_iff_injective_get.mp (show hexDigits.Nodup by decide)

theorem hexDigit_mem (value : Fin 16) : hexDigit value ∈ hexDigits :=
  List.get_mem _ _

/-- The high and the low half of a byte. -/
def nibbles (byte : UInt8) : Fin 16 × Fin 16 :=
  (⟨byte.toNat / 16, by have := byte.toNat_lt; omega⟩, ⟨byte.toNat % 16, by omega⟩)

theorem nibbles_injective : Function.Injective nibbles := by
  intro left right equal
  have high : left.toNat / 16 = right.toNat / 16 := congrArg (fun pair => pair.1.val) equal
  have low : left.toNat % 16 = right.toNat % 16 := congrArg (fun pair => pair.2.val) equal
  apply UInt8.toNat_inj.mp
  omega

/-- The characters of `hex::encode`. -/
def hexChars (bytes : Bytes) : List Char :=
  bytes.flatMap fun byte => [hexDigit (nibbles byte).1, hexDigit (nibbles byte).2]

/-- `hex::encode`: two lower-case digits a byte. -/
def hexEncode (bytes : Bytes) : String :=
  String.ofList (hexChars bytes)

@[simp]
theorem toList_hexEncode (bytes : Bytes) : (hexEncode bytes).toList = hexChars bytes :=
  String.toList_ofList

theorem length_hexChars (bytes : Bytes) : (hexChars bytes).length = 2 * bytes.length := by
  induction bytes with
  | nil => rfl
  | cons byte rest ih =>
      have unfolded : hexChars (byte :: rest)
          = hexDigit (nibbles byte).1 :: hexDigit (nibbles byte).2 :: hexChars rest := rfl
      rw [unfolded, List.length_cons, List.length_cons, ih, List.length_cons]
      omega

theorem mem_hexDigits_of_mem_hexChars {bytes : Bytes} {digit : Char}
    (mem : digit ∈ hexChars bytes) : digit ∈ hexDigits := by
  simp only [hexChars, List.mem_flatMap, List.mem_cons, List.not_mem_nil, or_false] at mem
  obtain ⟨byte, _, rfl | rfl⟩ := mem <;> exact hexDigit_mem _

theorem mem_hexDigits_of_mem_hexEncode {bytes : Bytes} {digit : Char}
    (mem : digit ∈ (hexEncode bytes).toList) : digit ∈ hexDigits := by
  rw [toList_hexEncode] at mem
  exact mem_hexDigits_of_mem_hexChars mem

theorem hexChars_injective : Function.Injective hexChars := by
  intro left right equal
  induction left generalizing right with
  | nil => cases right <;> simp [hexChars] at equal ⊢
  | cons byte bytes ih =>
      cases right with
      | nil => simp [hexChars] at equal
      | cons rightByte rightBytes =>
          simp only [hexChars, List.flatMap_cons, List.cons_append, List.nil_append,
            List.cons.injEq] at equal
          obtain ⟨highEq, lowEq, restEq⟩ := equal
          have byteEq : byte = rightByte := nibbles_injective
            (Prod.ext (hexDigit_injective highEq) (hexDigit_injective lowEq))
          rw [byteEq, ih restEq]

theorem hexEncode_injective : Function.Injective hexEncode := by
  intro left right equal
  apply hexChars_injective
  simpa using congrArg String.toList equal

/-- The bytes of hexadecimal text are the bytes of the sixteen digits. -/
theorem mem_utf8_hexEncode {bytes : Bytes} {byte : UInt8} (mem : byte ∈ utf8 (hexEncode bytes)) :
    byte ∈ hexDigits.flatMap String.utf8EncodeChar := by
  have encoded : utf8 (hexEncode bytes) = (hexChars bytes).flatMap String.utf8EncodeChar := by
    simp [utf8, hexEncode, List.utf8Encode]
  rw [encoded] at mem
  rcases List.mem_flatMap.mp mem with ⟨digit, digitMem, byteMem⟩
  exact List.mem_flatMap.mpr ⟨digit, mem_hexDigits_of_mem_hexChars digitMem, byteMem⟩

end ClotoCore.Encoding
