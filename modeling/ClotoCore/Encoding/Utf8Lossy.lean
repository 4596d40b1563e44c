import ClotoCore.Encoding.Bytes

/-!
# Lossy decoding of UTF-8

`String::from_utf8_lossy` keeps the well-formed sequences of a byte string and
writes a replacement character for every maximal piece that begins no sequence.
The decoder is a state machine over the bytes; its output bytes are the UTF-8
form of the text it produces.
-/

namespace ClotoCore.Encoding

/-- What a sequence still waits for: the range of its next byte, and how many
continuation bytes follow that one. -/
structure Awaited where
  low : UInt8
  high : UInt8
  more : Nat
  deriving DecidableEq

/-- What a byte does at the start of a sequence. -/
inductive Lead where
  | ascii
  | opens (awaited : Awaited)
  | invalid
  deriving DecidableEq

/-- The table of well-formed sequences, read at the first byte. -/
def lead (byte : UInt8) : Lead :=
  if byte < 0x80 then .ascii
  else if byte < 0xC2 then .invalid
  else if byte < 0xE0 then .opens ⟨0x80, 0xBF, 0⟩
  else if byte = 0xE0 then .opens ⟨0xA0, 0xBF, 1⟩
  else if byte = 0xED then .opens ⟨0x80, 0x9F, 1⟩
  else if byte < 0xF0 then .opens ⟨0x80, 0xBF, 1⟩
  else if byte = 0xF0 then .opens ⟨0x90, 0xBF, 2⟩
  else if byte < 0xF4 then .opens ⟨0x80, 0xBF, 2⟩
  else if byte = 0xF4 then .opens ⟨0x80, 0x8F, 2⟩
  else .invalid

/-- A piece of the input: one sequence, or a piece that begins none. -/
structure Chunk where
  raw : Bytes
  valid : Bool
  deriving DecidableEq

/-- An unfinished sequence: its bytes so far and what it waits for. -/
abbrev Unfinished := Option (Bytes × Awaited)

/-- The bytes of an unfinished sequence. -/
def Unfinished.raw : Unfinished → Bytes
  | none => []
  | some (bytes, _) => bytes

/-- A byte that starts a sequence. -/
def openSequence (byte : UInt8) : List Chunk × Unfinished :=
  match lead byte with
  | .ascii => ([⟨[byte], true⟩], none)
  | .opens awaited => ([], some ([byte], awaited))
  | .invalid => ([⟨[byte], false⟩], none)

/-- One byte.  A byte outside the awaited range ends the unfinished piece and
starts a sequence of its own. -/
def feed (unfinished : Unfinished) (byte : UInt8) : List Chunk × Unfinished :=
  match unfinished with
  | none => openSequence byte
  | some (bytes, awaited) =>
      if awaited.low ≤ byte ∧ byte ≤ awaited.high then
        match awaited.more with
        | 0 => ([⟨bytes ++ [byte], true⟩], none)
        | more + 1 => ([], some (bytes ++ [byte], ⟨0x80, 0xBF, more⟩))
      else
        (⟨bytes, false⟩ :: (openSequence byte).1, (openSequence byte).2)

/-- The pieces of a byte string behind an unfinished sequence. -/
def chunks (unfinished : Unfinished) : Bytes → List Chunk
  | [] =>
      match unfinished with
      | none => []
      | some (bytes, _) => [⟨bytes, false⟩]
  | byte :: rest => (feed unfinished byte).1 ++ chunks (feed unfinished byte).2 rest

/-- U+FFFD, the replacement character. -/
def replacement : Bytes :=
  [0xEF, 0xBF, 0xBD]

/-- `to_string_lossy`. -/
def toStringLossy (bytes : Bytes) : Bytes :=
  (chunks none bytes).flatMap fun chunk => if chunk.valid then chunk.raw else replacement

/-- A byte string is well-formed UTF-8. -/
def IsUtf8 (bytes : Bytes) : Prop :=
  ∀ chunk ∈ chunks none bytes, chunk.valid = true

instance (bytes : Bytes) : Decidable (IsUtf8 bytes) :=
  inferInstanceAs (Decidable (∀ chunk ∈ chunks none bytes, chunk.valid = true))

/-- `OsStr::to_str`. -/
def toStr (bytes : Bytes) : Option Bytes :=
  if IsUtf8 bytes then some bytes else none

/-! ## Nothing of the input is dropped -/

theorem openSequence_raw (byte : UInt8) :
    (openSequence byte).1.flatMap Chunk.raw ++ (openSequence byte).2.raw = [byte] := by
  cases leadEq : lead byte <;> simp [openSequence, leadEq, Unfinished.raw]

theorem feed_raw (unfinished : Unfinished) (byte : UInt8) :
    (feed unfinished byte).1.flatMap Chunk.raw ++ (feed unfinished byte).2.raw
      = unfinished.raw ++ [byte] := by
  cases unfinished with
  | none => exact openSequence_raw byte
  | some pending =>
      rcases pending with ⟨bytes, low, high, more⟩
      by_cases inRange : low ≤ byte ∧ byte ≤ high
      · cases more <;> simp [feed, inRange, Unfinished.raw]
      · have opened := openSequence_raw byte
        simp only [feed, inRange, if_false, List.flatMap_cons, List.append_assoc]
        rw [opened]
        rfl

/-- The pieces, put together, are the input. -/
theorem chunks_raw (unfinished : Unfinished) (bytes : Bytes) :
    (chunks unfinished bytes).flatMap Chunk.raw = unfinished.raw ++ bytes := by
  induction bytes generalizing unfinished with
  | nil =>
      cases unfinished with
      | none => rfl
      | some pending => simp [chunks, Unfinished.raw]
  | cons byte rest ih =>
      rw [chunks, List.flatMap_append, ih, ← List.append_assoc, feed_raw]
      simp

/-- Well-formed text is kept as it is. -/
theorem toStringLossy_of_isUtf8 {bytes : Bytes} (wellFormed : IsUtf8 bytes) :
    toStringLossy bytes = bytes := by
  have kept : toStringLossy bytes = (chunks none bytes).flatMap Chunk.raw := by
    simp only [toStringLossy, List.flatMap_def]
    congr 1
    apply List.map_congr_left
    intro chunk mem
    rw [if_pos (wellFormed chunk mem)]
  rw [kept, chunks_raw]
  rfl

theorem toStr_of_isUtf8 {bytes : Bytes} (wellFormed : IsUtf8 bytes) : toStr bytes = some bytes :=
  if_pos wellFormed

theorem feed_none_of_ascii {byte : UInt8} (ascii : byte < 0x80) :
    feed none byte = ([⟨[byte], true⟩], none) := by
  have leads : lead byte = .ascii := if_pos ascii
  simp [feed, openSequence, leads]

/-- ASCII text is well formed. -/
theorem isUtf8_of_ascii {bytes : Bytes} (ascii : ∀ byte ∈ bytes, byte < 0x80) : IsUtf8 bytes := by
  induction bytes with
  | nil => simp [IsUtf8, chunks]
  | cons byte rest ih =>
      have restWellFormed := ih fun later mem => ascii later (List.mem_cons_of_mem _ mem)
      intro chunk mem
      rw [chunks, feed_none_of_ascii (ascii byte List.mem_cons_self)] at mem
      rcases List.mem_append.mp mem with here | there
      · rw [List.mem_singleton.mp here]
      · exact restWellFormed chunk there

/-! ## An ASCII byte ends what stands before it -/

/-- An unfinished sequence waits for a byte that is not ASCII. -/
def Unfinished.Waits (unfinished : Unfinished) : Prop :=
  ∀ pending ∈ unfinished, 0x80 ≤ pending.2.low

theorem low_of_lead {byte : UInt8} {awaited : Awaited} (opens : lead byte = .opens awaited) :
    0x80 ≤ awaited.low := by
  have table : ∀ n < 256, ∀ found, lead (UInt8.ofNat n) = .opens found → 0x80 ≤ found.low := by
    have checked : (List.range 256).all (fun n =>
        match lead (UInt8.ofNat n) with
        | .opens found => decide (0x80 ≤ found.low)
        | _ => true) = true := by decide +kernel
    intro n small found opens
    have low := List.all_eq_true.mp checked n (List.mem_range.mpr small)
    rw [opens] at low
    exact of_decide_eq_true low
  have same : UInt8.ofNat byte.toNat = byte := UInt8.ofNat_toNat
  exact table byte.toNat byte.toNat_lt awaited (by rw [same, opens])

theorem waits_openSequence (byte : UInt8) : (openSequence byte).2.Waits := by
  unfold openSequence
  cases leads : lead byte with
  | ascii => simp [Unfinished.Waits]
  | opens awaited => simpa [Unfinished.Waits] using low_of_lead leads
  | invalid => simp [Unfinished.Waits]

theorem waits_feed {unfinished : Unfinished} (byte : UInt8) :
    (feed unfinished byte).2.Waits := by
  unfold feed
  split
  · exact waits_openSequence byte
  · split
    · split
      · simp [Unfinished.Waits]
      · simp [Unfinished.Waits]
    · exact waits_openSequence byte

theorem chunks_append_cons_of_ascii {byte : UInt8} (ascii : byte < 0x80) {unfinished : Unfinished}
    (waits : unfinished.Waits) (before after : Bytes) :
    chunks unfinished (before ++ byte :: after)
      = chunks unfinished before ++ ⟨[byte], true⟩ :: chunks none after := by
  induction before generalizing unfinished with
  | nil =>
      rw [List.nil_append, chunks]
      cases unfinished with
      | none =>
          rw [feed_none_of_ascii ascii]
          rfl
      | some pending =>
          have leads : openSequence byte = ([⟨[byte], true⟩], none) := by
            have opened := feed_none_of_ascii ascii
            exact opened
          have outside : ¬(pending.2.low ≤ byte ∧ byte ≤ pending.2.high) := by
            rintro ⟨low, -⟩
            exact absurd (UInt8.le_trans (waits pending rfl) low) (UInt8.not_le.mpr ascii)
          rw [feed, if_neg outside, leads]
          rfl
  | cons first before ih =>
      rw [List.cons_append, chunks, ih (waits_feed first), chunks, List.append_assoc]

/-- The text before an ASCII byte and the text behind it are decoded on their own. -/
theorem toStringLossy_append_cons {byte : UInt8} (ascii : byte < 0x80) (before after : Bytes) :
    toStringLossy (before ++ byte :: after) =
      toStringLossy before ++ byte :: toStringLossy after := by
  unfold toStringLossy
  rw [chunks_append_cons_of_ascii ascii (by simp [Unfinished.Waits])]
  simp

theorem mem_toStringLossy_of_ascii {byte : UInt8} (ascii : byte < 0x80) {bytes : Bytes}
    (mem : byte ∈ toStringLossy bytes) : byte ∈ bytes := by
  rcases List.mem_flatMap.mp mem with ⟨chunk, here, inside⟩
  have raw : byte ∈ (chunks none bytes).flatMap Chunk.raw := by
    refine List.mem_flatMap.mpr ⟨chunk, here, ?_⟩
    split at inside
    · exact inside
    · have plain : ∀ other ∈ replacement, ¬other < 0x80 := forall_mem_of_all (by decide)
      exact absurd ascii (plain byte inside)
  rw [chunks_raw] at raw
  exact raw

/-- The lines of a decoded text are the decoded lines. -/
theorem splitOn_toStringLossy {separator : UInt8} (ascii : separator < 0x80) (bytes : Bytes) :
    (toStringLossy bytes).splitOn separator = (bytes.splitOn separator).map toStringLossy := by
  by_cases found : separator ∈ bytes
  · rcases List.eq_append_cons_of_mem found with ⟨before, after, whole, plain⟩
    have shorter : after.length < bytes.length := by
      rw [whole]
      simp
      omega
    rw [whole, toStringLossy_append_cons ascii, List.splitOn_append_cons_self_of_not_mem plain,
      List.splitOn_append_cons_self_of_not_mem
        (fun mem => plain (mem_toStringLossy_of_ascii ascii mem)),
      splitOn_toStringLossy ascii after]
    rfl
  · rw [List.splitOn_eq_singleton found,
      List.splitOn_eq_singleton (fun mem => found (mem_toStringLossy_of_ascii ascii mem))]
    rfl
termination_by bytes.length

example : toStringLossy [0x61, 0xE3, 0x81, 0x41] = [0x61, 0xEF, 0xBF, 0xBD, 0x41] := by decide

end ClotoCore.Encoding
