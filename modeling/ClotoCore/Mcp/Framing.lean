import ClotoCore.Encoding.EventStream
import ClotoCore.Mcp.HttpTransport

/-!
# The framing of messages

A server that is run as a program writes its messages as lines, and one that is reached by
HTTP sends them as the payloads of an event stream.  Both are read in pieces, and both
readers give up where an unfinished line becomes too long.
-/

namespace ClotoCore.Mcp.Framing

open ClotoCore.Encoding ClotoCore.Encoding.EventStream ClotoCore.Mcp.HttpTransport

/-! ## The readers -/

/-- `MAX_STDIO_LINE_BYTES` -/
def maxStdioLineBytes : Nat := 1048576

/-- `String::from_utf8_lossy` -/
def fromUtf8Lossy (bytes : Bytes) : String :=
  (String.fromUTF8? ⟨⟨toStringLossy bytes⟩⟩).getD ""

/-- The message of a line, if it is not blank. -/
def stdoutMessage (line : Bytes) : Option String :=
  (some (trim (fromUtf8Lossy line))).filter (!·.isEmpty)

/-- The reader task: the messages that it forwards of what the server has written, as long
as the client takes them.  What is left at the end is dropped. -/
def readStdout (chunks : List Bytes) : List String :=
  (readPieces 10 maxStdioLineBytes [] chunks).1.filterMap stdoutMessage

/-! ## What is to be forwarded -/

/-- The trimmed lines of a stream that a line feed ends, without the blank ones. -/
def stdoutLines (stream : Bytes) : List String :=
  (((stream.splitOn 10).dropLast).map fun line => trim (fromUtf8Lossy line)).filter (!·.isEmpty)

/-- The line that a stream ends in. -/
def unterminated (stream : Bytes) : Bytes :=
  (stream.splitOn 10).getLastD []

/-- No unterminated line that a reader meets exceeds the cap. -/
def Bounded (chunks : List Bytes) : Prop :=
  ∀ read ∈ chunks.inits, (unterminated read.flatten).length ≤ maxStdioLineBytes

/-- The messages that both readers forward are those of the stream. -/
def Framed (chunks : List Bytes) : Prop :=
  readStdout chunks = stdoutLines chunks.flatten ∧
    parseSseStream chunks none = payloads (toStringLossy chunks.flatten)

/-! ## How a stream has to be spelled -/

/-- A line gives its event no content. -/
def Silent (line : Bytes) : Prop :=
  ∀ part ∈ line.splitOn 13, ∀ value, dataField part = some value → value = []

/-- A line begins with the name, the colon and one space, and goes on. -/
def Leads (line : Bytes) : Prop :=
  utf8 "data: " <+: trimLine line ∧ trimLine line ≠ utf8 "data: "

instance (line : Bytes) : Decidable (Leads line) :=
  inferInstanceAs (Decidable (utf8 "data: " <+: trimLine line ∧ trimLine line ≠ utf8 "data: "))

/-- A line that begins with the name, the colon and a space has no other carriage return than
those at its end, and no other line gives content. -/
def LineSpelled (line plain : Bytes) : Prop :=
  (Leads line → 13 ∉ trimLine line) ∧ (¬Leads line → Silent plain)

/-- A stream is spelled the way the reader expects it: line by line, where the first one may
stand behind a mark, and with one value for each event. -/
structure Spelled (text : Bytes) : Prop where
  lines : ∀ pair ∈ (text.splitOn 10).zip ((stripMark text).splitOn 10),
    LineSpelled pair.1 pair.2
  events : ∀ event ∈ events text, (event.filterMap dataField).length ≤ 1

/-! ## Pieces -/

variable {chunks : List Bytes}

theorem unterminated_eq (stream : Bytes) : unterminated stream = (cut 10 [] stream).2 := by
  rw [unterminated, ← cut_eq_splitOn]
  simp

theorem dropLast_splitOn (stream : Bytes) :
    (stream.splitOn 10).dropLast = (cut 10 [] stream).1 := by
  rw [← cut_eq_splitOn]
  simp

/-- Within the bound the pieces are read to their end. -/
theorem followed_of_within (bounded : Bounded chunks) :
    followed 10 maxStdioLineBytes [] chunks = (chunks.flatten, false) := by
  have short : ∀ front ∈ chunks.inits, front ≠ [] →
      (cut 10 [] ([] ++ front.flatten)).2.length ≤ maxStdioLineBytes := by
    intro front mem _
    have here := bounded front mem
    rw [unterminated_eq] at here
    exact here
  exact followed_of_bounded short

theorem readPieces_of_within (bounded : Bounded chunks) :
    readPieces 10 maxStdioLineBytes [] chunks
      = ((cut 10 [] chunks.flatten).1, (cut 10 [] chunks.flatten).2, false) := by
  rcases readPieces_eq maxStdioLineBytes [] chunks with ⟨lines, rest⟩
  rw [followed_of_within bounded] at lines rest
  exact Prod.ext lines rest

/-- The messages of a program are its lines, however they are read. -/
theorem readStdout_eq (bounded : Bounded chunks) :
    readStdout chunks = stdoutLines chunks.flatten := by
  rw [readStdout, readPieces_of_within bounded, stdoutLines, dropLast_splitOn]
  induction (cut 10 [] chunks.flatten).1 with
  | nil => rfl
  | cons line lines ih =>
      rw [List.filterMap_cons, List.map_cons, List.filter_cons, ← ih, stdoutMessage,
        Option.filter_some]
      cases (trim (fromUtf8Lossy line)).isEmpty <;> rfl

/-- What is sent of a decoded line. -/
def sent (line : Bytes) : List Bytes :=
  if Leads line then [(trimLine line).drop (utf8 "data: ").length] else []

theorem toList_lineData (line : Bytes) : (lineData line).toList = sent (toStringLossy line) := by
  unfold lineData sent Leads
  dsimp only
  by_cases leads : utf8 "data: " <+: trimLine (toStringLossy line)
  · rw [if_pos leads]
    rcases leads with ⟨value, whole⟩
    by_cases empty : value = []
    · have only : trimLine (toStringLossy line) = utf8 "data: " := by simp [← whole, empty]
      simp [only]
    · simp [← whole, empty]
  · simp [leads]

/-- What is sent of a stream, line by line. -/
theorem parseSseStream_eq_sent (bounded : Bounded chunks) :
    parseSseStream chunks none = ((toStringLossy chunks.flatten).splitOn 10).flatMap sent := by
  have same : maxSseLineBytes = maxStdioLineBytes := rfl
  have whole : (cut 10 [] chunks.flatten).1 ++ [(cut 10 [] chunks.flatten).2]
      = chunks.flatten.splitOn 10 := cut_eq_splitOn chunks.flatten
  have nothing : lineData [] = none := rfl
  unfold parseSseStream
  rw [same, readPieces_of_within bounded, splitOn_toStringLossy (by decide), ← whole,
    List.flatMap_map]
  have each : (fun line => sent (toStringLossy line)) = fun line => (lineData line).toList := by
    funext line
    exact (toList_lineData line).symm
  rw [each, List.flatMap_append, ← List.filterMap_eq_flatMap_toList]
  cases rest : (cut 10 [] chunks.flatten).2 <;> simp [nothing]

/-! ## Lines -/

theorem contents_trimLine (line : Bytes) : contents (trimLine line) = contents line := by
  unfold trimLine
  induction line using List.reverseRecOn with
  | nil => rfl
  | append_singleton line byte ih =>
      rw [List.reverse_concat, List.dropWhile_cons]
      split
      · next back =>
        have isReturn : byte = 13 := by simpa using back
        rw [ih, isReturn, contents, contents, List.splitOn_append_cons_self]
        simp
      · simp

theorem contents_of_notMem {line : Bytes} (plain : 13 ∉ line) :
    contents line = (content line).toList := by
  rw [contents, List.splitOn_eq_singleton plain, List.filterMap_cons]
  cases content line <;> rfl

theorem silent_iff {line : Bytes} : Silent line ↔ contents line = [] := by
  rw [contents, List.filterMap_eq_nil_iff]
  apply forall₂_congr
  intro part _
  rw [content, Option.filter_eq_none_iff]
  simp

/-- Of a line that leads, without other carriage returns, its value is sent. -/
theorem sent_of_leads {line : Bytes} (leads : Leads line) (plain : 13 ∉ trimLine line) :
    sent line = contents line := by
  rw [← contents_trimLine, contents_of_notMem plain, sent, if_pos leads]
  rcases leads with ⟨⟨value, whole⟩, more⟩
  have filled : value.isEmpty = false := by
    cases value with
    | nil => simp [← whole] at more
    | cons byte value => rfl
  rw [← whole, content, dataField_append]
  simp [Option.filter, filled]

theorem not_leads_mark (line : Bytes) : ¬Leads (byteOrderMark ++ line) := by
  rintro ⟨starts, -⟩
  have first : ∀ line : Bytes, (trimLine (byteOrderMark ++ line)).head? = some 0xEF := by
    intro line
    unfold trimLine
    induction line using List.reverseRecOn with
    | nil => rfl
    | append_singleton line byte ih =>
        rw [← List.append_assoc, List.reverse_concat, List.dropWhile_cons]
        split
        · exact ih
        · simp [byteOrderMark]
  rcases starts with ⟨rest, whole⟩
  have here := first line
  have bytes : utf8 "data: " = [100, 97, 116, 97, 58, 32] := by decide +kernel
  rw [← whole, bytes] at here
  simp at here

/-- A line and what is behind its mark, if it has one. -/
def Marked (line plain : Bytes) : Prop :=
  line = plain ∨ line = byteOrderMark ++ plain

theorem sent_eq_contents {line plain : Bytes} (marked : Marked line plain)
    (spelled : LineSpelled line plain) : sent line = contents plain := by
  by_cases leads : Leads line
  · rcases marked with rfl | rfl
    · exact sent_of_leads leads (spelled.1 leads)
    · exact absurd leads (not_leads_mark plain)
  · rw [silent_iff.mp (spelled.2 leads), sent, if_neg leads]

/-- Where what is sent has no carriage return, the line has none but those at its end. -/
theorem return_notMem_trimLine {line : Bytes} (leads : Leads line)
    (whole : ∀ message ∈ sent line, 13 ∉ message) : 13 ∉ trimLine line := by
  have free := whole _ (by rw [sent, if_pos leads]; exact List.mem_singleton_self _)
  have name : 13 ∉ utf8 "data: " := by decide +kernel
  rcases leads.1 with ⟨value, joined⟩
  rw [← joined, List.drop_left] at free
  rw [← joined]
  simp [name, free]

theorem size_sent_le {line plain : Bytes} (marked : Marked line plain)
    (whole : ∀ message ∈ sent line, 13 ∉ message) : size (sent line) ≤ size (contents plain) := by
  by_cases leads : Leads line
  · rcases marked with rfl | rfl
    · rw [sent_of_leads leads (return_notMem_trimLine leads whole)]
    · exact absurd leads (not_leads_mark plain)
  · rw [sent, if_neg leads]
    exact Nat.zero_le _

theorem lineSpelled_of_size_le {line plain : Bytes}
    (whole : ∀ message ∈ sent line, 13 ∉ message)
    (le : size (contents plain) ≤ size (sent line)) : LineSpelled line plain := by
  constructor
  · intro leads
    exact return_notMem_trimLine leads whole
  · intro other
    rw [sent, if_neg other] at le
    rw [silent_iff]
    cases first : contents plain with
    | nil => rfl
    | cons value values =>
        have mem : value ∈ contents plain := by simp [first]
        rcases List.mem_filterMap.mp mem with ⟨part, -, read⟩
        have filled : value ≠ [] := by
          have kept := (Option.filter_eq_some_iff.mp read).2
          simpa using kept
        have long := List.length_pos_of_ne_nil filled
        rw [first, size_cons] at le
        have nothing : size [] = 0 := rfl
        omega

/-! ## The whole stream -/

theorem splitOn_mark_append (text : Bytes) :
    (byteOrderMark ++ text).splitOn 10 = (text.splitOn 10).modifyHead (byteOrderMark ++ ·) := by
  rcases List.exists_cons_of_ne_nil (List.splitOn_ne_nil (10 : UInt8) text) with
    ⟨head, tail, split⟩
  simp [byteOrderMark, List.splitOn_cons_eq_if_modifyHead, split]

/-- The lines of a text with and without its mark. -/
theorem exists_pairs (text : Bytes) :
    (((text.splitOn 10).zip ((stripMark text).splitOn 10)).map Prod.fst = text.splitOn 10) ∧
      (((text.splitOn 10).zip ((stripMark text).splitOn 10)).map Prod.snd
        = (stripMark text).splitOn 10) ∧
      ∀ pair ∈ (text.splitOn 10).zip ((stripMark text).splitOn 10), Marked pair.1 pair.2 := by
  have same : ∀ lines : List Bytes, ∀ pair ∈ lines.zip lines, Marked pair.1 pair.2 := by
    intro lines pair mem
    rw [List.zip, List.zipWith_self] at mem
    rcases List.mem_map.mp mem with ⟨line, -, rfl⟩
    exact Or.inl rfl
  unfold stripMark
  split
  · next mark =>
    rcases mark with ⟨rest, rfl⟩
    rw [List.drop_left, splitOn_mark_append]
    rcases List.exists_cons_of_ne_nil (List.splitOn_ne_nil (10 : UInt8) rest) with
      ⟨head, tail, split⟩
    rw [split, List.modifyHead_cons]
    refine ⟨by simp [List.map_fst_zip], by simp [List.map_snd_zip], ?_⟩
    intro pair mem
    rcases List.mem_cons.mp mem with rfl | later
    · exact Or.inr rfl
    · exact same tail pair later
  · exact ⟨List.map_fst_zip (Nat.le_refl _), List.map_snd_zip (Nat.le_refl _), same _⟩

/-- The payloads are what is sent exactly if the stream is spelled the way the reader
expects it. -/
theorem sent_eq_payloads_iff (text : Bytes) :
    (text.splitOn 10).flatMap sent = payloads text ↔ Spelled text := by
  rcases exists_pairs text with ⟨firsts, seconds, marked⟩
  generalize pairsEq : (text.splitOn 10).zip ((stripMark text).splitOn 10) = pairs
    at firsts seconds marked
  have sentPairs : (text.splitOn 10).flatMap sent = pairs.flatMap fun pair => sent pair.1 := by
    rw [← firsts, List.flatMap_map]
  have contentPairs : ((stripMark text).splitOn 10).flatMap contents
      = pairs.flatMap fun pair => contents pair.2 := by
    rw [← seconds, List.flatMap_map]
  have contentEvents := filterMap_content_events text
  rw [contentPairs] at contentEvents
  constructor
  · intro equal
    have whole : ∀ pair ∈ pairs, ∀ message ∈ sent pair.1, 13 ∉ message := by
      intro pair mem message isSent
      have listed : message ∈ payloads text := by
        rw [← equal, sentPairs]
        exact List.mem_flatMap.mpr ⟨pair, mem, isSent⟩
      exact return_notMem_payload listed
    have fewer : ∀ pair ∈ pairs, size (sent pair.1) ≤ size (contents pair.2) :=
      fun pair mem => size_sent_le (marked pair mem) (whole pair mem)
    have more : ∀ event ∈ events text,
        size (event.filterMap content) ≤ size (payload (event.filterMap dataField)) :=
      fun event _ => size_content_le event
    -- what is sent is no more than the contents, and these no more than the payloads
    have sentLe := size_flatMap_le fewer
    have contentLe := size_flatMap_le more
    have sizes : size (pairs.flatMap fun pair => sent pair.1)
        = size ((events text).flatMap fun event => payload (event.filterMap dataField)) := by
      rw [← sentPairs, equal]
      rfl
    rw [contentEvents] at contentLe
    have linesBack := size_le_of_flatMap fewer (by omega)
    have eventsBack := size_le_of_flatMap more (by rw [contentEvents]; omega)
    constructor
    · rw [pairsEq]
      intro pair mem
      exact lineSpelled_of_size_le (whole pair mem) (linesBack pair mem)
    · intro event mem
      exact single_of_size_le (eventsBack event mem)
  · intro spelled
    have lines := spelled.lines
    rw [pairsEq] at lines
    rw [payloads_of_single spelled.events, sentPairs, contentPairs, List.flatMap_def,
      List.flatMap_def]
    congr 1
    apply List.map_congr_left
    intro pair mem
    exact sent_eq_contents (marked pair mem) (lines pair mem)

/-- Both readers forward the messages of a stream, however it is split, exactly if it is
spelled the way the reader of event streams expects it. -/
theorem framed_iff_spelled (bounded : Bounded chunks) :
    Framed chunks ↔ Spelled (toStringLossy chunks.flatten) := by
  rw [Framed, parseSseStream_eq_sent bounded, sent_eq_payloads_iff]
  exact and_iff_right (readStdout_eq bounded)

/-- An event of one line, cut within a line end, is framed, since it is spelled so. -/
theorem framed_reply : Bounded [utf8 "data: x\r", utf8 "\n\n"] ∧
    Framed [utf8 "data: x\r", utf8 "\n\n"] ∧
      Spelled (toStringLossy (List.flatten [utf8 "data: x\r", utf8 "\n\n"])) := by
  have bounded : Bounded [utf8 "data: x\r", utf8 "\n\n"] := by
    unfold Bounded
    decide +kernel
  have framed : Framed [utf8 "data: x\r", utf8 "\n\n"] := by
    unfold Framed
    decide +kernel
  exact ⟨bounded, framed, (framed_iff_spelled bounded).mp framed⟩

/-- The payload of a field without the space is not forwarded. -/
theorem unspaced_not_framed : ¬ ∀ chunks, Bounded chunks → Framed chunks := by
  intro framed
  have bounded : Bounded [utf8 "data:x\n\n"] := by
    unfold Bounded
    decide +kernel
  have lost := (framed [utf8 "data:x\n\n"] bounded).2
  revert lost
  decide +kernel

end ClotoCore.Mcp.Framing
