import ClotoCore.Encoding.Lines

/-!
# Event streams

The format `text/event-stream`.  A text is read line by line, where a line ends with a
carriage return, a line feed or both.  An empty line ends an event, and the values of the
`data` fields of one event, joined by line feeds, are its payload.
-/

namespace ClotoCore.Encoding.EventStream

open ClotoCore.Encoding

universe u

/-! ## The format -/

/-- U+FEFF, which may stand at the front of a stream. -/
def byteOrderMark : Bytes :=
  [0xEF, 0xBB, 0xBF]

/-- A text without the mark at its front. -/
def stripMark (text : Bytes) : Bytes :=
  if byteOrderMark <+: text then text.drop byteOrderMark.length else text

/-- The lines of a text behind the beginning of a line.  A line feed behind a carriage return
ends no line of its own, and what is left at the end counts as a line. -/
def textLines (line : Bytes) (returned : Bool) : Bytes → List Bytes
  | [] => [line]
  | byte :: rest =>
      if byte = 10 then
        if returned then textLines line false rest else line :: textLines [] false rest
      else if byte = 13 then line :: textLines [] true rest
      else textLines (line ++ [byte]) false rest

/-- The value of a `data` field: what stands behind the colon, without one space. -/
def dataField (line : Bytes) : Option Bytes :=
  if line.takeWhile (· != 58) = utf8 "data" then
    let value := line.drop 5
    some (if value.head? = some 32 then value.tail else value)
  else none

/-- The payload of an event.  An event without content has none. -/
def payload (values : List Bytes) : List Bytes :=
  let data := [10].intercalate values
  if data = [] then [] else [data]

/-- The events of a text: its lines between the empty ones. -/
def events (text : Bytes) : List (List Bytes) :=
  (textLines [] false (stripMark text)).splitOn []

/-- The payloads of a stream. -/
def payloads (text : Bytes) : List Bytes :=
  (events text).flatMap fun event => payload (event.filterMap dataField)

/-! ## Values -/

/-- What a line adds to the content of its event. -/
def content (line : Bytes) : Option Bytes :=
  (dataField line).filter (!·.isEmpty)

@[simp]
theorem content_nil : content [] = none := by
  decide +kernel

theorem suffix_of_dataField {line value : Bytes} (found : dataField line = some value) :
    value <:+ line := by
  unfold dataField at found
  split at found
  · cases found
    split
    · exact (List.tail_suffix _).trans (List.drop_suffix 5 line)
    · exact List.drop_suffix 5 line
  · cases found

/-- The usual spelling, with one space. -/
theorem dataField_append (value : Bytes) : dataField (utf8 "data: " ++ value) = some value := by
  have bytes : utf8 "data: " = [100, 97, 116, 97, 58, 32] := by decide +kernel
  have name : utf8 "data" = [100, 97, 116, 97] := by decide +kernel
  simp [dataField, bytes, name]

/-- The contents of a text are those between any two line breaks. -/
theorem filterMap_textLines {β : Type*} {read : Bytes → Option β} (silent : read [] = none)
    (line : Bytes) (returned : Bool) (empty : returned = true → line = []) (text : Bytes) :
    (textLines line returned text).filterMap read
      = (((text.splitOn 10).flatMap (·.splitOn 13)).modifyHead (line ++ ·)).filterMap read := by
  induction text generalizing line returned with
  | nil => simp [textLines]
  | cons byte text ih =>
      rcases List.exists_cons_of_ne_nil (List.splitOn_ne_nil (10 : UInt8) text) with
        ⟨first, later, split⟩
      rcases List.exists_cons_of_ne_nil (List.splitOn_ne_nil (13 : UInt8) first) with
        ⟨head, tail, parts⟩
      rw [split, List.flatMap_cons, parts] at ih
      rw [textLines, List.splitOn_cons_eq_if_modifyHead, split]
      by_cases feed : byte = 10
      · have isFeed : (byte == 10) = true := by simpa using feed
        rw [if_pos feed, isFeed]
        cases returned with
        | true =>
            rw [empty rfl]
            simp [ih [] false, parts, silent]
        | false => simp [ih [] false, parts, List.filterMap_cons]
      · have notFeed : (byte == 10) = false := by simpa using feed
        rw [if_neg feed, notFeed, if_neg Bool.false_ne_true, List.modifyHead_cons,
          List.flatMap_cons, List.splitOn_cons_eq_if_modifyHead, parts]
        by_cases back : byte = 13
        · have isBack : (byte == 13) = true := by simpa using back
          rw [if_pos back, isBack, List.filterMap_cons, ih [] true (fun _ => rfl)]
          simp [List.filterMap_cons]
        · have notBack : (byte == 13) = false := by simpa using back
          rw [if_neg back, notBack, ih (line ++ [byte]) false (by simp)]
          simp

/-- What the parts of a line between carriage returns add. -/
def contents (line : Bytes) : List Bytes :=
  (line.splitOn 13).filterMap content

theorem filterMap_content_events (text : Bytes) :
    (events text).flatMap (·.filterMap content)
      = ((stripMark text).splitOn 10).flatMap contents := by
  rw [events, flatMap_filterMap_splitOn content_nil,
    filterMap_textLines content_nil [] false (by simp)]
  have same : ∀ pieces : List Bytes, pieces.modifyHead ([] ++ ·) = pieces := by
    intro pieces
    cases pieces <;> rfl
  rw [same, List.filterMap_flatMap]
  rfl

/-- A carriage return is in no payload. -/
theorem return_notMem_payload {text message : Bytes} (mem : message ∈ payloads text) :
    13 ∉ message := by
  rcases List.mem_flatMap.mp mem with ⟨event, here, sent⟩
  have joined : message = [10].intercalate (event.filterMap dataField) := by
    unfold payload at sent
    dsimp only at sent
    split at sent
    · cases sent
    · exact List.mem_singleton.mp sent
  intro inside
  have inValue : ∃ value ∈ event.filterMap dataField, (13 : UInt8) ∈ value := by
    rw [joined] at inside
    generalize event.filterMap dataField = values at inside
    induction values with
    | nil => simp at inside
    | cons value values ih =>
        rw [intercalate_cons] at inside
        rcases List.mem_append.mp inside with first | later
        · exact ⟨value, List.mem_cons_self, first⟩
        · cases values with
          | nil => simp at later
          | cons next values =>
              rw [behind] at later
              rcases List.mem_cons.mp later with feed | rest
              · cases feed
              · rcases ih rest with ⟨other, found, inOther⟩
                exact ⟨other, List.mem_cons_of_mem _ found, inOther⟩
  rcases inValue with ⟨value, found, inside⟩
  rcases List.mem_filterMap.mp found with ⟨line, inEvent, field⟩
  have filled : content line = some value := by
    have nonempty : value ≠ [] := List.ne_nil_of_mem inside
    simp [content, field, Option.filter, nonempty]
  have listed : value ∈ ((stripMark text).splitOn 10).flatMap contents := by
    rw [← filterMap_content_events]
    exact List.mem_flatMap.mpr ⟨event, here, List.mem_filterMap.mpr ⟨line, inEvent, filled⟩⟩
  rcases List.mem_flatMap.mp listed with ⟨piece, -, inPiece⟩
  rcases List.mem_filterMap.mp inPiece with ⟨part, isPart, read⟩
  have suffix : value <:+ part :=
    suffix_of_dataField (Option.filter_eq_some_iff.mp read).1
  exact notMem_of_mem_splitOn isPart (suffix.subset inside)

/-! ## Sizes -/

/-- How much is in the messages. -/
def size (messages : List Bytes) : Nat :=
  messages.flatten.length

@[simp]
theorem size_cons (message : Bytes) (messages : List Bytes) :
    size (message :: messages) = message.length + size messages := by
  simp [size]

@[simp]
theorem size_append (first second : List Bytes) :
    size (first ++ second) = size first + size second := by
  simp [size]

theorem size_flatMap_le {α : Type u} {items : List α} {few many : α → List Bytes}
    (le : ∀ item ∈ items, size (few item) ≤ size (many item)) :
    size (items.flatMap few) ≤ size (items.flatMap many) := by
  induction items with
  | nil => simp
  | cons item items ih =>
      have here := le item List.mem_cons_self
      have later := ih fun other mem => le other (List.mem_cons_of_mem _ mem)
      rw [List.flatMap_cons, List.flatMap_cons, size_append, size_append]
      omega

/-- Where nothing more is in all of the messages, nothing more is in those of an item. -/
theorem size_le_of_flatMap {α : Type u} {items : List α} {few many : α → List Bytes}
    (le : ∀ item ∈ items, size (few item) ≤ size (many item))
    (whole : size (items.flatMap many) ≤ size (items.flatMap few)) :
    ∀ item ∈ items, size (many item) ≤ size (few item) := by
  induction items with
  | nil => simp
  | cons item items ih =>
      have here := le item List.mem_cons_self
      have others : ∀ other ∈ items, size (few other) ≤ size (many other) := fun other mem =>
        le other (List.mem_cons_of_mem _ mem)
      have later := size_flatMap_le others
      rw [List.flatMap_cons, List.flatMap_cons, size_append, size_append] at whole
      intro other mem
      rcases List.mem_cons.mp mem with rfl | rest
      · omega
      · exact ih others (by omega) other rest

/-! ## Events with one value -/

theorem filter_filterMap_content (event : List Bytes) :
    event.filterMap content = (event.filterMap dataField).filter (!·.isEmpty) := by
  unfold content
  induction event with
  | nil => rfl
  | cons line event ih =>
      rw [List.filterMap_cons, List.filterMap_cons, ih]
      cases dataField line with
      | none => rfl
      | some value => by_cases empty : value = [] <;> simp [Option.filter, empty]

theorem payload_of_single {values : List Bytes} (single : values.length ≤ 1) :
    payload values = values.filter (!·.isEmpty) := by
  match values, single with
  | [], _ => rfl
  | [value], _ => by_cases empty : value = [] <;> simp [payload, empty]

theorem size_payload (values : List Bytes) :
    size (payload values) = ([10].intercalate values).length := by
  unfold payload
  dsimp only
  split
  · next empty => rw [empty]; rfl
  · simp [size]

theorem size_filter_le (values : List Bytes) :
    size (values.filter (!·.isEmpty)) + (values.length - 1) ≤ size (payload values) := by
  rw [size_payload]
  have kept : ∀ others : List Bytes, size (others.filter (!·.isEmpty)) = size others := by
    intro others
    induction others with
    | nil => rfl
    | cons value others ih => by_cases empty : value = [] <;> simp [empty, ih]
  rw [kept]
  induction values with
  | nil => simp [size]
  | cons value values ih =>
      cases values with
      | nil => simp [size]
      | cons next values =>
          simp only [List.intercalate_cons_cons, size_cons, List.length_cons,
            List.length_append, List.length_nil] at ih ⊢
          omega

theorem size_content_le (event : List Bytes) :
    size (event.filterMap content) ≤ size (payload (event.filterMap dataField)) := by
  have bound := size_filter_le (event.filterMap dataField)
  rw [filter_filterMap_content]
  omega

/-- Only an event with one value has no more in its payload than in its values. -/
theorem single_of_size_le {event : List Bytes}
    (le : size (payload (event.filterMap dataField)) ≤ size (event.filterMap content)) :
    (event.filterMap dataField).length ≤ 1 := by
  have bound := size_filter_le (event.filterMap dataField)
  rw [filter_filterMap_content] at le
  omega

/-- Of events with one value each the payloads are the values. -/
theorem payloads_of_single {text : Bytes}
    (single : ∀ event ∈ events text, (event.filterMap dataField).length ≤ 1) :
    payloads text = ((stripMark text).splitOn 10).flatMap contents := by
  rw [← filterMap_content_events, payloads, List.flatMap_def, List.flatMap_def]
  congr 1
  apply List.map_congr_left
  intro event mem
  rw [payload_of_single (single event mem), filter_filterMap_content]

example : payloads (utf8 "data: a\r\ndata:b\n: note\n\nevent: x\rdata\rdata: c")
    = [utf8 "a\nb", utf8 "\nc"] := by
  decide +kernel

end ClotoCore.Encoding.EventStream
