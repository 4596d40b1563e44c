import ClotoCore.Encoding.Chunked
import ClotoCore.Encoding.Utf8Lossy
import ClotoCore.Mcp.Era
import ClotoCore.Mcp.ToolCall

/-!
# The HTTP transport

The messages of the client are sent one at a time, each as a request of its own, and what
the server replies is forwarded to the client: a body as one message, or the data lines
of an event stream as they come.  Where there is no reply the transport makes one up.
-/

namespace ClotoCore.Mcp.HttpTransport

open ClotoCore.Encoding ClotoCore.Json ClotoCore.Mcp.Era

/-! ## Requests and replies -/

/-- What the loop reads of the era when it takes a message. -/
structure EraView where
  modern : Bool
  wireVersion : Option String

/-- A request as it is sent. -/
structure HttpRequest where
  headers : List (String × String)
  body : String

/-- A reply: its status, also as it is displayed, the headers that are texts, and its body
as it arrives, with the error that ends it early. -/
structure HttpResponse where
  status : Nat
  statusText : String
  sessionId : Option String
  contentType : Option String
  chunks : List Bytes
  failure : Option String

/-- What becomes of a request within the time of one message. -/
inductive Exchange where
  | failed (error : String)
  | timedOut
  | answered (response : HttpResponse)

/-- What the transport puts into the channel to the client: a text of the server, or a
message of its own. -/
inductive Forwarded where
  | raw (text : Bytes)
  | made (message : Value)

/-- A message that the loop has taken, and what it did with it. -/
structure Served where
  message : String
  request : HttpRequest
  exchange : Exchange
  forwarded : List Forwarded

/-- A message, and what is met when it is sent. -/
structure Turn where
  message : String
  era : EraView
  exchange : Exchange

/-- The loop: the session that the server has named, and what was served. -/
structure State where
  sessionId : Option String
  served : List Served

/-- No session, and nothing sent. -/
def State.init : State where
  sessionId := none
  served := []

/-- `DISCOVER_METHOD` -/
def discoverMethod : String := "server/discover"

/-- `MAX_SSE_LINE_BYTES` -/
def maxSseLineBytes : Nat := 1048576

/-- `StatusCode::is_success` -/
def HttpResponse.isSuccess (response : HttpResponse) : Bool :=
  200 ≤ response.status && response.status < 300

/-- Whether the answer comes as a stream of events. -/
def HttpResponse.isEventStream (response : HttpResponse) : Bool :=
  containsText (response.contentType.getD "") "text/event-stream"

/-- The reading of JSON, and the decoding of a body by its content type. -/
structure Reading where
  parse : Bytes → Option Value
  decode : Option String → Bytes → String

variable (reading : Reading)

/-- The id of a message, and `Null` where it has none. -/
def requestId (message : String) : Value :=
  ((reading.parse (utf8 message)).bind fun value => value.get "id").getD .null

/-- The method that a message names. -/
def methodOf (message : String) : Option String :=
  ((reading.parse (utf8 message)).bind fun value => value.get "method").bind Value.asStr

/-- The request of a message. -/
def httpRequest (auth : Option String) (era : EraView) (sessionId : Option String)
    (message : String) : HttpRequest where
  headers :=
    let method := methodOf reading message
    [("Content-Type", "application/json"), ("Accept", "application/json, text/event-stream")] ++
      (auth.toList.map fun token => ("Authorization", "Bearer " ++ token)) ++
      (if era.modern || method == some discoverMethod then
        ("mcp-protocol-version", era.wireVersion.getD modernProtocolVersion) ::
          method.toList.map fun name => ("mcp-method", name)
      else []) ++
      (if era.modern then [] else sessionId.toList.map fun id => ("Mcp-Session-Id", id))
  body := message

/-- The error that is sent to the client for a request. -/
def errorMessage (id : Value) (text : String) : Value :=
  .object [("jsonrpc", .string "2.0"),
    ("error", .object [("code", .number ⟨true, 32000, [], none⟩), ("message", .string text)]),
    ("id", id)]

/-- The carriage returns at the end of a line are dropped. -/
def trimLine (line : Bytes) : Bytes :=
  (line.reverse.dropWhile (· == 13)).reverse

/-- The data of a line of an event stream. -/
def lineData (line : Bytes) : Option Bytes :=
  let text := trimLine (toStringLossy line)
  if utf8 "data: " <+: text then
    (some (text.drop (utf8 "data: ").length)).filter fun data => data != []
  else none

/-- `parse_sse_stream`: the data lines that are forwarded.  What is left at the end counts
as a line, unless the stream has failed or the reader has given up. -/
def parseSseStream (chunks : List Bytes) (failure : Option String) : List Bytes :=
  let result := readPieces 10 maxSseLineBytes [] chunks
  let lines := result.1.filterMap lineData
  if result.2.2 || failure.isSome || result.2.1.isEmpty then lines
  else lines ++ (lineData result.2.1).toList

/-- `Response::text` -/
def HttpResponse.text (response : HttpResponse) : Option String :=
  if response.failure.isSome then none
  else some (reading.decode response.contentType response.chunks.flatten)

/-- The body of the request loop. -/
def forward (message : String) : Exchange → List Forwarded
  | .failed error =>
      [.made (errorMessage (requestId reading message) ("HTTP transport error: " ++ error))]
  | .timedOut =>
      [.made (errorMessage (requestId reading message) "HTTP per-message timeout (30s)")]
  | .answered response =>
      if response.isSuccess then
        if response.isEventStream then
          (parseSseStream response.chunks response.failure).map .raw
        else
          match response.text reading with
          | some body => if (trim body).isEmpty then [] else [.raw (utf8 body)]
          | none => []
      else
        [.made (errorMessage (requestId reading message)
          ("HTTP " ++ response.statusText ++ ": " ++ (response.text reading).getD ""))]

/-- The session that is kept of a reply. -/
def keepSession (era : EraView) (sessionId : Option String) : Exchange → Option String
  | .answered response =>
      if response.isSuccess && !era.modern then response.sessionId.or sessionId else sessionId
  | _ => sessionId

/-- The loop takes a message. -/
def serve (auth : Option String) (state : State) (turn : Turn) : State where
  sessionId := keepSession turn.era state.sessionId turn.exchange
  served := state.served ++ [
    { message := turn.message
      request := httpRequest reading auth turn.era state.sessionId turn.message
      exchange := turn.exchange
      forwarded := forward reading turn.message turn.exchange }]

/-- The loop as far as it has taken the messages. -/
def serveAll (auth : Option String) (turns : List Turn) : State :=
  turns.foldl (serve reading auth) .init

/-! ## What is a response -/

/-- The lines of an event stream that were received completely; the last one needs no
line break where the stream ends in order. -/
def HttpResponse.lines (response : HttpResponse) : List Bytes :=
  let seen := followed 10 maxSseLineBytes [] response.chunks
  let parts := cut 10 [] seen.1
  if seen.2 || response.failure.isSome then parts.1 else parts.1 ++ [parts.2]

/-- The data of a line by the format, where the space behind the colon may be missing. -/
def fieldData (line : Bytes) : Option Bytes :=
  let text := trimLine (toStringLossy line)
  if utf8 "data: " <+: text then some (text.drop (utf8 "data: ").length)
  else if utf8 "data:" <+: text then some (text.drop (utf8 "data:").length)
  else none

/-- The messages of the server that were received completely. -/
def HttpResponse.messages (response : HttpResponse) : List Bytes :=
  if response.isEventStream then response.lines.filterMap fieldData
  else (response.text reading).toList.map utf8

/-- A text is a response to the request of an id. -/
def RespondsTo (id : Value) (text : Bytes) : Prop :=
  ∃ value, reading.parse text = some value ∧ value.get "id" = some id ∧ value.get "method" = none

/-- The messages that the reader is handed. -/
def Exchange.messages : Exchange → List Bytes
  | .answered response => response.messages reading
  | _ => []

/-- A request is answered: by the server's own response where one was received, and by an
error with its id otherwise. -/
def Served.Answered (id : Value) (served : Served) : Prop :=
  (∃ text ∈ served.exchange.messages reading, RespondsTo reading id text ∧
      .raw text ∈ served.forwarded) ∨
    (∀ text ∈ served.exchange.messages reading, ¬RespondsTo reading id text) ∧
      ∃ message, .made message ∈ served.forwarded ∧ message.get "id" = some id ∧
        (message.get "error").isSome

/-- A reply of success has the response to a request, in a body that is not blank or in a
data line with its space, and another reply has none. -/
def Exchange.Settles (id : Value) : Exchange → Prop
  | .failed _ | .timedOut => True
  | .answered response =>
      if response.isSuccess then
        if response.isEventStream then
          ∃ line ∈ response.lines, ∃ data ∈ lineData line, RespondsTo reading id data
        else ∃ body ∈ response.text reading, (trim body).isEmpty = false ∧
          RespondsTo reading id (utf8 body)
      else ∀ text ∈ response.messages reading, ¬RespondsTo reading id text

/-! ## Event streams -/

variable {reading : Reading}

/-- What is forwarded of an event stream is the data of its lines. -/
theorem parseSseStream_eq (response : HttpResponse) :
    parseSseStream response.chunks response.failure = response.lines.filterMap lineData := by
  have read : readPieces 10 maxSseLineBytes [] response.chunks
      = ((cut 10 [] (followed 10 maxSseLineBytes [] response.chunks).1).1,
        (cut 10 [] (followed 10 maxSseLineBytes [] response.chunks).1).2,
        (followed 10 maxSseLineBytes [] response.chunks).2) := by
    rcases readPieces_eq maxSseLineBytes [] response.chunks with ⟨lines, rest⟩
    exact Prod.ext lines rest
  have empty : lineData [] = none := rfl
  unfold parseSseStream HttpResponse.lines
  rw [read]
  dsimp only
  cases gaveUp : (followed 10 maxSseLineBytes [] response.chunks).2 <;>
    cases failed : response.failure.isSome <;>
    cases rest : (cut 10 [] (followed 10 maxSseLineBytes [] response.chunks).1).2 <;>
    simp [empty, List.filterMap_cons]
  split <;> simp_all

/-- The space behind the colon is the format's own. -/
theorem fieldData_of_lineData {line data : Bytes} (found : lineData line = some data) :
    fieldData line = some data := by
  unfold lineData at found
  unfold fieldData
  dsimp only at found ⊢
  split at found
  · next leads =>
    rw [if_pos leads]
    exact (Option.filter_eq_some_iff.mp found).1
  · cases found

theorem get_errorMessage (id : Value) (text : String) :
    (errorMessage id text).get "id" = some id ∧ ((errorMessage id text).get "error").isSome := by
  simp [errorMessage, Value.get, lastValue]

/-! ## Answers -/

variable {message : String} {response : HttpResponse}

theorem raw_mem_forward_iff_of_stream (success : response.isSuccess = true)
    (stream : response.isEventStream = true) {text : Bytes} :
    .raw text ∈ forward reading message (.answered response) ↔
      ∃ line ∈ response.lines, lineData line = some text := by
  rw [forward, if_pos success, if_pos stream, parseSseStream_eq]
  simp

theorem raw_mem_forward_iff_of_body (success : response.isSuccess = true)
    (body : response.isEventStream = false) {text : Bytes} :
    .raw text ∈ forward reading message (.answered response) ↔
      ∃ read ∈ response.text reading, (trim read).isEmpty = false ∧ text = utf8 read := by
  rw [forward, if_pos success, body, if_neg Bool.false_ne_true]
  cases read : response.text reading with
  | none => simp
  | some body =>
      dsimp only
      split
      · next blank => simp_all
      · next filled => simp_all

/-- Of a reply of success nothing is made up. -/
theorem made_notMem_forward (success : response.isSuccess = true) (made : Value) :
    .made made ∉ forward reading message (.answered response) := by
  rw [forward, if_pos success]
  split
  · simp
  · split
    · split <;> simp
    · simp

/-- A request is answered exactly if its exchange settles it. -/
theorem answered_forward_iff (request : HttpRequest) (exchange : Exchange) :
    Served.Answered reading (requestId reading message)
        ⟨message, request, exchange, forward reading message exchange⟩ ↔
      exchange.Settles reading (requestId reading message) := by
  unfold Served.Answered
  dsimp only
  cases exchange with
  | failed error =>
      constructor
      · intro
        trivial
      · intro
        right
        refine ⟨fun text mem => absurd mem List.not_mem_nil, _, List.mem_cons_self, ?_⟩
        exact get_errorMessage _ _
  | timedOut =>
      constructor
      · intro
        trivial
      · intro
        right
        refine ⟨fun text mem => absurd mem List.not_mem_nil, _, List.mem_cons_self, ?_⟩
        exact get_errorMessage _ _
  | answered response =>
      unfold Exchange.Settles Exchange.messages
      dsimp only
      cases success : response.isSuccess with
      | false =>
          have made : forward reading message (.answered response)
              = [.made (errorMessage (requestId reading message)
                ("HTTP " ++ response.statusText ++ ": " ++ (response.text reading).getD ""))] := by
            rw [forward, success, if_neg Bool.false_ne_true]
          rw [made, if_neg Bool.false_ne_true]
          constructor
          · rintro (⟨text, -, -, mem⟩ | ⟨noResponse, -⟩)
            · simp at mem
            · exact noResponse
          · intro noResponse
            right
            exact ⟨noResponse, _, List.mem_cons_self, get_errorMessage _ _⟩
      | true =>
          have noneMade : ∀ made, .made made ∉ forward reading message (.answered response) :=
            made_notMem_forward success
          rw [if_pos rfl]
          cases stream : response.isEventStream with
          | true =>
              rw [if_pos rfl, HttpResponse.messages, stream, if_pos rfl]
              constructor
              · rintro (⟨text, -, responds, mem⟩ | ⟨-, made, mem, -⟩)
                · rcases (raw_mem_forward_iff_of_stream success stream).mp mem with
                    ⟨line, here, data⟩
                  exact ⟨line, here, text, data, responds⟩
                · exact absurd mem (noneMade made)
              · rintro ⟨line, here, data, found, responds⟩
                left
                refine ⟨data, ?_, responds, ?_⟩
                · exact List.mem_filterMap.mpr ⟨line, here, fieldData_of_lineData found⟩
                · exact (raw_mem_forward_iff_of_stream success stream).mpr ⟨line, here, found⟩
          | false =>
              rw [if_neg Bool.false_ne_true, HttpResponse.messages, stream,
                if_neg Bool.false_ne_true]
              constructor
              · rintro (⟨text, -, responds, mem⟩ | ⟨-, made, mem, -⟩)
                · rcases (raw_mem_forward_iff_of_body success stream).mp mem with
                    ⟨body, read, filled, rfl⟩
                  exact ⟨body, read, filled, responds⟩
                · exact absurd mem (noneMade made)
              · rintro ⟨body, read, filled, responds⟩
                left
                refine ⟨utf8 body, ?_, responds, ?_⟩
                · exact List.mem_map_of_mem (Option.mem_toList.mpr read)
                · exact (raw_mem_forward_iff_of_body success stream).mpr
                    ⟨body, read, filled, rfl⟩

theorem served_foldl (auth : Option String) (state : State) (turns : List Turn) :
    ((turns.foldl (serve reading auth) state).served.map fun served =>
        (served.message, served.exchange, served.forwarded))
      = (state.served.map fun served => (served.message, served.exchange, served.forwarded)) ++
        turns.map fun turn =>
          (turn.message, turn.exchange, forward reading turn.message turn.exchange) := by
  induction turns generalizing state with
  | nil => simp
  | cons turn turns ih =>
      rw [List.foldl_cons, ih]
      simp [serve]

/-- Each message that is taken is forwarded an answer of its own. -/
theorem mem_served_iff (auth : Option String) (turns : List Turn) {message : String}
    {exchange : Exchange} {forwarded : List Forwarded} :
    (∃ request, ⟨message, request, exchange, forwarded⟩ ∈ (serveAll reading auth turns).served) ↔
      (∃ turn ∈ turns, turn.message = message ∧ turn.exchange = exchange) ∧
        forwarded = forward reading message exchange := by
  have served : ((serveAll reading auth turns).served.map fun served =>
      (served.message, served.exchange, served.forwarded)) = turns.map fun turn =>
        (turn.message, turn.exchange, forward reading turn.message turn.exchange) :=
    served_foldl auth .init turns
  have mem : (message, exchange, forwarded) ∈ ((serveAll reading auth turns).served.map
      fun served => (served.message, served.exchange, served.forwarded)) ↔
      ∃ request, ⟨message, request, exchange, forwarded⟩
        ∈ (serveAll reading auth turns).served := by
    constructor
    · intro mem
      rcases List.mem_map.mp mem with ⟨⟨_, request, _, _⟩, here, same⟩
      cases same
      exact ⟨request, here⟩
    · rintro ⟨request, here⟩
      exact List.mem_map.mpr ⟨_, here, rfl⟩
  rw [← mem, served, List.mem_map]
  constructor
  · rintro ⟨turn, here, same⟩
    cases same
    exact ⟨⟨turn, here, rfl, rfl⟩, rfl⟩
  · rintro ⟨⟨turn, here, rfl, rfl⟩, rfl⟩
    exact ⟨turn, here, rfl⟩

/-- Every request with an id is answered exactly if each exchange of one settles it. -/
theorem answered_serveAll_iff (reading : Reading) (auth : Option String) (turns : List Turn) :
    (∀ served ∈ (serveAll reading auth turns).served, requestId reading served.message ≠ .null →
        served.Answered reading (requestId reading served.message)) ↔
      ∀ turn ∈ turns, requestId reading turn.message ≠ .null →
        turn.exchange.Settles reading (requestId reading turn.message) := by
  constructor
  · intro answered turn mem asks
    rcases (mem_served_iff auth turns).mpr ⟨⟨turn, mem, rfl, rfl⟩, rfl⟩ with ⟨request, here⟩
    exact (answered_forward_iff request turn.exchange).mp (answered _ here asks)
  · rintro settles ⟨message, request, exchange, forwarded⟩ mem asks
    rcases (mem_served_iff auth turns).mp ⟨request, mem⟩ with ⟨⟨turn, here, rfl, rfl⟩, rfl⟩
    exact (answered_forward_iff request turn.exchange).mpr (settles turn here asks)

/-- A reader of one message. -/
def readsPing : Reading where
  parse text := if text = utf8 "ping" then some (.object [("id", .number (.ofNat 1))]) else none
  decode _ _ := ""

/-- The connection is closed within the body of a reply. -/
def brokenReply : Exchange :=
  .answered
    { status := 200
      statusText := "200 OK"
      sessionId := none
      contentType := some "application/json"
      chunks := [utf8 "["]
      failure := some "connection closed before message completed" }

/-- A reply that breaks off is not answered at all. -/
theorem broken_reply_unanswered :
    ¬ ∀ reading auth turns, ∀ served ∈ (serveAll reading auth turns).served,
      requestId reading served.message ≠ .null →
        served.Answered reading (requestId reading served.message) := by
  intro answered
  have asks : requestId readsPing "ping" = .number (.ofNat 1) := rfl
  rcases (mem_served_iff none [⟨"ping", ⟨false, none⟩, brokenReply⟩]).mpr
    ⟨⟨_, List.mem_cons_self, rfl, rfl⟩, rfl⟩ with ⟨request, mem⟩
  have isRequest : requestId readsPing "ping" ≠ .null := by
    rw [asks]
    simp
  have settles : brokenReply.Settles readsPing (requestId readsPing "ping") :=
    (answered_forward_iff request brokenReply).mp (answered readsPing none _ _ mem isRequest)
  rcases settles with ⟨body, read, -⟩
  cases read

end ClotoCore.Mcp.HttpTransport
