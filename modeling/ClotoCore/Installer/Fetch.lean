import ClotoCore.Encoding.Digest
import ClotoCore.Seal.GoVerdict
import Mathlib.Algebra.Group.Nat.Defs

/-!
# The download of an archive

The archive of a catalog entry is requested once, from addresses that were cleared before,
and written as it comes.  What the seal says about it, or else what the catalog says, is
checked before, while and after it is written; a file that fails a check is removed.
-/

namespace ClotoCore.Installer.Fetch

open ClotoCore.Encoding ClotoCore.Seal

/-! ## Sources and servers -/

/-- `RawURLSpec`, restricted to what a download reads. -/
structure RawUrlSpec where
  url : String
  sha256 : Option String

/-- A parsed URL. -/
structure Url where
  scheme : String
  hostname : String
  text : String
  deriving DecidableEq

/-- `fetch.Input`, with the source of its entry. -/
structure Input where
  entry : Seal.Entry
  rawUrl : Option RawUrlSpec
  archivePath : String
  pinnedAddrs : List String
  headers : List (String × String)

/-- The size of the buffer that a body is read into. -/
def bufferBytes : Nat := 64 * 1024

/-- What comes of a body, read by read, and whether it comes to its end. -/
structure Body where
  reads : List Bytes
  complete : Bool
  bounded : ∀ read ∈ reads, read.length ≤ bufferBytes

/-- The bytes that are received. -/
def Body.received (body : Body) : Bytes :=
  body.reads.flatten

/-- An answer to the request for the archive. -/
structure Response where
  statusCode : Nat
  status : String
  /-- The header `Location`, if it is there, and what it leads to. -/
  location : Option (Option Url)
  contentLength : Option UInt64
  body : Body

/-- What a client does at a redirect. -/
inductive RedirectPolicy where
  | follow
  /-- `ErrUseLastResponse` -/
  | useLastResponse
  deriving DecidableEq

/-- The codes with which a server leads on. -/
def isRedirect (statusCode : Nat) : Bool :=
  [301, 302, 303, 307, 308].contains statusCode

/-- `Client.Do`, up to a number of requests: what is requested, and the reply. -/
def clientDo (policy : RedirectPolicy) (server : Url → Option Response) :
    Nat → Url → List Url × Option Response
  | 0, _ => ([], none)
  | more + 1, url =>
      match server url with
      | none => ([url], none)
      | some response =>
          match response.location with
          | none => ([url], some response)
          | some target =>
              if isRedirect response.statusCode then
                match target with
                | none => ([url], none)
                | some next =>
                    if policy = .useLastResponse then ([url], some response)
                    else
                      let (requests, reply) := clientDo policy server more next
                      (url :: requests, reply)
              else ([url], some response)

/-! ## The file -/

/-- The largest offset in a file. -/
def maxFileBytes : Nat := 2 ^ 63 - 1

/-- What goes wrong with the file at the archive path: after how many bytes the write at
some length of the file fails, and why it cannot be removed. -/
structure Faults where
  create : Bool
  write : Nat → Option Nat
  close : Bool
  remove : Option String

/-- `file.Write`: all of it is written, or what the file has then. -/
def Faults.append (faults : Faults) (content chunk : Bytes) : Except Bytes Bytes :=
  match faults.write content.length with
  | some written => .error (content ++ chunk.take written)
  | none =>
      if content.length + chunk.length ≤ maxFileBytes then .ok (content ++ chunk)
      else .error (content ++ chunk.take (maxFileBytes - content.length))

/-- What is written, hashed and counted so far. -/
structure Progress where
  content : Bytes
  hashed : Bytes
  downloaded : UInt64

/-- Nothing is copied yet. -/
def Progress.start : Progress where
  content := []
  hashed := []
  downloaded := 0

/-- How the copy of a body ends. -/
inductive Copy where
  | failed (content : Bytes)
  | overrun (progress : Progress)
  | ended (progress : Progress)

/-- What an archive is checked against, a digest only if it is not empty. -/
structure Expected where
  sha256 : String
  length : Option UInt64

/-- The loop over the reads of a body. -/
def copyBody (faults : Faults) (expected : Expected) (complete : Bool) :
    List Bytes → Progress → Copy
  | [], progress => if complete then .ended progress else .failed progress.content
  | read :: rest, progress =>
      if read = [] then copyBody faults expected complete rest progress
      else
        match faults.append progress.content read with
        | .error content => .failed content
        | .ok content =>
            let next : Progress :=
              { content := content
                hashed := if expected.sha256 ≠ "" then progress.hashed ++ read
                  else progress.hashed
                downloaded := progress.downloaded + UInt64.ofNat read.length }
            if expected.length.any (· < next.downloaded) then .overrun next
            else copyBody faults expected complete rest next

/-! ## The stage -/

/-- What the step reports. -/
inductive Event where
  | stepError (text : String) (recoverable : Bool)
  | stepComplete
  | result (archivePath : String) (length : UInt64) (sha256 : String)

/-- What a run returns and leaves behind. -/
structure Outcome where
  ok : Bool
  httpStatus : Nat
  /-- An error is returned. -/
  failed : Bool
  requests : List Url
  /-- The file at the archive path. -/
  archive : Option Bytes
  /-- How many bytes were written to it. -/
  written : Nat
  log : List String
  events : List Event

/-- A run that has done nothing, where a file may be at the archive path. -/
def Outcome.untouched (before : Option Bytes) : Outcome where
  ok := false
  httpStatus := 0
  failed := false
  requests := []
  archive := before
  written := 0
  log := []
  events := []

/-- The step has failed. -/
def Outcome.fail (outcome : Outcome) : Outcome :=
  { outcome with failed := true }

/-- `StepError`, and no error. -/
def Outcome.refuse (outcome : Outcome) (text : String) (recoverable : Bool) : Outcome :=
  { outcome with events := outcome.events ++ [.stepError text recoverable] }

/-- One more line in the log. -/
def Outcome.note (outcome : Outcome) (line : String) : Outcome :=
  { outcome with log := outcome.log ++ [line] }

/-- The file holds what was written to it. -/
def Outcome.holding (outcome : Outcome) (content : Bytes) : Outcome :=
  { outcome with archive := some content, written := content.length }

/-- `remove` -/
def Outcome.remove (outcome : Outcome) (faults : Faults) (path why : String) : Outcome :=
  match faults.remove with
  | none => { outcome with archive := none }
  | some error =>
      outcome.note s!"Failed to cleanup archive after {why} {path}: {error}"

/-- `checkSpec` -/
def checkSpec (parse : String → Option Url) (spec : RawUrlSpec) : Except String Url :=
  match parse spec.url with
  | none => .error "raw_url url is not parseable"
  | some parsed =>
      if parsed.scheme ≠ "http" ∧ parsed.scheme ≠ "https" then
        .error "raw_url scheme must be http or https"
      else if spec.sha256.any fun sha256 => !Go.isHex sha256 64 then
        .error "raw_url sha256 must be 64 hex characters"
      else .ok parsed

/-- What the seal says about an archive, if it binds one, else what the catalog says; or the
two digests that contradict each other. -/
def expectation (entry : Seal.Entry) (spec : RawUrlSpec) : Except (String × String) Expected :=
  match Go.readArchiveBinding entry with
  | .bound sha256 length =>
      match spec.sha256 with
      | some served =>
          if equalFold (trim served) sha256 then .ok ⟨sha256, some length⟩
          else .error (served, sha256)
      | none => .ok ⟨sha256, some length⟩
  | _ => .ok ⟨spec.sha256.getD "", none⟩

/-- The end of a download, with the file closed. -/
def settle (sha256 : Digest) (faults : Faults) (input : Input) (expected : Expected)
    (progress : Progress) (held : Outcome) : Outcome :=
  let actual := if expected.sha256 ≠ "" then hexEncode (sha256 progress.hashed) else ""
  let id := input.entry.id
  if expected.length.any (· ≠ progress.downloaded) then
    let length := expected.length.getD 0
    ((held.note s!"{id}: TAMPER SUSPECT (archive_length_mismatch) — seal signed {length} bytes, received {progress.downloaded}").remove
      faults input.archivePath "length mismatch").refuse
      s!"archive length mismatch: seal signed {length} bytes, received {progress.downloaded}" false
  else if expected.sha256 ≠ "" ∧ equalFold actual expected.sha256 = false then
    let noted := if expected.length.isSome then
        held.note s!"{id}: TAMPER SUSPECT (archive_digest_mismatch) — seal signed sha256 {expected.sha256}, downloaded archive hashes to {actual}"
      else held
    (noted.remove faults input.archivePath "sha256 mismatch").refuse
      s!"sha256 mismatch: expected {expected.sha256}, got {actual}" false
  else
    { held with
      ok := true
      events := held.events ++ [.stepComplete,
        .result input.archivePath progress.downloaded (toAsciiLowercase actual)] }

/-- The copy of a body to the file, which is made for it. -/
def download (sha256 : Digest) (faults : Faults) (input : Input) (body : Body)
    (expected : Expected) (sent : Outcome) : Outcome :=
  if faults.create then sent.fail
  else
    match copyBody faults expected body.complete body.reads .start with
    | .failed content => (sent.holding content).fail
    | .overrun progress =>
        let length := expected.length.getD 0
        (((sent.holding progress.content).note
          s!"{input.entry.id}: TAMPER SUSPECT (archive_overrun) — body exceeded the signed length of {length} bytes").remove
          faults input.archivePath "overrun").refuse
          s!"archive exceeded the signed length of {length} bytes" false
    | .ended progress =>
        if faults.close then (sent.holding progress.content).fail
        else settle sha256 faults input expected progress (sent.holding progress.content)

/-- The server announces another length than the seal. -/
def announcesOther (expected : Expected) (contentLength : Option UInt64) : Bool :=
  expected.length.any fun length => contentLength.any (· ≠ length)

/-- From a reply with a good status on. -/
def receive (sha256 : Digest) (faults : Faults) (input : Input) (spec : RawUrlSpec)
    (response : Response) (sent : Outcome) : Outcome :=
  let id := input.entry.id
  match expectation input.entry spec with
  | .error (served, signed) =>
      (sent.note s!"{id}: TAMPER SUSPECT (archive_digest_contradiction) — catalog serves sha256 {served}, the seal signed {signed}").refuse
        s!"archive digest contradiction: catalog serves {served}, the seal signed {signed}" false
  | .ok expected =>
      if announcesOther expected response.contentLength then
        let length := expected.length.getD 0
        let total := response.contentLength.getD 0
        (sent.note s!"{id}: TAMPER SUSPECT (archive_length_mismatch) — seal signed {length} bytes, server announces {total}").refuse
          s!"archive length mismatch: seal signed {length} bytes, server announces {total}" false
      else download sha256 faults input response.body expected sent

/-- `RunWithStatus` -/
def runWithStatus (sha256 : Digest) (parse : String → Option Url)
    (server : Url → Option Response) (faults : Faults) (input : Input) (before : Option Bytes) :
    Outcome :=
  let untouched := Outcome.untouched before
  match input.rawUrl with
  | none => untouched.fail
  | some spec =>
      if input.archivePath = "" then untouched.fail
      else if input.pinnedAddrs = [] then untouched.fail
      else
        match checkSpec parse spec with
        | .error reason => untouched.refuse ("Invalid raw_url source: " ++ reason) false
        | .ok url =>
            if url.hostname = "" then untouched.refuse "raw_url has no host" false
            else
              let (requests, reply) := clientDo .useLastResponse server 10 url
              let sent := { untouched with requests := requests }
              match reply with
              | none => sent.fail
              | some response =>
                  if response.statusCode < 200 ∨ 299 < response.statusCode then
                    let refused := { sent with httpStatus := response.statusCode }
                    if response.statusCode = 401 ∧ input.headers ≠ [] then
                      refused.refuse "the hub refused this kernel's access token (HTTP 401)" false
                    else refused.refuse s!"HTTP {response.status} from {spec.url}" true
                  else receive sha256 faults input spec response sent

/-! ## What a run promises -/

/-- What is received is what the seal binds, or else what the catalog says. -/
def Matches (sha256 : Digest) (entry : Seal.Entry) (spec : RawUrlSpec)
    (received : Bytes) : Prop :=
  match Go.readArchiveBinding entry with
  | .bound digest length =>
      hexEncode (sha256 received) = toAsciiLowercase digest ∧ received.length = length.toNat
  | _ => ∀ digest, spec.sha256 = some digest →
      hexEncode (sha256 received) = toAsciiLowercase digest

/-- A run that is fine leaves the archive that was bound, follows no redirect and writes not
much more than was signed; a run that refuses leaves nothing. -/
structure Trusted (sha256 : Digest) (parse : String → Option Url)
    (server : Url → Option Response) (input : Input) (outcome : Outcome) : Prop where
  fine : outcome.ok = true → ∃ spec url response, input.rawUrl = some spec ∧
    parse spec.url = some url ∧ server url = some response ∧
    outcome.archive = some response.body.received ∧ response.body.complete = true ∧
    Matches sha256 input.entry spec response.body.received
  direct : outcome.requests = [] ∨ ∃ spec url, input.rawUrl = some spec ∧
    parse spec.url = some url ∧ outcome.requests = [url]
  bounded : ∀ digest length, Go.readArchiveBinding input.entry = .bound digest length →
    outcome.written ≤ length.toNat + bufferBytes
  clean : outcome.ok = false → outcome.failed = false →
    outcome.archive = none ∨ outcome.written = 0

/-- The reads are written one after the other, behind what is written. -/
def WritesThrough (faults : Faults) : Bytes → List Bytes → Prop
  | _, [] => True
  | content, read :: rest =>
      (read = [] ∨ faults.append content read = .ok (content ++ read)) ∧
        WritesThrough faults (content ++ read) rest

/-- What is received to its end is not what is expected. -/
def Mismatches (sha256 : Digest) (expected : Expected) (received : Bytes) : Prop :=
  (∃ length, expected.length = some length ∧ received.length ≠ length.toNat) ∨
    expected.sha256 ≠ "" ∧ hexEncode (sha256 received) ≠ toAsciiLowercase expected.sha256

/-- More is written than was signed, or all that is received is written and not what is
expected. -/
def Wrong (sha256 : Digest) (faults : Faults) (expected : Expected) (body : Body) : Prop :=
  (∃ front length, front <+: body.reads ∧ WritesThrough faults [] front ∧
      expected.length = some length ∧ length.toNat < front.flatten.length) ∨
    WritesThrough faults [] body.reads ∧ body.complete = true ∧ faults.close = false ∧
      body.received ≠ [] ∧ Mismatches sha256 expected body.received

/-- A run gets to write the body of a reply. -/
structure Downloads (parse : String → Option Url) (server : Url → Option Response)
    (input : Input) (spec : RawUrlSpec) (url : Url) (response : Response) (expected : Expected) :
    Prop where
  source : input.rawUrl = some spec
  path : input.archivePath ≠ ""
  pinned : input.pinnedAddrs ≠ []
  checked : checkSpec parse spec = .ok url
  host : url.hostname ≠ ""
  reply : server url = some response
  direct : response.location = some none → isRedirect response.statusCode = false
  good : 200 ≤ response.statusCode ∧ response.statusCode ≤ 299
  expects : expectation input.entry spec = .ok expected
  announced : announcesOther expected response.contentLength = false

/-- A run has written something when it finds that it is not the archive. -/
def FoundWrong (sha256 : Digest) (parse : String → Option Url)
    (server : Url → Option Response) (faults : Faults) (input : Input) : Prop :=
  ∃ spec url response expected, Downloads parse server input spec url response expected ∧
    faults.create = false ∧ Wrong sha256 faults expected response.body

/-! ## The copy -/

variable {faults : Faults} {expected : Expected} {complete : Bool} {reads : List Bytes}
  {progress : Progress}

/-- What has been written is what was hashed and counted. -/
structure Kept (expected : Expected) (progress : Progress) : Prop where
  hashed : expected.sha256 ≠ "" → progress.hashed = progress.content
  counted : progress.downloaded.toNat = progress.content.length

theorem kept_start : Kept expected .start where
  hashed _ := rfl
  counted := rfl

theorem append_eq_ok_iff {content chunk next : Bytes} :
    faults.append content chunk = .ok next ↔ faults.write content.length = none ∧
      content.length + chunk.length ≤ maxFileBytes ∧ next = content ++ chunk := by
  unfold Faults.append
  split
  · next written found => simp [found]
  · next free =>
    simp only [free, true_and]
    split
    · next fits =>
      simp only [Except.ok.injEq, fits, true_and]
      exact eq_comm
    · next full => simp [full]

theorem append_eq_error {content chunk next : Bytes}
    (failed : faults.append content chunk = .error next) :
    next.length ≤ content.length + chunk.length := by
  unfold Faults.append at failed
  split at failed
  · cases failed
    simp only [List.length_append, List.length_take]
    omega
  · split at failed
    · cases failed
    · cases failed
      simp only [List.length_append, List.length_take]
      omega

/-- What is written, hashed and counted behind one more read. -/
def Progress.with (progress : Progress) (expected : Expected) (read : Bytes) : Progress where
  content := progress.content ++ read
  hashed := if expected.sha256 ≠ "" then progress.hashed ++ read else progress.hashed
  downloaded := progress.downloaded + UInt64.ofNat read.length

theorem Kept.with (kept : Kept expected progress) {read : Bytes}
    (fits : progress.content.length + read.length ≤ maxFileBytes) :
    Kept expected (progress.with expected read) where
  hashed bound := by
    simp [Progress.with, bound, kept.hashed bound]
  counted := by
    have small : maxFileBytes < 2 ^ 64 := by decide
    simp only [Progress.with, UInt64.toNat_add, UInt64.toNat_ofNat', kept.counted,
      List.length_append]
    omega

/-- One read. -/
theorem copyBody_cons (read : Bytes) (filled : read ≠ []) :
    copyBody faults expected complete (read :: reads) progress =
      match faults.append progress.content read with
      | .error content => .failed content
      | .ok _ =>
          if expected.length.any (· < (progress.with expected read).downloaded) then
            .overrun (progress.with expected read)
          else copyBody faults expected complete reads (progress.with expected read) := by
  rw [copyBody, if_neg filled]
  cases written : faults.append progress.content read with
  | error content => rfl
  | ok content =>
      have same := (append_eq_ok_iff.mp written).2.2
      rw [same]
      rfl

/-- What is held is not more than was signed. -/
def Within (expected : Expected) (content : Bytes) : Prop :=
  ∀ length, expected.length = some length → content.length ≤ length.toNat

theorem any_lt_iff (kept : Kept expected progress) :
    expected.length.any (· < progress.downloaded) = true ↔
      ∃ length, expected.length = some length ∧ length.toNat < progress.content.length := by
  rw [Option.any_eq_true_iff_get]
  cases expected.length with
  | none => simp
  | some length => simp [UInt64.lt_iff_toNat_lt, kept.counted]

/-- A copy that comes to its end. -/
theorem copyBody_ended (kept : Kept expected progress) (within : Within expected progress.content)
    {last : Progress} (ended : copyBody faults expected complete reads progress = .ended last) :
    Kept expected last ∧ Within expected last.content ∧ complete = true ∧
      last.content = progress.content ++ reads.flatten ∧
      WritesThrough faults progress.content reads := by
  induction reads generalizing progress with
  | nil =>
      rw [copyBody] at ended
      split at ended
      · next isComplete =>
        cases ended
        exact ⟨kept, within, isComplete, by simp, trivial⟩
      · cases ended
  | cons read reads ih =>
      by_cases filled : read = []
      · rw [copyBody, if_pos filled] at ended
        rcases ih kept within ended with ⟨keptLast, withinLast, isComplete, content, through⟩
        refine ⟨keptLast, withinLast, isComplete, by simp [content, filled], Or.inl filled, ?_⟩
        rw [filled, List.append_nil]
        exact through
      · rw [copyBody_cons read filled] at ended
        cases written : faults.append progress.content read with
        | error content =>
            rw [written] at ended
            cases ended
        | ok content =>
            rw [written] at ended
            have all := append_eq_ok_iff.mp written
            have keptNext := kept.with all.2.1
            simp only at ended
            split at ended
            · cases ended
            · next fits =>
              have withinNext : Within expected (progress.with expected read).content := by
                intro length isLength
                by_contra beyond
                exact fits ((any_lt_iff keptNext).mpr ⟨length, isLength, Nat.lt_of_not_le beyond⟩)
              rcases ih keptNext withinNext ended with
                ⟨keptLast, withinLast, isComplete, contentEq, through⟩
              refine ⟨keptLast, withinLast, isComplete, ?_, Or.inr ?_, through⟩
              · rw [contentEq]
                simp [Progress.with]
              · rw [written, all.2.2]

/-- A copy that is stopped. -/
theorem copyBody_overrun (kept : Kept expected progress) {last : Progress}
    (overrun : copyBody faults expected complete reads progress = .overrun last) :
    ∃ front length, front <+: reads ∧ WritesThrough faults progress.content front ∧
      last.content = progress.content ++ front.flatten ∧ expected.length = some length ∧
      length.toNat < last.content.length := by
  induction reads generalizing progress with
  | nil =>
      rw [copyBody] at overrun
      split at overrun
      · cases overrun
      · cases overrun
  | cons read reads ih =>
      by_cases filled : read = []
      · rw [copyBody, if_pos filled] at overrun
        rcases ih kept overrun with ⟨front, length, leads, through, content, isLength, beyond⟩
        refine ⟨read :: front, length, List.cons_prefix_cons.mpr ⟨rfl, leads⟩,
          ⟨Or.inl filled, ?_⟩, by simp [content, filled], isLength, beyond⟩
        rw [filled, List.append_nil]
        exact through
      · rw [copyBody_cons read filled] at overrun
        cases written : faults.append progress.content read with
        | error content =>
            rw [written] at overrun
            cases overrun
        | ok content =>
            rw [written] at overrun
            have all := append_eq_ok_iff.mp written
            have keptNext := kept.with all.2.1
            have here : faults.append progress.content read
                = .ok (progress.content ++ read) := by
              rw [written, all.2.2]
            simp only at overrun
            split at overrun
            · next exceeds =>
              cases overrun
              rcases (any_lt_iff keptNext).mp exceeds with ⟨length, isLength, beyond⟩
              exact ⟨[read], length, List.cons_prefix_cons.mpr ⟨rfl, List.nil_prefix⟩,
                ⟨Or.inr here, trivial⟩, by simp [Progress.with], isLength, beyond⟩
            · rcases ih keptNext overrun with
                ⟨front, length, leads, through, content, isLength, beyond⟩
              refine ⟨read :: front, length, List.cons_prefix_cons.mpr ⟨rfl, leads⟩,
                ⟨Or.inr here, through⟩, ?_, isLength, beyond⟩
              rw [content]
              simp [Progress.with]

/-- A copy is stopped where more is written than was signed. -/
theorem exists_overrun (kept : Kept expected progress)
    (within : Within expected progress.content) {front : List Bytes} {length : UInt64}
    (leads : front <+: reads) (through : WritesThrough faults progress.content front)
    (isLength : expected.length = some length)
    (beyond : length.toNat < (progress.content ++ front.flatten).length) :
    ∃ last, copyBody faults expected complete reads progress = .overrun last := by
  induction reads generalizing progress front with
  | nil =>
      rw [List.prefix_nil.mp leads] at beyond
      have bound := within length isLength
      simp only [List.flatten_nil, List.append_nil] at beyond
      omega
  | cons read reads ih =>
      cases front with
      | nil =>
          have bound := within length isLength
          simp only [List.flatten_nil, List.append_nil] at beyond
          omega
      | cons first front =>
          rcases List.cons_prefix_cons.mp leads with ⟨rfl, more⟩
          have longer : (progress.content ++ (first :: front).flatten)
              = progress.content ++ first ++ front.flatten := by simp
          rw [longer] at beyond
          by_cases filled : first = []
          · rw [copyBody, if_pos filled]
            have rest := through.2
            rw [filled, List.append_nil] at rest beyond
            exact ih kept within more rest beyond
          · rcases through.1 with empty | written
            · exact absurd empty filled
            · rw [copyBody_cons first filled, written]
              have keptNext := kept.with (append_eq_ok_iff.mp written).2.1
              simp only
              split
              · exact ⟨_, rfl⟩
              · next fits =>
                have withinNext : Within expected (progress.with expected first).content := by
                  intro other isOther
                  by_contra above
                  exact fits ((any_lt_iff keptNext).mpr ⟨other, isOther, Nat.lt_of_not_le above⟩)
                exact ih keptNext withinNext more through.2 beyond

/-- A copy whose reads are written comes to an end, or is stopped. -/
theorem exists_end (through : WritesThrough faults progress.content reads) :
    ∃ last, copyBody faults expected true reads progress = .ended last ∨
      copyBody faults expected true reads progress = .overrun last := by
  induction reads generalizing progress with
  | nil => exact ⟨progress, Or.inl rfl⟩
  | cons read reads ih =>
      by_cases filled : read = []
      · rw [copyBody, if_pos filled]
        have rest := through.2
        rw [filled, List.append_nil] at rest
        exact ih rest
      · rcases through.1 with empty | written
        · exact absurd empty filled
        · rw [copyBody_cons read filled, written]
          simp only
          split
          · exact ⟨_, Or.inr rfl⟩
          · exact ih through.2

/-- What a copy has written in the end. -/
def Copy.content : Copy → Bytes
  | .failed content => content
  | .overrun progress => progress.content
  | .ended progress => progress.content

/-- A copy writes at most one read more than was signed. -/
theorem length_content_copyBody (bounded : ∀ read ∈ reads, read.length ≤ bufferBytes)
    (kept : Kept expected progress) (within : Within expected progress.content)
    {length : UInt64} (isLength : expected.length = some length) :
    (copyBody faults expected complete reads progress).content.length
      ≤ length.toNat + bufferBytes := by
  induction reads generalizing progress with
  | nil =>
      have bound := within length isLength
      rw [copyBody]
      split
      · exact Nat.le_trans bound (Nat.le_add_right _ _)
      · exact Nat.le_trans bound (Nat.le_add_right _ _)
  | cons read reads ih =>
      have others := fun other mem => bounded other (List.mem_cons_of_mem read mem)
      by_cases filled : read = []
      · rw [copyBody, if_pos filled]
        exact ih others kept within
      · have bound := within length isLength
        have size := bounded read List.mem_cons_self
        rw [copyBody_cons read filled]
        cases written : faults.append progress.content read with
        | error content =>
            have most := append_eq_error written
            change content.length ≤ _
            omega
        | ok content =>
            have all := append_eq_ok_iff.mp written
            have keptNext := kept.with all.2.1
            simp only
            split
            · change (progress.content ++ read).length ≤ _
              rw [List.length_append]
              omega
            · next fits =>
              apply ih others keptNext
              intro other isOther
              by_contra more
              exact fits ((any_lt_iff keptNext).mpr ⟨other, isOther, Nat.lt_of_not_le more⟩)

/-! ## The end -/

variable {sha256 : Digest} {parse : String → Option Url} {server : Url → Option Response}
  {input : Input} {before : Option Bytes} {spec : RawUrlSpec} {held : Outcome}

theorem remove_eq (outcome : Outcome) (path why : String) :
    (outcome.remove faults path why).ok = outcome.ok ∧
      (outcome.remove faults path why).failed = outcome.failed ∧
      (outcome.remove faults path why).requests = outcome.requests ∧
      (outcome.remove faults path why).written = outcome.written ∧
      (outcome.remove faults path why).archive
        = if faults.remove = none then none else outcome.archive := by
  unfold Outcome.remove
  cases faults.remove with
  | none => simp
  | some error => simp [Outcome.note]

/-- The length and the digest of a file are checked. -/
theorem mismatches_iff (kept : Kept expected progress) :
    Mismatches sha256 expected progress.content ↔
      expected.length.any (· ≠ progress.downloaded) = true ∨
        expected.sha256 ≠ "" ∧
          equalFold (hexEncode (sha256 progress.hashed)) expected.sha256 = false := by
  have lengths : (∃ length, expected.length = some length ∧
      progress.content.length ≠ length.toNat) ↔
        expected.length.any (· ≠ progress.downloaded) = true := by
    cases expected.length with
    | none => simp
    | some length =>
        simp only [Option.some.injEq, exists_eq_left', Option.any_some, decide_eq_true_eq, ne_eq,
          ← kept.counted, UInt64.toNat_inj]
        exact not_congr eq_comm
  have digests : expected.sha256 ≠ "" ∧
      hexEncode (sha256 progress.content) ≠ toAsciiLowercase expected.sha256 ↔
        expected.sha256 ≠ "" ∧
          equalFold (hexEncode (sha256 progress.hashed)) expected.sha256 = false := by
    refine and_congr_right fun given => ?_
    rw [kept.hashed given, ← Bool.not_eq_true, equalFold_iff_of_hex]
    · exact not_congr eq_comm
    · exact fun _ mem => mem_hexDigits_of_mem_hexEncode mem
  rw [Mismatches, lengths, digests]

/-- What passes the checks is kept. -/
theorem settle_of_matches (faults : Faults) (input : Input) (held : Outcome)
    (kept : Kept expected progress)
    (fits : ¬Mismatches sha256 expected progress.content) :
    (settle sha256 faults input expected progress held).ok = true ∧
      (settle sha256 faults input expected progress held).archive = held.archive ∧
      (settle sha256 faults input expected progress held).requests = held.requests ∧
      (settle sha256 faults input expected progress held).written = held.written := by
  rw [mismatches_iff kept, not_or, not_and] at fits
  unfold settle
  have digest : ¬(expected.sha256 ≠ "" ∧ equalFold (if expected.sha256 ≠ "" then
      hexEncode (sha256 progress.hashed) else "") expected.sha256 = false) := by
    rintro ⟨given, wrong⟩
    rw [if_pos given] at wrong
    exact fits.2 given wrong
  simp only [if_neg fits.1, if_neg digest, and_self]

/-- What fails a check is removed. -/
theorem settle_of_mismatches (faults : Faults) (input : Input) (held : Outcome)
    (kept : Kept expected progress)
    (wrong : Mismatches sha256 expected progress.content) :
    (settle sha256 faults input expected progress held).ok = held.ok ∧
      (settle sha256 faults input expected progress held).failed = held.failed ∧
      (settle sha256 faults input expected progress held).requests = held.requests ∧
      (settle sha256 faults input expected progress held).written = held.written ∧
      (settle sha256 faults input expected progress held).archive
        = if faults.remove = none then none else held.archive := by
  rw [mismatches_iff kept] at wrong
  unfold settle
  by_cases length : expected.length.any (· ≠ progress.downloaded) = true
  · simp only [if_pos length]
    exact remove_eq _ _ _
  · rcases wrong with same | ⟨given, wrong⟩
    · exact absurd same length
    · have digest : expected.sha256 ≠ "" ∧ equalFold (if expected.sha256 ≠ "" then
          hexEncode (sha256 progress.hashed) else "") expected.sha256 = false := by
        rw [if_pos given]
        exact ⟨given, wrong⟩
      simp only [if_neg length, if_pos digest]
      split
      · exact remove_eq _ _ _
      · exact remove_eq _ _ _

variable {body : Body} {sent : Outcome}

theorem within_nil : Within expected [] :=
  fun _ _ => Nat.zero_le _

theorem download_requests :
    (download sha256 faults input body expected sent).requests = sent.requests := by
  unfold download
  split
  · rfl
  split
  · rfl
  · exact (remove_eq _ _ _).2.2.1
  · next progress ended =>
    split
    · rfl
    · have kept := (copyBody_ended kept_start within_nil ended).1
      by_cases wrong : Mismatches sha256 expected progress.content
      · exact (settle_of_mismatches _ _ _ kept wrong).2.2.1
      · exact (settle_of_matches _ _ _ kept wrong).2.2.1

/-- What a download that is fine leaves. -/
theorem download_fine (unfinished : sent.ok = false)
    (fine : (download sha256 faults input body expected sent).ok = true) :
    (download sha256 faults input body expected sent).archive = some body.received ∧
      body.complete = true ∧ ¬Mismatches sha256 expected body.received := by
  unfold download at fine ⊢
  split at fine
  · exact absurd (unfinished.symm.trans fine) Bool.false_ne_true
  · next created =>
    rw [if_neg created]
    split at fine
    · exact absurd (unfinished.symm.trans fine) Bool.false_ne_true
    · rw [Outcome.refuse, (remove_eq _ _ _).1] at fine
      exact absurd (unfinished.symm.trans fine) Bool.false_ne_true
    · next progress ended =>
      split at fine
      · exact absurd (unfinished.symm.trans fine) Bool.false_ne_true
      · next closed =>
        rcases copyBody_ended kept_start within_nil ended with ⟨kept, -, complete, content, -⟩
        have received : progress.content = body.received := by
          rw [content]
          rfl
        simp only [if_neg closed]
        by_cases wrong : Mismatches sha256 expected progress.content
        · rw [(settle_of_mismatches _ _ _ kept wrong).1] at fine
          exact absurd (unfinished.symm.trans fine) Bool.false_ne_true
        · refine ⟨?_, complete, received ▸ wrong⟩
          rw [(settle_of_matches _ _ _ kept wrong).2.1, Outcome.holding, received]

/-- A download writes what its copy has written in the end. -/
theorem download_written (nothing : sent.written = 0) :
    (download sha256 faults input body expected sent).written = 0 ∨
      (download sha256 faults input body expected sent).written
        = (copyBody faults expected body.complete body.reads .start).content.length := by
  unfold download
  split
  · exact Or.inl nothing
  · right
    split
    · next content failed =>
      rw [failed]
      rfl
    · next progress overrun =>
      rw [overrun]
      exact (remove_eq _ _ _).2.2.2.1
    · next progress ended =>
      rw [ended]
      split
      · rfl
      · have kept := (copyBody_ended kept_start within_nil ended).1
        by_cases wrong : Mismatches sha256 expected progress.content
        · exact (settle_of_mismatches _ _ _ kept wrong).2.2.2.1
        · exact (settle_of_matches _ _ _ kept wrong).2.2.2

theorem length_written_download (nothing : sent.written = 0) {length : UInt64}
    (isLength : expected.length = some length) :
    (download sha256 faults input body expected sent).written ≤ length.toNat + bufferBytes := by
  rcases download_written nothing with none | all
  · rw [none]
    exact Nat.zero_le _
  · rw [all]
    exact length_content_copyBody body.bounded kept_start within_nil isLength

/-- A download that refuses what it has written has found it wrong, and removes it if that
is possible. -/
theorem download_refused
    (notFine : (download sha256 faults input body expected sent).ok = false)
    (noError : (download sha256 faults input body expected sent).failed = false) :
    (download sha256 faults input body expected sent).written = 0 ∨
      faults.create = false ∧ Wrong sha256 faults expected body ∧
        (faults.remove = none →
          (download sha256 faults input body expected sent).archive = none) := by
  unfold download at notFine noError ⊢
  split at noError
  · cases noError
  · next created =>
    rw [if_neg created] at notFine ⊢
    have create : faults.create = false := Bool.eq_false_iff.mpr created
    split at noError
    · cases noError
    · next progress overrun =>
      rcases copyBody_overrun kept_start overrun with
        ⟨front, length, leads, through, content, isLength, beyond⟩
      refine Or.inr ⟨create, Or.inl ⟨front, length, leads, through, isLength, ?_⟩, ?_⟩
      · rw [content] at beyond
        exact beyond
      · intro removes
        rw [Outcome.refuse, (remove_eq _ _ _).2.2.2.2, if_pos removes]
    · next progress ended =>
      simp only [ended] at notFine
      split at noError
      · cases noError
      · next closed =>
        rw [if_neg closed] at notFine ⊢
        rcases copyBody_ended kept_start within_nil ended with
          ⟨kept, -, complete, content, through⟩
        have received : progress.content = body.received := by
          rw [content]
          rfl
        by_cases wrong : Mismatches sha256 expected progress.content
        · rcases settle_of_mismatches faults input (sent.holding progress.content) kept wrong with
            ⟨-, -, -, written, archive⟩
          rw [written, archive]
          by_cases empty : progress.content = []
          · exact Or.inl (by simp [Outcome.holding, empty])
          · refine Or.inr ⟨create, Or.inr ⟨through, complete, Bool.eq_false_iff.mpr closed, ?_, ?_⟩,
              fun removes => if_pos removes⟩
            · rw [← received]
              exact empty
            · rw [← received]
              exact wrong
        · rw [(settle_of_matches _ _ _ kept wrong).1] at notFine
          cases notFine

/-- What is found wrong is refused, and stays if it cannot be removed. -/
theorem download_of_wrong (input : Input) (sent : Outcome) (unfinished : sent.ok = false)
    (noError : sent.failed = false)
    (create : faults.create = false) (stays : faults.remove ≠ none)
    (wrong : Wrong sha256 faults expected body) :
    (download sha256 faults input body expected sent).ok = false ∧
      (download sha256 faults input body expected sent).failed = false ∧
      (download sha256 faults input body expected sent).archive ≠ none ∧
      (download sha256 faults input body expected sent).written ≠ 0 := by
  have stopped : ∀ progress,
      copyBody faults expected body.complete body.reads .start = .overrun progress →
      (download sha256 faults input body expected sent).ok = false ∧
        (download sha256 faults input body expected sent).failed = false ∧
        (download sha256 faults input body expected sent).archive ≠ none ∧
        (download sha256 faults input body expected sent).written ≠ 0 := by
    intro progress overrun
    rcases copyBody_overrun kept_start overrun with ⟨-, length, -, -, -, -, beyond⟩
    unfold download
    rw [create, overrun]
    simp only [Bool.false_eq_true, if_false]
    unfold Outcome.refuse
    simp only [(remove_eq _ _ _).1, (remove_eq _ _ _).2.1, (remove_eq _ _ _).2.2.2.1,
      (remove_eq _ _ _).2.2.2.2, if_neg stays]
    refine ⟨unfinished, noError, Option.some_ne_none _, ?_⟩
    change progress.content.length ≠ 0
    omega
  rcases wrong with ⟨front, length, leads, through, isLength, beyond⟩ |
    ⟨through, complete, closed, filled, mismatch⟩
  · have stops : ∃ last, copyBody faults expected body.complete body.reads .start
        = .overrun last :=
      exists_overrun kept_start within_nil leads through isLength beyond
    rcases stops with ⟨progress, overrun⟩
    exact stopped progress overrun
  · have ends : ∃ last, copyBody faults expected true body.reads .start = .ended last ∨
        copyBody faults expected true body.reads .start = .overrun last :=
      exists_end through
    rcases ends with ⟨progress, ended | overrun⟩
    · rcases copyBody_ended kept_start within_nil ended with ⟨kept, -, -, content, -⟩
      have received : progress.content = body.received := by
        rw [content]
        rfl
      rw [← received] at filled mismatch
      unfold download
      rw [create, complete, ended, closed]
      simp only [Bool.false_eq_true, if_false]
      rcases settle_of_mismatches faults input (sent.holding progress.content) kept mismatch with
        ⟨ok, failed, -, written, archive⟩
      rw [ok, failed, written, archive, if_neg stays]
      exact ⟨unfinished, noError, Option.some_ne_none _, by simpa [Outcome.holding] using filled⟩
    · rw [← complete] at overrun
      exact stopped progress overrun

/-! ## Whole runs -/

/-- A client that takes the last response makes one request. -/
theorem clientDo_useLastResponse (server : Url → Option Response) (more : Nat) (url : Url) :
    (clientDo .useLastResponse server (more + 1) url).1 = [url] ∧
      ∀ response, (clientDo .useLastResponse server (more + 1) url).2 = some response ↔
        server url = some response ∧
          (response.location = some none → isRedirect response.statusCode = false) := by
  rw [clientDo]
  cases served : server url with
  | none => simp
  | some reply =>
      simp only [Option.some.injEq]
      cases location : reply.location with
      | none =>
          refine ⟨rfl, fun response => ⟨?_, ?_⟩⟩
          · intro same
            cases same
            exact ⟨rfl, by simp [location]⟩
          · rintro ⟨rfl, -⟩
            rfl
      | some target =>
          by_cases redirect : isRedirect reply.statusCode = true
          · simp only [if_pos redirect]
            cases target with
            | none =>
                refine ⟨rfl, fun response => ⟨nofun, ?_⟩⟩
                rintro ⟨rfl, direct⟩
                rw [direct location] at redirect
                cases redirect
            | some next =>
                simp only [if_true]
                refine ⟨trivial, fun response => ⟨?_, ?_⟩⟩
                · intro same
                  cases same
                  exact ⟨rfl, by simp [location]⟩
                · rintro ⟨rfl, -⟩
                  rfl
          · simp only [if_neg redirect]
            refine ⟨trivial, fun response => ⟨?_, ?_⟩⟩
            · intro same
              cases same
              exact ⟨rfl, fun _ => Bool.eq_false_iff.mpr redirect⟩
            · rintro ⟨rfl, -⟩
              rfl

/-- A run that has requested a URL. -/
def Outcome.requesting (before : Option Bytes) (url : Url) : Outcome :=
  { Outcome.untouched before with requests := [url] }

/-- What a run does when it gets to write. -/
theorem runWithStatus_of_downloads {url : Url} {response : Response}
    (downloads : Downloads parse server input spec url response expected) :
    runWithStatus sha256 parse server faults input before
      = download sha256 faults input response.body expected (.requesting before url) := by
  have client := clientDo_useLastResponse server 9 url
  have reply := (client.2 response).mpr ⟨downloads.reply, downloads.direct⟩
  have good : ¬(response.statusCode < 200 ∨ 299 < response.statusCode) := by
    have range := downloads.good
    omega
  unfold runWithStatus receive
  simp only [downloads.source, if_neg downloads.path, if_neg downloads.pinned, downloads.checked,
    if_neg downloads.host, client.1, reply, if_neg good, downloads.expects, downloads.announced,
    Bool.false_eq_true, if_false]
  rfl

/-- A run gets to write, or has written nothing. -/
theorem runWithStatus_cases (sha256 : Digest) (parse : String → Option Url)
    (server : Url → Option Response) (faults : Faults) (input : Input) (before : Option Bytes) :
    (∃ spec url response expected, Downloads parse server input spec url response expected) ∨
      (runWithStatus sha256 parse server faults input before).ok = false ∧
        (runWithStatus sha256 parse server faults input before).written = 0 ∧
        ((runWithStatus sha256 parse server faults input before).requests = [] ∨
          ∃ spec url, input.rawUrl = some spec ∧ checkSpec parse spec = .ok url ∧
            (runWithStatus sha256 parse server faults input before).requests = [url]) := by
  by_cases some_ : ∃ spec url response expected,
      Downloads parse server input spec url response expected
  · exact Or.inl some_
  right
  unfold runWithStatus
  cases source : input.rawUrl with
  | none => exact ⟨rfl, rfl, Or.inl rfl⟩
  | some spec =>
      simp only
      split
      · exact ⟨rfl, rfl, Or.inl rfl⟩
      next path =>
      split
      · exact ⟨rfl, rfl, Or.inl rfl⟩
      next pinned =>
      split
      · exact ⟨rfl, rfl, Or.inl rfl⟩
      next url checked =>
      split
      · exact ⟨rfl, rfl, Or.inl rfl⟩
      next host =>
      have client := clientDo_useLastResponse server 9 url
      simp only [client.1]
      have requested : ∀ outcome : Outcome, outcome.requests = [url] →
          outcome.requests = [] ∨ ∃ spec' url', some spec = some spec' ∧
            checkSpec parse spec' = .ok url' ∧ outcome.requests = [url'] :=
        fun outcome requests => Or.inr ⟨spec, url, rfl, checked, requests⟩
      split
      · exact ⟨rfl, rfl, requested _ rfl⟩
      next response replied =>
      split
      · split
        · exact ⟨rfl, rfl, requested _ rfl⟩
        · exact ⟨rfl, rfl, requested _ rfl⟩
      next good =>
      unfold receive
      simp only
      split
      · exact ⟨rfl, rfl, requested _ rfl⟩
      next expected expects =>
      split
      · exact ⟨rfl, rfl, requested _ rfl⟩
      next announced =>
      rcases (client.2 response).mp replied with ⟨reply, direct⟩
      exact absurd ⟨spec, url, response, expected, source, path, pinned, checked, host, reply,
        direct, by omega, expects, Bool.eq_false_iff.mpr announced⟩ some_

theorem parse_of_checkSpec {url : Url} (checked : checkSpec parse spec = .ok url) :
    parse spec.url = some url := by
  unfold checkSpec at checked
  split at checked
  · cases checked
  · next parsed found =>
    split at checked
    · cases checked
    split at checked
    · cases checked
    · cases checked
      exact found

theorem ne_empty_of_isHex {text : String} (hex : Go.isHex text 64 = true) : text ≠ "" := by
  rintro rfl
  exact absurd hex (by decide)

theorem ne_empty_of_bound {entry : Seal.Entry} {digest : String} {length : UInt64}
    (bound : Go.readArchiveBinding entry = .bound digest length) : digest ≠ "" := by
  rintro rfl
  exact absurd (Go.readArchiveBinding_bound bound).1 (by decide)

/-- A file that matches what is expected is what was bound, or else what the catalog says. -/
theorem matches_of_expectation {url : Url} (checked : checkSpec parse spec = .ok url)
    (expects : expectation input.entry spec = .ok expected) {received : Bytes}
    (fits : ¬Mismatches sha256 expected received) : Matches sha256 input.entry spec received := by
  have digest : expected.sha256 ≠ "" →
      hexEncode (sha256 received) = toAsciiLowercase expected.sha256 := by
    intro given
    by_contra other
    exact fits (Or.inr ⟨given, other⟩)
  have size : ∀ length, expected.length = some length → received.length = length.toNat := by
    intro length isLength
    by_contra other
    exact fits (Or.inl ⟨length, isLength, other⟩)
  unfold expectation at expects
  unfold Matches
  cases binding : Go.readArchiveBinding input.entry with
  | bound signed length =>
      have same : expected = ⟨signed, some length⟩ := by
        rw [binding] at expects
        simp only at expects
        split at expects
        · split at expects
          · cases expects
            rfl
          · cases expects
        · cases expects
          rfl
      rw [same] at digest size
      exact ⟨digest (ne_empty_of_bound binding), size length rfl⟩
  | absent | malformed =>
      rw [binding] at expects
      cases expects
      intro served given
      have hex : Go.isHex served 64 = true := by
        unfold checkSpec at checked
        split at checked
        · cases checked
        split at checked
        · cases checked
        split at checked
        · cases checked
        · next plain => simpa [given] using plain
      rw [given] at digest
      exact digest (ne_empty_of_isHex hex)

theorem length_of_expectation {signed : String} {length : UInt64}
    (bound : Go.readArchiveBinding input.entry = .bound signed length)
    (expects : expectation input.entry spec = .ok expected) : expected.length = some length := by
  unfold expectation at expects
  rw [bound] at expects
  simp only at expects
  split at expects
  · split at expects
    · cases expects
      rfl
    · cases expects
  · cases expects
    rfl

/-- A run is to be trusted, unless it cannot remove what it has found to be wrong. -/
theorem trusted_iff (sha256 : Digest) (parse : String → Option Url)
    (server : Url → Option Response) (faults : Faults) (input : Input) (before : Option Bytes) :
    Trusted sha256 parse server input (runWithStatus sha256 parse server faults input before) ↔
      (faults.remove = none ∨ ¬FoundWrong sha256 parse server faults input) := by
  constructor
  · intro trusted
    by_contra unclean
    rw [not_or, not_not] at unclean
    rcases unclean.2 with ⟨spec, url, response, expected, downloads, create, wrong⟩
    have clean := trusted.clean
    rw [runWithStatus_of_downloads downloads] at clean
    have stays := download_of_wrong input (.requesting before url) rfl rfl create unclean.1 wrong
    rcases clean stays.1 stays.2.1 with removed | nothing
    · exact stays.2.2.1 removed
    · exact stays.2.2.2 nothing
  · intro removes
    rcases runWithStatus_cases sha256 parse server faults input before with
      ⟨spec, url, response, expected, downloads⟩ | ⟨notFine, nothing, requests⟩
    · have parsed := parse_of_checkSpec downloads.checked
      rw [runWithStatus_of_downloads downloads]
      refine ⟨fun fine => ?_, Or.inr ⟨spec, url, downloads.source, parsed, download_requests⟩, ?_,
        fun notFine noError => ?_⟩
      · rcases download_fine rfl fine with ⟨archive, complete, fits⟩
        exact ⟨spec, url, response, downloads.source, parsed, downloads.reply, archive, complete,
          matches_of_expectation downloads.checked downloads.expects fits⟩
      · intro digest length bound
        exact length_written_download rfl (length_of_expectation bound downloads.expects)
      · rcases download_refused notFine noError with nothing | ⟨create, wrong, removed⟩
        · exact Or.inr nothing
        · rcases removes with removes | rightSoFar
          · exact Or.inl (removed removes)
          · exact absurd ⟨spec, url, response, expected, downloads, create, wrong⟩ rightSoFar
    · refine ⟨fun fine => absurd (notFine.symm.trans fine) Bool.false_ne_true, ?_, ?_,
        fun _ _ => Or.inr nothing⟩
      · rcases requests with none | ⟨spec, url, source, checked, one⟩
        · exact Or.inl none
        · exact Or.inr ⟨spec, url, source, parse_of_checkSpec checked, one⟩
      · intro digest length bound
        rw [nothing]
        exact Nat.zero_le _

/-- A server that answers every request with one byte. -/
def oneByteServer (_ : Url) : Option Response :=
  some ⟨200, "200 OK", none, none, ⟨[[7]], true, by decide⟩⟩

/-- A download of an archive whose digest the catalog gives. -/
def catalogInput : Input where
  entry := ⟨"tool.notes", "1.0.0", none, none⟩
  rawUrl := some ⟨"https://hub.example/notes.tar.gz",
    some "00000000000000000000000000000000000000000000000000000000000000aa"⟩
  archivePath := "/tmp/notes.tar.gz"
  pinnedAddrs := ["192.0.2.1:443"]
  headers := []

/-- A file that cannot be removed. -/
def unremovable : Faults where
  create := false
  write _ := none
  close := false
  remove := some "permission denied"

/-- A parser of URLs, as far as an example needs it. -/
def hubUrl (text : String) : Option Url :=
  some ⟨"https", "hub.example", text⟩

/-- The run finds an older file at the archive path. -/
def refusedRun : Outcome :=
  runWithStatus (fun _ => []) hubUrl oneByteServer unremovable catalogInput (some [1, 2])

/-- What is written over the older file and found to be wrong cannot be removed and stays at
the archive path, though the run only refuses. -/
theorem refused_archive_stays :
    (refusedRun.ok = false ∧ refusedRun.failed = false ∧ refusedRun.archive = some [7]) ∧
      ¬Trusted (fun _ => []) hubUrl oneByteServer catalogInput refusedRun := by
  have ended : refusedRun.ok = false ∧ refusedRun.failed = false ∧
      refusedRun.archive = some [7] ∧ refusedRun.written = 1 := by
    decide +kernel
  rcases ended with ⟨notFine, noError, archive, written⟩
  refine ⟨⟨notFine, noError, archive⟩, fun trusted => ?_⟩
  rcases trusted.clean notFine noError with removed | nothing
  · rw [archive] at removed
    cases removed
  · rw [written] at nothing
    cases nothing

end ClotoCore.Installer.Fetch
