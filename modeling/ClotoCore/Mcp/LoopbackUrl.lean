import ClotoCore.Encoding.Authority
import ClotoCore.Encoding.Bytes

/-!
# Where a token may go unencrypted

A server's URL has to be one of `https`, unless it is of this host.  The text of the URL is
split by hand for that, while the client that is given the URL reads it as URLs are read.
-/

namespace ClotoCore.Mcp.LoopbackUrl

open ClotoCore.Authority
open ClotoCore.Encoding (forall_mem_of_all)

/-- What the text of a host names. -/
inductive Host where
  | domain (name : String)
  | ipv4 (address : Nat)
  | ipv6 (address : Nat)
  deriving DecidableEq

/-- The three hosts that are let through. -/
def Host.isLoopback (host : Host) : Bool :=
  host = .domain "localhost" || host = .ipv4 0x7F000001 || host = .ipv6 1

/-- The hosts for which `http` is allowed. -/
def localHosts : List (List Char) :=
  ["localhost".toList, "127.0.0.1".toList, "::1".toList, "[::1]".toList]

/-- The ones that hold no colon. -/
def localNames : List (List Char) :=
  ["localhost".toList, "127.0.0.1".toList]

/-- The scheme without encryption. -/
def httpScheme : List Char :=
  "http://".toList

/-- `validate_http_url` -/
def validateHttpUrl (url : String) : Except String Unit :=
  let isHttps := "https://".toList.isPrefixOf url.toList
  let isHttp := httpScheme.isPrefixOf url.toList
  if !isHttps && !isHttp then
    .error ("MCP server URL must start with http:// or https://: " ++ url)
  else if isHttp then
    let afterScheme := url.toList.drop 7
    let host := (afterScheme.splitOn '/').headD []
    let host := (host.splitOn ':').headD host
    if localHosts.contains host then .ok ()
    else
      .error ("Remote MCP server URL must use HTTPS. " ++
        "HTTP is only allowed for localhost. Got: " ++ url)
  else .ok ()

/-! ## The rule -/

/-- What follows a host that is looked at. -/
def Ends (tail : List Char) : Prop :=
  ∀ c, tail.head? = some c → c = '/' ∨ c = ':'

/-- A URL whose host is `[::1]`. -/
def IsBracketed (url : String) : Prop :=
  ∃ tail, url.toList = httpScheme ++ "[::1]".toList ++ tail ∧ Ends tail

variable (parseHost : List Char → Option Host)

/-- The host that the client connects to. -/
def connectsTo (url : String) : Option Host :=
  hostOfUrl parseHost "http".toList url.toList

/-- Without encryption only this host is reached, and it is under its address in brackets. -/
structure PlainOnlyLocal (url : String) : Prop where
  reached : httpScheme <+: url.toList → validateHttpUrl url = .ok () →
    ∀ host, connectsTo parseHost url = some host → host.isLoopback = true
  bracketed : IsBracketed url → validateHttpUrl url = .ok ()

/-- A URL begins with a local host and a colon, and goes on to an at sign before another
host. -/
def HidesHost (url : String) : Prop :=
  ∃ name ∈ localNames, ∃ tail user behind host,
    url.toList = httpScheme ++ name ++ ':' :: tail ∧
    (cleanedEnd tail).takeWhile (!isDelimiter ·) = user ++ '@' :: behind ∧ '@' ∉ behind ∧
    hostOf parseHost behind = some host ∧ host.isLoopback = false

/-- The client's reading of the names of this host. -/
structure ReadsLocal : Prop where
  localhost : parseHost "localhost".toList = some (.domain "localhost")
  address : parseHost "127.0.0.1".toList = some (.ipv4 0x7F000001)

/-! ## What is accepted -/

variable {parseHost} {url : String} {name tail : List Char}

theorem name_plain (mem : name ∈ localNames) :
    (∀ c ∈ name, c ≠ '/' ∧ c ≠ ':' ∧ c ≠ '[' ∧ c ≠ '@' ∧ isDelimiter c = false ∧
      isBlank c = false ∧ isTabOrNewline c = false) ∧ name ≠ [] := by
  rcases List.mem_pair.mp mem with rfl | rfl
  · exact ⟨forall_mem_of_all (by decide), by decide⟩
  · exact ⟨forall_mem_of_all (by decide), by decide⟩

/-- What is looked at goes up to a slash or a colon. -/
theorem headD_pieces (rest : List Char) :
    (((rest.splitOn '/').headD []).splitOn ':').headD ((rest.splitOn '/').headD [])
      = rest.takeWhile fun c => c != ':' && c != '/' := by
  have unused : ∀ fallback, (((rest.splitOn '/').headD []).splitOn ':').headD fallback
      = (((rest.splitOn '/').headD []).splitOn ':').headD [] := by
    intro fallback
    rcases List.exists_cons_of_ne_nil (List.splitOn_ne_nil ':' ((rest.splitOn '/').headD [])) with
      ⟨head, pieces, split⟩
    rw [split]
    rfl
  rw [unused, headD_splitOn, headD_splitOn, List.takeWhile_takeWhile]
  refine congrArg (rest.takeWhile ·) (funext fun c => ?_)
  rw [Bool.decide_and, Bool.decide_eq_true, Bool.decide_eq_true]

theorem takeWhile_eq_name_iff {rest : List Char}
    (plain : ∀ c ∈ name, (c != ':' && c != '/') = true) :
    (rest.takeWhile fun c => c != ':' && c != '/') = name ↔
      ∃ tail, rest = name ++ tail ∧ Ends tail := by
  rw [takeWhile_eq_iff plain]
  have stops : ∀ c : Char, (c != ':' && c != '/') = false ↔ c = '/' ∨ c = ':' := by
    intro c
    simp only [Bool.and_eq_false_iff, bne_eq_false_iff_eq]
    exact or_comm
  simp only [Ends, stops]

/-- What is accepted without encryption begins with a name of this host. -/
theorem validateHttpUrl_eq_ok_iff {rest : List Char} (http : url.toList = httpScheme ++ rest) :
    validateHttpUrl url = .ok () ↔
      ∃ name ∈ localNames, ∃ tail, rest = name ++ tail ∧ Ends tail := by
  have isHttp : httpScheme.isPrefixOf url.toList = true := by
    rw [List.isPrefixOf_iff_prefix, http]
    exact List.prefix_append _ _
  have dropped : url.toList.drop 7 = rest := by
    rw [http]
    rfl
  -- the other two hosts hold a colon
  have looked : localHosts.contains (rest.takeWhile fun c => c != ':' && c != '/') = true ↔
      (rest.takeWhile fun c => c != ':' && c != '/') ∈ localNames := by
    have noColon : ':' ∉ rest.takeWhile fun c => c != ':' && c != '/' := by
      intro mem
      exact absurd (List.mem_takeWhile_imp mem) (by decide)
    generalize (rest.takeWhile fun c => c != ':' && c != '/') = host at noColon
    rw [List.contains_iff_mem]
    constructor
    · intro mem
      simp only [localHosts, List.mem_cons, List.not_mem_nil, or_false] at mem
      rcases mem with same | same | same | same
      · exact same ▸ List.mem_cons_self
      · exact same ▸ List.mem_cons_of_mem _ List.mem_cons_self
      · exact absurd (by rw [same]; decide) noColon
      · exact absurd (by rw [same]; decide) noColon
    · intro mem
      exact List.mem_append_left _ mem
  unfold validateHttpUrl
  simp only [isHttp, dropped, headD_pieces, Bool.not_true, Bool.and_false, Bool.false_eq_true,
    if_false, if_true]
  split
  · next accepted =>
    have mem := looked.mp accepted
    refine iff_of_true rfl ⟨_, mem, (takeWhile_eq_name_iff ?_).mp rfl⟩
    exact fun c inside => List.mem_takeWhile_imp (p := fun c => c != ':' && c != '/') inside
  · next refused =>
    refine iff_of_false (by simp) ?_
    rintro ⟨name, mem, begins⟩
    have same := (takeWhile_eq_name_iff fun c inside => ?_).mpr begins
    · exact refused (looked.mpr (same ▸ mem))
    · have plain := (name_plain mem).1 c inside
      simp [plain.1, plain.2.1]

/-! ## What is reached -/

/-- How the client reads what is accepted. -/
theorem connectsTo_eq (mem : name ∈ localNames)
    (whole : url.toList = httpScheme ++ (name ++ tail)) :
    connectsTo parseHost url
      = hostOf parseHost
          (behindUser (name ++ (cleanedEnd tail).takeWhile (!isDelimiter ·))) := by
  rcases name_plain mem with ⟨plain, filled⟩
  have read : cleaned url.toList = httpScheme ++ (name ++ cleanedEnd tail) := by
    rcases List.eq_nil_or_concat' name with empty | ⟨front, last, rfl⟩
    · exact absurd empty filled
    · have scheme : ∀ rest, (httpScheme ++ rest).dropWhile isBlank = httpScheme ++ rest := by
        intro rest
        rfl
      rw [cleaned, whole, scheme]
      have grouped : ∀ rest, httpScheme ++ (front ++ [last] ++ rest)
          = (httpScheme ++ front) ++ last :: rest := by simp
      rw [grouped, grouped]
      apply cleanedEnd_append
      · exact (plain last (by simp)).2.2.2.2.2.1
      · intro c inside
        rw [List.append_assoc, List.mem_append] at inside
        rcases inside with scheme | inName
        · have checked : ∀ d ∈ httpScheme, isTabOrNewline d = false :=
            forall_mem_of_all (by decide)
          exact checked c scheme
        · exact (plain c inName).2.2.2.2.2.2
  have behind : behindScheme "http".toList (httpScheme ++ (name ++ cleanedEnd tail))
      = some ("//".toList ++ (name ++ cleanedEnd tail)) := rfl
  have slashes : ("//".toList ++ (name ++ cleanedEnd tail)).dropWhile isSlash
      = name ++ cleanedEnd tail := by
    rcases List.exists_cons_of_ne_nil filled with ⟨first, rest, rfl⟩
    have noDelimiter := (plain first List.mem_cons_self).2.2.2.2.1
    have noSlash : isSlash first = false := by
      simp only [isDelimiter, Bool.or_eq_false_iff] at noDelimiter
      exact noDelimiter.1.1
    have two : ("//".toList ++ (first :: rest ++ cleanedEnd tail)).dropWhile isSlash
        = (first :: rest ++ cleanedEnd tail).dropWhile isSlash := rfl
    rw [two, List.cons_append, List.dropWhile_cons_of_neg (by simp [noSlash])]
  rw [connectsTo, hostOfUrl, read, behind, Option.bind_some, authority, slashes,
    List.takeWhile_append_of_pos]
  intro c inside
  simp [(plain c inside).2.2.2.2.1]

/-- What is read behind an accepted host. -/
theorem takeWhile_cleanedEnd_cons {c : Char} (sign : c = '/' ∨ c = ':') (rest : List Char) :
    (cleanedEnd (c :: rest)).takeWhile (!isDelimiter ·)
      = if c = ':' then ':' :: (cleanedEnd rest).takeWhile (!isDelimiter ·) else [] := by
  have kept : cleanedEnd (c :: rest) = c :: cleanedEnd rest := by
    have visible : isBlank c = false ∧ ∀ other ∈ ([] : List Char) ++ [c],
        isTabOrNewline other = false := by
      rcases sign with rfl | rfl
      · exact ⟨by decide, forall_mem_of_all (by decide)⟩
      · exact ⟨by decide, forall_mem_of_all (by decide)⟩
    exact cleanedEnd_append visible.1 visible.2
  rw [kept]
  rcases sign with rfl | rfl
  · rfl
  · rfl

theorem isLoopback_of_reads (reads : ReadsLocal parseHost) (mem : name ∈ localNames)
    {port : List Char} (starts : ∀ c, port.head? = some c → c = ':') {host : Host}
    (found : hostOf parseHost (name ++ port) = some host) : host.isLoopback = true := by
  rcases name_plain mem with ⟨plain, filled⟩
  rw [hostOf, splitHost_append (fun c inside => ⟨(plain c inside).2.1, (plain c inside).2.2.1⟩)
    starts, if_neg filled] at found
  split at found
  · rcases List.mem_pair.mp mem with rfl | rfl
    · rw [reads.localhost] at found
      cases found
      rfl
    · rw [reads.address] at found
      cases found
      rfl
  · cases found

/-- An address in brackets is not accepted. -/
theorem validateHttpUrl_of_isBracketed (bracketed : IsBracketed url) :
    validateHttpUrl url ≠ .ok () := by
  rcases bracketed with ⟨tail, whole, -⟩
  rw [List.append_assoc] at whole
  rw [Ne, validateHttpUrl_eq_ok_iff whole]
  rintro ⟨name, mem, rest, same, -⟩
  have first := congrArg List.head? same
  rcases List.mem_pair.mp mem with rfl | rfl
  · exact absurd first (by simp)
  · exact absurd first (by simp)

/-- Without encryption only this host is reached, unless another host stands behind an at
sign; its address in brackets is refused. -/
theorem plainOnlyLocal_iff (reads : ReadsLocal parseHost) (url : String) :
    PlainOnlyLocal parseHost url ↔ ¬IsBracketed url ∧ ¬HidesHost parseHost url := by
  constructor
  · intro rule
    refine ⟨fun bracketed => validateHttpUrl_of_isBracketed bracketed (rule.bracketed bracketed),
      ?_⟩
    rintro ⟨name, mem, tail, user, behind, host, whole, split, free, found, away⟩
    rw [List.append_assoc] at whole
    have accepted : validateHttpUrl url = .ok () :=
      (validateHttpUrl_eq_ok_iff whole).mpr
        ⟨name, mem, ':' :: tail, rfl, fun c first => Or.inr (by simpa using first.symm)⟩
    have reached : connectsTo parseHost url = some host := by
      have grouped : name ++ ':' :: (user ++ '@' :: behind)
          = (name ++ ':' :: user) ++ '@' :: behind := by simp
      rw [connectsTo_eq mem whole, takeWhile_cleanedEnd_cons (Or.inr rfl), if_pos rfl, split,
        grouped, behindUser_append free, found]
    have here := rule.reached (whole ▸ List.prefix_append _ _) accepted host reached
    rw [away] at here
    cases here
  · rintro ⟨notBracketed, notHidden⟩
    refine ⟨?_, fun bracketed => absurd bracketed notBracketed⟩
    rintro ⟨rest, whole⟩ accepted host reached
    rcases (validateHttpUrl_eq_ok_iff whole.symm).mp accepted with ⟨name, mem, tail, rfl, ends⟩
    rcases name_plain mem with ⟨plain, -⟩
    have noSign : '@' ∉ name := fun inside => (plain '@' inside).2.2.2.1 rfl
    rw [connectsTo_eq mem whole.symm] at reached
    cases tail with
    | nil =>
        have empty : (cleanedEnd []).takeWhile (!isDelimiter ·) = [] := rfl
        rw [empty, List.append_nil, behindUser_of_notMem noSign] at reached
        exact isLoopback_of_reads reads mem (by simp) ((List.append_nil name).symm ▸ reached)
    | cons c tail =>
        have sign := ends c rfl
        rw [takeWhile_cleanedEnd_cons sign] at reached
        by_cases colon : c = ':'
        · rw [if_pos colon] at reached
          by_cases user : '@' ∈ (cleanedEnd tail).takeWhile (!isDelimiter ·)
          · rcases exists_user_of_mem user with ⟨user, behind, split, free⟩
            have grouped : name ++ ':' :: (user ++ '@' :: behind)
                = (name ++ ':' :: user) ++ '@' :: behind := by simp
            rw [split, grouped, behindUser_append free] at reached
            rw [← Bool.not_eq_false]
            intro away
            refine notHidden ⟨name, mem, tail, user, behind, host, ?_, split, free, reached, away⟩
            rw [← whole, colon, List.append_assoc]
          · rw [behindUser_of_notMem (by simp [noSign, user])] at reached
            exact isLoopback_of_reads reads mem (by simp) reached
        · rw [if_neg colon, List.append_nil, behindUser_of_notMem noSign] at reached
          exact isLoopback_of_reads reads mem (by simp) ((List.append_nil name).symm ▸ reached)

/-- A client's reading of hosts, as far as an example needs it. -/
def plainParseHost (text : List Char) : Option Host :=
  if text = "127.0.0.1".toList then some (.ipv4 0x7F000001)
  else if text = "[::1]".toList then some (.ipv6 1)
  else some (.domain (String.ofList (text.map Char.toLower)))

theorem plainParseHost_readsLocal : ReadsLocal plainParseHost where
  localhost := by decide +kernel
  address := by decide +kernel

/-- The rule for a URL of this host. -/
theorem local_url_plainOnlyLocal_iff :
    PlainOnlyLocal plainParseHost "http://localhost:8931/mcp" ↔
      ¬IsBracketed "http://localhost:8931/mcp" ∧
        ¬HidesHost plainParseHost "http://localhost:8931/mcp" :=
  plainOnlyLocal_iff plainParseHost_readsLocal _

/-- What looks like a port is the password of a user of another host, and the address in
brackets is refused. -/
theorem user_hides_host :
    validateHttpUrl "http://localhost:x@evil.example/" = .ok () ∧
      connectsTo plainParseHost "http://localhost:x@evil.example/"
        = some (.domain "evil.example") ∧
      ¬PlainOnlyLocal plainParseHost "http://localhost:x@evil.example/" ∧
      ¬PlainOnlyLocal plainParseHost "http://[::1]:8931/mcp" := by
  have accepted : validateHttpUrl "http://localhost:x@evil.example/" = .ok () := by
    decide +kernel
  have reached : connectsTo plainParseHost "http://localhost:x@evil.example/"
      = some (.domain "evil.example") := by
    decide +kernel
  have http : httpScheme <+: "http://localhost:x@evil.example/".toList := by
    decide +kernel
  refine ⟨accepted, reached, fun rule => ?_, fun rule => ?_⟩
  · exact absurd (rule.reached http accepted _ reached) (by decide)
  · have bracketed : IsBracketed "http://[::1]:8931/mcp" :=
      ⟨":8931/mcp".toList, by decide +kernel, fun c first => Or.inr (by simpa using first.symm)⟩
    exact validateHttpUrl_of_isBracketed bracketed (rule.bracketed bracketed)

end ClotoCore.Mcp.LoopbackUrl
