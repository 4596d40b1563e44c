import ClotoCore.Access.KeySets
import ClotoCore.Encoding.Base64
import ClotoCore.Encoding.SpecialUrl
import ClotoCore.Encoding.Words
import Mathlib.Algebra.Group.Int.Defs

/-!
# The team that signs an operator in

The key set is fetched from a URL into which the configured domain is put.  The domain may
hold no character that was thought to lead elsewhere; the client that reads the URL knows
more such characters.
-/

namespace ClotoCore.Access.TeamDomain

open ClotoCore.Access.KeySets (AccessError JwtKey KeySet KeySet.get VerifiedIdentity)
open ClotoCore.Authority ClotoCore.Encoding

/-! ## The configuration -/

/-- The characters that no team domain may hold. -/
def isStructure (c : Char) : Bool :=
  c = '/' || c = ':' || c = '@' || c = '?' || c = '#' || isWhitespace c

/-- `AccessConfig`, with what its constructor has checked. -/
structure AccessConfig where
  teamDomain : List Char
  audience : List Char
  named : teamDomain ≠ []
  free : ∀ c ∈ teamDomain, isStructure c = false

/-- A domain without the scheme before it. -/
def withoutScheme (team : List Char) : List Char :=
  if "https://".toList.isPrefixOf team then team.drop 8
  else if "http://".toList.isPrefixOf team then team.drop 7
  else team

/-- The domain that is checked. -/
def normalizedTeam (teamDomain : List Char) : List Char :=
  (withoutScheme (trimChars teamDomain)).rdropWhile (· = '/')

/-- `AccessConfig::new` -/
def AccessConfig.new (teamDomain audience : List Char) : Option AccessConfig :=
  if accepted : normalizedTeam teamDomain ≠ [] ∧
      (normalizedTeam teamDomain).any isStructure = false ∧ trimChars audience ≠ [] ∧
        (trimChars audience).any isWhitespace = false then
    some
      { teamDomain := normalizedTeam teamDomain
        audience := trimChars audience
        named := accepted.1
        free := fun c mem => Bool.eq_false_iff.mpr (List.any_eq_false.mp accepted.2.1 c mem) }
  else none

namespace AccessConfig

variable (config : AccessConfig)

/-- `issuer` -/
def issuer : List Char :=
  "https://".toList ++ config.teamDomain

/-- `jwks_url` -/
def jwksUrl : List Char :=
  "https://".toList ++ (config.teamDomain ++ "/cdn-cgi/access/certs".toList)

end AccessConfig

/-! ## Assertions -/

/-- `Audience` -/
inductive Audience where
  | one (name : List Char)
  | many (names : List (List Char))

/-- `Audience::contains` -/
def Audience.contains (wanted : List Char) : Audience → Bool
  | .one name => name = wanted
  | .many names => names.any (· = wanted)

/-- `JwsHeader` -/
structure JwsHeader where
  alg : String
  kid : Option String
  crit : Option (List String)

/-- `Claims` -/
structure Claims where
  iss : Option (List Char)
  aud : Option Audience
  exp : Option Int
  nbf : Option Int
  email : Option String
  sub : Option String

/-- What the reading of an assertion leaves to others: JSON and RSA. -/
structure AssertionReader where
  header : Bytes → Option JwsHeader
  claims : Bytes → Option Claims
  /-- Whether a signature of a message verifies under a key. -/
  verify : JwtKey → Bytes → Bytes → Bool

/-- `MAX_ASSERTION_BYTES` -/
def maxAssertionBytes : Nat := 8192

/-- `CLOCK_LEEWAY_SECONDS` -/
def clockLeewaySeconds : Int := 60

/-- What was found, or why it was not. -/
def foundOr {α : Type} (why : AccessError) : Option α → Except AccessError α
  | some found => .ok found
  | none => .error why

/-- `b64url` -/
def b64url (segment : List Char) : Except AccessError Bytes :=
  foundOr (.malformed "a segment is not base64url") (Base64.rawUrl.groups segment)

/-- The segments of a token. -/
def segments (token : List Char) : Except AccessError (List Char × List Char × List Char) :=
  if token = [] then .error (.malformed "empty")
  else if maxAssertionBytes < (utf8 (String.ofList token)).length then
    .error (.malformed "implausibly large")
  else
    match token.splitOn '.' with
    | [header, payload, signature] =>
        if header = [] ∨ payload = [] ∨ signature = [] then
          .error (.malformed "a segment is empty")
        else .ok (header, payload, signature)
    | _ => .error (.malformed "a JWS has exactly three segments")

/-- The key that a header names. -/
def keyId (header : JwsHeader) : Except AccessError String :=
  if header.alg ≠ "RS256" then .error .unsupportedAlgorithm
  else if header.crit.isSome then .error (.malformed "header demands unknown extensions")
  else
    match header.kid.filter (· ≠ "") with
    | some kid => .ok kid
    | none => .error (.malformed "header names no key")

/-- A sum of `i64`. -/
def addSeconds (left right : Int) : Int :=
  (left + right).bmod (2 ^ 64)

/-- Whom the claims name, of what was signed. -/
def identity (config : AccessConfig) (now : Int) (claims : Claims) :
    Except AccessError VerifiedIdentity :=
  if claims.iss ≠ some config.issuer then .error .wrongIssuer
  else if !claims.aud.any (Audience.contains config.audience) then .error .wrongAudience
  else
    match claims.exp with
    | none => .error .expired
    | some exp =>
        if addSeconds exp clockLeewaySeconds < now then .error .expired
        else if claims.nbf.any fun nbf => addSeconds now clockLeewaySeconds < nbf then
          .error .notYetValid
        else
          match claims.email.filter fun email => trim email ≠ "" with
          | none => .error .noIdentity
          | some email => .ok { email := email, subject := claims.sub.getD "" }

/-- `verify_assertion` -/
def verifyAssertion (reader : AssertionReader) (token : List Char) (keys : KeySet)
    (config : AccessConfig) (now : Int) : Except AccessError VerifiedIdentity := do
  let parts ← segments token
  let header ← foundOr (.malformed "header is not a JWS header")
    (reader.header (← b64url parts.1))
  let kid ← keyId header
  let key ← foundOr .unknownKey (keys.get kid)
  let signature ← b64url parts.2.2
  let _ ← foundOr .badSignature
    (if reader.verify key (utf8 (String.ofList (parts.1 ++ '.' :: parts.2.1))) signature then
      some () else none)
  let claims ← foundOr (.malformed "payload is not a claim set")
    (reader.claims (← b64url parts.2.1))
  identity config now claims

/-! ## An assertion, as the cache of the keys sees it -/

/-- The key that a token names. -/
def namedKey (reader : AssertionReader) (token : List Char) : Except AccessError String := do
  let parts ← segments token
  let header ← foundOr (.malformed "header is not a JWS header")
    (reader.header (← b64url parts.1))
  keyId header

/-- What a token comes to under a key. -/
def checkedWith (reader : AssertionReader) (token : List Char) (config : AccessConfig) (now : Int)
    (key : JwtKey) : Except AccessError VerifiedIdentity := do
  let parts ← segments token
  let signature ← b64url parts.2.2
  let _ ← foundOr .badSignature
    (if reader.verify key (utf8 (String.ofList (parts.1 ++ '.' :: parts.2.1))) signature then
      some () else none)
  let claims ← foundOr (.malformed "payload is not a claim set")
    (reader.claims (← b64url parts.2.1))
  identity config now claims

section Assertions

variable {reader : AssertionReader} {token : List Char} {keys : KeySet} {config : AccessConfig}
  {now : Int}

theorem ok_bind {α β : Type} (value : α) (next : α → Except AccessError β) :
    (Except.ok value >>= next) = next value :=
  rfl

theorem bind_eq_ok {α β : Type} {first : Except AccessError α} {next : α → Except AccessError β}
    {result : β} (done : (first >>= next) = .ok result) :
    ∃ value, first = .ok value ∧ next value = .ok result := by
  cases first with
  | error why => cases done
  | ok value => exact ⟨value, rfl, done⟩

/-- Two steps that do not fail in a way do not either in sequence. -/
theorem bind_ne {α β : Type} {first : Except AccessError α} {next : α → Except AccessError β}
    {why : AccessError} (here : first ≠ .error why) (later : ∀ value, next value ≠ .error why) :
    (first >>= next) ≠ .error why := by
  cases first with
  | error other =>
      intro failed
      cases failed
      exact here rfl
  | ok value => exact later value

theorem foundOr_ne {α : Type} {why other : AccessError} {found : Option α} (apart : why ≠ other) :
    foundOr why found ≠ .error other := by
  cases found with
  | none =>
      intro failed
      cases failed
      exact apart rfl
  | some value => nofun

theorem segments_ne_unknownKey : segments token ≠ .error .unknownKey := by
  unfold segments
  split
  · nofun
  split
  · nofun
  split
  · split <;> nofun
  · nofun

theorem keyId_ne_unknownKey {header : JwsHeader} : keyId header ≠ .error .unknownKey := by
  unfold keyId
  split
  · nofun
  split
  · nofun
  split <;> nofun

theorem identity_ne_unknownKey {claims : Claims} :
    identity config now claims ≠ .error .unknownKey := by
  unfold identity
  split
  · nofun
  split
  · nofun
  split
  · nofun
  split
  · nofun
  split
  · nofun
  split <;> nofun

theorem namedKey_ne_unknownKey : namedKey reader token ≠ .error .unknownKey := by
  refine bind_ne segments_ne_unknownKey fun parts => ?_
  refine bind_ne (foundOr_ne nofun) fun bytes => ?_
  exact bind_ne (foundOr_ne nofun) fun header => keyId_ne_unknownKey

theorem checkedWith_ne_unknownKey (key : JwtKey) :
    checkedWith reader token config now key ≠ .error .unknownKey := by
  refine bind_ne segments_ne_unknownKey fun parts => ?_
  refine bind_ne (foundOr_ne nofun) fun signature => ?_
  refine bind_ne (foundOr_ne nofun) fun _ => ?_
  refine bind_ne (foundOr_ne nofun) fun bytes => ?_
  exact bind_ne (foundOr_ne nofun) fun claims => identity_ne_unknownKey

/-- A token as the cache of the keys sees it. -/
def assertionOf (reader : AssertionReader) (token : List Char) (config : AccessConfig)
    (now : Int) : KeySets.Assertion where
  kid := namedKey reader token
  check := checkedWith reader token config now
  malformed := namedKey_ne_unknownKey
  known := checkedWith_ne_unknownKey

/-- The cache of the keys sees of a token all that its verification does. -/
theorem verifyAssertion_eq :
    verifyAssertion reader token keys config now
      = KeySets.verifyAssertion (assertionOf reader token config now) keys := by
  simp only [verifyAssertion, KeySets.verifyAssertion, assertionOf, namedKey, checkedWith]
  cases segments token with
  | error why => rfl
  | ok parts =>
      simp only [ok_bind, bind_assoc]
      cases b64url parts.1 with
      | error why => rfl
      | ok bytes =>
          simp only [ok_bind]
          cases foundOr (.malformed "header is not a JWS header") (reader.header bytes) with
          | error why => rfl
          | ok header =>
              simp only [ok_bind]
              cases keyId header with
              | error why => rfl
              | ok kid =>
                  simp only [ok_bind]
                  cases keys.get kid with
                  | none => rfl
                  | some key => rfl

/-- An assertion is verified only if its claims are of the configured team. -/
theorem issuer_of_verifyAssertion {who : VerifiedIdentity}
    (verified : verifyAssertion reader token keys config now = .ok who) :
    ∃ parts bytes claims, segments token = .ok parts ∧ b64url parts.2.1 = .ok bytes ∧
      reader.claims bytes = some claims ∧ claims.iss = some config.issuer := by
  rcases bind_eq_ok verified with ⟨parts, cut, verified⟩
  rcases bind_eq_ok verified with ⟨_, -, verified⟩
  rcases bind_eq_ok verified with ⟨_, -, verified⟩
  rcases bind_eq_ok verified with ⟨_, -, verified⟩
  rcases bind_eq_ok verified with ⟨_, -, verified⟩
  rcases bind_eq_ok verified with ⟨_, -, verified⟩
  rcases bind_eq_ok verified with ⟨_, -, verified⟩
  rcases bind_eq_ok verified with ⟨bytes, text, verified⟩
  rcases bind_eq_ok verified with ⟨claims, read, verified⟩
  refine ⟨parts, bytes, claims, cut, text, ?_, ?_⟩
  · cases found : reader.claims bytes with
    | none =>
        rw [found] at read
        cases read
    | some other =>
        rw [found] at read
        cases read
        rfl
  · unfold identity at verified
    split at verified
    · cases verified
    · rename_i ours
      exact not_not.mp ours

end Assertions

/-! ## Where the key set comes from -/

/-- A URL of the key set of the configured team. -/
structure LeadsToTeam (config : AccessConfig) (url : SpecialUrl) : Prop where
  scheme : url.scheme = "https".toList
  host : url.host.map lowerChar = config.teamDomain.map lowerChar
  port : url.port = none
  user : url.userInfo = none
  path : url.path = ["cdn-cgi".toList, "access".toList, "certs".toList]

/-- The keys come from the configured team, and the claims name it. -/
structure TrustsTeam (hosts : HostReader) (reader : AssertionReader) (config : AccessConfig) :
    Prop where
  keys : ∀ url, hosts.parseUrl "https".toList 443 config.jwksUrl = some url →
    LeadsToTeam config url
  issuer : ∀ token keys now who, verifyAssertion reader token keys config now = .ok who →
    ∃ parts bytes claims, segments token = .ok parts ∧ b64url parts.2.1 = .ok bytes ∧
      reader.claims bytes = some claims ∧
        claims.iss = some ("https://".toList ++ config.teamDomain)

/-- A domain that is read as it is written. -/
structure PlainDomain (team : List Char) : Prop where
  ascii : ∀ c ∈ team, c.toNat < 128
  noPercent : '%' ∉ team
  noBackslash : '\\' ∉ team
  address : endsInNumber (team.map lowerChar) = true →
    (parseAddress (team.map lowerChar)).map serializeAddress = some (team.map lowerChar)

section Domains

variable {hosts : HostReader} {reader : AssertionReader} {config : AccessConfig}

theorem not_mem_teamDomain (config : AccessConfig) {c : Char} (structural : isStructure c = true) :
    c ∉ config.teamDomain := by
  intro mem
  rw [config.free c mem] at structural
  cases structural

/-- What stands behind the scheme of the URL. -/
theorem behindScheme_jwksUrl (config : AccessConfig) :
    behindScheme "https".toList (cleaned config.jwksUrl)
      = some ("//".toList ++ (config.teamDomain ++ "/cdn-cgi/access/certs".toList)) := by
  have team : ∀ c ∈ config.teamDomain, isTabOrNewline c = false := by
    intro c mem
    rw [Bool.eq_false_iff]
    intro blank
    simp only [isTabOrNewline, Bool.or_eq_true, decide_eq_true_eq] at blank
    rcases blank with (rfl | rfl) | rfl
    · exact not_mem_teamDomain config (by decide) mem
    · exact not_mem_teamDomain config (by decide) mem
    · exact not_mem_teamDomain config (by decide) mem
  have scheme : ∀ c ∈ "https://".toList, isTabOrNewline c = false :=
    forall_mem_of_all (by decide)
  have path : ∀ c ∈ "/cdn-cgi/access/cert".toList ++ ['s'], isTabOrNewline c = false :=
    forall_mem_of_all (by decide)
  have ends : "/cdn-cgi/access/certs".toList = "/cdn-cgi/access/cert".toList ++ 's' :: [] := by
    decide
  have whole : config.jwksUrl
      = ("https://".toList ++ (config.teamDomain ++ "/cdn-cgi/access/cert".toList)) ++ 's' :: [] := by
    refine (congrArg (fun path => "https://".toList ++ (config.teamDomain ++ path)) ends).trans ?_
    simp only [List.append_assoc]
  have visible : config.jwksUrl.dropWhile isBlank = config.jwksUrl := rfl
  have kept : cleaned config.jwksUrl = config.jwksUrl := by
    rw [cleaned, visible, whole, cleanedEnd_append (by decide)]
    · rfl
    · intro c mem
      rw [List.append_assoc, List.append_assoc, List.mem_append, List.mem_append] at mem
      rcases mem with inScheme | inTeam | inPath
      · exact scheme c inScheme
      · exact team c inTeam
      · exact path c inPath
  rw [kept]
  rfl

theorem noColon_jwksUrl (config : AccessConfig) :
    ':' ∉ "//".toList ++ (config.teamDomain ++ "/cdn-cgi/access/certs".toList) := by
  have team : ':' ∉ config.teamDomain := not_mem_teamDomain config (by decide)
  simp [team]

/-- The authority of the URL, where no backslash cuts the domain. -/
theorem authority_jwksUrl (noBackslash : '\\' ∉ config.teamDomain) :
    authority ("//".toList ++ (config.teamDomain ++ "/cdn-cgi/access/certs".toList))
        = config.teamDomain ∧
      (("//".toList ++ (config.teamDomain ++ "/cdn-cgi/access/certs".toList)).dropWhile
          isSlash).dropWhile (!isDelimiter ·)
        = "/cdn-cgi/access/certs".toList := by
  have undelimited : ∀ c ∈ config.teamDomain, (!isDelimiter c) = true := by
    intro c mem
    rw [Bool.not_eq_true', Bool.eq_false_iff]
    intro delimits
    simp only [isDelimiter, isSlash, Bool.or_eq_true, decide_eq_true_eq] at delimits
    rcases delimits with ((rfl | rfl) | rfl) | rfl
    · exact not_mem_teamDomain config (by decide) mem
    · exact noBackslash mem
    · exact not_mem_teamDomain config (by decide) mem
    · exact not_mem_teamDomain config (by decide) mem
  have slashes : ("//".toList ++ (config.teamDomain ++ "/cdn-cgi/access/certs".toList)).dropWhile
      isSlash = config.teamDomain ++ "/cdn-cgi/access/certs".toList := by
    rw [List.dropWhile_append_of_pos (forall_mem_of_all (by decide))]
    cases team : config.teamDomain with
    | nil => exact absurd team config.named
    | cons c rest =>
        have first := undelimited c (team ▸ List.mem_cons_self)
        have notSlash : isSlash c = false := by
          cases slash : isSlash c with
          | false => rfl
          | true => simp [isDelimiter, slash] at first
        rw [List.cons_append, List.dropWhile_cons_of_neg (by simp [notSlash])]
  rw [authority, slashes]
  refine ⟨?_, ?_⟩
  · rw [List.takeWhile_append_of_pos undelimited]
    simp [isDelimiter, isSlash]
  · rw [List.dropWhile_append_of_pos undelimited]
    rfl

theorem lowerChar_of_upper {c : Char} (upper : 'A' ≤ c ∧ c ≤ 'Z') :
    ('a' ≤ lowerChar c ∧ lowerChar c ≤ 'z') ∧ lowerChar (lowerChar c) = lowerChar c := by
  have small : ∀ n < 128, 'A' ≤ Char.ofNat n ∧ Char.ofNat n ≤ 'Z' →
      ('a' ≤ lowerChar (Char.ofNat n) ∧ lowerChar (Char.ofNat n) ≤ 'z') ∧
        lowerChar (lowerChar (Char.ofNat n)) = lowerChar (Char.ofNat n) := by
    decide +kernel
  have bounded : c.toNat ≤ 90 := upper.2
  have here := small c.toNat (by omega)
  rw [Char.ofNat_toNat] at here
  exact here upper

theorem lowerChar_of_not_upper {c : Char} (other : ¬('A' ≤ c ∧ c ≤ 'Z')) : lowerChar c = c :=
  if_neg other

theorem map_lowerChar_lowerChar (text : List Char) :
    (text.map lowerChar).map lowerChar = text.map lowerChar := by
  rw [List.map_map]
  refine List.map_congr_left fun c _ => ?_
  by_cases upper : 'A' ≤ c ∧ c ≤ 'Z'
  · exact (lowerChar_of_upper upper).2
  · rw [Function.comp_apply, lowerChar_of_not_upper upper]
    exact lowerChar_of_not_upper upper

/-- A character that is no lower-case letter is made of itself only. -/
theorem eq_of_lowerChar_eq {c d : Char} (other : ¬('a' ≤ d ∧ d ≤ 'z')) (same : lowerChar c = d) :
    c = d := by
  by_cases upper : 'A' ≤ c ∧ c ≤ 'Z'
  · exact absurd (same ▸ (lowerChar_of_upper upper).1) other
  · rwa [lowerChar_of_not_upper upper] at same

theorem mem_of_mem_map_lowerChar {text other : List Char} {d : Char}
    (letters : ¬('a' ≤ d ∧ d ≤ 'z')) (same : text.map lowerChar = other.map lowerChar)
    (kept : lowerChar d = d) (mem : d ∈ other) : d ∈ text := by
  have here : d ∈ text.map lowerChar := by
    rw [same, ← kept]
    exact List.mem_map_of_mem mem
  rcases List.mem_map.mp here with ⟨c, inText, lowered⟩
  rwa [← eq_of_lowerChar_eq letters lowered]

/-- The URL of a plain domain leads to it. -/
theorem leadsToTeam_of_plain (standard : hosts.Standard) (plain : PlainDomain config.teamDomain)
    {url : SpecialUrl}
    (parsed : hosts.parseUrl "https".toList 443 config.jwksUrl = some url) :
    LeadsToTeam config url := by
  have noColon : ':' ∉ config.teamDomain := not_mem_teamDomain config (by decide)
  have noSign : '@' ∉ config.teamDomain := not_mem_teamDomain config (by decide)
  have cut := authority_jwksUrl plain.noBackslash
  rw [HostReader.parseUrl, behindScheme_jwksUrl, Option.bind_some, cut.1, cut.2,
    behindUser_of_notMem noSign, splitHost_of_noColon noColon, Option.map_eq_some_iff] at parsed
  rcases parsed with ⟨host, named, rfl⟩
  have lowered : host = config.teamDomain.map lowerChar := by
    rw [hostOf, splitHost_of_noColon noColon, if_neg config.named] at named
    have names := parseHost_of_plain standard plain.ascii plain.noPercent noColon named
    split at names
    · rename_i number
      rw [plain.address number, Option.some.injEq] at names
      exact names.symm
    · exact names
  have path : pathOfUrl "/cdn-cgi/access/certs".toList
      = ["cdn-cgi".toList, "access".toList, "certs".toList] := by
    decide +kernel
  refine ⟨rfl, ?_, rfl, if_neg noSign, path⟩
  rw [lowered, map_lowerChar_lowerChar]

/-- A URL that leads to the team has a plain domain. -/
theorem plain_of_leadsToTeam (standard : hosts.Standard) {url : SpecialUrl}
    (parsed : hosts.parseUrl "https".toList 443 config.jwksUrl = some url)
    (leads : LeadsToTeam config url) : PlainDomain config.teamDomain := by
  have named := parseHost_of_parseUrl (behindScheme_jwksUrl config) (noColon_jwksUrl config) parsed
  have noColon : ':' ∉ behindUser (authority
      ("//".toList ++ (config.teamDomain ++ "/cdn-cgi/access/certs".toList))) := fun mem =>
    noColon_jwksUrl config (mem_of_mem_authority (mem_of_mem_behindUser mem))
  have inHost := inHost_of_parseHost standard noColon named
  have ascii : ∀ c ∈ config.teamDomain, c.toNat < 128 := by
    intro c mem
    by_contra large
    have notUpper : ¬('A' ≤ c ∧ c ≤ 'Z') := by
      rintro ⟨-, high⟩
      have bounded : c.toNat ≤ 90 := high
      omega
    have notLower : ¬('a' ≤ c ∧ c ≤ 'z') := by
      rintro ⟨-, high⟩
      have bounded : c.toNat ≤ 122 := high
      omega
    exact large (inHost c (mem_of_mem_map_lowerChar notLower leads.host
      (lowerChar_of_not_upper notUpper) mem)).1
  have noPercent : '%' ∉ config.teamDomain := fun mem =>
    (inHost '%' (mem_of_mem_map_lowerChar (by decide) leads.host (by decide) mem)).2.1 rfl
  have noBackslash : '\\' ∉ config.teamDomain := fun mem =>
    (inHost '\\' (mem_of_mem_map_lowerChar (by decide) leads.host (by decide) mem)).2.2 rfl
  refine ⟨ascii, noPercent, noBackslash, fun number => ?_⟩
  rw [(authority_jwksUrl noBackslash).1,
    behindUser_of_notMem (not_mem_teamDomain config (by decide))] at named
  have names := parseHost_of_plain standard ascii noPercent
    (not_mem_teamDomain config (by decide)) named
  rw [if_pos number] at names
  rcases Option.map_eq_some_iff.mp names with ⟨address, -, written⟩
  have kept : url.host.map lowerChar = url.host := by
    rw [← written]
    refine (List.map_congr_left fun c mem => ?_).trans (List.map_id _)
    refine lowerChar_of_not_upper fun upper => ?_
    have low : 65 ≤ c.toNat := upper.1
    rcases isDigit_of_mem_serializeAddress mem with digit | rfl
    · simp only [Char.isDigit, Bool.and_eq_true, decide_eq_true_eq, UInt32.le_iff_toNat_le] at digit
      have high : c.toNat ≤ 57 := digit.2
      omega
    · exact absurd low (by decide)
  rw [names, ← leads.host, kept]

/-- The keys come from the configured team exactly if the URL is not read at all or the domain
is a plain one. -/
theorem trustsTeam_iff (standard : hosts.Standard) (reader : AssertionReader)
    (config : AccessConfig) :
    TrustsTeam hosts reader config ↔
      (hosts.parseUrl "https".toList 443 config.jwksUrl = none ∨
        PlainDomain config.teamDomain) := by
  constructor
  · intro trusts
    cases parsed : hosts.parseUrl "https".toList 443 config.jwksUrl with
    | none => exact Or.inl rfl
    | some url => exact Or.inr (plain_of_leadsToTeam standard parsed (trusts.keys url parsed))
  · intro safe
    refine ⟨?_, fun token keys now who verified => issuer_of_verifyAssertion verified⟩
    intro url parsed
    rcases safe with refused | plain
    · rw [refused] at parsed
      cases parsed
    · exact leadsToTeam_of_plain standard plain parsed

end Domains

/-! ## A domain that leads elsewhere -/

/-- A client's reading of hosts, as far as ASCII domains go. -/
def asciiHosts : HostReader where
  toAscii domain :=
    if domain.all (· < 0x80) then some (domain.map fun byte => lowerChar (Char.ofNat byte.toNat))
    else none
  ipv6 _ := none

/-- No assertion is read. -/
def noAssertions : AssertionReader where
  header _ := none
  claims _ := none
  verify _ _ _ := false

theorem asciiHosts_standard : asciiHosts.Standard where
  ascii := by
    intro domain host read c mem
    have small : ∀ n < 128, (lowerChar (Char.ofNat n)).toNat < 128 := by decide +kernel
    simp only [asciiHosts, Option.ite_none_right_eq_some, Option.some.injEq] at read
    rw [← read.2] at mem
    rcases List.mem_map.mp mem with ⟨byte, inDomain, rfl⟩
    have ascii := List.all_eq_true.mp read.1 byte inDomain
    exact small byte.toNat (UInt8.lt_iff_toNat_lt.mp (of_decide_eq_true ascii))
  lower := by
    intro domain host ascii read
    simp only [asciiHosts, Option.ite_none_right_eq_some, Option.some.injEq] at read
    rw [← read.2, utf8_of_ascii ascii, List.map_map]
    refine List.map_congr_left fun c mem => congrArg lowerChar ?_
    have small : c.toNat % 2 ^ 8 = c.toNat := Nat.mod_eq_of_lt (by have := ascii c mem; omega)
    rw [UInt8.toNat_ofNat', small, Char.ofNat_toNat]
  colon := nofun

/-- A configuration whose domain has a capital letter. -/
def teamConfig : AccessConfig where
  teamDomain := "Example.cloudflareaccess.com".toList
  audience := "app".toList
  named := by decide
  free := forall_mem_of_all (by decide)

theorem teamConfig_trustsTeam : TrustsTeam asciiHosts noAssertions teamConfig :=
  (trustsTeam_iff asciiHosts_standard noAssertions teamConfig).mpr
    (Or.inr ⟨forall_mem_of_all (by decide +kernel), by decide, by decide, by decide +kernel⟩)

theorem jwksUrl_of_team {config : AccessConfig} {team : List Char}
    (same : config.teamDomain = team) :
    config.jwksUrl = "https://".toList ++ (team ++ "/cdn-cgi/access/certs".toList) := by
  rw [← same]
  rfl

/-- The domain before a backslash is the one that the keys come from. -/
theorem backslash_leads_elsewhere :
    ∃ config, AccessConfig.new "evil.example\\.cloudflareaccess.com".toList "app".toList
        = some config ∧
      (asciiHosts.parseUrl "https".toList 443 config.jwksUrl).map SpecialUrl.host
        = some "evil.example".toList ∧
      ¬TrustsTeam asciiHosts noAssertions config := by
  have accepted : (AccessConfig.new "evil.example\\.cloudflareaccess.com".toList
      "app".toList).map AccessConfig.teamDomain
        = some "evil.example\\.cloudflareaccess.com".toList := by
    decide +kernel
  rcases Option.map_eq_some_iff.mp accepted with ⟨config, made, team⟩
  have host : (asciiHosts.parseUrl "https".toList 443 config.jwksUrl).map SpecialUrl.host
      = some "evil.example".toList := by
    rw [jwksUrl_of_team team]
    decide +kernel
  refine ⟨config, made, host, fun trusts => ?_⟩
  rcases Option.map_eq_some_iff.mp host with ⟨url, parsed, elsewhere⟩
  have same := (trusts.keys url parsed).host
  rw [elsewhere, team] at same
  revert same
  decide +kernel

end ClotoCore.Access.TeamDomain
