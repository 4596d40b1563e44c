import Mathlib.Data.List.DropRight

/-!
# The authority of a URL

A URL of a scheme that has hosts is read without the blanks around it and without the tabs
and line breaks in it.  Behind its slashes stands the authority, up to the next delimiter:
user information up to its last at sign, then the host, then the port behind the first
colon outside brackets.  What a host's text names is left to a parameter.
-/

namespace ClotoCore.Authority

universe u

/-- A control character or a space. -/
def isBlank (c : Char) : Bool :=
  c.toNat ≤ 32

/-- A tab or a line break, which a URL is read without. -/
def isTabOrNewline (c : Char) : Bool :=
  c = '\t' || c = '\n' || c = '\r'

/-- A slash of either kind. -/
def isSlash (c : Char) : Bool :=
  c = '/' || c = '\\'

/-- What ends an authority. -/
def isDelimiter (c : Char) : Bool :=
  isSlash c || c = '?' || c = '#'

/-- The end of a text, as it is read. -/
def cleanedEnd (text : List Char) : List Char :=
  (text.rdropWhile isBlank).filter (!isTabOrNewline ·)

/-- A text, as it is read. -/
def cleaned (text : List Char) : List Char :=
  cleanedEnd (text.dropWhile isBlank)

/-- What stands behind a scheme and its colon. -/
def behindScheme (scheme text : List Char) : Option (List Char) :=
  if (text.take (scheme.length + 1)).map Char.toLower = scheme ++ [':'] then
    some (text.drop (scheme.length + 1))
  else none

/-- The authority, in what stands behind the scheme. -/
def authority (text : List Char) : List Char :=
  (text.dropWhile isSlash).takeWhile (!isDelimiter ·)

/-- An authority without its user information. -/
def behindUser (authority : List Char) : List Char :=
  authority.rtakeWhile (· != '@')

/-- The host and what stands behind it, from within brackets or outside them. -/
def splitHost : Bool → List Char → List Char × List Char
  | _, [] => ([], [])
  | inside, c :: rest =>
      if c = ':' && !inside then ([], c :: rest)
      else
        let (host, port) := splitHost (if c = '[' then true else if c = ']' then false else inside)
          rest
        (c :: host, port)

/-- Nothing, or a colon and the digits of a port. -/
def isPort : List Char → Bool
  | [] => true
  | _ :: digits =>
      digits.all Char.isDigit &&
        digits.foldl (fun value c => 10 * value + (c.toNat - '0'.toNat)) 0 ≤ 65535

/-- The host that a host and port name. -/
def hostOf {β : Type u} (parseHost : List Char → Option β) (hostPort : List Char) : Option β :=
  if (splitHost false hostPort).1 = [] then none
  else if isPort (splitHost false hostPort).2 then parseHost (splitHost false hostPort).1
  else none

/-- The host that a URL of a scheme leads to. -/
def hostOfUrl {β : Type u} (parseHost : List Char → Option β) (scheme url : List Char) :
    Option β :=
  (behindScheme scheme (cleaned url)).bind fun rest =>
    hostOf parseHost (behindUser (authority rest))

/-! ## Reading -/

variable {text front tail : List Char}

/-- What does not end in a blank stays in front of what is cleaned. -/
theorem cleanedEnd_append {last : Char} (visible : isBlank last = false)
    (plain : ∀ c ∈ front ++ [last], isTabOrNewline c = false) :
    cleanedEnd (front ++ last :: tail) = front ++ last :: cleanedEnd tail := by
  have kept : (front ++ last :: tail).rdropWhile isBlank
      = front ++ last :: tail.rdropWhile isBlank := by
    induction tail using List.reverseRecOn with
    | nil => simp [List.rdropWhile_concat_neg, visible, List.rdropWhile_nil]
    | append_singleton tail c ih =>
        have grouped : front ++ last :: (tail ++ [c]) = (front ++ last :: tail) ++ [c] := by simp
        rw [grouped, List.rdropWhile_concat, List.rdropWhile_concat]
        split
        · exact ih
        · simp
  have all : (front ++ [last]).filter (!isTabOrNewline ·) = front ++ [last] := by
    rw [List.filter_eq_self]
    intro c mem
    simp [plain c mem]
  have grouped : ∀ rest, front ++ last :: rest = (front ++ [last]) ++ rest := by simp
  rw [cleanedEnd, kept, grouped, List.filter_append, all, List.append_assoc]
  rfl

/-- Without an at sign there is no user information. -/
theorem behindUser_of_notMem (free : '@' ∉ text) : behindUser text = text := by
  rw [behindUser, List.rtakeWhile_eq_self_iff]
  intro c mem
  simp only [bne_iff_ne, ne_eq]
  rintro rfl
  exact free mem

theorem behindUser_append (free : '@' ∉ tail) : behindUser (front ++ '@' :: tail) = tail := by
  induction tail using List.reverseRecOn with
  | nil => exact List.rtakeWhile_concat_neg _ _ _ (by simp)
  | append_singleton tail c ih =>
      rw [List.mem_append, not_or] at free
      have other : c ≠ '@' := by
        rintro rfl
        exact free.2 (List.mem_singleton_self _)
      have grouped : front ++ '@' :: (tail ++ [c]) = (front ++ '@' :: tail) ++ [c] := by simp
      rw [grouped, behindUser, List.rtakeWhile_concat_pos _ _ _ (by simpa using other)]
      exact congrArg (· ++ [c]) (ih free.1)

/-- An authority with an at sign has user information up to its last one. -/
theorem exists_user_of_mem (mem : '@' ∈ text) :
    ∃ user behind, text = user ++ '@' :: behind ∧ '@' ∉ behind := by
  induction text with
  | nil => cases mem
  | cons c text ih =>
      by_cases later : '@' ∈ text
      · rcases ih later with ⟨user, behind, rfl, free⟩
        exact ⟨c :: user, behind, rfl, free⟩
      · rcases List.mem_cons.mp mem with rfl | inside
        · exact ⟨[], text, rfl, later⟩
        · exact absurd inside later

/-- A host without brackets and colons ends where a port begins, or not at all. -/
theorem splitHost_append (plain : ∀ c ∈ front, c ≠ ':' ∧ c ≠ '[')
    (port : ∀ c, tail.head? = some c → c = ':') :
    splitHost false (front ++ tail) = (front, tail) := by
  induction front with
  | nil =>
      cases tail with
      | nil => rfl
      | cons c rest =>
          rw [port c rfl]
          rfl
  | cons c front ih =>
      have here := plain c List.mem_cons_self
      rw [List.cons_append, splitHost, if_neg (by simp [here.1]), if_neg here.2, ite_self,
        ih fun other mem => plain other (List.mem_cons_of_mem _ mem)]

/-- The text up to where a test first fails. -/
theorem takeWhile_eq_iff {test : Char → Bool} (meets : ∀ c ∈ front, test c = true) :
    text.takeWhile test = front ↔
      ∃ tail, text = front ++ tail ∧ ∀ c, tail.head? = some c → test c = false := by
  constructor
  · rintro rfl
    refine ⟨text.dropWhile test, List.takeWhile_append_dropWhile.symm, fun c first => ?_⟩
    have stops := List.head?_dropWhile_not test text
    rw [first] at stops
    simpa using stops
  · rintro ⟨tail, rfl, stops⟩
    rw [List.takeWhile_append_of_pos meets]
    cases tail with
    | nil => simp
    | cons c rest => simp [stops c rfl]

theorem headD_splitOn (separator : Char) (text : List Char) :
    (text.splitOn separator).headD [] = text.takeWhile (· != separator) := by
  induction text with
  | nil => rfl
  | cons c text ih =>
      rw [List.splitOn, List.splitOnP_cons_eq_if_modifyHead]
      by_cases same : c = separator
      · simp [same]
      · rw [if_neg (by simpa using same), List.takeWhile_cons_of_pos (by simpa using same), ← ih]
        rcases List.exists_cons_of_ne_nil (List.splitOn_ne_nil separator text) with
          ⟨head, rest, split⟩
        rw [List.splitOn] at split ⊢
        rw [split]
        rfl

end ClotoCore.Authority
