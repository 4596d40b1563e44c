import ClotoCore.Encoding.Digest
import ClotoCore.Encoding.Lines
import Mathlib.Data.List.Dedup
import Mathlib.Data.List.Sort
import Mathlib.Data.List.TakeWhile

/-!
# Writes that a panel declares

A connector's panel lists the routes through which it changes kernel state, each as
a method, a space and a path.  An entry that is accepted is one exact route, and
none under the prefixes that no panel may write to.  The operator consents to a
digest of the list.
-/

namespace ClotoCore.Panels

open ClotoCore.Encoding

/-- `WRITE_METHODS` -/
def writeMethods : List String := ["POST", "PATCH"]

/-- `DENIED_WRITE_PREFIXES` -/
def deniedWritePrefixes : List String := ["/api/modules", "/api/hub-access"]

/-- `is_denied` -/
def isDenied (path : String) : Bool :=
  deniedWritePrefixes.any fun denied =>
    path.toList == denied.toList || (denied.toList ++ ['/']).isPrefixOf path.toList

/-- `split_once` -/
def splitOnce (separator : Char) (text : String) : Option (String × String) :=
  if separator ∈ text.toList then
    some (String.ofList (text.toList.takeWhile (· != separator)),
      String.ofList (text.toList.dropWhile (· != separator)).tail)
  else none

/-- The segments of a path. -/
def segments (path : String) : List (List Char) :=
  path.toList.splitOn '/'

/-- The characters that are part of no exact path. -/
def patternChars : List Char := ['*', '?', '#', ' ', '\\', '%']

/-- `parse_write` -/
def parseWrite (entry : String) : Except String (String × String) :=
  match splitOnce ' ' entry with
  | none => .error "is not written as \"<METHOD> <path>\""
  | some (method, path) =>
      if method ∉ writeMethods then .error "uses a method other than POST or PATCH"
      else if "/api/".toList.isPrefixOf path.toList = false then .error "is not an /api/ path"
      else if isDenied path then .error "targets a route no panel may write to"
      else if path.toList.any fun c => patternChars.contains c then
        .error "is not one exact path"
      else if (segments path).tail.any fun segment =>
          segment == [] || segment == ['.'] || segment == ['.', '.'] then
        .error "is not one exact path"
      else .ok (method, path)

/-- `validate_writes`.  The argument `quote` is the debug form of a text. -/
def validateWrites (quote : String → String) : List String → Except String Unit
  | [] => .ok ()
  | entry :: writes =>
      match parseWrite entry with
      | .error why => .error s!"{quote entry}: {why}"
      | .ok _ => validateWrites quote writes

/-- `writes_digest` -/
def writesDigest (sha256 : Digest) (writes : List String) : String :=
  let entries := (writes.mergeSort fun first second => decide (first ≤ second)).dedup
  hexEncode (sha256 (utf8 ("\n".intercalate entries)))

/-! ## What an accepted entry is -/

variable {entry method path : String}

theorem eq_of_splitOnce {separator : Char}
    (split : splitOnce separator entry = some (method, path)) :
    entry.toList = method.toList ++ separator :: path.toList ∧ separator ∉ method.toList := by
  unfold splitOnce at split
  split at split
  · next there =>
    simp only [Option.some.injEq, Prod.mk.injEq] at split
    rcases split with ⟨rfl, rfl⟩
    rw [String.toList_ofList, String.toList_ofList]
    constructor
    · have parts := List.takeWhile_append_dropWhile (p := (· != separator)) (l := entry.toList)
      cases rest : entry.toList.dropWhile (· != separator) with
      | nil =>
          rw [List.dropWhile_eq_nil_iff] at rest
          have other := rest separator there
          simp at other
      | cons head tail =>
          have notDropped := List.head_dropWhile_not (· != separator) (l := entry.toList)
            (by simp [rest])
          simp only [rest, List.head_cons, bne_eq_false_iff_eq] at notDropped
          rw [rest, notDropped] at parts
          rw [List.tail_cons]
          exact parts.symm
    · intro mem
      have kept := List.mem_takeWhile_imp mem
      simp at kept
  · cases split

/-- What `parse_write` accepts. -/
structure Accepted (entry method path : String) : Prop where
  written : entry.toList = method.toList ++ ' ' :: path.toList
  isMethod : method ∈ writeMethods
  underApi : "/api/".toList <+: path.toList
  notDenied : isDenied path = false
  exactChars : ∀ c ∈ path.toList, c ∉ patternChars
  exactSegments : ∀ segment ∈ (segments path).tail, segment ≠ [] ∧ segment ≠ ['.'] ∧
    segment ≠ ['.', '.']

theorem accepted_of_parseWrite (parsed : parseWrite entry = .ok (method, path)) :
    Accepted entry method path := by
  unfold parseWrite at parsed
  split at parsed
  · cases parsed
  · next methodText pathText split =>
    split_ifs at parsed with noMethod noApi denied chars segs
    cases parsed
    constructor
    · exact (eq_of_splitOnce split).1
    · exact noMethod
    · rw [Bool.not_eq_false] at noApi
      exact List.isPrefixOf_iff_prefix.mp noApi
    · simpa using denied
    · simpa using chars
    · simpa [and_assoc] using segs

theorem parseWrite_of_validateWrites {quote : String → String} {writes : List String}
    (valid : validateWrites quote writes = .ok ()) (mem : entry ∈ writes) :
    ∃ method path, parseWrite entry = .ok (method, path) := by
  induction writes with
  | nil => cases mem
  | cons first writes ih =>
      rw [validateWrites] at valid
      split at valid
      · cases valid
      · next parts parsed =>
        rcases List.mem_cons.mp mem with rfl | later
        · exact ⟨parts.1, parts.2, parsed⟩
        · exact ih valid later

theorem Accepted.space_notMem (accepted : Accepted entry method path) :
    ' ' ∉ method.toList ∧ ' ' ∉ path.toList := by
  constructor
  · have plain : ∀ method ∈ writeMethods, ' ' ∉ method.toList := by decide
    exact plain method accepted.isMethod
  · intro mem
    exact accepted.exactChars ' ' mem (by decide)

/-- An accepted entry names one method and one path. -/
theorem Accepted.eq_of_written (accepted : Accepted entry method path)
    {otherMethod otherPath : String}
    (written : entry = otherMethod ++ " " ++ otherPath) :
    otherMethod = method ∧ otherPath = path := by
  have texts : method.toList ++ ' ' :: path.toList =
      otherMethod.toList ++ ' ' :: otherPath.toList := by
    rw [← accepted.written, written]
    simp
  have methodFree : ' ' ∉ otherMethod.toList := by
    have spaces := congrArg (List.count ' ') texts
    simp only [List.count_append, List.count_cons_self,
      List.count_eq_zero.mpr accepted.space_notMem.1,
      List.count_eq_zero.mpr accepted.space_notMem.2] at spaces
    apply List.count_eq_zero.mp
    omega
  rcases append_cons_inj_of_notMem accepted.space_notMem.1 methodFree texts with ⟨methods, paths⟩
  exact ⟨String.toList_inj.mp methods.symm, String.toList_inj.mp paths.symm⟩

/-! ## Where a declared path leads -/

/-- A segment of a route that stands for any text. -/
def isPlaceholder (segment : List Char) : Bool :=
  segment.head? == some '{'

/-- The last segment of a route that stands for all that is left of a path. -/
def isCatchAll (segment : List Char) : Bool :=
  ['{', '*'].isPrefixOf segment

/-- The segments of a path are those of a route. -/
def segmentsMatch : List (List Char) → List (List Char) → Bool
  | [], [] => true
  | route :: routes, segment :: segments =>
      if isCatchAll route then routes.isEmpty && ((segment :: segments) != [[]])
      else if isPlaceholder route then !segment.isEmpty && segmentsMatch routes segments
      else route == segment && segmentsMatch routes segments
  | _, _ => false

/-- What the relay uses of the crates `http` and `axum`. -/
structure Web where
  /-- The path of a URI. -/
  uriPath : String → Option String
  /-- The route, as it is registered, that answers a method and a path. -/
  reached : String → String → Option String
  /-- A URI that is a path, without query and fragment, has that path. -/
  uriPath_eq : ∀ uri path, uri.toList.head? = some '/' → '?' ∉ uri.toList → '#' ∉ uri.toList →
    uriPath uri = some path → path = uri
  /-- A route is reached by the paths that match it. -/
  reached_matches : ∀ method path route, reached method path = some route →
    segmentsMatch (segments route) (segments path) = true

/-- A path that matches a route has the texts that the route begins with. -/
theorem isPrefix_of_segmentsMatch {texts routes segments : List (List Char)}
    (literal : ∀ text ∈ texts, isPlaceholder text = false ∧ isCatchAll text = false)
    (front : texts <+: routes) (matched : segmentsMatch routes segments = true) :
    texts <+: segments := by
  induction texts generalizing routes segments with
  | nil => exact List.nil_prefix
  | cons text texts ih =>
      rcases front with ⟨rest, rfl⟩
      cases segments with
      | nil => simp [segmentsMatch] at matched
      | cons segment segments =>
          rcases literal text List.mem_cons_self with ⟨noPlaceholder, noCatchAll⟩
          simp only [List.cons_append, segmentsMatch, noCatchAll, noPlaceholder, Bool.false_eq_true,
            if_false, Bool.and_eq_true, beq_iff_eq] at matched
          rw [matched.1, List.cons_prefix_cons]
          have later : ∀ text ∈ texts, isPlaceholder text = false ∧ isCatchAll text = false :=
            fun text mem => literal text (List.mem_cons_of_mem _ mem)
          exact ⟨rfl, ih later (List.prefix_append texts rest) matched.2⟩

/-- A path is denied if it begins with the segments of a denied prefix. -/
theorem isDenied_iff :
    isDenied path = true ↔ ∃ denied ∈ deniedWritePrefixes, segments denied <+: segments path := by
  simp only [isDenied, List.any_eq_true, Bool.or_eq_true, beq_iff_eq, List.isPrefixOf_iff_prefix,
    segments, splitOn_isPrefix_iff]

/-- What matches a denied route is a denied path. -/
theorem isDenied_of_segmentsMatch {route : String} (denied : isDenied route = true)
    (matched : segmentsMatch (segments route) (segments path) = true) : isDenied path = true := by
  rcases isDenied_iff.mp denied with ⟨text, mem, front⟩
  have literal : ∀ text ∈ deniedWritePrefixes, ∀ segment ∈ segments text,
      isPlaceholder segment = false ∧ isCatchAll segment = false := by
    decide +kernel
  exact isDenied_iff.mpr ⟨text, mem, isPrefix_of_segmentsMatch (literal text mem) front matched⟩

/-- An accepted path reaches no denied route. -/
theorem Accepted.reaches_allowed (accepted : Accepted entry method path) {web : Web}
    {uri route otherMethod : String} (parsed : web.uriPath path = some uri)
    (reached : web.reached otherMethod uri = some route) : isDenied route = false := by
  have exact : ∀ c ∈ patternChars, c ∉ path.toList := by
    intro c pattern mem
    exact accepted.exactChars c mem pattern
  have rooted : path.toList.head? = some '/' := by
    rcases accepted.underApi with ⟨rest, text⟩
    rw [← text]
    rfl
  have same : uri = path :=
    web.uriPath_eq path uri rooted (exact '?' (by decide)) (exact '#' (by decide)) parsed
  subst same
  cases denied : isDenied route with
  | false => rfl
  | true =>
      have pathDenied := isDenied_of_segmentsMatch denied (web.reached_matches _ _ _ reached)
      rw [accepted.notDenied] at pathDenied
      cases pathDenied

/-! ## Consent to a list -/

theorem Accepted.worded (accepted : Accepted entry method path) :
    Worded ' ' '\n' entry.toList := by
  constructor
  refine ⟨method.toList, path.toList, accepted.written, accepted.space_notMem.1, ?_,
    accepted.space_notMem.2⟩
  have plain : ∀ method ∈ writeMethods, '\n' ∉ method.toList := by decide
  exact plain method accepted.isMethod

/-- Two accepted lists have one digest only if the same entries are in them. -/
theorem mem_iff_of_writesDigest_eq {sha256 : Digest} (injective : Function.Injective sha256)
    {quote : String → String} {first second : List String}
    (firstValid : validateWrites quote first = .ok ())
    (secondValid : validateWrites quote second = .ok ())
    (equal : writesDigest sha256 first = writesDigest sha256 second) :
    entry ∈ first ↔ entry ∈ second := by
  have worded : ∀ {writes : List String}, validateWrites quote writes = .ok () →
      ∀ line ∈ ((writes.mergeSort fun first second => decide (first ≤ second)).dedup).map
        String.toList, Worded ' ' '\n' line := by
    intro writes valid line mem
    rcases List.mem_map.mp mem with ⟨entry, entryMem, rfl⟩
    rw [List.mem_dedup, List.mem_mergeSort] at entryMem
    rcases parseWrite_of_validateWrites valid entryMem with ⟨method, path, parsed⟩
    exact (accepted_of_parseWrite parsed).worded
  have joined := congrArg String.toList (utf8_injective (injective (hexEncode_injective equal)))
  rw [String.toList_intercalate, String.toList_intercalate] at joined
  have lines := intercalate_inj_of_worded (by decide) (worded firstValid)
    (worded secondValid) joined
  have same := List.map_injective_iff.mpr (fun _ _ => String.toList_inj.mp) lines
  have mem := congrArg (entry ∈ ·) same
  simpa using mem

end ClotoCore.Panels
