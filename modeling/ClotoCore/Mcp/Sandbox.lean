import ClotoCore.Mcp.FailClosed
import ClotoCore.Path.Lexical

/-!
# What overrides leave of the ceilings

The permissions decide only through the set they form, and a derived profile is
within what its level allows.  A standard server's limits are the operator's own,
and the sandbox directory is inside its base as far as the server id, read as a
path, stays where it starts.
-/

namespace ClotoCore.Mcp

open ClotoCore.Approval ClotoCore.Lexical

/-! ## Paths as texts -/

/-- A cleaned path, on Unix. -/
abbrev FilePath := Path (List Char)

/-- What one component of a path means. -/
def segmentOf (component : List Char) : Segment (List Char) :=
  if component = [] ∨ component = ['.'] then .here
  else if component = ['.', '.'] then .up
  else .name component

/-- The components of a text. -/
def segmentsOf (text : List Char) : List (Segment (List Char)) :=
  (text.splitOn '/').map segmentOf

/-- The path starts at the root. -/
def isAbsolute (text : String) : Bool :=
  "/".toList.isPrefixOf text.toList

/-- The path that a text names. -/
def pathOf (text : String) : FilePath :=
  (Path.start (isAbsolute text)).join (segmentsOf text.toList)

/-- One path is inside the directory that another names. -/
def Inside (base path : String) : Prop :=
  (pathOf base).Within (pathOf path)

instance (base path : String) : Decidable (Inside base path) :=
  inferInstanceAs (Decidable ((pathOf base).Within (pathOf path)))

/-- A path is relative and never climbs above where it starts. -/
def StaysBelow (relative : String) : Prop :=
  isAbsolute relative = false ∧ (pathOf relative).ups = 0

instance (relative : String) : Decidable (StaysBelow relative) :=
  inferInstanceAs (Decidable (_ ∧ _))

theorem segmentsOf_append (first second : List Char) :
    segmentsOf (first ++ '/' :: second) = segmentsOf first ++ segmentsOf second := by
  rw [segmentsOf, List.splitOn_append_cons_self, List.map_append]
  rfl

theorem segmentsOf_nil : segmentsOf [] = [.here] := by
  decide

theorem isAbsolute_append {base : String} (nonempty : base ≠ "") (more : String) :
    isAbsolute (base ++ more) = isAbsolute base := by
  rw [isAbsolute, isAbsolute, String.toList_append]
  cases chars : base.toList with
  | nil => exact absurd (String.toList_eq_nil_iff.mp chars) nonempty
  | cons first rest => simp [List.isPrefixOf]

/-- Joining a relative path follows its components from the base. -/
theorem pathOf_joinPath {relative : String} (floating : isAbsolute relative = false)
    (base : String) :
    pathOf (joinPath base relative) = (pathOf base).join (segmentsOf relative.toList) := by
  have notRooted : "/".toList.isPrefixOf relative.toList = false := floating
  rw [joinPath, if_neg (by rw [notRooted]; exact Bool.false_ne_true)]
  by_cases empty : base = ""
  · subst empty
    rw [if_pos (Or.inl rfl), String.empty_append, pathOf, floating]
    rfl
  · by_cases ended : base.toList.getLast? = some '/'
    · rw [if_pos (Or.inr ended)]
      rcases List.getLast?_eq_some_iff.mp ended with ⟨front, baseEq⟩
      calc
        pathOf (base ++ relative)
            = (Path.start (isAbsolute base)).join
                (segmentsOf front ++ segmentsOf relative.toList) := by
              rw [pathOf, isAbsolute_append empty, String.toList_append, baseEq,
                List.append_assoc, List.singleton_append, segmentsOf_append]
        _ = (pathOf base).join (segmentsOf relative.toList) := by
              rw [pathOf, baseEq, segmentsOf_append, segmentsOf_nil, Path.join_append,
                Path.join_append]
              rfl
    · rw [if_neg (by rintro (same | same); exacts [empty same, ended same])]
      have joined : (base ++ "/" ++ relative).toList = base.toList ++ '/' :: relative.toList := by
        simp [String.toList_append]
      rw [pathOf, joined, String.append_assoc, isAbsolute_append empty, segmentsOf_append,
        Path.join_append]
      rfl

/-- The sandbox of a server whose id stays where it starts is inside the base. -/
theorem inside_joinPath {relative : String} (stays : StaysBelow relative) (base : String) :
    Inside base (joinPath base relative) := by
  rcases stays with ⟨floating, grounded⟩
  rw [Inside, pathOf_joinPath floating]
  apply Path.within_join_of_ups_eq_zero
  rw [pathOf, floating] at grounded
  exact grounded

/-! ## The derivation -/

section Derivation

variable {level : TrustLevel} {permissions other : List String}
  {overrides : Option IsolationConfig} {serverId sandboxBase : String}

theorem networkCeiling_congr (same : ∀ permission, permission ∈ other ↔ permission ∈ permissions) :
    networkCeiling level other = networkCeiling level permissions := by
  simp only [networkCeiling, same]

/-- Only which permissions are approved decides, not their order or how often
one is. -/
theorem deriveIsolationProfile_congr
    (same : ∀ permission, permission ∈ other ↔ permission ∈ permissions) :
    deriveIsolationProfile level other overrides serverId sandboxBase =
      deriveIsolationProfile level permissions overrides serverId sandboxBase := by
  simp only [deriveIsolationProfile, applyPermissionUpgrades_defaults, networkCeiling_congr same]

theorem sandboxDir_of_deriveIsolationProfile {profile : IsolationProfile}
    (derived : deriveIsolationProfile level permissions overrides serverId sandboxBase
      = .ok profile) : profile.sandboxDir = joinPath sandboxBase serverId := by
  simp only [deriveIsolationProfile, bind_eq_ok_iff] at derived
  rcases derived with ⟨checked, -, filesystem, -, network, -, same⟩
  cases same
  rfl

end Derivation

/-! ## What the overrides leave -/

/-- The level whose defaults bound a limit that is overridden: those of a standard
server bound an experimental one too. -/
def boundingLevel : TrustLevel → TrustLevel
  | .core => .core
  | .standard | .experimental => .standard
  | .untrusted => .untrusted

/-- A profile is within the ceilings of its level, and its sandbox is in the base. -/
structure IsolationProfile.Tightened (profile : IsolationProfile) (level : TrustLevel)
    (permissions : List String) (sandboxBase : String) : Prop where
  filesystem : profile.filesystemScope.rank ≤ (filesystemCeiling level).rank
  network : profile.networkScope.rank ≤ (networkCeiling level permissions).rank
  memory : LimitWithin profile.memoryLimitMb (defaultsFor (boundingLevel level)).memoryLimitMb
  processes :
    LimitWithin profile.maxChildProcesses (defaultsFor (boundingLevel level)).maxChildProcesses
  sandbox : Inside sandboxBase profile.sandboxDir

/-- Overrides only tighten. -/
def OverridesOnlyTighten : Prop :=
  ∀ (level : TrustLevel) (permissions : List String) (overrides : Option IsolationConfig)
    (serverId sandboxBase : String),
    (∀ other, (∀ permission, permission ∈ other ↔ permission ∈ permissions) →
      deriveIsolationProfile level other overrides serverId sandboxBase =
        deriveIsolationProfile level permissions overrides serverId sandboxBase) ∧
    ∀ profile,
      deriveIsolationProfile level permissions overrides serverId sandboxBase = .ok profile →
        level ≠ .core → profile.Tightened level permissions sandboxBase

/-- An override of a standard server's limit stays within the default. -/
def StandardKept (level : TrustLevel) (limit : TrustLevel → Option Nat) (override : Option Nat) :
    Prop :=
  level = .standard → ∀ requested, override = some requested →
    LimitWithin (some requested) (limit .standard)

theorem limitWithin_refl (limit : Option Nat) : LimitWithin limit limit := by
  intro bound limitEq
  exact ⟨bound, limitEq, Nat.le_refl bound⟩

/-- An overridden limit is bounded by the defaults unless a standard server's
override goes beyond them. -/
theorem limitWithin_boundingLevel_iff {level : TrustLevel} (below : level ≠ .core)
    {limit : TrustLevel → Option Nat} {override : Option Nat}
    (ladder : LimitWithin (limit .experimental) (limit .standard))
    (raised : level = .experimental → ∀ requested, override = some requested →
      LimitWithin (some requested) (limit .standard))
    (kept : level = .untrusted → override = none) :
    LimitWithin (override <|> limit level) (limit (boundingLevel level)) ↔
      StandardKept level limit override := by
  cases level with
  | core => exact absurd rfl below
  | standard =>
      constructor
      · rintro within - requested rfl
        exact within
      · intro stays
        cases override with
        | none => exact limitWithin_refl _
        | some requested => exact stays rfl requested rfl
  | experimental =>
      apply iff_of_true
      · cases override with
        | none => exact ladder
        | some requested => exact raised rfl requested rfl
      · intro same
        contradiction
  | untrusted =>
      apply iff_of_true
      · rw [kept rfl]
        exact limitWithin_refl _
      · intro same
        contradiction

section Derivation

variable {level : TrustLevel} {permissions : List String} {overrides : Option IsolationConfig}
  {serverId sandboxBase : String} {profile : IsolationProfile}

/-- An experimental server's overrides of its limits are within the standard
defaults, and an untrusted server has none. -/
theorem limits_admitted
    (derived : deriveIsolationProfile level permissions overrides serverId sandboxBase
      = .ok profile) :
    (level = .experimental →
      (∀ requested, (overrides.getD .none).memoryLimitMb = some requested →
        LimitWithin (some requested) (defaultsFor .standard).memoryLimitMb) ∧
      ∀ requested, (overrides.getD .none).maxChildProcesses = some requested →
        LimitWithin (some requested) (defaultsFor .standard).maxChildProcesses) ∧
    (level = .untrusted → overrides.getD .none = .none) := by
  have admitted := deriveIsolationProfile_isOk_iff.mp ⟨profile, derived⟩
  constructor
  · rintro rfl
    rcases admitted with ⟨-, memory, processes⟩
    constructor
    · rintro requested given bound ⟨⟩
      exact ⟨requested, rfl, memory requested given⟩
    · rintro requested given bound ⟨⟩
      exact ⟨requested, rfl, processes requested given⟩
  · rintro rfl
    exact admitted

theorem memory_within_iff (below : level ≠ .core)
    (derived : deriveIsolationProfile level permissions overrides serverId sandboxBase
      = .ok profile) :
    LimitWithin profile.memoryLimitMb (defaultsFor (boundingLevel level)).memoryLimitMb ↔
      StandardKept level (fun tier => (defaultsFor tier).memoryLimitMb)
        (overrides.getD .none).memoryLimitMb := by
  rcases limits_admitted derived with ⟨raised, untouched⟩
  rw [(parts_of_deriveIsolationProfile derived).2.2.2.1]
  apply limitWithin_boundingLevel_iff below
  · rintro bound ⟨⟩
    exact ⟨256, rfl, by decide⟩
  · exact fun same => (raised same).1
  · intro same
    rw [untouched same]
    rfl

theorem processes_within_iff (below : level ≠ .core)
    (derived : deriveIsolationProfile level permissions overrides serverId sandboxBase
      = .ok profile) :
    LimitWithin profile.maxChildProcesses (defaultsFor (boundingLevel level)).maxChildProcesses ↔
      StandardKept level (fun tier => (defaultsFor tier).maxChildProcesses)
        (overrides.getD .none).maxChildProcesses := by
  rcases limits_admitted derived with ⟨raised, untouched⟩
  rw [(parts_of_deriveIsolationProfile derived).2.2.2.2]
  apply limitWithin_boundingLevel_iff below
  · rintro bound ⟨⟩
    exact ⟨2, rfl, by decide⟩
  · exact fun same => (raised same).2
  · intro same
    rw [untouched same]
    rfl

end Derivation

/-- The permissions count as a set.  Below core, the scopes of a derived profile
are within the ceilings of its level, its limits are within the defaults that
bound the level exactly where a standard server's overrides are, and its sandbox
is inside the base for every server id that stays where it starts. -/
theorem derivation_tightens (level : TrustLevel) (permissions : List String)
    (overrides : Option IsolationConfig) (serverId sandboxBase : String) :
    (∀ other, (∀ permission, permission ∈ other ↔ permission ∈ permissions) →
      deriveIsolationProfile level other overrides serverId sandboxBase =
        deriveIsolationProfile level permissions overrides serverId sandboxBase) ∧
    ∀ profile,
      deriveIsolationProfile level permissions overrides serverId sandboxBase = .ok profile →
        level ≠ .core →
          profile.filesystemScope.rank ≤ (filesystemCeiling level).rank ∧
          profile.networkScope.rank ≤ (networkCeiling level permissions).rank ∧
          (LimitWithin profile.memoryLimitMb (defaultsFor (boundingLevel level)).memoryLimitMb ↔
            StandardKept level (fun tier => (defaultsFor tier).memoryLimitMb)
              (overrides.getD .none).memoryLimitMb) ∧
          (LimitWithin profile.maxChildProcesses
              (defaultsFor (boundingLevel level)).maxChildProcesses ↔
            StandardKept level (fun tier => (defaultsFor tier).maxChildProcesses)
              (overrides.getD .none).maxChildProcesses) ∧
          (StaysBelow serverId → Inside sandboxBase profile.sandboxDir) := by
  constructor
  · intro other same
    exact deriveIsolationProfile_congr same
  · intro profile derived below
    have within := within_of_deriveIsolationProfile derived
    have levelEq := trustLevel_of_deriveIsolationProfile derived
    refine ⟨?_, ?_, memory_within_iff below derived, processes_within_iff below derived, ?_⟩
    · rw [← levelEq]
      exact within.filesystem
    · rw [← levelEq]
      exact within.network
    · intro stays
      rw [sandboxDir_of_deriveIsolationProfile derived]
      exact inside_joinPath stays sandboxBase

/-- An experimental server whose operator gives it more memory and processes than its
default, within the bounds. -/
def modest : IsolationConfig :=
  { IsolationConfig.none with
    memoryLimitMb := some 384
    maxChildProcesses := some 4 }

theorem derivation_tightens_reader :
    ∃ profile,
      deriveIsolationProfile .experimental ["network.outbound"] (some modest) "reader" "/data" =
        .ok profile ∧
      profile.filesystemScope.rank ≤ (filesystemCeiling .experimental).rank ∧
      LimitWithin profile.memoryLimitMb (some 512) ∧
      LimitWithin profile.maxChildProcesses (some 5) ∧
      Inside "/data" profile.sandboxDir := by
  have parts := (derivation_tightens .experimental ["network.outbound"] (some modest) "reader"
    "/data").2 _ rfl (by decide)
  refine ⟨_, rfl, parts.1, parts.2.2.1.mpr ?_, parts.2.2.2.1.mpr ?_, parts.2.2.2.2 (by decide)⟩
  · intro same
    contradiction
  · intro same
    contradiction

/-- A standard server whose operator gives it more memory than the default. -/
def roomy : IsolationConfig :=
  { IsolationConfig.none with memoryLimitMb := some 4096 }

/-- No override of a standard server's limits is checked. -/
theorem not_overridesOnlyTighten : ¬OverridesOnlyTighten := by
  intro tighten
  have tightened := (tighten .standard [] (some roomy) "reader" "/data").2 _ rfl (by decide)
  rcases tightened.memory 512 rfl with ⟨actual, actualEq, bounded⟩
  cases actualEq
  revert bounded
  decide

end ClotoCore.Mcp
