import ClotoCore.Agents.Manager
import ClotoCore.Transition.Run
import Mathlib.Logic.Function.Basic

/-!
# Managed metadata

Four keys of the metadata of an agent are set and removed by operations of their own, and
three are added when it is read.  An update puts the four back where the row has them and
takes everything else from the map it is given.  So a map that has one of the four where
the row has none brings it in, and one that has one of the three makes it stay.
-/

namespace ClotoCore.Agents

open ClotoCore.Lookup ClotoCore.Transition

/-! ## What belongs to the operations -/

/-- A key that the operations on avatars and models set and remove. -/
inductive Managed where
  | avatarPath
  | avatarDescription
  | avatarUpdatedAt
  | vrmPath
  deriving DecidableEq

/-- The key of a managed entry. -/
def Managed.key : Managed → String
  | .avatarPath => "avatar_path"
  | .avatarDescription => "avatar_description"
  | .avatarUpdatedAt => "avatar_updated_at"
  | .vrmPath => "vrm_path"

/-- A key that is added when the metadata is read. -/
inductive Flag where
  | hasPowerPassword
  | hasAvatar
  | hasVrm
  deriving DecidableEq

/-- The key of a flag. -/
def Flag.key : Flag → String
  | .hasPowerPassword => "has_power_password"
  | .hasAvatar => "has_avatar"
  | .hasVrm => "has_vrm"

/-- The picture of an agent. -/
structure Avatar where
  path : String
  description : String
  updatedAt : String

/-- What the operations on an agent have said last. -/
structure Intended where
  given : Metadata
  guarded : Bool
  avatar : Option Avatar
  vrm : Option String
  uploads : List String

namespace Intended

/-- Nothing has been said. -/
def none : Intended where
  given := Keyed.empty Prod.fst
  guarded := false
  avatar := .none
  vrm := .none
  uploads := []

/-- The text that an entry is to have. -/
def entry (intended : Intended) : Managed → Option String
  | .avatarPath => intended.avatar.map Avatar.path
  | .avatarDescription => intended.avatar.map Avatar.description
  | .avatarUpdatedAt => intended.avatar.map Avatar.updatedAt
  | .vrmPath => intended.vrm

/-- Whether a flag is to be set. -/
def isSet (intended : Intended) : Flag → Bool
  | .hasPowerPassword => intended.guarded
  | .hasAvatar => intended.avatar.isSome
  | .hasVrm => intended.vrm.isSome

end Intended

/-! ## Operations -/

/-- The calls of the manager that write to a row. -/
inductive Operation where
  | createAgentWithId (new : NewAgent)
  | updateAgentConfig (agentId : String) (name description defaultEngineId : Option String)
      (metadata : Option Metadata)
  | setAvatar (agentId avatarPath : String) (avatarDescription : Option String) (now : Int)
  | clearAvatar (agentId : String)
  | setVrm (agentId vrmPath : String)
  | clearVrm (agentId : String)
  | setPassword (agentId : String) (password hashed : Option String)

/-- An operation on the table, with the id it is about. -/
def AgentTable.operate (toLowercase : String → String) (agents : AgentTable) :
    Operation → Except AgentError (String × AgentTable)
  | .createAgentWithId new => do
      let (row, agents) ← agents.createAgentWithId toLowercase new
      return (row.id, agents)
  | .updateAgentConfig agentId name description defaultEngineId metadata => do
      let agents ← agents.updateAgentConfig agentId name description defaultEngineId metadata
      return (agentId, agents)
  | .setAvatar agentId avatarPath avatarDescription now =>
      return (agentId, agents.update agentId (·.setAvatar avatarPath avatarDescription now))
  | .clearAvatar agentId => return (agentId, agents.update agentId (·.clearAvatar))
  | .setVrm agentId vrmPath => return (agentId, agents.update agentId (·.setVrm vrmPath))
  | .clearVrm agentId => return (agentId, agents.update agentId (·.clearVrm))
  | .setPassword agentId password hashed => do
      let agents ← agents.setPassword agentId password hashed
      return (agentId, agents)

/-- What an operation says that succeeds.  An upload has written the file whose path is
set. -/
def Intended.after (intended : Intended) : Operation → Intended
  | .createAgentWithId new => { Intended.none with given := new.metadata, guarded := new.guarded }
  | .updateAgentConfig _ _ _ _ metadata => { intended with given := metadata.getD intended.given }
  | .setAvatar _ avatarPath avatarDescription now =>
      { intended with
        avatar := some ⟨avatarPath, avatarDescription.getD "", toString now⟩
        uploads := intended.uploads ++ [avatarPath] }
  | .clearAvatar _ => { intended with avatar := .none }
  | .setVrm _ vrmPath =>
      { intended with vrm := some vrmPath, uploads := intended.uploads ++ [vrmPath] }
  | .clearVrm _ => { intended with vrm := .none }
  | .setPassword _ password _ => { intended with guarded := password.isSome }

/-- The rows, and what the operations on each agent have said, which no operation reads. -/
structure State where
  agents : AgentTable
  intended : String → Intended

/-- No agents. -/
def State.init : State where
  agents := Keyed.empty AgentRow.id
  intended := fun _ => Intended.none

/-- The state behind a call, and what the callers then want of the row. -/
def State.operate (toLowercase : String → String) (state : State) (operation : Operation) :
    State :=
  match state.agents.operate toLowercase operation with
  | .ok (agentId, agents) =>
      { agents
        intended := Function.update state.intended agentId
          ((state.intended agentId).after operation) }
  | .error _ => state

/-- The step relation of the manager. -/
def step (toLowercase : String → String) : Action State Operation :=
  fun state operation => some (state.operate toLowercase operation)

/-! ## Ownership -/

namespace AgentRow

/-- The files that are served for an agent, and that are removed with it. -/
def files (row : AgentRow) : List String :=
  (row.metadata.jsonExtract "avatar_path").toList ++ (row.metadata.jsonExtract "vrm_path").toList

/-- Whether a password, an avatar or a model is stored. -/
def isSet (row : AgentRow) : Flag → Bool
  | .hasPowerPassword => row.powerPasswordHash.isSome
  | .hasAvatar => (row.metadata.jsonExtract "avatar_path").isSome
  | .hasVrm => (row.metadata.jsonExtract "vrm_path").isSome

end AgentRow

/-- The managed keys have what was set last, the others what was given last; what is set is
reported to be set, and the files are of uploads. -/
structure Owned (row : AgentRow) (intended : Intended) : Prop where
  managed : ∀ field : Managed, row.metadata.value field.key = intended.entry field
  guarded : row.powerPasswordHash.isSome = intended.guarded
  others : ∀ key, (∀ field : Managed, key ≠ field.key) →
    row.metadata.value key = intended.given.value key ∨
      key = Flag.hasAvatar.key ∧ row.metadata.value key = none
  reported : ∀ flag : Flag,
    row.reported.value flag.key = some "true" ↔ intended.isSet flag = true
  uploaded : ∀ path ∈ row.files, path ∈ intended.uploads

/-- Every row holds what was last asked for. -/
def AllOwned (state : State) : Prop :=
  ∀ row ∈ state.agents.items, Owned row (state.intended row.id)

/-- A map has a managed key only if the row has it, and says of something that it is set only if
it is. -/
structure Respects (given : Metadata) (row : AgentRow) : Prop where
  managed : ∀ field : Managed, row.metadata.value field.key = none →
    given.value field.key = none
  flags : ∀ flag : Flag, given.value flag.key = some "true" → row.isSet flag = true

/-- The row with nothing in its metadata. -/
def AgentRow.bare (row : AgentRow) : AgentRow :=
  { row with metadata := Keyed.empty Prod.fst }

/-- What keeps the keys with their operations: a map that an agent is created with, or that
an update is given, respects the row; and a model or a password is not removed while the
metadata itself says that it is set. -/
def Kept (toLowercase : String → String) (agents : AgentTable) : Operation → Prop
  | .createAgentWithId new =>
      ∀ row, new.row toLowercase = .ok row → agents.get row.id = none →
        Respects new.metadata row.bare
  | .updateAgentConfig agentId _ _ _ metadata =>
      ∀ row ∈ agents.get agentId, ∀ given ∈ metadata, Respects given row
  | .clearVrm agentId =>
      ∀ row ∈ agents.get agentId, row.metadata.value Flag.hasVrm.key ≠ some "true"
  | .setPassword agentId none _ =>
      ∀ row ∈ agents.get agentId, row.metadata.value Flag.hasPowerPassword.key ≠ some "true"
  | _ => True

/-! ## One key at a time -/

namespace Metadata

variable {old given metadata : Metadata} {key other text : String}

@[simp]
theorem value_jsonSet :
    (metadata.jsonSet key text).value other =
      if key = other then some text else metadata.value other :=
  Dictionary.value_insert

@[simp]
theorem jsonExtract_eq : metadata.jsonExtract key = metadata.value key :=
  rfl

theorem value_jsonRemove {keys : List String} :
    (metadata.jsonRemove keys).value other =
      if other ∈ keys then none else metadata.value other := by
  induction keys generalizing metadata with
  | nil => simp [jsonRemove]
  | cons key keys ih =>
      change (jsonRemove (metadata.remove key) keys).value other = _
      rw [ih, Dictionary.value_remove]
      by_cases same : key = other
      · simp [same]
      · simp [same, Ne.symm same]

theorem value_insertFlag {flag : String} {present : Bool} :
    (metadata.insertFlag flag present).value other =
      if flag = other then if present then some "true" else metadata.value other
      else metadata.value other := by
  cases present <;> simp [insertFlag]

theorem value_preserve :
    (old.preserve key given).value other =
      if key = other then (old.value key).or (given.value other) else given.value other := by
  unfold preserve
  cases stored : old.jsonExtract key with
  | none =>
      rw [jsonExtract_eq] at stored
      simp [stored]
  | some text =>
      rw [jsonExtract_eq] at stored
      simp [stored]

/-- A managed key is taken from the row, where the row has it. -/
theorem value_replaceBy (field : Managed) :
    (old.replaceBy given).value field.key =
      (old.value field.key).or (given.value field.key) := by
  cases field <;> simp [replaceBy, value_preserve, Managed.key]

/-- The other keys are taken from the map. -/
theorem value_replaceBy_of_ne (foreign : ∀ field : Managed, key ≠ field.key) :
    (old.replaceBy given).value key = given.value key := by
  have path : "avatar_path" ≠ key := (foreign .avatarPath).symm
  have description : "avatar_description" ≠ key := (foreign .avatarDescription).symm
  have updatedAt : "avatar_updated_at" ≠ key := (foreign .avatarUpdatedAt).symm
  have vrm : "vrm_path" ≠ key := (foreign .vrmPath).symm
  simp [replaceBy, value_preserve, path, description, updatedAt, vrm]

end Metadata

theorem Flag.key_ne_managed (flag : Flag) (field : Managed) : flag.key ≠ field.key := by
  cases flag <;> cases field <;> decide

/-- What is set is added to what the metadata itself says. -/
theorem AgentRow.value_reported (row : AgentRow) (flag : Flag) :
    row.reported.value flag.key =
      if row.isSet flag then some "true" else row.metadata.value flag.key := by
  cases flag <;>
    simp only [reported, Flag.key, Metadata.value_insertFlag, Metadata.jsonExtract_eq] <;> rfl

/-! ## What is stored, and what is said of it -/

variable {row : AgentRow} {intended : Intended}

/-- `Owned` without what is reported. -/
structure Placed (row : AgentRow) (intended : Intended) : Prop where
  managed : ∀ field : Managed, row.metadata.value field.key = intended.entry field
  guarded : row.powerPasswordHash.isSome = intended.guarded
  others : ∀ key, (∀ field : Managed, key ≠ field.key) →
    row.metadata.value key = intended.given.value key ∨
      key = Flag.hasAvatar.key ∧ row.metadata.value key = none
  uploaded : ∀ path ∈ row.files, path ∈ intended.uploads

/-- The metadata itself says of nothing that it is set which is not. -/
def Honest (row : AgentRow) : Prop :=
  ∀ flag : Flag, row.metadata.value flag.key = some "true" → row.isSet flag = true

theorem Placed.isSet_eq (placed : Placed row intended) (flag : Flag) :
    row.isSet flag = intended.isSet flag := by
  cases flag with
  | hasPowerPassword => exact placed.guarded
  | hasAvatar =>
      have path : row.metadata.value "avatar_path" = intended.avatar.map Avatar.path :=
        placed.managed .avatarPath
      simp [AgentRow.isSet, Intended.isSet, path]
  | hasVrm =>
      have path : row.metadata.value "vrm_path" = intended.vrm := placed.managed .vrmPath
      simp [AgentRow.isSet, Intended.isSet, path]

theorem owned_iff : Owned row intended ↔ Placed row intended ∧ Honest row := by
  have exact (placed : Placed row intended) :
      (∀ flag : Flag, row.reported.value flag.key = some "true" ↔ intended.isSet flag = true) ↔
        Honest row := by
    apply forall_congr'
    intro flag
    rw [AgentRow.value_reported, ← placed.isSet_eq flag]
    cases row.isSet flag <;> simp
  constructor
  · intro owned
    have placed : Placed row intended :=
      ⟨owned.managed, owned.guarded, owned.others, owned.uploaded⟩
    exact ⟨placed, (exact placed).mp owned.reported⟩
  · rintro ⟨placed, honest⟩
    exact ⟨placed.managed, placed.guarded, placed.others, (exact placed).mpr honest,
      placed.uploaded⟩

/-- The files are those that were set last. -/
theorem mem_files_iff
    (managed : ∀ field : Managed, row.metadata.value field.key = intended.entry field)
    {path : String} :
    path ∈ row.files ↔
      intended.avatar.map Avatar.path = some path ∨ intended.vrm = some path := by
  have avatar : row.metadata.value "avatar_path" = intended.avatar.map Avatar.path :=
    managed .avatarPath
  have vrm : row.metadata.value "vrm_path" = intended.vrm := managed .vrmPath
  simp [AgentRow.files, avatar, vrm]

namespace Placed

/-- An operation on managed keys: it leaves the other keys as they are, apart from the flag
of the avatar, and brings in no file that was not uploaded. -/
theorem of_managed (placed : Placed row intended) {next : AgentRow} {said : Intended}
    (managed : ∀ field : Managed, next.metadata.value field.key = said.entry field)
    (guarded : next.powerPasswordHash.isSome = said.guarded) (given : said.given = intended.given)
    (others : ∀ key, (∀ field : Managed, key ≠ field.key) →
      next.metadata.value key = row.metadata.value key ∨
        key = Flag.hasAvatar.key ∧ next.metadata.value key = none)
    (uploaded : ∀ path, said.avatar.map Avatar.path = some path ∨ said.vrm = some path →
      path ∈ said.uploads) : Placed next said := by
  refine ⟨managed, guarded, ?_, ?_⟩
  · intro key foreign
    rw [given]
    rcases others key foreign with kept | removed
    · rw [kept]
      exact placed.others key foreign
    · exact .inr removed
  · intro path mem
    exact uploaded path ((mem_files_iff managed).mp mem)

theorem uploaded_iff (placed : Placed row intended) {path : String}
    (set : intended.avatar.map Avatar.path = some path ∨ intended.vrm = some path) :
    path ∈ intended.uploads :=
  placed.uploaded path ((mem_files_iff placed.managed).mpr set)

theorem setAvatar (placed : Placed row intended) (agentId path : String)
    (description : Option String) (now : Int) :
    Placed (row.setAvatar path description now)
      (intended.after (.setAvatar agentId path description now)) := by
  refine placed.of_managed ?_ placed.guarded rfl ?_ ?_
  · intro field
    have vrm := placed.managed .vrmPath
    cases field <;>
      simp_all [AgentRow.setAvatar, Managed.key, Intended.after, Intended.entry]
  · intro key foreign
    have first : "avatar_path" ≠ key := (foreign .avatarPath).symm
    have second : "avatar_description" ≠ key := (foreign .avatarDescription).symm
    have third : "avatar_updated_at" ≠ key := (foreign .avatarUpdatedAt).symm
    simp [AgentRow.setAvatar, first, second, third]
  · rintro file (set | set)
    · cases set
      exact List.mem_append_right _ List.mem_cons_self
    · exact List.mem_append_left _ (placed.uploaded_iff (.inr set))

theorem clearAvatar (placed : Placed row intended) (agentId : String) :
    Placed row.clearAvatar (intended.after (.clearAvatar agentId)) := by
  refine placed.of_managed ?_ placed.guarded rfl ?_ ?_
  · intro field
    have vrm := placed.managed .vrmPath
    cases field <;>
      simp_all [AgentRow.clearAvatar, Metadata.value_jsonRemove, Managed.key, Intended.after,
        Intended.entry]
  · intro key foreign
    rw [AgentRow.clearAvatar, Metadata.value_jsonRemove]
    by_cases removed :
        key ∈ ["avatar_path", "avatar_description", "has_avatar", "avatar_updated_at"]
    · rw [if_pos removed]
      have flag : key = "has_avatar" := by
        have first : key ≠ "avatar_path" := foreign .avatarPath
        have second : key ≠ "avatar_description" := foreign .avatarDescription
        have third : key ≠ "avatar_updated_at" := foreign .avatarUpdatedAt
        simpa [first, second, third] using removed
      exact .inr ⟨flag, rfl⟩
    · exact .inl (if_neg removed)
  · rintro file (set | set)
    · cases set
    · exact placed.uploaded_iff (.inr set)

theorem setVrm (placed : Placed row intended) (agentId path : String) :
    Placed (row.setVrm path) (intended.after (.setVrm agentId path)) := by
  refine placed.of_managed ?_ placed.guarded rfl ?_ ?_
  · intro field
    have avatar := placed.managed .avatarPath
    have description := placed.managed .avatarDescription
    have updatedAt := placed.managed .avatarUpdatedAt
    cases field <;> simp_all [AgentRow.setVrm, Managed.key, Intended.after, Intended.entry]
  · intro key foreign
    have vrm : "vrm_path" ≠ key := (foreign .vrmPath).symm
    simp [AgentRow.setVrm, vrm]
  · rintro file (set | set)
    · exact List.mem_append_left _ (placed.uploaded_iff (.inl set))
    · cases set
      exact List.mem_append_right _ List.mem_cons_self

theorem clearVrm (placed : Placed row intended) (agentId : String) :
    Placed row.clearVrm (intended.after (.clearVrm agentId)) := by
  refine placed.of_managed ?_ placed.guarded rfl ?_ ?_
  · intro field
    have avatar := placed.managed .avatarPath
    have description := placed.managed .avatarDescription
    have updatedAt := placed.managed .avatarUpdatedAt
    cases field <;>
      simp_all [AgentRow.clearVrm, Metadata.value_jsonRemove, Managed.key, Intended.after,
        Intended.entry]
  · intro key foreign
    have vrm : key ≠ "vrm_path" := foreign .vrmPath
    simp [AgentRow.clearVrm, Metadata.value_jsonRemove, vrm]
  · rintro file (set | set)
    · exact placed.uploaded_iff (.inl set)
    · cases set

theorem setPassword (placed : Placed row intended) (agentId : String)
    {password hash : Option String} (hashed : Option String)
    (same : hash.isSome = password.isSome) :
    Placed (row.setPassword hash) (intended.after (.setPassword agentId password hashed)) :=
  ⟨placed.managed, same, placed.others, placed.uploaded⟩

/-- What is given in a map is owned exactly if the map respects the row. -/
theorem owned_given_iff (placed : Placed row intended) {next : AgentRow} {given : Metadata}
    (fromRow : ∀ field : Managed, next.metadata.value field.key =
      (row.metadata.value field.key).or (given.value field.key))
    (fromMap : ∀ key, (∀ field : Managed, key ≠ field.key) →
      next.metadata.value key = given.value key)
    (hash : next.powerPasswordHash = row.powerPasswordHash) :
    Owned next { intended with given } ↔ Respects given row := by
  rw [owned_iff]
  constructor
  · rintro ⟨nextPlaced, honest⟩
    constructor
    · intro field absent
      have stored : next.metadata.value field.key = intended.entry field :=
        nextPlaced.managed field
      rw [fromRow, absent, Option.none_or] at stored
      rw [stored, ← placed.managed field, absent]
    · intro flag said
      have set := honest flag ((fromMap _ flag.key_ne_managed).trans said)
      have same : next.isSet flag = intended.isSet flag := nextPlaced.isSet_eq flag
      rw [placed.isSet_eq, ← same]
      exact set
  · intro respects
    have managed : ∀ field : Managed, next.metadata.value field.key = intended.entry field := by
      intro field
      rw [fromRow, ← placed.managed field]
      cases stored : row.metadata.value field.key with
      | none => exact respects.managed field stored
      | some text => rfl
    have nextPlaced : Placed next { intended with given } := by
      refine ⟨managed, ?_, ?_, ?_⟩
      · rw [hash]
        exact placed.guarded
      · intro key foreign
        exact .inl (fromMap key foreign)
      · intro path mem
        exact placed.uploaded_iff ((mem_files_iff managed).mp mem)
    refine ⟨nextPlaced, ?_⟩
    intro flag stored
    rw [fromMap _ flag.key_ne_managed] at stored
    have same : next.isSet flag = intended.isSet flag := nextPlaced.isSet_eq flag
    rw [same, ← placed.isSet_eq]
    exact respects.flags flag stored

end Placed

/-! ## What the metadata says -/

theorem Honest.of_weaker (honest : Honest row) {next : AgentRow}
    (weaker : ∀ flag : Flag, next.metadata.value flag.key = some "true" →
      row.metadata.value flag.key = some "true" ∧
        (row.isSet flag = true → next.isSet flag = true)) : Honest next := by
  intro flag stored
  have ⟨before, set⟩ := weaker flag stored
  exact set (honest flag before)

theorem Honest.setAvatar (honest : Honest row) (path : String) (description : Option String)
    (now : Int) : Honest (row.setAvatar path description now) := by
  apply honest.of_weaker
  intro flag stored
  cases flag <;> simp_all [AgentRow.setAvatar, AgentRow.isSet, Flag.key]

theorem Honest.clearAvatar (honest : Honest row) : Honest row.clearAvatar := by
  apply honest.of_weaker
  intro flag stored
  cases flag <;>
    simp_all [AgentRow.clearAvatar, AgentRow.isSet, Flag.key, Metadata.value_jsonRemove]

theorem Honest.setVrm (honest : Honest row) (path : String) : Honest (row.setVrm path) := by
  apply honest.of_weaker
  intro flag stored
  cases flag <;> simp_all [AgentRow.setVrm, AgentRow.isSet, Flag.key]

theorem Honest.clearVrm_iff (honest : Honest row) :
    Honest row.clearVrm ↔ row.metadata.value Flag.hasVrm.key ≠ some "true" := by
  constructor
  · intro cleared said
    have set := cleared .hasVrm (by
      simpa [AgentRow.clearVrm, Metadata.value_jsonRemove, Flag.key] using said)
    simp [AgentRow.isSet, AgentRow.clearVrm, Metadata.value_jsonRemove] at set
  · intro silent
    apply honest.of_weaker
    intro flag stored
    cases flag <;>
      simp_all [AgentRow.clearVrm, AgentRow.isSet, Flag.key, Metadata.value_jsonRemove]

theorem Honest.setPassword (honest : Honest row) (hash : String) :
    Honest (row.setPassword (some hash)) := by
  apply honest.of_weaker
  intro flag stored
  cases flag <;> simp_all [AgentRow.setPassword, AgentRow.isSet]

theorem Honest.setPassword_none_iff (honest : Honest row) :
    Honest (row.setPassword none) ↔
      row.metadata.value Flag.hasPowerPassword.key ≠ some "true" := by
  constructor
  · intro removed said
    have set := removed .hasPowerPassword said
    simp [AgentRow.isSet, AgentRow.setPassword] at set
  · intro silent
    apply honest.of_weaker
    intro flag stored
    cases flag <;> simp_all [AgentRow.setPassword, AgentRow.isSet]

/-! ## Runs -/

variable {state : State}

theorem allOwned_insert_iff (all : AllOwned state) {agentId : String} {said : Intended}
    (same : row.id = agentId) :
    AllOwned ⟨state.agents.insert row, Function.update state.intended agentId said⟩ ↔
      Owned row said := by
  subst same
  constructor
  · intro allNext
    have owned : Owned row (Function.update state.intended row.id said row.id) :=
      allNext row (List.mem_append_right _ (List.mem_singleton_self row))
    rwa [Function.update_self] at owned
  · intro owned other mem
    rcases List.mem_append.mp mem with before | now
    · rcases Keyed.mem_remove_iff.mp before with ⟨here, differ⟩
      change Owned other (Function.update state.intended row.id said other.id)
      rw [Function.update_of_ne differ]
      exact all other here
    · cases List.mem_singleton.mp now
      change Owned row (Function.update state.intended row.id said row.id)
      rwa [Function.update_self]

/-- An update of a row concerns that row only, and none if there is no such row. -/
theorem allOwned_update_iff (all : AllOwned state) {agentId : String} {said : Intended}
    {change : AgentRow → AgentRow} (same : ∀ row, (change row).id = row.id) :
    AllOwned ⟨state.agents.update agentId change, Function.update state.intended agentId said⟩ ↔
      ∀ row ∈ state.agents.get agentId, Owned (change row) said := by
  unfold AgentTable.update
  cases found : state.agents.get agentId with
  | none =>
      simp only [Option.not_mem_none, false_implies, implies_true, iff_true]
      intro row mem
      have differ : row.id ≠ agentId := by
        intro same
        have present := Keyed.get_eq_some_iff.mpr ⟨mem, same⟩
        rw [found] at present
        cases present
      change Owned row (Function.update state.intended agentId said row.id)
      rw [Function.update_of_ne differ]
      exact all row mem
  | some row =>
      have ⟨_, here⟩ := Keyed.get_eq_some_iff.mp found
      simp only [Option.mem_some_iff, forall_eq']
      exact allOwned_insert_iff all ((same row).trans here)

theorem row_eq_ok {toLowercase : String → String} {new : NewAgent}
    (inserted : new.row toLowercase = .ok row) :
    row.metadata = new.metadata ∧ row.powerPasswordHash.isSome = new.guarded := by
  unfold NewAgent.row at inserted
  cases slug : new.slug toLowercase with
  | error error =>
      rw [slug] at inserted
      cases inserted
  | ok slug' =>
      cases hash : new.passwordHash with
      | error error =>
          rw [slug, hash] at inserted
          cases inserted
      | ok hash' =>
          rw [slug, hash] at inserted
          cases inserted
          refine ⟨rfl, ?_⟩
          change hash'.isSome = new.guarded
          unfold NewAgent.passwordHash at hash
          cases guarded : new.guarded with
          | false =>
              rw [guarded] at hash
              cases hash
              rfl
          | true =>
              rw [guarded] at hash
              cases hashed : new.hashed with
              | none =>
                  rw [hashed] at hash
                  cases hash
              | some text =>
                  rw [hashed] at hash
                  cases hash
                  rfl

/-- A row without metadata is placed where nothing has been said of its agent. -/
theorem placed_bare {guarded : Bool} (hash : row.powerPasswordHash.isSome = guarded) :
    Placed row.bare { Intended.none with guarded } := by
  constructor
  · intro field
    cases field <;> rfl
  · exact hash
  · intro key _
    exact .inl rfl
  · intro path mem
    cases mem

/-- A new agent is owned exactly if the map it is created with respects a row without
metadata. -/
theorem owned_new_iff {toLowercase : String → String} {new : NewAgent} (before : Intended)
    (inserted : new.row toLowercase = .ok row) :
    Owned row (before.after (.createAgentWithId new)) ↔ Respects new.metadata row.bare := by
  have ⟨metadata, guarded⟩ := row_eq_ok inserted
  apply (placed_bare guarded).owned_given_iff
  · intro field
    rw [metadata]
    exact (Option.none_or).symm
  · intro key _
    rw [metadata]
  · rfl

theorem owned_updateConfig_iff (owned : Owned row intended) (agentId : String)
    (name description defaultEngineId : Option String) (metadata : Option Metadata) :
    Owned (row.updateConfig name description defaultEngineId metadata)
        (intended.after (.updateAgentConfig agentId name description defaultEngineId metadata)) ↔
      ∀ given ∈ metadata, Respects given row := by
  cases metadata with
  | none =>
      have kept : Owned (row.updateConfig name description defaultEngineId none) intended :=
        ⟨owned.managed, owned.guarded, owned.others, owned.reported, owned.uploaded⟩
      simp only [Option.not_mem_none, false_implies, implies_true, iff_true]
      exact kept
  | some given =>
      simp only [Option.mem_some_iff, forall_eq']
      apply (owned_iff.mp owned).1.owned_given_iff
      · intro field
        exact Metadata.value_replaceBy field
      · intro key foreign
        exact Metadata.value_replaceBy_of_ne foreign
      · rfl

theorem Owned.of_mem (all : AllOwned state) {agentId : String}
    (found : row ∈ state.agents.get agentId) : Owned row (state.intended agentId) := by
  have ⟨mem, here⟩ := Keyed.get_eq_some_iff.mp found
  rw [← here]
  exact all row mem

theorem State.operate_of_ok {toLowercase : String → String} {operation : Operation}
    {agentId : String} {agents : AgentTable}
    (result : state.agents.operate toLowercase operation = .ok (agentId, agents)) :
    state.operate toLowercase operation =
      ⟨agents, Function.update state.intended agentId
        ((state.intended agentId).after operation)⟩ := by
  rw [State.operate, result]

theorem State.operate_of_error {toLowercase : String → String} {operation : Operation}
    {error : AgentError} (result : state.agents.operate toLowercase operation = .error error) :
    state.operate toLowercase operation = state := by
  rw [State.operate, result]

theorem allOwned_operate_update_iff (all : AllOwned state) {toLowercase : String → String}
    {operation : Operation} {agentId : String} {change : AgentRow → AgentRow}
    (result : state.agents.operate toLowercase operation =
      .ok (agentId, state.agents.update agentId change))
    (same : ∀ row, (change row).id = row.id) :
    AllOwned (state.operate toLowercase operation) ↔
      ∀ row ∈ state.agents.get agentId,
        Owned (change row) ((state.intended agentId).after operation) := by
  rw [State.operate_of_ok result]
  exact allOwned_update_iff all same

/-- A creation brings in a row whose id is free, or it fails. -/
theorem operate_create {toLowercase : String → String} {agents : AgentTable} {new : NewAgent} :
    (∃ error, agents.operate toLowercase (.createAgentWithId new) = .error error ∧
      ∀ row, new.row toLowercase = .ok row → agents.get row.id ≠ none) ∨
    ∃ row, new.row toLowercase = .ok row ∧ agents.get row.id = none ∧
      agents.operate toLowercase (.createAgentWithId new) = .ok (row.id, agents.insert row) := by
  simp only [AgentTable.operate, AgentTable.createAgentWithId]
  cases inserted : new.row toLowercase with
  | error error =>
      refine .inl ⟨error, rfl, ?_⟩
      intro row same
      cases same
  | ok row =>
      cases taken : agents.get row.id with
      | none =>
          refine .inr ⟨row, rfl, taken, ?_⟩
          simp only [bind, Except.bind, taken]
          rfl
      | some other =>
          refine .inl ⟨.database, ?_, ?_⟩
          · simp only [bind, Except.bind, taken]
          · intro row' same
            cases same
            rw [taken]
            exact Option.some_ne_none other

/-- An operation keeps what belongs to the operations exactly if it meets the condition. -/
theorem allOwned_operate_iff (toLowercase : String → String) (all : AllOwned state)
    (operation : Operation) :
    AllOwned (state.operate toLowercase operation) ↔ Kept toLowercase state.agents operation := by
  cases operation with
  | createAgentWithId new =>
      rcases operate_create with ⟨error, failed, taken⟩ | ⟨row, inserted, free, result⟩
      · rw [State.operate_of_error failed]
        apply iff_of_true all
        intro row inserted free
        exact absurd free (taken row inserted)
      · rw [State.operate_of_ok result, allOwned_insert_iff all rfl, owned_new_iff _ inserted]
        constructor
        · intro respects row' same _
          rw [inserted] at same
          cases same
          exact respects
        · intro kept
          exact kept row inserted free
  | updateAgentConfig agentId name description defaultEngineId metadata =>
      cases found : state.agents.get agentId with
      | none =>
          have failed : state.agents.operate toLowercase
              (.updateAgentConfig agentId name description defaultEngineId metadata) =
                .error (.agentNotFound agentId) := by
            simp only [AgentTable.operate, AgentTable.updateAgentConfig, found]
            rfl
          rw [State.operate_of_error failed]
          apply iff_of_true all
          simp [Kept, found]
      | some row =>
          have result : state.agents.operate toLowercase
              (.updateAgentConfig agentId name description defaultEngineId metadata) =
                .ok (agentId, state.agents.update agentId
                  (·.updateConfig name description defaultEngineId metadata)) := by
            simp only [AgentTable.operate, AgentTable.updateAgentConfig, found]
            rfl
          rw [allOwned_operate_update_iff all result fun _ => rfl]
          apply forall_congr'
          intro row
          apply imp_congr_right
          intro here
          exact owned_updateConfig_iff (Owned.of_mem all here) agentId name description
            defaultEngineId metadata
  | setAvatar agentId path description now =>
      rw [allOwned_operate_update_iff all rfl (by intro row; rfl)]
      refine iff_of_true ?_ trivial
      intro row found
      have ⟨placed, honest⟩ := owned_iff.mp (Owned.of_mem all found)
      exact owned_iff.mpr ⟨placed.setAvatar agentId path description now,
        honest.setAvatar path description now⟩
  | clearAvatar agentId =>
      rw [allOwned_operate_update_iff all rfl (by intro row; rfl)]
      refine iff_of_true ?_ trivial
      intro row found
      have ⟨placed, honest⟩ := owned_iff.mp (Owned.of_mem all found)
      exact owned_iff.mpr ⟨placed.clearAvatar agentId, honest.clearAvatar⟩
  | setVrm agentId path =>
      rw [allOwned_operate_update_iff all rfl (by intro row; rfl)]
      refine iff_of_true ?_ trivial
      intro row found
      have ⟨placed, honest⟩ := owned_iff.mp (Owned.of_mem all found)
      exact owned_iff.mpr ⟨placed.setVrm agentId path, honest.setVrm path⟩
  | clearVrm agentId =>
      rw [allOwned_operate_update_iff all rfl (by intro row; rfl)]
      apply forall_congr'
      intro row
      apply imp_congr_right
      intro found
      have ⟨placed, honest⟩ := owned_iff.mp (Owned.of_mem all found)
      rw [owned_iff, honest.clearVrm_iff]
      exact and_iff_right (placed.clearVrm agentId)
  | setPassword agentId password hashed =>
      cases password with
      | none =>
          rw [allOwned_operate_update_iff all rfl (by intro row; rfl)]
          apply forall_congr'
          intro row
          apply imp_congr_right
          intro found
          have ⟨placed, honest⟩ := owned_iff.mp (Owned.of_mem all found)
          rw [owned_iff, honest.setPassword_none_iff]
          exact and_iff_right (placed.setPassword agentId hashed rfl)
      | some password =>
          cases hashed with
          | none =>
              have failed : state.agents.operate toLowercase
                  (.setPassword agentId (some password) none) = .error .passwordHashing := rfl
              rw [State.operate_of_error failed]
              exact iff_of_true all trivial
          | some hash =>
              rw [allOwned_operate_update_iff all rfl (by intro row; rfl)]
              refine iff_of_true ?_ trivial
              intro row found
              have ⟨placed, honest⟩ := owned_iff.mp (Owned.of_mem all found)
              exact owned_iff.mpr ⟨placed.setPassword agentId (some hash) rfl,
                honest.setPassword hash⟩

theorem allOwned_init : AllOwned State.init := by
  intro row mem
  cases mem

/-- In every run what belongs to the operations is theirs throughout exactly if each
operation of the run meets the condition. -/
theorem allOwned_throughout_iff_along (toLowercase : String → String)
    (operations : List Operation) :
    (∀ count middle, run (step toLowercase) State.init (operations.take count) = some middle →
      AllOwned middle) ↔
      Along (step toLowercase) (fun state => Kept toLowercase state.agents) State.init
        operations := by
  have ran : run (step toLowercase) State.init operations =
      some (operations.foldl (State.operate toLowercase) State.init) :=
    run_eq_some_foldl (fun _ _ => rfl) State.init operations
  refine throughout_iff_along ?_ allOwned_init ran
  intro state operation next all stepEq
  cases stepEq
  exact allOwned_operate_iff toLowercase all operation

/-! ## A map that was read before -/

/-- What a read of an agent with an avatar returns. -/
def readBefore : Metadata :=
  Dictionary.ofList [("avatar_path", "avatars/agent.a.png"), ("avatar_description", ""),
    ("avatar_updated_at", "1"), ("has_avatar", "true")]

/-- The avatar is cleared, and then the map is sent back that was read while it was set. -/
def sentBack : List Operation :=
  [.createAgentWithId {
      id := some "a", name := "A", description := "an agent", defaultEngine := "engine"
      metadata := Keyed.empty Prod.fst, requiredCapabilities := [.reasoning, .memory]
      password := none, hashed := none, now := 0 },
    .setAvatar "agent.a" "avatars/agent.a.png" none 1,
    .clearAvatar "agent.a",
    .updateAgentConfig "agent.a" none none none (some readBefore)]

/-- The update brings the path back. -/
theorem path_sent_back :
    ¬ ∀ (toLowercase : String → String) (operations : List Operation) (target : State),
      run (step toLowercase) State.init operations = some target → AllOwned target := by
  intro always
  have runs : (run (step id) State.init sentBack).map (fun state =>
      ((state.agents.get "agent.a").map fun row => row.metadata.value "avatar_path",
        (state.intended "agent.a").avatar.isSome)) =
      some (some (some "avatars/agent.a.png"), false) := by
    decide +kernel
  rcases Option.map_eq_some_iff.mp runs with ⟨target, ran, seen⟩
  rcases Prod.mk.inj seen with ⟨stored, cleared⟩
  rcases Option.map_eq_some_iff.mp stored with ⟨row, found, path⟩
  have owned := (Owned.of_mem (always id sentBack target ran) found).managed .avatarPath
  have absent : (target.intended "agent.a").avatar = none := by simpa using cleared
  rw [Intended.entry, absent] at owned
  exact absurd (path.symm.trans owned) (by decide)

end ClotoCore.Agents
