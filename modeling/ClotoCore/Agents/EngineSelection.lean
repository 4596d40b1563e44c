import ClotoCore.Encoding.Text
import ClotoCore.Json.Places

/-!
# The selection of an engine's model

The settings of an agent for its engine are a text of JSON under the engine's name in the
metadata of the agent's row.  A selection changes the model and the effort in it, within the
ranges that the settings carry, and it is written only if the row still has the text that
was read.
-/

namespace ClotoCore.Agents.EngineSelection

open ClotoCore.Encoding ClotoCore.Json

universe u

/-! ## The store -/

/-- What a column for JSON holds. -/
inductive Stored where
  | null
  | malformed
  | json (value : Value)

/-- A row of the table of agents; the columns beside the two that are used. -/
structure Row (κ : Type u) where
  defaultEngineId : String
  metadata : Stored
  columns : κ

/-- The paths of the database and its texts of arrays and objects. -/
structure Sqlite where
  resolve : String → Option (List Step)
  minified : Value → String

/-- A result of the database. -/
inductive SqlValue where
  | null
  | text (text : String)
  | other
  deriving DecidableEq

namespace Sqlite

variable (sqlite : Sqlite)

/-- The value that `json_extract` answers for a value of JSON. -/
def sqlValue : Value → SqlValue
  | .null => .null
  | .bool _ | .number _ => .other
  | .string text => .text text
  | value => .text (sqlite.minified value)

/-- `json_extract` -/
def jsonExtract (stored : Stored) (path : String) : Option SqlValue :=
  match stored with
  | .null => some .null
  | .malformed => none
  | .json value =>
      (sqlite.resolve path).map fun steps =>
        ((extract steps value).map sqlite.sqlValue).getD .null

/-- `json_set` of a text, at a place that is there. -/
def jsonSet (stored : Stored) (path text : String) : Stored :=
  match stored, sqlite.resolve path with
  | .json value, some steps => .json (replaceAt steps (.string text) value)
  | stored, _ => stored

end Sqlite

/-! ## The selection -/

/-- The reading and writing of objects, and what a value becomes when it is read and written
again: its numbers pass through integers of 64 bits or floating-point numbers. -/
structure Serde where
  parse : String → Option (List (String × Value))
  write : List (String × Value) → String
  reread : Value → Value

/-- `SelectionRequest` -/
structure SelectionRequest where
  model : String
  effort : String
  note : Option String

/-- `Selection` -/
structure Selection where
  binding : String
  previousModel : String
  previousEffort : String

/-- Why a selection is refused. -/
inductive Refusal where
  | notAnObject
  | noRange (key : String)
  | notStrings (key : String)
  | outside (key choice : String) (range : List String)
  deriving DecidableEq

/-- The values that a list of the settings allows. -/
def range (members : List (String × Value)) (key : String) : Except Refusal (List String) :=
  match lastValue members key with
  | some (.array items) =>
      if items.isEmpty then .error (.noRange key)
      else
        match items.mapM Value.asStr with
        | some texts => .ok texts
        | none => .error (.notStrings key)
  | _ => .error (.noRange key)

/-- `Map::insert` of a text. -/
def insert (members : List (String × Value)) (key text : String) : List (String × Value) :=
  members.filter (·.1 != key) ++ [(key, .string text)]

/-- The text that a member held before, or the empty one. -/
def previous (members : List (String × Value)) (key : String) : String :=
  ((lastValue members key).bind Value.asStr).getD ""

/-- The members with the model and the effort that are chosen. -/
def chosen (members : List (String × Value)) (model effort : String) : List (String × Value) :=
  insert (insert members "model" model) "effort" effort

/-- `apply_selection` -/
def applySelection (serde : Serde) (binding model effort : String) : Except Refusal Selection :=
  match serde.parse binding with
  | none => .error .notAnObject
  | some members =>
      match range members "allowed_models", range members "allowed_efforts" with
      | .error refusal, _ => .error refusal
      | _, .error refusal => .error refusal
      | .ok models, .ok efforts =>
          if !models.contains model then .error (.outside "model" model models)
          else if !efforts.contains effort then .error (.outside "effort" effort efforts)
          else
            .ok
              { binding := serde.write (chosen members model effort)
                previousModel := previous members "model"
                previousEffort := previous members "effort" }

/-- The path of an engine. -/
def enginePath (engineId : String) : String :=
  "$.\"" ++ engineId ++ "\""

/-- `write_if_unchanged`: the row behind it, and whether it was written, or a failure. -/
def writeIfUnchanged {κ : Type u} (sqlite : Sqlite) (row : Option (Row κ))
    (engineId old new : String) : Option (Bool × Option (Row κ)) :=
  match row with
  | none => some (false, none)
  | some row =>
      match sqlite.jsonExtract row.metadata (enginePath engineId) with
      | none => none
      | some value =>
          if value = .text old then
            some (true, some { row with
              metadata := sqlite.jsonSet row.metadata (enginePath engineId) new })
          else some (false, some row)

/-- `NOTE_MAX_CHARS` -/
def noteMaxChars : Nat := 200

/-- `char::is_control` -/
def isControl (c : Char) : Bool :=
  c.toNat < 32 || (127 ≤ c.toNat && c.toNat < 160)

/-- `AppError`, as far as it is met here. -/
inductive AppError where
  | unauthorized
  | validation (refusal : Option Refusal)
  | notFound
  | conflict
  | internal
  deriving DecidableEq

/-- `checked_note` -/
def checkedNote (note : Option String) : Except AppError (Option String) :=
  match note.map trim with
  | none => .ok none
  | some note =>
      if note.isEmpty then .ok none
      else if noteMaxChars < note.length || note.toList.any isControl then
        .error (.validation none)
      else .ok (some note)

/-- The calls of the database that fail. -/
structure Faults where
  read : Bool
  write : Bool

/-- `select_engine`: the answer, and the row behind it.  The row may be written by others
between the reading and the writing.  A failed entry in the audit log is only a warning. -/
def selectEngine {κ : Type u} (serde : Serde) (sqlite : Sqlite) (authorized : Bool)
    (faults : Faults) (request : SelectionRequest) (before current : Option (Row κ)) :
    Except AppError Selection × Option (Row κ) :=
  if !authorized then (.error .unauthorized, current)
  else
    match checkedNote request.note with
    | .error error => (.error error, current)
    | .ok _ =>
        if faults.read then (.error .internal, current)
        else
          match before with
          | none => (.error .notFound, current)
          | some row =>
              match sqlite.jsonExtract row.metadata (enginePath row.defaultEngineId) with
              | none | some .other => (.error .internal, current)
              | some .null => (.error (.validation none), current)
              | some (.text binding) =>
                  if (trim binding).isEmpty then (.error (.validation none), current)
                  else
                    match applySelection serde binding request.model request.effort with
                    | .error refusal => (.error (.validation (some refusal)), current)
                    | .ok selection =>
                        if faults.write then (.error .internal, current)
                        else
                          match writeIfUnchanged sqlite current row.defaultEngineId binding
                              selection.binding with
                          | none => (.error .internal, current)
                          | some (false, written) => (.error .conflict, written)
                          | some (true, written) => (.ok selection, written)

/-! ## What a selection is -/

/-- What the metadata of a row has for an engine. -/
def Row.stored {κ : Type u} (row : Row κ) (engineId : String) : Option Value :=
  match row.metadata with
  | .json value => extract [.key engineId] value
  | _ => none

/-- The values that a stored text holds under a name. -/
def Stored.named (stored : Stored) (name : String) : List Value :=
  match stored with
  | .json value => value.named name
  | _ => []

/-- A choice is written, and it is in its own range. -/
def Chosen (members : List (String × Value)) (key allowed choice : String) : Prop :=
  lastValue members key = some (.string choice) ∧
    ∃ texts : List String, lastValue members allowed = some (.array (texts.map .string)) ∧
      choice ∈ texts

/-- A field keeps its value. -/
def SameField : Option Value → Option Value → Prop
  | none, none => True
  | some left, some right => sameValue Number.same left right = true
  | _, _ => False

/-- What a selection that reports success has done: the settings of the engine are the ones
that were read, and they differ from the new ones in the model and the effort alone, which
are in range; nothing else of the row is changed. -/
structure Selected {κ : Type u} (serde : Serde) (sqlite : Sqlite) (request : SelectionRequest)
    (before current after : Row κ) : Prop where
  settings : ∃ old new members written,
    (before.stored before.defaultEngineId).map sqlite.sqlValue = some (.text old) ∧
      (current.stored before.defaultEngineId).map sqlite.sqlValue = some (.text old) ∧
      after.stored before.defaultEngineId = some (.string new) ∧
      serde.parse old = some members ∧ serde.parse new = some written ∧
      Chosen written "model" "allowed_models" request.model ∧
      Chosen written "effort" "allowed_efforts" request.effort ∧
      ∀ field, field ≠ "model" → field ≠ "effort" →
        SameField (lastValue members field) (lastValue written field)
  others : ∀ name, name ≠ before.defaultEngineId →
    after.metadata.named name = current.metadata.named name
  engine : after.defaultEngineId = current.defaultEngineId
  columns : after.columns = current.columns

/-- A selection that reports success has done that, and one that reports an error nothing. -/
def Kept {κ : Type u} (serde : Serde) (sqlite : Sqlite) (request : SelectionRequest)
    (before current : Option (Row κ))
    (result : Except AppError Selection × Option (Row κ)) : Prop :=
  match result.1 with
  | .ok _ => ∃ read ∈ before, ∃ row ∈ current, ∃ after ∈ result.2,
      Selected serde sqlite request read row after
  | .error _ => result.2 = current

/-! ## Which rows are kept -/

/-- The settings carry both ranges. -/
def Ranged (members : List (String × Value)) : Prop :=
  (∃ models, range members "allowed_models" = .ok models) ∧
    ∃ efforts, range members "allowed_efforts" = .ok efforts

/-- Where the path of the engine leads to settings with ranges, it is the path of the engine's
own key, and every other field of the settings keeps its value when it is read and written
again. -/
def Sound {κ : Type u} (serde : Serde) (sqlite : Sqlite) (row : Row κ) : Prop :=
  ∀ value steps old members, row.metadata = .json value →
    sqlite.resolve (enginePath row.defaultEngineId) = some steps →
      (extract steps value).map sqlite.sqlValue = some (.text old) →
        (trim old).isEmpty = false → serde.parse old = some members → Ranged members →
          steps = [.key row.defaultEngineId] ∧
            ∀ field, field ≠ "model" → field ≠ "effort" →
              SameField (lastValue members field) ((lastValue members field).map serde.reread)

/-- Texts and lists of texts are read and written as they are, and so is every field of
settings that a choice was put into, up to how it is read and written again. -/
structure Serde.Faithful (serde : Serde) : Prop where
  text : ∀ text, serde.reread (.string text) = .string text
  texts : ∀ texts : List String,
    serde.reread (.array (texts.map .string)) = .array (texts.map .string)
  parse_write : ∀ binding members models efforts model effort,
    serde.parse binding = some members →
      range members "allowed_models" = .ok models → model ∈ models →
        range members "allowed_efforts" = .ok efforts → effort ∈ efforts →
          ∃ written, serde.parse (serde.write (chosen members model effort)) = some written ∧
            ∀ field, lastValue written field
              = (lastValue (chosen members model effort) field).map serde.reread

/-! ## Choosing -/

variable {serde : Serde} {sqlite : Sqlite} {members : List (String × Value)}

theorem lastValue_insert (key text field : String) :
    lastValue (insert members key text) field
      = if field = key then some (.string text) else lastValue members field := by
  unfold insert
  by_cases same : field = key
  · subst same
    simp [lastValue]
  · have other : (key == field) = false := by simpa using Ne.symm same
    have rest : lastValue (members.filter (·.1 != key) ++ [(key, .string text)]) field
        = lastValue (members.filter (·.1 != key)) field := by
      simp [lastValue, other]
    rw [if_neg same, rest]
    exact lastValue_filter fun value => by simpa using same

/-- A choice changes the model and the effort alone. -/
theorem lastValue_chosen (model effort field : String) :
    lastValue (chosen members model effort) field
      = if field = "effort" then some (.string effort)
        else if field = "model" then some (.string model) else lastValue members field := by
  rw [chosen, lastValue_insert, lastValue_insert]

/-- A range is a list of texts that is not empty. -/
theorem range_eq_ok_iff {key : String} {texts : List String} :
    range members key = .ok texts ↔
      lastValue members key = some (.array (texts.map .string)) ∧ texts ≠ [] := by
  have strings : ∀ (items : List Value) (texts : List String),
      items.mapM Value.asStr = some texts ↔ items = texts.map .string := by
    intro items
    induction items with
    | nil => intro texts; cases texts <;> simp
    | cons item items ih =>
        intro texts
        rw [List.mapM_cons]
        cases rest : items.mapM Value.asStr with
        | none =>
            have other : ∀ others : List String, items ≠ others.map .string := fun others same => by
              rw [(ih others).mpr same] at rest
              cases rest
            cases texts with
            | nil => cases item.asStr <;> simp
            | cons text texts => cases item.asStr <;> simp [other texts]
        | some others =>
            have whole := (ih others).mp rest
            subst whole
            cases texts with
            | nil => cases item <;> simp [Value.asStr]
            | cons text texts =>
                have inj : Function.Injective Value.string := fun _ _ same => by simpa using same
                cases item <;> simp [Value.asStr, List.map_inj_right inj]
  unfold range
  split
  · next items found =>
    rw [found]
    cases items with
    | nil => cases texts <;> simp
    | cons item items =>
        rw [if_neg (by simp)]
        cases read : (item :: items).mapM Value.asStr with
        | some others =>
            have whole := (strings _ _).mp read
            rw [whole]
            have nonempty : others ≠ [] := by
              rintro rfl
              cases whole
            have inj : Function.Injective (List.map Value.string) :=
              List.map_injective_iff.mpr fun _ _ same => by simpa using same
            constructor
            · intro same
              cases same
              exact ⟨rfl, nonempty⟩
            · rintro ⟨same, -⟩
              have equal : others = texts := by
                apply inj
                simpa using same
              rw [equal]
        | none =>
            constructor
            · intro same
              cases same
            · rintro ⟨same, -⟩
              have whole : item :: items = texts.map .string := by simpa using same
              rw [(strings _ _).mpr whole] at read
              cases read
  · next other =>
    constructor
    · intro same
      cases same
    · rintro ⟨found, -⟩
      exact absurd found (other _)

theorem applySelection_eq_ok_iff {binding model effort : String} {selection : Selection} :
    applySelection serde binding model effort = .ok selection ↔
      ∃ members models efforts, serde.parse binding = some members ∧
        range members "allowed_models" = .ok models ∧ model ∈ models ∧
        range members "allowed_efforts" = .ok efforts ∧ effort ∈ efforts ∧
        selection =
          { binding := serde.write (chosen members model effort)
            previousModel := previous members "model"
            previousEffort := previous members "effort" } := by
  unfold applySelection
  cases parsed : serde.parse binding with
  | none => simp
  | some members =>
      cases modelRange : range members "allowed_models" with
      | error refusal => simp [modelRange]
      | ok models =>
          cases effortRange : range members "allowed_efforts" with
          | error refusal => simp [modelRange, effortRange]
          | ok efforts =>
              by_cases isModel : model ∈ models
              · by_cases isEffort : effort ∈ efforts
                · simp [isModel, isEffort, modelRange, effortRange, eq_comm]
                · simp [isModel, isEffort, modelRange, effortRange]
              · simp [isModel, modelRange, effortRange]

/-! ## The row -/

variable {κ : Type u}

theorem writeIfUnchanged_eq {row : Row κ} {engineId old new : String} {after : Option (Row κ)}
    (written : writeIfUnchanged sqlite (some row) engineId old new = some (true, after)) :
    ∃ value steps, row.metadata = .json value ∧ sqlite.resolve (enginePath engineId) = some steps ∧
      (extract steps value).map sqlite.sqlValue = some (.text old) ∧
      after = some { row with metadata := .json (replaceAt steps (.string new) value) } := by
  unfold writeIfUnchanged at written
  dsimp only at written
  cases found : sqlite.jsonExtract row.metadata (enginePath engineId) with
  | none => simp [found] at written
  | some result =>
      rw [found] at written
      dsimp only at written
      split at written
      · next same =>
        cases written
        subst same
        unfold Sqlite.jsonExtract at found
        cases metadata : row.metadata with
        | null => simp [metadata] at found
        | malformed => simp [metadata] at found
        | json value =>
            rw [metadata] at found
            rcases Option.map_eq_some_iff.mp found with ⟨steps, resolved, text⟩
            refine ⟨value, steps, rfl, resolved, ?_, by simp [Sqlite.jsonSet, resolved]⟩
            cases inside : extract steps value with
            | none => simp [inside] at text
            | some item => simpa [inside] using text
      · cases written

theorem jsonExtract_eq_text {stored : Stored} {path old : String}
    (found : sqlite.jsonExtract stored path = some (.text old)) :
    ∃ value steps, stored = .json value ∧ sqlite.resolve path = some steps ∧
      (extract steps value).map sqlite.sqlValue = some (.text old) := by
  unfold Sqlite.jsonExtract at found
  cases stored with
  | null => cases found
  | malformed => cases found
  | json value =>
      rcases Option.map_eq_some_iff.mp found with ⟨steps, resolved, text⟩
      refine ⟨value, steps, rfl, resolved, ?_⟩
      cases inside : extract steps value with
      | none => simp [inside] at text
      | some item => simpa [inside] using text

/-- What is met by a selection that reports success. -/
structure Success (serde : Serde) (sqlite : Sqlite) (request : SelectionRequest)
    (before current : Option (Row κ)) (selection : Selection) (after : Option (Row κ)) : Prop where
  exists_rows : ∃ read row binding, before = some read ∧ current = some row ∧
    sqlite.jsonExtract read.metadata (enginePath read.defaultEngineId) = some (.text binding) ∧
    (trim binding).isEmpty = false ∧
    applySelection serde binding request.model request.effort = .ok selection ∧
    writeIfUnchanged sqlite (some row) read.defaultEngineId binding selection.binding
      = some (true, after)

/-- A selection succeeds, or the row is what it was. -/
theorem selectEngine_cases (authorized : Bool) (faults : Faults) (request : SelectionRequest)
    (before current : Option (Row κ)) :
    (∃ selection, (selectEngine serde sqlite authorized faults request before current).1
          = .ok selection ∧
        Success serde sqlite request before current selection
          (selectEngine serde sqlite authorized faults request before current).2) ∨
      ∃ error, (selectEngine serde sqlite authorized faults request before current).1
          = .error error ∧
        (selectEngine serde sqlite authorized faults request before current).2 = current := by
  unfold selectEngine
  split
  · exact Or.inr ⟨_, rfl, rfl⟩
  · split
    · exact Or.inr ⟨_, rfl, rfl⟩
    · split
      · exact Or.inr ⟨_, rfl, rfl⟩
      · cases before with
        | none => exact Or.inr ⟨_, rfl, rfl⟩
        | some read =>
            dsimp only
            split
            · exact Or.inr ⟨_, rfl, rfl⟩
            · exact Or.inr ⟨_, rfl, rfl⟩
            · exact Or.inr ⟨_, rfl, rfl⟩
            · next binding found =>
              split
              · exact Or.inr ⟨_, rfl, rfl⟩
              · next filled =>
                split
                · exact Or.inr ⟨_, rfl, rfl⟩
                · next selection applied =>
                  split
                  · exact Or.inr ⟨_, rfl, rfl⟩
                  · split
                    · exact Or.inr ⟨_, rfl, rfl⟩
                    · next written conflict =>
                      right
                      refine ⟨_, rfl, ?_⟩
                      unfold writeIfUnchanged at conflict
                      repeat' split at conflict
                      all_goals cases conflict
                      all_goals rfl
                    · next written success =>
                      left
                      refine ⟨selection, rfl, ?_⟩
                      cases current with
                      | none => cases success
                      | some row =>
                          exact ⟨read, row, binding, rfl, rfl, found, by simpa using filled,
                            applied, success⟩

/-- The settings behind a selection are the chosen ones, read and written again. -/
theorem chosen_written (faithful : serde.Faithful) {binding model effort : String}
    {models efforts : List String} (parsed : serde.parse binding = some members)
    (modelRange : range members "allowed_models" = .ok models) (isModel : model ∈ models)
    (effortRange : range members "allowed_efforts" = .ok efforts) (isEffort : effort ∈ efforts) :
    ∃ written, serde.parse (serde.write (chosen members model effort)) = some written ∧
      Chosen written "model" "allowed_models" model ∧
      Chosen written "effort" "allowed_efforts" effort ∧
      ∀ field, field ≠ "model" → field ≠ "effort" →
        lastValue written field = (lastValue members field).map serde.reread := by
  rcases faithful.parse_write binding members models efforts model effort parsed modelRange isModel
    effortRange isEffort with ⟨written, again, fields⟩
  have others : ∀ field, field ≠ "model" → field ≠ "effort" →
      lastValue written field = (lastValue members field).map serde.reread := by
    intro field notModel notEffort
    rw [fields, lastValue_chosen, if_neg notEffort, if_neg notModel]
  have ranges : ∀ key texts, key ≠ "model" → key ≠ "effort" → range members key = .ok texts →
      lastValue written key = some (.array (texts.map .string)) := by
    intro key texts notModel notEffort allowed
    rw [others key notModel notEffort, (range_eq_ok_iff.mp allowed).1, Option.map_some,
      faithful.texts]
  refine ⟨written, again, ⟨?_, models, ?_, isModel⟩, ⟨?_, efforts, ?_, isEffort⟩, others⟩
  · rw [fields, lastValue_chosen, if_neg (by decide), if_pos rfl, Option.map_some, faithful.text]
  · exact ranges _ _ (by decide) (by decide) modelRange
  · rw [fields, lastValue_chosen, if_pos rfl, Option.map_some, faithful.text]
  · exact ranges _ _ (by decide) (by decide) effortRange

/-- On a sound row a selection changes what it should. -/
theorem selected_of_sound (faithful : serde.Faithful) {request : SelectionRequest}
    {before current after : Option (Row κ)} {selection : Selection}
    (sound : ∀ row ∈ before, Sound serde sqlite row)
    (success : Success serde sqlite request before current selection after) :
    ∃ read ∈ before, ∃ row ∈ current, ∃ written ∈ after,
      Selected serde sqlite request read row written := by
  rcases success.exists_rows with
    ⟨read, row, binding, rfl, rfl, found, filled, applied, written⟩
  rcases jsonExtract_eq_text found with ⟨value, steps, metadata, resolved, text⟩
  rcases writeIfUnchanged_eq written with ⟨now, steps', metadataNow, resolvedNow, textNow, whole⟩
  rw [resolved] at resolvedNow
  cases resolvedNow
  rcases applySelection_eq_ok_iff.mp applied with
    ⟨members, models, efforts, parsed, modelRange, isModel, effortRange, isEffort, result⟩
  rcases sound read rfl value steps binding members metadata resolved text filled parsed
    ⟨⟨models, modelRange⟩, efforts, effortRange⟩ with ⟨own, fields⟩
  subst own
  rcases chosen_written faithful parsed modelRange isModel effortRange isEffort with
    ⟨again, parsedAgain, chosenModel, chosenEffort, others⟩
  refine ⟨read, rfl, row, rfl, _, whole, ?_⟩
  constructor
  · refine ⟨binding, selection.binding, members, again, ?_, ?_, ?_, parsed, ?_, chosenModel,
      chosenEffort, ?_⟩
    · simpa [Row.stored, metadata] using text
    · simpa [Row.stored, metadataNow] using textNow
    · rcases Option.map_eq_some_iff.mp textNow with ⟨old, here, -⟩
      exact extract_replaceAt here
    · rw [result]
      exact parsedAgain
    · intro field notModel notEffort
      rw [others field notModel notEffort]
      exact fields field notModel notEffort
  · intro name other
    rw [metadataNow]
    exact named_replaceAt_of_ne other
  · rfl
  · rfl

/-! ## Exactness -/

/-- A request that a range allows is served, where the row still has the settings. -/
theorem selectEngine_of_ranged (read row : Row κ) {binding : String} {value now : Value}
    {steps : List Step} (metadata : read.metadata = .json value)
    (resolved : sqlite.resolve (enginePath read.defaultEngineId) = some steps)
    (text : (extract steps value).map sqlite.sqlValue = some (.text binding))
    (filled : (trim binding).isEmpty = false) (metadataNow : row.metadata = .json now)
    (textNow : (extract steps now).map sqlite.sqlValue = some (.text binding))
    {request : SelectionRequest} (noNote : request.note = none) {selection : Selection}
    (applied : applySelection serde binding request.model request.effort = .ok selection) :
    selectEngine serde sqlite true ⟨false, false⟩ request (some read) (some row)
      = (.ok selection, some { row with
          metadata := .json (replaceAt steps (.string selection.binding) now) }) := by
  have reads : sqlite.jsonExtract read.metadata (enginePath read.defaultEngineId)
      = some (.text binding) := by
    rcases Option.map_eq_some_iff.mp text with ⟨item, here, isText⟩
    simp [Sqlite.jsonExtract, metadata, resolved, here, isText]
  have readsNow : sqlite.jsonExtract row.metadata (enginePath read.defaultEngineId)
      = some (.text binding) := by
    rcases Option.map_eq_some_iff.mp textNow with ⟨item, here, isText⟩
    simp [Sqlite.jsonExtract, metadataNow, resolved, here, isText]
  have writes : sqlite.jsonSet row.metadata (enginePath read.defaultEngineId) selection.binding
      = .json (replaceAt steps (.string selection.binding) now) := by
    simp [Sqlite.jsonSet, metadataNow, resolved]
  simp [selectEngine, checkedNote, noNote, reads, filled, applied, writeIfUnchanged, readsNow,
    writes]

theorem selected_of_kept {request : SelectionRequest} {read row after : Row κ}
    {selection : Selection} {result : Except AppError Selection × Option (Row κ)}
    (kept : Kept serde sqlite request (some read) (some row) result)
    (success : result = (.ok selection, some after)) :
    Selected serde sqlite request read row after := by
  rw [success] at kept
  rcases kept with ⟨first, here, now, hereNow, last, hereLast, selected⟩
  cases here
  cases hereNow
  cases hereLast
  exact selected

/-- Every selection keeps a row, whatever others write in between, exactly if the row is
sound. -/
theorem selectEngine_kept_iff (serde : Serde) (sqlite : Sqlite) (faithful : serde.Faithful)
    (before : Option (Row κ)) :
    (∀ authorized faults request current, Kept serde sqlite request before current
        (selectEngine serde sqlite authorized faults request before current)) ↔
      ∀ row ∈ before, Sound serde sqlite row := by
  constructor
  · rintro kept read rfl value steps binding members metadata resolved text filled parsed
      ⟨⟨models, modelRange⟩, efforts, effortRange⟩
    rcases List.exists_mem_of_ne_nil _ (range_eq_ok_iff.mp modelRange).2 with ⟨model, isModel⟩
    rcases List.exists_mem_of_ne_nil _ (range_eq_ok_iff.mp effortRange).2 with ⟨effort, isEffort⟩
    rcases chosen_written faithful parsed modelRange isModel effortRange isEffort with
      ⟨written, again, -, -, others⟩
    have applied := applySelection_eq_ok_iff.mpr ⟨members, models, efforts, parsed, modelRange,
      isModel, effortRange, isEffort, rfl⟩
    have served : ∀ now, (extract steps now).map sqlite.sqlValue = some (.text binding) →
        Selected serde sqlite ⟨model, effort, none⟩ read { read with metadata := .json now }
          { read with metadata := .json (replaceAt steps
            (.string (serde.write (chosen members model effort))) now) } := by
      intro now textNow
      have noNote : (⟨model, effort, none⟩ : SelectionRequest).note = none := rfl
      have result := selectEngine_of_ranged read { read with metadata := .json now } metadata
        resolved text filled rfl textNow noNote applied
      exact selected_of_kept (kept true ⟨false, false⟩ ⟨model, effort, none⟩ _) result
    -- others may leave nothing in the row but what the path leads to
    have own : steps = [.key read.defaultEngineId] := by
      rcases (served (placed steps (.string binding)) (by rw [extract_placed]; rfl)).settings with
        ⟨old, new, oldMembers, newMembers, -, -, isNew, -⟩
      rw [Row.stored, replaceAt_placed] at isNew
      exact extract_key_placed_string isNew
    refine ⟨own, fun field notModel notEffort => ?_⟩
    subst own
    rcases (served value text).settings with
      ⟨old, new, oldMembers, newMembers, isOld, -, isNew, parsedOld, parsedNew, -, -, fields⟩
    have sameOld : old = binding := by
      rw [Row.stored, metadata] at isOld
      simpa [text] using isOld.symm
    have sameNew : new = serde.write (chosen members model effort) := by
      rcases Option.map_eq_some_iff.mp text with ⟨item, here, -⟩
      have put : extract [.key read.defaultEngineId] (replaceAt [.key read.defaultEngineId]
          (.string (serde.write (chosen members model effort))) value)
            = some (.string (serde.write (chosen members model effort))) :=
        extract_replaceAt here
      have found := put.symm.trans isNew
      simpa using found.symm
    rw [sameOld, parsed] at parsedOld
    rw [sameNew, again] at parsedNew
    cases parsedOld
    cases parsedNew
    rw [← others field notModel notEffort]
    exact fields field notModel notEffort
  · intro sound authorized faults request current
    unfold Kept
    rcases selectEngine_cases authorized faults request before current with
      ⟨selection, result, success⟩ | ⟨error, result, same⟩
    · rw [result]
      exact selected_of_sound faithful sound success
    · rw [result]
      exact same

/-! ## A number that is too long -/

/-- A number of 23 digits, and what a floating-point number keeps of it. -/
def budget : Number :=
  Number.ofNat 12345678901234567890123

/-- The budget as a double prints it. -/
def roundedBudget : Number where
  negative := false
  integer := 1
  fraction := [2, 3, 4, 5, 6, 7, 8, 9, 0, 1, 2, 3, 4, 5, 6, 8]
  exponent := some 22

/-- Settings with a budget of more digits than a double has. -/
def budgetText : String :=
  "\x7b\"model\":\"m\",\"effort\":\"low\",\"allowed_models\":[\"n\"],\"allowed_efforts\":[\"low\"]," ++
    "\"budget\":12345678901234567890123\x7d"

/-- These settings once the other model is selected. -/
def selectedText : String :=
  "\x7b\"allowed_efforts\":[\"low\"],\"allowed_models\":[\"n\"],\"budget\":1.2345678901234568e22," ++
    "\"effort\":\"low\",\"model\":\"n\"\x7d"

/-- The members of such settings. -/
def settingsWith (model : String) (budget : Number) : List (String × Value) :=
  [("allowed_efforts", .array [.string "low"]), ("allowed_models", .array [.string "n"]),
    ("budget", .number budget), ("effort", .string "low"), ("model", .string model)]

/-- Reading and writing as far as these settings need it. -/
def roundingSerde : Serde where
  parse text :=
    if text = budgetText then some (settingsWith "m" budget)
    else if text = selectedText then some (settingsWith "n" roundedBudget)
    else none
  write _ := selectedText
  reread
    | .number literal => .number (if literal = budget then roundedBudget else literal)
    | value => value

/-- The path of the one engine. -/
def plainSqlite : Sqlite where
  resolve path := if path = "$.\"cli_agent\"" then some [.key "cli_agent"] else none
  minified _ := ""

/-- An agent with the settings of that budget. -/
def budgetRow : Row Unit where
  defaultEngineId := "cli_agent"
  metadata := .json (.object [("cli_agent", .string budgetText)])
  columns := ()

theorem lastValue_settingsWith (model field : String) (budget : Number) :
    lastValue (settingsWith model budget) field
      = if field = "effort" then some (.string "low")
        else if field = "model" then some (.string model)
        else if field = "budget" then some (.number budget)
        else if field = "allowed_models" then some (.array [.string "n"])
        else if field = "allowed_efforts" then some (.array [.string "low"])
        else none := by
  by_cases isEffort : field = "effort"
  · subst isEffort
    simp [lastValue, settingsWith]
  · by_cases isModel : field = "model"
    · subst isModel
      simp [lastValue, settingsWith]
    · by_cases isBudget : field = "budget"
      · subst isBudget
        simp [lastValue, settingsWith]
      · by_cases areModels : field = "allowed_models"
        · subst areModels
          simp [lastValue, settingsWith]
        · by_cases areEfforts : field = "allowed_efforts"
          · subst areEfforts
            simp [lastValue, settingsWith]
          · simp [lastValue, settingsWith, Ne.symm isEffort, Ne.symm isModel, Ne.symm isBudget,
              Ne.symm areModels, Ne.symm areEfforts, isEffort, isModel, isBudget, areModels,
              areEfforts]

theorem roundingSerde_faithful : roundingSerde.Faithful where
  text _ := rfl
  texts _ := rfl
  parse_write := by
    intro binding members models efforts model effort parsed modelRange isModel effortRange isEffort
    have known : ∃ model literal, members = settingsWith model literal ∧
        roundingSerde.reread (.number literal) = .number roundedBudget := by
      simp only [roundingSerde] at parsed
      split at parsed
      · cases parsed
        exact ⟨_, _, rfl, rfl⟩
      · split at parsed
        · cases parsed
          exact ⟨_, _, rfl, rfl⟩
        · cases parsed
    rcases known with ⟨old, literal, rfl, rounds⟩
    have one : ∀ (text : String) (texts : List String),
        [Value.string text] = texts.map .string → texts = [text] := by
      intro text texts same
      match texts, same with
      | [single], same => simpa using same.symm
    rw [range_eq_ok_iff, lastValue_settingsWith] at modelRange effortRange
    have models : models = ["n"] := by
      have listed : [Value.string "n"] = models.map .string := by simpa using modelRange.1
      exact one _ _ listed
    have efforts : efforts = ["low"] := by
      have listed : [Value.string "low"] = efforts.map .string := by simpa using effortRange.1
      exact one _ _ listed
    rw [models, List.mem_singleton] at isModel
    rw [efforts, List.mem_singleton] at isEffort
    subst isModel
    subst isEffort
    refine ⟨settingsWith "n" roundedBudget, rfl, fun field => ?_⟩
    rw [lastValue_chosen, lastValue_settingsWith, lastValue_settingsWith]
    split
    · rfl
    · split
      · rfl
      · split
        · exact congrArg some rounds.symm
        · split
          · rfl
          · split <;> rfl

theorem selectedText_ne : selectedText ≠ budgetText := by
  decide +kernel

/-- A row whose number is as short as it is written. -/
def shortRow : Row Unit where
  defaultEngineId := "cli_agent"
  metadata := .json (.object [("cli_agent", .string selectedText)])
  columns := ()

theorem sound_shortRow : Sound roundingSerde plainSqlite shortRow := by
  intro value steps old members metadata resolved text _ parsed _
  have path : plainSqlite.resolve (enginePath shortRow.defaultEngineId)
      = some [.key "cli_agent"] := by decide +kernel
  rw [path] at resolved
  cases resolved
  cases metadata
  have found : some (SqlValue.text selectedText) = some (.text old) := text
  have sameOld : old = selectedText := by simpa using found.symm
  subst sameOld
  simp only [roundingSerde, if_neg selectedText_ne, if_pos] at parsed
  cases parsed
  refine ⟨rfl, fun field notModel notEffort => ?_⟩
  rw [lastValue_settingsWith, if_neg notEffort, if_neg notModel]
  by_cases isBudget : field = "budget"
  · rw [if_pos isBudget]
    have same : sameValue Number.same (.number roundedBudget)
        (roundingSerde.reread (.number roundedBudget)) = true := by
      decide +kernel
    exact same
  · rw [if_neg isBudget]
    by_cases areModels : field = "allowed_models"
    · rw [if_pos areModels]
      have same : sameValue Number.same (.array [.string "n"])
          (roundingSerde.reread (.array [.string "n"])) = true := by
        decide +kernel
      exact same
    · rw [if_neg areModels]
      by_cases areEfforts : field = "allowed_efforts"
      · rw [if_pos areEfforts]
        have same : sameValue Number.same (.array [.string "low"])
            (roundingSerde.reread (.array [.string "low"])) = true := by
          decide +kernel
        exact same
      · rw [if_neg areEfforts]
        trivial

/-- A row whose number is short is sound and kept; whether one with a number that is too
long is kept is whether it is sound. -/
theorem budget_row_kept_iff : roundingSerde.Faithful ∧
    (∀ authorized faults request current, Kept roundingSerde plainSqlite request (some shortRow)
        current (selectEngine roundingSerde plainSqlite authorized faults request (some shortRow)
          current)) ∧
    ((∀ authorized faults request current, Kept roundingSerde plainSqlite request (some budgetRow)
        current (selectEngine roundingSerde plainSqlite authorized faults request (some budgetRow)
          current)) ↔
      ∀ row ∈ some budgetRow, Sound roundingSerde plainSqlite row) := by
  refine ⟨roundingSerde_faithful, ?_,
    selectEngine_kept_iff roundingSerde plainSqlite roundingSerde_faithful (some budgetRow)⟩
  apply (selectEngine_kept_iff roundingSerde plainSqlite roundingSerde_faithful (some shortRow)).mpr
  intro row mem
  cases mem
  exact sound_shortRow

/-- A number that is too long is rounded by a selection. -/
theorem budget_rounded :
    ¬ ∀ serde : Serde, serde.Faithful → ∀ (sqlite : Sqlite) (before : Option (Row Unit))
      (authorized : Bool) (faults : Faults) (request : SelectionRequest)
      (current : Option (Row Unit)), Kept serde sqlite request before current
        (selectEngine serde sqlite authorized faults request before current) := by
  intro kept
  have parsed : roundingSerde.parse budgetText = some (settingsWith "m" budget) := by
    simp [roundingSerde]
  have models : range (settingsWith "m" budget) "allowed_models" = .ok ["n"] :=
    range_eq_ok_iff.mpr ⟨rfl, by simp⟩
  have efforts : range (settingsWith "m" budget) "allowed_efforts" = .ok ["low"] :=
    range_eq_ok_iff.mpr ⟨rfl, by simp⟩
  have applied := applySelection_eq_ok_iff.mpr ⟨_, _, _, parsed, models, List.mem_singleton_self _,
    efforts, List.mem_singleton_self _, rfl⟩
  have resolved : plainSqlite.resolve (enginePath budgetRow.defaultEngineId)
      = some [.key "cli_agent"] := by decide +kernel
  have text : (extract [.key "cli_agent"] (.object [("cli_agent", .string budgetText)])).map
      plainSqlite.sqlValue = some (.text budgetText) := rfl
  have filled : (trim budgetText).isEmpty = false := by decide +kernel
  have noNote : (⟨"n", "low", none⟩ : SelectionRequest).note = none := rfl
  have result := selectEngine_of_ranged budgetRow budgetRow rfl resolved text filled rfl text
    noNote applied
  have selected := selected_of_kept
    (kept roundingSerde roundingSerde_faithful plainSqlite _ _ _ _ _)
    result
  rcases selected.settings with
    ⟨old, new, members, written, isOld, -, isNew, parsedOld, parsedNew, -, -, fields⟩
  have sameOld : old = budgetText := by
    have found : some (SqlValue.text budgetText) = some (.text old) := isOld
    simpa using found.symm
  have sameNew : new = selectedText := by
    have found : some (Value.string selectedText) = some (.string new) := isNew
    simpa using found.symm
  rw [sameOld, parsed] at parsedOld
  simp only [roundingSerde, sameNew, if_neg selectedText_ne, if_pos] at parsedNew
  cases parsedOld
  cases parsedNew
  have same := fields "budget" (by decide) (by decide)
  rw [lastValue_settingsWith, lastValue_settingsWith] at same
  have rounded : sameValue Number.same (.number budget) (.number roundedBudget) = true := same
  revert rounded
  decide +kernel

end ClotoCore.Agents.EngineSelection
