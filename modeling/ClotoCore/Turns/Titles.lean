import ClotoCore.Encoding.Text
import ClotoCore.Transition.Run

/-!
# Titles of conversations

A conversation is first titled by the first line of its first message.  After the
first exchange a task asks the engine for a title, looks whether the title is still
that line, and then writes its own.  The look and the write are two statements, and
a title is told to be the first line by its text, so a name that a person gave can
be replaced.
-/

namespace ClotoCore.Turns.Titles

open ClotoCore.Encoding ClotoCore.Transition

/-- `FIRST_LINE_TITLE_CHARS` -/
def firstLineTitleChars : Nat := 60

/-- `title_from_first_message` -/
def titleFromFirstMessage (content : String) : String :=
  let lines := (content.toList.splitOn '\n').map String.ofList
  let line := trim ((lines.find? fun line => trim line != "").getD "")
  if line.length ≤ firstLineTitleChars then line
  else String.ofList (line.toList.take firstLineTitleChars) ++ "…"

/-- `title_is_provisional` -/
def titleIsProvisional (title firstLine : String) : Bool :=
  title == "" || title == firstLine

/-- `trim_matches('"')` -/
def trimQuotes (text : String) : String :=
  let isQuote := fun c => c == '"'
  String.ofList ((text.toList.dropWhile isQuote).reverse.dropWhile isQuote).reverse

/-- The title that an answer of the engine gives, if it can be one. -/
def engineTitle (answer : String) : Option String :=
  let title := trim (trimQuotes (trim answer))
  if title = "" ∨ 120 < title.length then none else some title

/-- The name that a person asks for, if `update_conversation` takes it. -/
def givenName (title : String) : Option String :=
  if trim title = "" ∨ 200 < (trim title).length then none else some (trim title)

/-- The title of a conversation, and the name that a person gave it last. -/
structure Conversation where
  title : String
  name : Option String

/-- A task of `after_reply_persisted` asks the engine, looks, and writes the title. -/
inductive Stage where
  | asking
  | writing (title : String)
  | ended

/-- The task that titles a conversation. -/
structure Titling where
  conversationId : String
  firstLine : String
  stage : Stage

/-- An automatic title, and the one it was written over. -/
structure Written where
  before : String
  firstLine : String

/-- The conversations, the tasks and the automatic titles so far.  No step reads
the names that persons gave or what was written. -/
structure State where
  rows : String → Option Conversation
  tasks : List Titling
  written : List Written

/-- No conversations yet. -/
def State.init : State where
  rows := fun _ => none
  tasks := []
  written := []

/-- One statement on the conversations, or one step of a task.  `readable` says
whether a read succeeds, `messages` is the answer of a count. -/
inductive Label where
  | create (id : String)
  | delete (id : String)
  | rename (id title : String)
  | noteMessage (id content : String)
  | replyPersisted (id userText : String) (messages : Option Nat) (readable : Bool)
  | answer (task : Nat) (answer : Option String) (readable : Bool)
  | write (task : Nat)

namespace State

/-- Change the conversation of an id, if there is one. -/
def update (state : State) (id : String) (change : Conversation → Conversation) : State :=
  { state with
    rows := fun other => if other = id then (state.rows id).map change else state.rows other }

/-- The rename of `update_conversation`. -/
def rename (state : State) (id title : String) : State :=
  match givenName title with
  | none => state
  | some name => state.update id fun _ => ⟨name, some name⟩

/-- An automatic title, where the conversation is there. -/
def retitle (state : State) (id title firstLine : String) : State :=
  match state.rows id with
  | none => state
  | some row =>
      { state.update id fun row => { row with title := title } with
        written := state.written ++ [⟨row.title, firstLine⟩] }

/-- `set_title_if_empty` in `note_conversation_message`. -/
def noteMessage (state : State) (id content : String) : State :=
  let firstTitle := titleFromFirstMessage content
  if firstTitle ≠ "" ∧ ∃ row ∈ state.rows id, row.title = "" then
    state.retitle id firstTitle firstTitle
  else state

/-- The title that is there is chosen, where the conversation can be read. -/
def isChosen (state : State) (id firstLine : String) (readable : Bool) : Bool :=
  readable && (state.rows id).any fun row => !titleIsProvisional row.title firstLine

/-- `after_reply_persisted`, up to the task. -/
def replyPersisted (state : State) (id userText : String) (messages : Option Nat)
    (readable : Bool) : State :=
  let firstLine := titleFromFirstMessage userText
  if messages = some 2 ∧ state.isChosen id firstLine readable = false then
    { state with tasks := state.tasks ++ [⟨id, firstLine, .asking⟩] }
  else state

/-- How the task of `after_reply_persisted` goes on after an answer of the engine. -/
def afterAnswer (state : State) (task : Titling) (answer : Option String) (readable : Bool) :
    Stage :=
  let stands := readable && (state.rows task.conversationId).any fun row =>
    titleIsProvisional row.title task.firstLine
  match answer.bind engineTitle with
  | some title => if stands then .writing title else .ended
  | none => .ended

/-- Move a task on. -/
def setStage (state : State) (n : Nat) (task : Titling) (stage : Stage) : State :=
  { state with tasks := state.tasks.set n { task with stage := stage } }

end State

/-- One step. -/
def step : Action State Label
  | state, .create id =>
      some
        { state with
          rows := fun other =>
            if other = id then some ((state.rows id).getD ⟨"", none⟩) else state.rows other }
  | state, .delete id =>
      some { state with rows := fun other => if other = id then none else state.rows other }
  | state, .rename id title => some (state.rename id title)
  | state, .noteMessage id content => some (state.noteMessage id content)
  | state, .replyPersisted id userText messages readable =>
      some (state.replyPersisted id userText messages readable)
  | state, .answer n answer readable =>
      match state.tasks[n]? with
      | some ⟨id, firstLine, .asking⟩ =>
          let task : Titling := ⟨id, firstLine, .asking⟩
          some (state.setStage n task (state.afterAnswer task answer readable))
      | _ => none
  | state, .write n =>
      match state.tasks[n]? with
      | some ⟨id, firstLine, .writing title⟩ =>
          some ((state.retitle id title firstLine).setStage n
            ⟨id, firstLine, .writing title⟩ .ended)
      | _ => none

/-- The title that a person gave is final, and automatic titles are written over
empty and first-line ones only. -/
structure HumanFinal (state : State) : Prop where
  final : ∀ id row, state.rows id = some row → ∀ name, row.name = some name → row.title = name
  provisional : ∀ written ∈ state.written,
    titleIsProvisional written.before written.firstLine = true

/-- A task that waits for the engine. -/
def Stage.asks : Stage → Bool
  | .asking => true
  | _ => false

/-- A task that has looked at the title and not yet written its own. -/
def Stage.looked : Stage → Bool
  | .writing _ => true
  | _ => false

/-- A step that disturbs no titling.  Between the look of a task and its write nothing
else titles the conversation: no person, no other task, and no message but one with the
line that the task takes for provisional.  And no person gives a conversation the line
with which a task compares its title. -/
def Undisturbed (state : State) : Label → Prop
  | .rename id title => (state.rows id).isSome = true → ∀ name ∈ givenName title,
      ∀ task ∈ state.tasks, task.conversationId = id →
        task.stage.looked = false ∧ (task.stage.asks = true → name ≠ task.firstLine)
  | .noteMessage id content => ∀ row ∈ state.rows id, row.title = "" →
      ∀ task ∈ state.tasks, task.conversationId = id → task.stage.looked = true →
        titleFromFirstMessage content = "" ∨ titleFromFirstMessage content = task.firstLine
  | .replyPersisted id userText messages _ => messages = some 2 → ∀ row ∈ state.rows id,
      row.name ≠ some (titleFromFirstMessage userText)
  | .write n => ∀ task ∈ state.tasks[n]?, ∀ other ∈ state.tasks.eraseIdx n,
      other.conversationId = task.conversationId → other.stage.looked = false
  | _ => True

instance (state : State) : ∀ label, Decidable (Undisturbed state label)
  | .rename id title => inferInstanceAs <| Decidable <|
      (state.rows id).isSome = true → ∀ name ∈ givenName title,
        ∀ task ∈ state.tasks, task.conversationId = id →
          task.stage.looked = false ∧ (task.stage.asks = true → name ≠ task.firstLine)
  | .noteMessage id content => inferInstanceAs <| Decidable <|
      ∀ row ∈ state.rows id, row.title = "" →
        ∀ task ∈ state.tasks, task.conversationId = id → task.stage.looked = true →
          titleFromFirstMessage content = "" ∨ titleFromFirstMessage content = task.firstLine
  | .replyPersisted id userText messages _ => inferInstanceAs <| Decidable <|
      messages = some 2 → ∀ row ∈ state.rows id,
        row.name ≠ some (titleFromFirstMessage userText)
  | .write n => inferInstanceAs <| Decidable <|
      ∀ task ∈ state.tasks[n]?, ∀ other ∈ state.tasks.eraseIdx n,
        other.conversationId = task.conversationId → other.stage.looked = false
  | .create _ | .delete _ | .answer _ _ _ => isTrue trivial

variable {state next : State} {label : Label} {id title firstLine : String}

/-- Names are not empty. -/
def Named (state : State) : Prop :=
  ∀ id row, state.rows id = some row → ∀ name, row.name = some name → name ≠ ""

theorem ne_of_givenName {name : String} (given : givenName title = some name) : name ≠ "" := by
  unfold givenName at given
  split at given
  · cases given
  · next taken =>
    cases given
    intro empty
    exact taken (Or.inl empty)

/-! ## One statement -/

/-- A change of one conversation keeps what it keeps of that one. -/
theorem HumanFinal.update {change : Conversation → Conversation} (human : HumanFinal state)
    (final : ∀ row, state.rows id = some row → ∀ name, (change row).name = some name →
      (change row).title = name) : HumanFinal (state.update id change) where
  provisional := human.provisional
  final := by
    intro other row held name named
    by_cases same : other = id
    · subst same
      simp only [State.update, if_true, Option.map_eq_some_iff] at held
      rcases held with ⟨before, beforeEq, rfl⟩
      exact final before beforeEq name named
    · simp only [State.update, if_neg same] at held
      exact human.final other row held name named

theorem Named.update {change : Conversation → Conversation} (named : Named state)
    (kept : ∀ row, state.rows id = some row → ∀ name, (change row).name = some name →
      name ≠ "") : Named (state.update id change) := by
  intro other row held name nameEq
  by_cases same : other = id
  · subst same
    simp only [State.update, if_true, Option.map_eq_some_iff] at held
    rcases held with ⟨before, beforeEq, rfl⟩
    exact kept before beforeEq name nameEq
  · simp only [State.update, if_neg same] at held
    exact named other row held name nameEq

theorem HumanFinal.rename (human : HumanFinal state) : HumanFinal (state.rename id title) := by
  unfold State.rename
  split
  · exact human
  · apply human.update
    intro row _ name nameEq
    exact Option.some.inj nameEq

theorem Named.rename (named : Named state) : Named (state.rename id title) := by
  unfold State.rename
  split
  · exact named
  · next name given =>
    apply named.update
    intro row _ other nameEq
    cases nameEq
    exact ne_of_givenName given

/-- A title that is written leaves the names alone. -/
theorem Named.retitle (named : Named state) : Named (state.retitle id title firstLine) := by
  unfold State.retitle
  split
  · exact named
  · have updated : Named (state.update id fun row => { row with title := title }) :=
      named.update fun before beforeEq => named id before beforeEq
    exact updated

/-- An automatic title over an empty or first-line one that no person gave keeps the
names final. -/
theorem HumanFinal.retitle (human : HumanFinal state)
    (stands : ∀ row ∈ state.rows id,
      titleIsProvisional row.title firstLine = true ∧ row.name = none) :
    HumanFinal (state.retitle id title firstLine) := by
  unfold State.retitle
  split
  · exact human
  · next row held =>
    rcases stands row held with ⟨provisional, unnamed⟩
    have updated : HumanFinal (state.update id fun row => { row with title := title }) := by
      apply human.update
      intro before beforeEq name nameEq
      rw [held] at beforeEq
      cases beforeEq
      rw [unnamed] at nameEq
      cases nameEq
    constructor
    · exact updated.final
    · intro written mem
      rcases List.mem_append.mp mem with earlier | this
      · exact human.provisional written earlier
      · cases List.mem_singleton.mp this
        exact provisional

theorem HumanFinal.noteMessage {content : String} (human : HumanFinal state) (named : Named state) :
    HumanFinal (state.noteMessage id content) := by
  unfold State.noteMessage
  dsimp only
  split
  · next empty =>
    rcases empty with ⟨-, blank, blankHere, isEmpty⟩
    apply human.retitle
    intro row here
    have same : row = blank := Option.some.inj (here.symm.trans blankHere)
    subst same
    constructor
    · simp [titleIsProvisional, isEmpty]
    · cases nameEq : row.name with
      | none => rfl
      | some name =>
          have final := human.final id row here name nameEq
          exact absurd (final.symm.trans isEmpty) (named id row here name nameEq)
  · exact human

theorem Named.noteMessage {content : String} (named : Named state) :
    Named (state.noteMessage id content) := by
  unfold State.noteMessage
  dsimp only
  split
  · exact named.retitle
  · exact named

/-! ## Every step -/

/-- What a step does. -/
inductive Stepped (state : State) : Label → State → Prop where
  | create (id : String) :
      Stepped state (.create id)
        { state with
          rows := fun other =>
            if other = id then some ((state.rows id).getD ⟨"", none⟩) else state.rows other }
  | delete (id : String) :
      Stepped state (.delete id)
        { state with rows := fun other => if other = id then none else state.rows other }
  | rename (id title : String) : Stepped state (.rename id title) (state.rename id title)
  | noteMessage (id content : String) :
      Stepped state (.noteMessage id content) (state.noteMessage id content)
  | replyPersisted (id userText : String) (messages : Option Nat) (readable : Bool) :
      Stepped state (.replyPersisted id userText messages readable)
        (state.replyPersisted id userText messages readable)
  | answer {n : Nat} {task : Titling} {answer : Option String} {readable : Bool}
      (there : state.tasks[n]? = some task) (asks : task.stage = .asking) :
      Stepped state (.answer n answer readable)
        (state.setStage n task (state.afterAnswer task answer readable))
  | write {n : Nat} {id firstLine title : String}
      (there : state.tasks[n]? = some ⟨id, firstLine, .writing title⟩) :
      Stepped state (.write n)
        ((state.retitle id title firstLine).setStage n ⟨id, firstLine, .writing title⟩ .ended)

theorem stepped (stepEq : step state label = some next) : Stepped state label next := by
  cases label with
  | create id =>
      rw [← Option.some.inj stepEq]
      exact .create id
  | delete id =>
      rw [← Option.some.inj stepEq]
      exact .delete id
  | rename id title =>
      rw [← Option.some.inj stepEq]
      exact .rename id title
  | noteMessage id content =>
      rw [← Option.some.inj stepEq]
      exact .noteMessage id content
  | replyPersisted id userText messages readable =>
      rw [← Option.some.inj stepEq]
      exact .replyPersisted id userText messages readable
  | answer n answer readable =>
      simp only [step] at stepEq
      split at stepEq
      · next there =>
        rw [← Option.some.inj stepEq]
        exact .answer there rfl
      · cases stepEq
  | write n =>
      simp only [step] at stepEq
      split at stepEq
      · next id firstLine title there =>
        rw [← Option.some.inj stepEq]
        exact .write there
      · cases stepEq

theorem Named.step (named : Named state) (stepEq : step state label = some next) : Named next := by
  cases stepped stepEq with
  | create id =>
      intro other row held name nameEq
      by_cases same : other = id
      · simp only [same, if_true, Option.some.injEq] at held
        cases before : state.rows id with
        | none =>
            simp only [before, Option.getD_none] at held
            rw [← held] at nameEq
            cases nameEq
        | some conversation =>
            simp only [before, Option.getD_some] at held
            rw [← held] at nameEq
            exact named id conversation before name nameEq
      · simp only [if_neg same] at held
        exact named other row held name nameEq
  | delete id =>
      intro other row held name nameEq
      by_cases same : other = id
      · simp only [same, if_true, reduceCtorEq] at held
      · simp only [if_neg same] at held
        exact named other row held name nameEq
  | rename id title => exact named.rename
  | noteMessage id content => exact named.noteMessage
  | replyPersisted id userText messages readable =>
      unfold State.replyPersisted
      dsimp only
      split <;> exact named
  | answer there asks => exact named
  | @write n id firstLine title there =>
      have retitled : Named (state.retitle id title firstLine) := named.retitle
      exact retitled

/-- A task that has looked finds an empty or first-line title that no person gave, until
it writes; one that asks compares the title with no person's name. -/
structure Guarded (state : State) : Prop where
  asking : ∀ task ∈ state.tasks, task.stage.asks = true →
    ∀ row ∈ state.rows task.conversationId, row.name ≠ some task.firstLine
  looked : ∀ task ∈ state.tasks, task.stage.looked = true →
    ∀ row ∈ state.rows task.conversationId,
      titleIsProvisional row.title task.firstLine = true ∧ row.name = none

/-- What undisturbed steps preserve. -/
structure Kept (state : State) : Prop where
  human : HumanFinal state
  named : Named state
  guarded : Guarded state

/-- A change of the conversations that changes neither names nor the titles that tasks
have looked at. -/
theorem Guarded.of_rows (guarded : Guarded state) (tasks : next.tasks = state.tasks)
    (rows : ∀ id, ∀ row ∈ next.rows id, row.name = none ∧ row.title = "" ∨
      ∃ before ∈ state.rows id, row.name = before.name ∧
        (row.title = before.title ∨ ∀ task ∈ state.tasks, task.conversationId = id →
          task.stage.looked = true → titleIsProvisional row.title task.firstLine = true)) :
    Guarded next := by
  constructor
  · intro task mem asks row held
    rw [tasks] at mem
    rcases rows _ row held with ⟨unnamed, -⟩ | ⟨before, beforeHeld, nameEq, -⟩
    · rw [unnamed]
      exact nofun
    · rw [nameEq]
      exact guarded.asking task mem asks before beforeHeld
  · intro task mem looks row held
    rw [tasks] at mem
    rcases rows _ row held with ⟨unnamed, blank⟩ | ⟨before, beforeHeld, nameEq, titleEq⟩
    · exact ⟨by simp [titleIsProvisional, blank], unnamed⟩
    · rcases guarded.looked task mem looks before beforeHeld with ⟨provisional, unnamed⟩
      refine ⟨?_, nameEq.trans unnamed⟩
      rcases titleEq with same | fits
      · rw [same]
        exact provisional
      · exact fits task mem rfl looks

/-- An automatic title that the tasks which have looked take for provisional. -/
theorem Guarded.retitle (guarded : Guarded state)
    (fits : ∀ row ∈ state.rows id, ∀ task ∈ state.tasks, task.conversationId = id →
      task.stage.looked = true → titleIsProvisional title task.firstLine = true) :
    Guarded (state.retitle id title firstLine) := by
  unfold State.retitle
  split
  · exact guarded
  · next row held =>
    refine guarded.of_rows (?_ : _ = state.tasks) ?_
    · rfl
    intro other after afterHeld
    right
    by_cases same : other = id
    · subst same
      simp only [State.update, if_true, held, Option.map_some, Option.mem_some_iff] at afterHeld
      rw [← afterHeld]
      exact ⟨row, held, rfl, .inr (fits row held)⟩
    · simp only [State.update, if_neg same] at afterHeld
      exact ⟨after, afterHeld, rfl, .inl rfl⟩

/-- Step: a person names a conversation. -/
theorem Guarded.rename (guarded : Guarded state)
    (undisturbed : Undisturbed state (.rename id title)) : Guarded (state.rename id title) := by
  unfold State.rename
  split
  · exact guarded
  · next name given =>
    constructor
    · intro task mem asks row held
      by_cases same : task.conversationId = id
      · simp only [State.update, if_pos same, Option.mem_def, Option.map_eq_some_iff] at held
        rcases held with ⟨before, beforeHeld, rfl⟩
        have there : (state.rows id).isSome = true := by
          rw [beforeHeld]
          rfl
        have other := (undisturbed there name given task mem same).2 asks
        intro typed
        exact other (Option.some.inj typed)
      · simp only [State.update, if_neg same] at held
        exact guarded.asking task mem asks row held
    · intro task mem looks row held
      by_cases same : task.conversationId = id
      · simp only [State.update, if_pos same, Option.mem_def, Option.map_eq_some_iff] at held
        rcases held with ⟨before, beforeHeld, rfl⟩
        have there : (state.rows id).isSome = true := by
          rw [beforeHeld]
          rfl
        have between := (undisturbed there name given task mem same).1
        rw [looks] at between
        cases between
      · simp only [State.update, if_neg same] at held
        exact guarded.looked task mem looks row held

/-- Step: the first line of a message. -/
theorem Guarded.noteMessage {content : String} (guarded : Guarded state)
    (undisturbed : Undisturbed state (.noteMessage id content)) :
    Guarded (state.noteMessage id content) := by
  unfold State.noteMessage
  dsimp only
  split
  · next empty =>
    rcases empty with ⟨some, blank, blankHere, isEmpty⟩
    apply guarded.retitle
    intro row held task mem same looks
    rcases undisturbed blank blankHere isEmpty task mem same looks with none | fits
    · exact absurd none some
    · simp [titleIsProvisional, fits]
  · exact guarded

/-- Step: a reply starts a task. -/
theorem Guarded.replyPersisted {userText : String} {messages : Option Nat} {readable : Bool}
    (guarded : Guarded state)
    (undisturbed : Undisturbed state (.replyPersisted id userText messages readable)) :
    Guarded (state.replyPersisted id userText messages readable) := by
  unfold State.replyPersisted
  dsimp only
  split
  · next starts =>
    have fresh : ∀ row ∈ state.rows id, row.name ≠ some (titleFromFirstMessage userText) :=
      undisturbed starts.1
    generalize titleFromFirstMessage userText = line at fresh ⊢
    constructor
    · intro task mem asks
      rcases List.mem_append.mp mem with earlier | new
      · exact guarded.asking task earlier asks
      · obtain rfl := List.mem_singleton.mp new
        exact fresh
    · intro task mem looks
      rcases List.mem_append.mp mem with earlier | new
      · exact guarded.looked task earlier looks
      · obtain rfl := List.mem_singleton.mp new
        cases looks
  · exact guarded

/-- Step: the answer of the engine, and the look at the title behind it. -/
theorem Kept.afterAnswer {task : Titling} {n : Nat} {answer : Option String} {readable : Bool}
    (kept : Kept state) (there : state.tasks[n]? = some task) (asks : task.stage = .asking) :
    Guarded (state.setStage n task (state.afterAnswer task answer readable)) := by
  have waits : task.stage.asks = true := by
    rw [asks]
    rfl
  constructor
  · intro other mem otherAsks
    rcases List.mem_or_eq_of_mem_set mem with old | new
    · exact kept.guarded.asking other old otherAsks
    · subst new
      exact kept.guarded.asking task (List.mem_of_getElem? there) waits
  · intro other mem looks
    rcases List.mem_or_eq_of_mem_set mem with old | new
    · exact kept.guarded.looked other old looks
    · subst new
      intro row held
      have provisional : titleIsProvisional row.title task.firstLine = true := by
        simp only [State.afterAnswer] at looks
        split at looks
        · split at looks
          · next stands =>
            rw [Bool.and_eq_true] at stands
            have here : state.rows task.conversationId = some row := held
            have found := stands.2
            rw [here, Option.any_some] at found
            exact found
          · cases looks
        · cases looks
      refine ⟨provisional, ?_⟩
      cases nameEq : row.name with
      | none => rfl
      | some name =>
          -- a name that is taken for provisional is the line of the task
          have titleEq := kept.human.final _ row held name nameEq
          have nonempty := kept.named _ row held name nameEq
          have typed := kept.guarded.asking task (List.mem_of_getElem? there) waits row held
          rw [titleEq] at provisional
          simp only [titleIsProvisional, Bool.or_eq_true, beq_iff_eq] at provisional
          rcases provisional with blank | line
          · exact absurd blank nonempty
          · rw [nameEq, line] at typed
            exact absurd rfl typed

/-- What an entry of a list with one changed is. -/
theorem eq_or_mem_eraseIdx_of_mem_set {tasks : List Titling} {n : Nat} {task put : Titling}
    (mem : task ∈ tasks.set n put) : task = put ∨ task ∈ tasks.eraseIdx n := by
  rw [List.set_eq_take_append_cons_drop] at mem
  split at mem
  · rcases List.mem_append.mp mem with before | here
    · right
      rw [List.eraseIdx_eq_take_drop_succ]
      exact List.mem_append_left _ before
    · rcases List.mem_cons.mp here with same | after
      · exact .inl same
      · right
        rw [List.eraseIdx_eq_take_drop_succ]
        exact List.mem_append_right _ after
  · next beyond =>
    right
    rw [List.eraseIdx_of_length_le (Nat.not_lt.mp beyond)]
    exact mem

/-- Step: a task writes its title. -/
theorem Kept.write {n : Nat} (kept : Kept state)
    (there : state.tasks[n]? = some ⟨id, firstLine, .writing title⟩)
    (undisturbed : Undisturbed state (.write n)) :
    Kept ((state.retitle id title firstLine).setStage n ⟨id, firstLine, .writing title⟩
      .ended) := by
  have human : HumanFinal (state.retitle id title firstLine) :=
    kept.human.retitle (kept.guarded.looked _ (List.mem_of_getElem? there) rfl)
  have tasksEq : (state.retitle id title firstLine).tasks = state.tasks := by
    unfold State.retitle
    split <;> rfl
  refine ⟨⟨human.final, human.provisional⟩, kept.named.retitle, ?_⟩
  -- no other task has looked at this conversation
  have others : Guarded
      (State.retitle { state with tasks := state.tasks.eraseIdx n } id title firstLine) := by
    apply Guarded.retitle
    · exact ⟨fun task mem => kept.guarded.asking task (List.mem_of_mem_eraseIdx mem),
        fun task mem => kept.guarded.looked task (List.mem_of_mem_eraseIdx mem)⟩
    · intro row held task mem same looks
      have idle := undisturbed _ there task mem same
      rw [looks] at idle
      cases idle
  have rowsEq : (State.retitle { state with tasks := state.tasks.eraseIdx n } id title
      firstLine).rows = (state.retitle id title firstLine).rows := by
    unfold State.retitle
    cases state.rows id <;> rfl
  have othersTasks : (State.retitle { state with tasks := state.tasks.eraseIdx n } id title
      firstLine).tasks = state.tasks.eraseIdx n := by
    unfold State.retitle
    cases state.rows id <;> rfl
  constructor
  · intro task mem asks
    rw [State.setStage, tasksEq] at mem
    rcases eq_or_mem_eraseIdx_of_mem_set mem with rfl | other
    · cases asks
    · have guarded := others.asking task (by rw [othersTasks]; exact other) asks
      rw [rowsEq] at guarded
      exact guarded
  · intro task mem looks
    rw [State.setStage, tasksEq] at mem
    rcases eq_or_mem_eraseIdx_of_mem_set mem with rfl | other
    · cases looks
    · have guarded := others.looked task (by rw [othersTasks]; exact other) looks
      rw [rowsEq] at guarded
      exact guarded

/-- Step: an undisturbed step. -/
theorem Kept.step (kept : Kept state) (undisturbed : Undisturbed state label)
    (stepEq : step state label = some next) : Kept next := by
  cases stepped stepEq with
  | create id =>
      refine ⟨⟨?_, kept.human.provisional⟩, kept.named.step stepEq, ?_⟩
      · intro other row held name nameEq
        by_cases same : other = id
        · simp only [same, if_true, Option.some.injEq] at held
          cases before : state.rows id with
          | none =>
              simp only [before, Option.getD_none] at held
              rw [← held] at nameEq
              cases nameEq
          | some conversation =>
              simp only [before, Option.getD_some] at held
              rw [← held] at nameEq ⊢
              exact kept.human.final id conversation before name nameEq
        · simp only [if_neg same] at held
          exact kept.human.final other row held name nameEq
      · refine kept.guarded.of_rows (?_ : _ = state.tasks) ?_
        · rfl
        intro other row held
        by_cases same : other = id
        · simp only [same, if_true, Option.mem_some_iff] at held
          cases before : state.rows id with
          | none =>
              simp only [before, Option.getD_none] at held
              rw [← held]
              exact .inl ⟨rfl, rfl⟩
          | some conversation =>
              simp only [before, Option.getD_some] at held
              rw [← held, same]
              exact .inr ⟨conversation, before, rfl, .inl rfl⟩
        · simp only [if_neg same] at held
          exact .inr ⟨row, held, rfl, .inl rfl⟩
  | delete id =>
      refine ⟨⟨?_, kept.human.provisional⟩, kept.named.step stepEq, ?_⟩
      · intro other row held name nameEq
        by_cases same : other = id
        · simp only [same, if_true, reduceCtorEq] at held
        · simp only [if_neg same] at held
          exact kept.human.final other row held name nameEq
      · refine kept.guarded.of_rows (?_ : _ = state.tasks) ?_
        · rfl
        intro other row held
        by_cases same : other = id
        · simp only [same, if_true, Option.mem_def, reduceCtorEq] at held
        · simp only [if_neg same] at held
          exact .inr ⟨row, held, rfl, .inl rfl⟩
  | rename id title =>
      exact ⟨kept.human.rename, kept.named.rename, kept.guarded.rename undisturbed⟩
  | noteMessage id content =>
      exact ⟨kept.human.noteMessage kept.named, kept.named.noteMessage,
        kept.guarded.noteMessage undisturbed⟩
  | replyPersisted id userText messages readable =>
      refine ⟨?_, kept.named.step stepEq, kept.guarded.replyPersisted undisturbed⟩
      unfold State.replyPersisted
      dsimp only
      split
      · exact ⟨kept.human.final, kept.human.provisional⟩
      · exact kept.human
  | answer there asks =>
      exact ⟨⟨kept.human.final, kept.human.provisional⟩, kept.named.step stepEq,
        kept.afterAnswer there asks⟩
  | write there => exact kept.write there undisturbed

theorem kept_init : Kept .init where
  human := ⟨nofun, nofun⟩
  named := nofun
  guarded := ⟨nofun, nofun⟩

/-- Throughout a run of undisturbed steps the title that a person gave is final, and
automatic ones are written over empty and first-line titles only. -/
theorem humanFinal_throughout {labels : List Label}
    (undisturbed : Along step Undisturbed .init labels) (count : Nat) {middle : State}
    (ran : run step .init (labels.take count) = some middle) : HumanFinal middle := by
  have kept : Kept middle :=
    run_invariant_along Kept (fun _ _ _ kept undisturbed stepEq => kept.step undisturbed stepEq)
      kept_init (undisturbed.take count) ran
  exact kept.human

/-- The engine names a conversation that still has the line it was opened with, and a
person renames it behind that. -/
def renamedBehind : List Label :=
  [.create "c1", .noteMessage "c1" "hello", .replyPersisted "c1" "hello" (some 2) true,
    .answer 0 (some "Greetings") true, .write 0, .rename "c1" "Mine"]

theorem humanFinal_renamedBehind :
    ∃ target, run step .init (renamedBehind.take 6) = some target ∧ HumanFinal target := by
  have runs : (run step .init (renamedBehind.take 6)).isSome = true := by
    decide +kernel
  rcases Option.isSome_iff_exists.mp runs with ⟨target, ran⟩
  have undisturbed : Along step Undisturbed .init renamedBehind := by decide +kernel
  exact ⟨target, ran, humanFinal_throughout undisturbed 6 ran⟩

/-- A name given while the engine was asked for a title is replaced by that title. -/
theorem name_replaced_by_engine :
    ¬ ∀ labels target, run step .init labels = some target → HumanFinal target := by
  intro human
  have replaced : ∃ target ∈ run step .init
      [.create "c1", .noteMessage "c1" "hello", .replyPersisted "c1" "hello" (some 2) true,
        .answer 0 (some "Greetings") true, .rename "c1" "Mine", .write 0],
      ∃ row ∈ target.rows "c1", row.name = some "Mine" ∧ row.title ≠ "Mine" := by
    decide +kernel
  rcases replaced with ⟨target, ran, row, held, named, changed⟩
  exact changed ((human _ target ran).final "c1" row held "Mine" named)

end ClotoCore.Turns.Titles
