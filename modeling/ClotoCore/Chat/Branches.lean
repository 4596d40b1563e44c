import ClotoCore.Chat.Store
import ClotoCore.Sequence.Numbered
import ClotoCore.Transition.Run

/-!
# Branches below a message

The replies to one message are its branches.  A turn reads the next branch index in
one statement and stores its reply with it in another, and nothing in the table keeps
two replies of one parent apart.
-/

namespace ClotoCore.Chat

open ClotoCore.Sequence ClotoCore.Transition

/-- A message that is replied to; `parentId` is the one of its metadata. -/
structure TurnMessage where
  id : String
  agentId : String
  userId : String
  parentId : Option String
  conversationId : Option String

/-- The parent of the reply. -/
def TurnMessage.responseParent (message : TurnMessage) : String :=
  message.parentId.getD message.id

/-- `agent_reply_row`, and the row of `deliver_consensus_result`. -/
def TurnMessage.replyRow (message : TurnMessage) (content : String) (metadata : Option String)
    (createdAt branchIndex : Int) : ChatMessageRow where
  id := message.id ++ "-resp"
  agentId := message.agentId
  userId := message.userId
  source := "agent"
  content := content
  metadata := metadata
  createdAt := createdAt
  parentId := some message.responseParent
  branchIndex := branchIndex
  conversationId := message.conversationId

/-- A turn reads its branch index and then stores its reply.  How many siblings there
were at the read, where it succeeded, is read by no step. -/
inductive Stage where
  | reading
  | saving (branchIndex : Int) (seen : Option Nat)
  | ended

/-- A message on its way into the store. -/
structure Turn where
  message : TurnMessage
  stage : Stage

/-- The stored messages, and those on their way. -/
structure State where
  store : List ChatMessageRow
  turns : List Turn

/-- Nothing stored, nothing on its way. -/
def State.init : State where
  store := []
  turns := []

/-- `store` saves a row with a branch index of its own: the message of a user, or the
mark of a stopped turn.  `written` says whether one of the attempts gets through. -/
inductive Label where
  | begin (message : TurnMessage)
  | read (turn : Nat) (readable : Bool)
  | save (turn : Nat) (content : String) (metadata : Option String) (createdAt : Int)
      (written : Bool)
  | store (row : ChatMessageRow) (written : Bool)

namespace State

/-- The row can be stored: its id is not taken. -/
def isFresh (state : State) (id : String) : Bool :=
  state.store.all fun row => row.id != id

/-- `save_chat_message_reliable` -/
def saveChatMessage (state : State) (row : ChatMessageRow) (written : Bool) : State :=
  if written && state.isFresh row.id then { state with store := state.store ++ [row] } else state

/-- The turn is in a new stage. -/
def setStage (state : State) (n : Nat) (message : TurnMessage) (stage : Stage) : State :=
  { state with turns := state.turns.set n ⟨message, stage⟩ }

/-- The branch index that a turn goes on with, where a failed read counts as zero. -/
def readIndex (state : State) (message : TurnMessage) (readable : Bool) : Stage :=
  if readable then
    .saving (getNextBranchIndex state.store message.responseParent)
      (some (siblings state.store message.responseParent).length)
  else .saving 0 none

end State

/-- One step. -/
def step : Action State Label
  | state, .begin message => some { state with turns := state.turns ++ [⟨message, .reading⟩] }
  | state, .read n readable =>
      match state.turns[n]? with
      | some ⟨message, .reading⟩ =>
          some (state.setStage n message (state.readIndex message readable))
      | _ => none
  | state, .save n content metadata createdAt written =>
      match state.turns[n]? with
      | some ⟨message, .saving branchIndex _⟩ =>
          let row := message.replyRow content metadata createdAt branchIndex
          some ((state.saveChatMessage row written).setStage n message .ended)
      | _ => none
  | state, .store row written => some (state.saveChatMessage row written)

/-- The branches below each message are numbered from zero as they were stored. -/
def Branched (state : State) : Prop :=
  ∀ parentId, (siblings state.store parentId).map ChatMessageRow.branchIndex
    = (List.range (siblings state.store parentId).length).map Int.ofNat

/-- How many siblings a turn saw, where it is about to store its reply. -/
def Stage.seen? : Stage → Option (Option Nat)
  | .saving _ seen => some seen
  | _ => none

/-- A reply is stored while its parent has as many branches as when the turn read its
index, or none if that read failed, and there are less than 2³¹; another row with a
parent has the number of branches that are there. -/
def Undisturbed (state : State) : Label → Prop
  | .save n _ _ _ written => written = true → ∀ turn ∈ state.turns[n]?, ∀ seen ∈ turn.stage.seen?,
      state.isFresh (turn.message.id ++ "-resp") = true →
        let count := (siblings state.store turn.message.responseParent).length
        seen.getD 0 = count ∧ count < 2147483648
  | .store row written => written = true → state.isFresh row.id = true →
      ∀ parentId ∈ row.parentId, row.branchIndex = (siblings state.store parentId).length
  | _ => True

instance (state : State) : ∀ label, Decidable (Undisturbed state label)
  | .save n _ _ _ written => inferInstanceAs <| Decidable <|
      written = true → ∀ turn ∈ state.turns[n]?, ∀ seen ∈ turn.stage.seen?,
        state.isFresh (turn.message.id ++ "-resp") = true →
          seen.getD 0 = (siblings state.store turn.message.responseParent).length ∧
            (siblings state.store turn.message.responseParent).length < 2147483648
  | .store row written => inferInstanceAs <| Decidable <|
      written = true → state.isFresh row.id = true →
        ∀ parentId ∈ row.parentId, row.branchIndex = (siblings state.store parentId).length
  | .begin _ | .read _ _ => isTrue trivial

variable {state next : State} {label : Label} {row : ChatMessageRow} {message : TurnMessage}
  {written : Bool}

/-- A turn that is about to store its reply has the index after the siblings it saw, and
there are still as many of them. -/
def Turn.Remembers (store : List ChatMessageRow) (turn : Turn) : Prop :=
  ∀ branchIndex seen, turn.stage = .saving branchIndex seen →
    branchIndex = ((seen.getD 0 : Nat) : Int).bmod 4294967296 ∧
      seen.getD 0 ≤ (siblings store turn.message.responseParent).length

/-- The branches are numbered, and each turn remembers what it read. -/
structure Carried (state : State) : Prop where
  branched : Branched state
  remembers : ∀ turn ∈ state.turns, turn.Remembers state.store

/-! ## Numbers -/

theorem max?_range (count : Nat) :
    ((List.range count).map Int.ofNat).max?.getD (-1) + 1 = count := by
  cases count with
  | zero => rfl
  | succ count =>
      have largest : ((List.range (count + 1)).map Int.ofNat).max? = some (count : Int) := by
        rw [List.max?_eq_some_iff]
        constructor
        · exact List.mem_map_of_mem (List.mem_range.mpr (Nat.lt_succ_self count))
        · intro index mem
          rcases List.mem_map.mp mem with ⟨n, inRange, rfl⟩
          have bound := List.mem_range.mp inRange
          simp only [Int.ofNat_eq_natCast]
          omega
      rw [largest]
      rfl

/-- Where the branches are numbered, the next index is their number. -/
theorem getNextBranchIndex_of_branched (branched : Branched state) (parentId : String) :
    getNextBranchIndex state.store parentId
      = ((siblings state.store parentId).length : Int).bmod 4294967296 := by
  rw [getNextBranchIndex, branched parentId, max?_range]

/-- A number that is kept in 32 bits is not smaller than another one exactly if it is
the same and has less than 32 bits. -/
theorem bmod_eq_iff {seen count : Nat} (seenLe : seen ≤ count) :
    (seen : Int).bmod 4294967296 = count ↔ seen = count ∧ count < 2147483648 := by
  rw [Int.bmod_def]
  split <;> omega

theorem siblings_concat (store : List ChatMessageRow) (row : ChatMessageRow) (parentId : String) :
    siblings (store ++ [row]) parentId
      = siblings store parentId ++ if row.parentId = some parentId then [row] else [] := by
  unfold siblings
  rw [List.filter_append]
  congr 1
  by_cases here : row.parentId = some parentId <;> simp [here]

/-- A row keeps the branches numbered exactly if it has the number of its siblings. -/
theorem Branched.concat_iff (branched : Branched state) :
    Branched { state with store := state.store ++ [row] } ↔
      ∀ parentId ∈ row.parentId, row.branchIndex = (siblings state.store parentId).length := by
  unfold Branched
  dsimp only
  constructor
  · intro after parentId mem
    have here : row.parentId = some parentId := mem
    have numbered := after parentId
    rw [siblings_concat, if_pos here, List.map_append, branched parentId, List.length_append,
      List.length_singleton, List.range_succ, List.map_append] at numbered
    simpa using (List.append_cancel_left numbered)
  · intro numbered parentId
    rw [siblings_concat]
    by_cases here : row.parentId = some parentId
    · rw [if_pos here, List.map_append, branched parentId, List.length_append,
        List.length_singleton, List.range_succ, List.map_append]
      simp [numbered parentId here]
    · rw [if_neg here, List.append_nil]
      exact branched parentId

/-! ## Each step -/

/-- More siblings are not fewer. -/
theorem Turn.Remembers.concat {store : List ChatMessageRow} {turn : Turn}
    (remembers : turn.Remembers store) : turn.Remembers (store ++ [row]) := by
  intro branchIndex seen stageEq
  rcases remembers branchIndex seen stageEq with ⟨indexEq, seenLe⟩
  refine ⟨indexEq, ?_⟩
  rw [siblings_concat, List.length_append]
  omega

/-- What saving a row does to the rows. -/
theorem saveChatMessage_cases (state : State) (row : ChatMessageRow) (written : Bool) :
    state.saveChatMessage row written = state ∧
        ¬(written = true ∧ state.isFresh row.id = true) ∨
      state.saveChatMessage row written = { state with store := state.store ++ [row] } ∧
        written = true ∧ state.isFresh row.id = true := by
  unfold State.saveChatMessage
  split
  · next both =>
    rw [Bool.and_eq_true] at both
    exact Or.inr ⟨rfl, both⟩
  · next neither =>
    rw [Bool.and_eq_true] at neither
    exact Or.inl ⟨rfl, neither⟩

theorem Carried.saveChatMessage_remembers (carried : Carried state) :
    ∀ turn ∈ (state.saveChatMessage row written).turns,
      turn.Remembers (state.saveChatMessage row written).store := by
  rcases saveChatMessage_cases state row written with ⟨same, -⟩ | ⟨added, -⟩
  · rw [same]
    exact carried.remembers
  · rw [added]
    intro turn mem
    exact (carried.remembers turn mem).concat

/-- Saving a row keeps the branches numbered exactly if the row, where it is stored, has
the number of its siblings. -/
theorem Carried.branched_saveChatMessage_iff (carried : Carried state) :
    Branched (state.saveChatMessage row written) ↔
      (written = true → state.isFresh row.id = true →
        ∀ parentId ∈ row.parentId, row.branchIndex = (siblings state.store parentId).length) := by
  rcases saveChatMessage_cases state row written with ⟨same, notStored⟩ | ⟨added, stored⟩
  · rw [same]
    constructor
    · intro _ isWritten fresh
      exact absurd ⟨isWritten, fresh⟩ notStored
    · intro
      exact carried.branched
  · rw [added, carried.branched.concat_iff]
    constructor
    · intro numbered _ _
      exact numbered
    · intro numbered
      exact numbered stored.1 stored.2

theorem Turn.Remembers.ended (store : List ChatMessageRow) (message : TurnMessage) :
    Turn.Remembers store ⟨message, .ended⟩ := by
  intro branchIndex seen stageEq
  cases stageEq

/-- A turn that reads its index remembers it. -/
theorem Carried.readIndex_remembers (carried : Carried state) (readable : Bool) :
    Turn.Remembers state.store ⟨message, state.readIndex message readable⟩ := by
  intro branchIndex seen stageEq
  unfold State.readIndex at stageEq
  split at stageEq
  · cases stageEq
    rw [getNextBranchIndex_of_branched carried.branched]
    exact ⟨rfl, Nat.le_refl _⟩
  · cases stageEq
    exact ⟨rfl, Nat.zero_le _⟩

/-- Whatever keeps the branches numbered keeps what the turns remember. -/
theorem Carried.step (carried : Carried state) (stepEq : step state label = some next)
    (branched : Branched next) : Carried next := by
  refine ⟨branched, ?_⟩
  cases label with
  | begin message =>
      rw [← Option.some.inj stepEq]
      intro turn mem
      rcases List.mem_append.mp mem with earlier | this
      · exact carried.remembers turn earlier
      · cases List.mem_singleton.mp this
        intro branchIndex seen stageEq
        cases stageEq
  | read n readable =>
      simp only [Chat.step] at stepEq
      split at stepEq
      · next message there =>
        rw [← Option.some.inj stepEq]
        intro turn mem
        rcases List.mem_or_eq_of_mem_set mem with earlier | this
        · exact carried.remembers turn earlier
        · rw [this]
          exact carried.readIndex_remembers readable
      · cases stepEq
  | save n content metadata createdAt written =>
      simp only [Chat.step] at stepEq
      split at stepEq
      · next message branchIndex seen there =>
        rw [← Option.some.inj stepEq]
        intro turn mem
        rcases List.mem_or_eq_of_mem_set mem with earlier | this
        · exact carried.saveChatMessage_remembers turn earlier
        · rw [this]
          exact Turn.Remembers.ended _ message
      · cases stepEq
  | store row written =>
      rw [← Option.some.inj stepEq]
      exact carried.saveChatMessage_remembers

/-- A step keeps the branches numbered exactly if it stores nothing out of turn. -/
theorem Carried.branched_step_iff (carried : Carried state)
    (stepEq : Chat.step state label = some next) : Branched next ↔ Undisturbed state label := by
  cases label with
  | begin message =>
      rw [← Option.some.inj stepEq]
      constructor
      · intro
        trivial
      · intro
        exact carried.branched
  | read n readable =>
      simp only [Chat.step] at stepEq
      split at stepEq
      · rw [← Option.some.inj stepEq]
        constructor
        · intro
          trivial
        · intro
          exact carried.branched
      · cases stepEq
  | save n content metadata createdAt written =>
      simp only [Chat.step] at stepEq
      split at stepEq
      · next message branchIndex seen there =>
        rw [← Option.some.inj stepEq]
        rcases carried.remembers _ (List.mem_of_getElem? there) branchIndex seen rfl
          with ⟨indexEq, seenLe⟩
        have restaged : Branched ((state.saveChatMessage
            (message.replyRow content metadata createdAt branchIndex) written).setStage n message
              .ended) ↔
            Branched (state.saveChatMessage
              (message.replyRow content metadata createdAt branchIndex) written) := Iff.rfl
        rw [restaged, carried.branched_saveChatMessage_iff]
        constructor
        · intro numbered isWritten turn turnHere other otherSeen fresh
          cases Option.some.inj (turnHere.symm.trans there)
          cases Option.some.inj otherSeen
          have index := numbered isWritten fresh message.responseParent rfl
          exact (bmod_eq_iff seenLe).mp (indexEq.symm.trans index)
        · intro undisturbed isWritten fresh parentId here
          cases Option.some.inj here
          have same := undisturbed isWritten _ there seen rfl fresh
          exact indexEq.trans ((bmod_eq_iff seenLe).mpr same)
      · cases stepEq
  | store row written =>
      rw [← Option.some.inj stepEq]
      exact carried.branched_saveChatMessage_iff

/-- Throughout a run the branches below each message are numbered from zero in the order
they were stored exactly if no turn stores its reply after another sibling came in
between, or after a read that failed to see one, and no other row has an index of its own. -/
theorem branched_throughout_iff {labels : List Label} {target : State}
    (ran : run step .init labels = some target) :
    (∀ count middle, run step .init (labels.take count) = some middle → Branched middle) ↔
      Along step Undisturbed .init labels := by
  have branched : ∀ ⦃state⦄, Carried state → Branched state := fun _ carried => carried.branched
  apply throughout_iff_along_of branched _ _ _ ran
  · intro state label next carried undisturbed stepEq
    exact carried.step stepEq ((carried.branched_step_iff stepEq).mpr undisturbed)
  · intro state label next carried stepEq after
    exact (carried.branched_step_iff stepEq).mp after
  · refine ⟨?_, ?_⟩
    · intro parentId
      rfl
    · intro turn mem
      cases mem

/-- A retry of the message `m1`. -/
def retryOf (id : String) : TurnMessage where
  id := id
  agentId := "agent.cloto_default"
  userId := "default"
  parentId := some "m1"
  conversationId := none

/-- Two retries one after the other make two branches. -/
theorem branched_two_retries :
    ∃ target, run step .init
        [.begin (retryOf "r1"), .read 0 true, .save 0 "a" none 1 true,
          .begin (retryOf "r2"), .read 1 true, .save 1 "b" none 2 true] = some target ∧
      Branched target := by
  have runs : (run step .init
      [.begin (retryOf "r1"), .read 0 true, .save 0 "a" none 1 true,
        .begin (retryOf "r2"), .read 1 true, .save 1 "b" none 2 true]).isSome = true := by
    decide +kernel
  rcases Option.isSome_iff_exists.mp runs with ⟨target, ran⟩
  exact ⟨target, ran, (branched_throughout_iff ran).mpr (by decide +kernel) 6 target ran⟩

/-- Two retries that both read before either stores its reply make one branch index. -/
theorem two_replies_one_branch :
    ¬ ∀ labels target, run step .init labels = some target → Branched target := by
  intro branched
  have collided : ∃ target ∈ run step .init
      [.begin (retryOf "r1"), .begin (retryOf "r2"), .read 0 true, .read 1 true,
        .save 0 "a" none 1 true, .save 1 "b" none 2 true],
      (siblings target.store "m1").map ChatMessageRow.branchIndex
        ≠ (List.range (siblings target.store "m1").length).map Int.ofNat := by
    decide +kernel
  rcases collided with ⟨target, ran, different⟩
  exact different (branched _ target ran "m1")

end ClotoCore.Chat
