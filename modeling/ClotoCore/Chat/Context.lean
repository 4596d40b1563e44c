import ClotoCore.Events.Bus
import ClotoCore.Lookup.Dictionary
import ClotoCore.Sequence.Sorted

/-!
# The context of a turn

The stored turns of a conversation, the transcript and what is recalled are merged into
one timeline, with one item for each id.
-/

namespace ClotoCore.Chat

open ClotoCore.Events (MessageSource)
open ClotoCore.Lookup ClotoCore.Sequence

/-- `ClotoMessage`, with its time in nanoseconds. -/
structure ClotoMessage where
  id : String
  source : MessageSource
  targetAgent : Option String
  content : String
  timestamp : Int
  metadata : Dictionary String String

/-- `CONTEXT_TYPE_KEY` -/
def contextTypeKey : String := "context_type"

/-- `CONTEXT_CONVERSATION` -/
def contextConversation : String := "conversation"

/-- `CONTEXT_MEMORY` -/
def contextMemory : String := "memory"

/-- The message with the list it comes from. -/
def tag (origin : String) (message : ClotoMessage) : ClotoMessage :=
  { message with metadata := message.metadata.insert (contextTypeKey, origin) }

/-- The items of all lists, the first list first. -/
def tagged (recalled conversation transcript : List ClotoMessage) : List ClotoMessage :=
  (conversation ++ transcript).map (tag contextConversation) ++ recalled.map (tag contextMemory)

/-- The ids that are seen, and what is merged. -/
structure Merge where
  seen : List String
  merged : List ClotoMessage

/-- One item: the message that is answered and an id that is seen are left out. -/
def Merge.add (currentId : String) (merge : Merge) (message : ClotoMessage) : Merge :=
  if message.id ≠ "" ∧ message.id = currentId then merge
  else if message.id = "" then { merge with merged := merge.merged ++ [message] }
  else if message.id ∈ merge.seen then merge
  else ⟨merge.seen ++ [message.id], merge.merged ++ [message]⟩

/-- `merge_context` -/
def mergeContext (recalled conversation transcript : List ClotoMessage) (currentId : String) :
    List ClotoMessage :=
  let merge := (tagged recalled conversation transcript).foldl (Merge.add currentId) ⟨[], []⟩
  sortBy ClotoMessage.timestamp merge.merged

/-! ## What is merged -/

variable {currentId id : String} {seen : List String} {items : List ClotoMessage}

/-- The items that are merged when some ids are seen. -/
def merged (currentId : String) (seen : List String) : List ClotoMessage → List ClotoMessage
  | [] => []
  | message :: rest =>
      if message.id ≠ "" ∧ message.id = currentId then merged currentId seen rest
      else if message.id = "" then message :: merged currentId seen rest
      else if message.id ∈ seen then merged currentId seen rest
      else message :: merged currentId (seen ++ [message.id]) rest

theorem foldl_add (merge : Merge) :
    (items.foldl (Merge.add currentId) merge).merged =
      merge.merged ++ merged currentId merge.seen items := by
  induction items generalizing merge with
  | nil => simp [merged]
  | cons message rest ih =>
      rw [List.foldl_cons, ih, Merge.add, merged]
      split
      · rfl
      split
      · simp
      split
      · rfl
      · simp

/-- Items are merged in their order. -/
theorem merged_sublist : (merged currentId seen items).Sublist items := by
  induction items generalizing seen with
  | nil => exact List.Sublist.refl _
  | cons message rest ih =>
      rw [merged]
      split
      · exact ih.cons message
      split
      · exact ih.cons_cons message
      split
      · exact ih.cons message
      · exact ih.cons_cons message

/-- The message that is answered is not merged. -/
theorem merged_current (named : currentId ≠ "") :
    (merged currentId seen items).filter (fun item => item.id == currentId) = [] := by
  induction items generalizing seen with
  | nil => rfl
  | cons message rest ih =>
      rw [merged]
      split
      · exact ih
      case isFalse other =>
        have differs : message.id ≠ currentId := fun same => other ⟨same ▸ named, same⟩
        split
        · rw [List.filter_cons_of_neg (by simpa using differs)]
          exact ih
        split
        · exact ih
        · rw [List.filter_cons_of_neg (by simpa using differs)]
          exact ih

/-- Every item without an id is merged. -/
theorem merged_without_id :
    (merged currentId seen items).filter (fun item => item.id == "") =
      items.filter fun item => item.id == "" := by
  induction items generalizing seen with
  | nil => rfl
  | cons message rest ih =>
      rw [merged]
      split
      case isTrue current =>
        rw [List.filter_cons_of_neg (by simpa using current.1)]
        exact ih
      split
      case isTrue without =>
        rw [List.filter_cons_of_pos (by simpa using without),
          List.filter_cons_of_pos (by simpa using without), ih]
      case isFalse named =>
        rw [List.filter_cons_of_neg (by simpa using named)]
        split
        · exact ih
        · rw [List.filter_cons_of_neg (by simpa using named)]
          exact ih

/-- Of the items with an id the first is merged, unless the id is seen. -/
theorem merged_with_id (named : id ≠ "") (other : id ≠ currentId) :
    (merged currentId seen items).filter (fun item => item.id == id) =
      if id ∈ seen then [] else (items.find? fun item => item.id == id).toList := by
  induction items generalizing seen with
  | nil => simp [merged]
  | cons message rest ih =>
      rw [merged]
      by_cases own : message.id = id
      · subst own
        rw [if_neg (fun current => other current.2), if_neg named]
        split
        case isTrue old => rw [ih, if_pos old]
        case isFalse fresh =>
          rw [List.filter_cons_of_pos (by simp), ih, if_pos (by simp),
            List.find?_cons_of_pos (by simp)]
          rfl
      · have skipped : (message.id == id) = false := by simpa using own
        rw [List.find?_cons_of_neg (by simpa using own)]
        split
        · exact ih
        split
        · rw [List.filter_cons_of_neg (by simp [skipped])]
          exact ih
        split
        · exact ih
        · rw [List.filter_cons_of_neg (by simp [skipped]), ih]
          simp [Ne.symm own]

/-! ## The timeline -/

section Timeline

variable (recalled conversation transcript : List ClotoMessage) (currentId : String)

theorem mergeContext_eq :
    mergeContext recalled conversation transcript currentId =
      sortBy ClotoMessage.timestamp
        (merged currentId [] (tagged recalled conversation transcript)) := by
  rw [mergeContext, foldl_add]
  rfl

theorem find?_tagged (id : String) :
    (tagged recalled conversation transcript).find? (fun item => item.id == id) =
      ((((conversation.find? fun item => item.id == id).or
        (transcript.find? fun item => item.id == id)).map (tag contextConversation)).or
        ((recalled.find? fun item => item.id == id).map (tag contextMemory))) := by
  rw [tagged, List.find?_append, List.find?_map, List.find?_map, ← List.find?_append]
  rfl

/-- The timeline has for each id the item of the first list that has it, every item without
an id and no other, in the order of their times and for one time in that of the lists; and
each item says which list it comes from. -/
theorem mergeContext_correct :
    let result := mergeContext recalled conversation transcript currentId
    (∀ id, id ≠ "" → id ≠ currentId → result.filter (fun item => item.id == id) =
      ((((conversation.find? fun item => item.id == id).or
        (transcript.find? fun item => item.id == id)).map (tag contextConversation)).or
        ((recalled.find? fun item => item.id == id).map (tag contextMemory))).toList) ∧
    (result.filter fun item => item.id == "").Perm
      ((tagged recalled conversation transcript).filter fun item => item.id == "") ∧
    (currentId ≠ "" → ∀ item ∈ result, item.id ≠ currentId) ∧
    (∀ item ∈ result,
      (∃ message ∈ conversation ++ transcript, item = tag contextConversation message ∧
        item.metadata.value contextTypeKey = some contextConversation) ∨
      ∃ message ∈ recalled, item = tag contextMemory message ∧
        item.metadata.value contextTypeKey = some contextMemory) ∧
    (result.Pairwise fun first second => first.timestamp ≤ second.timestamp) ∧
    ∀ time, (result.filter fun item => item.timestamp == time).Sublist
      (tagged recalled conversation transcript) := by
  intro result
  have whole : result = sortBy ClotoMessage.timestamp
      (merged currentId [] (tagged recalled conversation transcript)) :=
    mergeContext_eq recalled conversation transcript currentId
  have perm : result.Perm (merged currentId [] (tagged recalled conversation transcript)) := by
    rw [whole]
    exact perm_sortBy _ _
  refine ⟨?_, ?_, ?_, ?_, ?_, ?_⟩
  · intro id named other
    have own := perm.filter fun item => item.id == id
    rw [merged_with_id named other, if_neg List.not_mem_nil, find?_tagged] at own
    revert own
    generalize Option.or _ _ = found
    cases found with
    | none => exact fun own => List.perm_nil.mp own
    | some item => exact fun own => List.perm_singleton.mp own
  · have without := perm.filter fun item => item.id == ""
    rwa [merged_without_id] at without
  · intro named item mem same
    have none := perm.filter fun item => item.id == currentId
    rw [merged_current named, List.perm_nil] at none
    exact List.filter_eq_nil_iff.mp none item mem (by simpa using same)
  · intro item mem
    have source := merged_sublist.subset (perm.mem_iff.mp mem)
    rcases List.mem_append.mp source with mem | mem
    · obtain ⟨message, listed, rfl⟩ := List.mem_map.mp mem
      exact .inl ⟨message, listed, rfl, Dictionary.value_insert_self⟩
    · obtain ⟨message, listed, rfl⟩ := List.mem_map.mp mem
      exact .inr ⟨message, listed, rfl, Dictionary.value_insert_self⟩
  · rw [whole]
    exact pairwise_sortBy _ _
  · intro time
    rw [whole, filter_sortBy]
    exact List.filter_sublist.trans merged_sublist

end Timeline

end ClotoCore.Chat
