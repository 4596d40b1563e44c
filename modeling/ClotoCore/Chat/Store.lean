import Mathlib.Data.List.Sort
import Mathlib.Order.Defs.LinearOrder

/-!
# Stored chat messages

The rows of the chat, the query for a page of them, and the query for the next
branch below a message.  The page is ordered by the time of a message alone; what
comes first among messages of one time is left to the database.
-/

namespace ClotoCore.Chat

/-- `ChatMessageRow` -/
structure ChatMessageRow where
  id : String
  agentId : String
  userId : String
  source : String
  content : String
  metadata : Option String
  createdAt : Int
  parentId : Option String
  branchIndex : Int
  conversationId : Option String
  deriving DecidableEq

/-- An answer to `ORDER BY created_at DESC`. -/
structure ByCreatedAt where
  arrange : List ChatMessageRow → List ChatMessageRow
  perm : ∀ rows, (arrange rows).Perm rows
  descending : ∀ rows, (arrange rows).Pairwise fun newer older =>
    older.createdAt ≤ newer.createdAt

/-- The order of a stable sort. -/
def ByCreatedAt.stable : ByCreatedAt where
  arrange rows := rows.mergeSort fun newer older => older.createdAt ≤ newer.createdAt
  perm rows := List.mergeSort_perm rows _
  descending rows := by
    have transitive : ∀ first second third : ChatMessageRow,
        decide (second.createdAt ≤ first.createdAt) = true →
        decide (third.createdAt ≤ second.createdAt) = true →
        decide (third.createdAt ≤ first.createdAt) = true := by
      intro first second third newer older
      simp only [decide_eq_true_eq] at *
      exact Int.le_trans older newer
    have total : ∀ first second : ChatMessageRow,
        (decide (second.createdAt ≤ first.createdAt) ||
          decide (first.createdAt ≤ second.createdAt)) = true := by
      intro first second
      simp only [Bool.or_eq_true, decide_eq_true_eq]
      exact Int.le_total _ _
    have sorted := List.pairwise_mergeSort transitive total rows
    exact sorted.imp fun newer => of_decide_eq_true newer

/-- `LIMIT`, which does not bound anything when it is negative. -/
def limitRows {α : Type} (limit : Int) (rows : List α) : List α :=
  if limit < 0 then rows else rows.take limit.toNat

/-- The rows of the agent, the user and the conversation before a time. -/
def matching (store : List ChatMessageRow) (agentId userId : String)
    (conversationId : Option String) (beforeTs : Option Int) : List ChatMessageRow :=
  store.filter fun row =>
    row.agentId == agentId && (row.userId == userId || row.userId == "system") &&
      (conversationId.all fun id => row.conversationId == some id) &&
      beforeTs.all fun before => row.createdAt < before

/-- `get_chat_messages` -/
def getChatMessages (order : ByCreatedAt) (store : List ChatMessageRow) (agentId userId : String)
    (conversationId : Option String) (beforeTs : Option Int) (limit maxLimit : Int) :
    List ChatMessageRow :=
  limitRows (min limit maxLimit)
    (order.arrange (matching store agentId userId conversationId beforeTs))

/-- The messages below a parent, in the order they were stored. -/
def siblings (store : List ChatMessageRow) (parentId : String) : List ChatMessageRow :=
  store.filter fun row => row.parentId == some parentId

/-- `get_next_branch_index`: `COALESCE(MAX(branch_index), -1)` and one more, in 32 bits. -/
def getNextBranchIndex (store : List ChatMessageRow) (parentId : String) : Int :=
  (((siblings store parentId).map ChatMessageRow.branchIndex).max?.getD (-1) + 1).bmod 4294967296

end ClotoCore.Chat
