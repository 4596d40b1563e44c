import ClotoCore.Chat.Store
import ClotoCore.Sequence.Paged

/-!
# Reading a chat page by page

A page of messages is cut off by a number of rows, and the next one begins before
the time of its oldest message.  One row more than the page holds is asked for to
tell whether there are more, but the query has a limit of its own.
-/

namespace ClotoCore.Chat

open ClotoCore.Sequence

/-- What the configuration says about chat queries. -/
structure Config where
  maxChatQueryLimit : Int
  valid : 10 ≤ maxChatQueryLimit ∧ maxChatQueryLimit ≤ 10000

/-- `GetMessagesQuery` without `before`, and the agent of the path. -/
structure GetMessagesQuery where
  agentId : String
  userId : Option String
  limit : Option Int
  conversationId : Option String

/-- `DEFAULT_USER_ID` -/
def defaultUserId : String := "default"

/-- How many messages `get_messages` puts on a page. -/
def GetMessagesQuery.pageLimit (params : GetMessagesQuery) (config : Config) : Int :=
  min (max (params.limit.getD 50) 1) config.maxChatQueryLimit

/-- The messages that a query is about. -/
def GetMessagesQuery.rows (params : GetMessagesQuery) (store : List ChatMessageRow)
    (before : Option Int) : List ChatMessageRow :=
  matching store params.agentId (params.userId.getD defaultUserId) params.conversationId before

/-- `get_messages` -/
def getMessages (order : ByCreatedAt) (config : Config) (store : List ChatMessageRow)
    (params : GetMessagesQuery) (before : Option Int) : Page ChatMessageRow :=
  let limit := params.pageLimit config
  let messages := getChatMessages order store params.agentId
    (params.userId.getD defaultUserId) params.conversationId before (limit + 1)
    config.maxChatQueryLimit
  { items := messages.take limit.toNat
    more := limit < messages.length }

/-- A client that asks for the messages before the oldest one that it received, as long
as there are more. -/
def readMessages (order : ByCreatedAt) (config : Config) (store : List ChatMessageRow)
    (params : GetMessagesQuery) : Nat → Option Int → List (Page ChatMessageRow)
  | 0, _ => []
  | fuel + 1, before =>
      let page := getMessages order config store params before
      page :: match page.more, page.items.getLast? with
        | true, some oldest =>
            readMessages order config store params fuel (some oldest.createdAt)
        | _, _ => []

variable {order : ByCreatedAt} {config : Config} {store : List ChatMessageRow}
  {params : GetMessagesQuery}

theorem pageLimit_pos : 0 < params.pageLimit config := by
  have valid := config.valid.1
  simp only [GetMessagesQuery.pageLimit]
  omega

theorem pageLimit_le : params.pageLimit config ≤ config.maxChatQueryLimit := by
  simp only [GetMessagesQuery.pageLimit]
  omega

/-- How the client reads, in the terms of a paged collection. -/
def GetMessagesQuery.paging (params : GetMessagesQuery) (order : ByCreatedAt) (config : Config) :
    Paging ChatMessageRow ChatMessageRow.createdAt where
  arrange := order.arrange
  perm := order.perm
  descending := order.descending
  size := (params.pageLimit config).toNat
  positive := by
    have positive : 0 < params.pageLimit config := pageLimit_pos
    omega
  fetched := (min (params.pageLimit config + 1) config.maxChatQueryLimit).toNat
  full := by
    have bounded : params.pageLimit config ≤ config.maxChatQueryLimit := pageLimit_le
    omega
  spare := by omega

theorem getMessages_eq (before : Option Int) :
    getMessages order config store params before
      = (params.paging order config).page (params.rows store before) := by
  have positive : 0 < params.pageLimit config := pageLimit_pos
  have bounded : params.pageLimit config ≤ config.maxChatQueryLimit := pageLimit_le
  have notNegative : ¬min (params.pageLimit config + 1) config.maxChatQueryLimit < 0 := by omega
  unfold getMessages getChatMessages limitRows Paging.page GetMessagesQuery.paging
    GetMessagesQuery.rows
  dsimp only
  rw [if_neg notNegative]
  congr 1
  apply decide_eq_decide.mpr
  omega

/-- Asking before a message that is older than the last bound asks below it. -/
theorem rows_before {before : Option Int} {oldest : ChatMessageRow}
    (mem : oldest ∈ params.rows store before) :
    params.rows store (some oldest.createdAt)
      = below ChatMessageRow.createdAt oldest.createdAt (params.rows store before) := by
  unfold GetMessagesQuery.rows matching below at *
  rw [List.filter_filter]
  apply List.filter_congr
  intro row _
  have bound := (List.mem_filter.mp mem).2
  simp only [Bool.and_eq_true] at bound
  cases before with
  | none => simp [Bool.and_comm]
  | some time =>
      have earlier : oldest.createdAt < time := of_decide_eq_true bound.2
      simp only [Option.all_some]
      by_cases older : row.createdAt < oldest.createdAt
      · have both : row.createdAt < time := Int.lt_trans older earlier
        simp [older, both]
      · simp [older]

theorem readMessages_eq (fuel : Nat) (before : Option Int) :
    readMessages order config store params fuel before
      = (params.paging order config).readAll fuel (params.rows store before) := by
  induction fuel generalizing before with
  | zero => rfl
  | succ fuel ih =>
      rw [readMessages, Paging.readAll, getMessages_eq]
      cases more : ((params.paging order config).page (params.rows store before)).more with
      | false => rfl
      | true =>
          cases oldestEq : ((params.paging order config).page
              (params.rows store before)).items.getLast? with
          | none => rfl
          | some oldest =>
              have mem : oldest ∈ params.rows store before := by
                have onPage := List.mem_of_getLast? oldestEq
                rw [Paging.page_items] at onPage
                exact (order.perm _).subset (List.mem_of_mem_take onPage)
              simp only
              rw [ih, rows_before mem]

/-- A client gets every message once and in order, and is told as long as there are
more, exactly if they all are on the first page, or the page is smaller than what a
query may return and no page ends among messages of one time. -/
theorem enumerates_readMessages_iff (order : ByCreatedAt) (config : Config)
    (store : List ChatMessageRow) (params : GetMessagesQuery) {fuel : Nat}
    (enough : (params.rows store none).length < fuel) :
    Paging.Enumerates ChatMessageRow.createdAt (params.rows store none)
        (readMessages order config store params fuel none) ↔
      (params.rows store none).length ≤ params.pageLimit config ∨
        params.pageLimit config < config.maxChatQueryLimit ∧
          Paging.GroupsWhole ChatMessageRow.createdAt (params.pageLimit config).toNat
            (params.rows store none) := by
  have positive : 0 < params.pageLimit config := pageLimit_pos
  have bounded : params.pageLimit config ≤ config.maxChatQueryLimit := pageLimit_le
  have size : (params.paging order config).size = (params.pageLimit config).toNat := rfl
  have fetched : (params.paging order config).fetched
      = (min (params.pageLimit config + 1) config.maxChatQueryLimit).toNat := rfl
  have first : (params.rows store none).length ≤ (params.paging order config).size ↔
      (params.rows store none).length ≤ params.pageLimit config := by omega
  have spare : (params.paging order config).size < (params.paging order config).fetched ↔
      params.pageLimit config < config.maxChatQueryLimit := by omega
  rw [readMessages_eq, Paging.enumerates_readAll_iff enough, first, spare, size]

/-- A message of the default agent's chat. -/
def message (id : String) (createdAt : Int) : ChatMessageRow where
  id := id
  agentId := "agent.cloto_default"
  userId := "default"
  source := "user"
  content := "[]"
  metadata := none
  createdAt := createdAt
  parentId := none
  branchIndex := 0
  conversationId := none

/-- A query for pages of a size. -/
def pagesOf (limit : Int) : GetMessagesQuery where
  agentId := "agent.cloto_default"
  userId := none
  limit := some limit
  conversationId := none

/-- Three messages in pages of two. -/
theorem enumerates_three :
    Paging.Enumerates ChatMessageRow.createdAt
      ((pagesOf 2).rows [message "m1" 10, message "m2" 20, message "m3" 30] none)
      (readMessages .stable ⟨200, by decide⟩ [message "m1" 10, message "m2" 20, message "m3" 30]
        (pagesOf 2) 4 none) := by
  have enough : ((pagesOf 2).rows [message "m1" 10, message "m2" 20, message "m3" 30]
      none).length < 4 := by decide +kernel
  exact (enumerates_readMessages_iff .stable ⟨200, by decide⟩
    [message "m1" 10, message "m2" 20, message "m3" 30] (pagesOf 2) enough).mpr
    (by decide +kernel)

/-- Eleven messages in pages of ten, where a query may return ten. -/
theorem messages_behind_full_page_lost :
    ¬ ∀ order config store params fuel, (params.rows store none).length < fuel →
      Paging.Enumerates ChatMessageRow.createdAt (params.rows store none)
        (readMessages order config store params fuel none) := by
  intro enumerates
  let config : Config := ⟨10, by decide⟩
  let store := (List.range 11).map fun n => message (toString n) n
  have all := enumerates .stable config store (pagesOf 10) 12 (by decide +kernel)
  rw [readMessages_eq, Paging.enumerates_readAll_iff (by decide +kernel)] at all
  exact absurd all (by decide +kernel)

end ClotoCore.Chat
