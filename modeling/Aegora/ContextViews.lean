import Aegora.OrderedQuery
import Aegora.SessionTurns

/-!
# The two views of a session

`load_session_context_views` gives a configured turn two windows of the stored
conversation: the newest messages of the session, and the newest messages of
the user in it that the first window does not show. It makes two limited
queries, newest first, and the second asks for as many messages more as the
first may hide; what is left after the set difference is cut at the front.

The content store answers the pages of a query as asked (`storePage`). An entry
is the dictionary that `normalize_entity` makes of it.
-/

namespace Aegora

open Py

namespace ContextViews

/-! ## The content store -/

/-- `filters[field][$eq]`. -/
def matchesFilters (filters : List (String × String)) (row : Dict) : Bool :=
  filters.all fun f => Dict.get row f.1 = .str f.2

/-- The entries a query finds, newest first; the store has the oldest first. -/
def foundRows (store : List Dict) (filters : List (String × String)) : List Dict :=
  (store.filter (matchesFilters filters)).reverse

def pageCount (found : List Dict) (pageSize : ℕ) : ℕ := (found.length + pageSize - 1) / pageSize

/-- `data` of the answer to a query. -/
def storePage (found : List Dict) (pageSize page : ℕ) : List Dict :=
  (found.drop ((page - 1) * pageSize)).take pageSize

/-- The loop of `StrapiClient.list` from `page` on, `result` read before. -/
def listPages (found : List Dict) (pageSize maxItems page : ℕ) (result : List Dict) :
    List Dict :=
  let rows := storePage found pageSize page
  let result := result ++ rows
  if maxItems ≤ result.length then result.take maxItems
  else if rows = [] ∨ pageCount found pageSize ≤ page then result
  else listPages found pageSize maxItems (page + 1) result
termination_by pageCount found pageSize - page
decreasing_by omega

/-! ## The queries -/

def isVisible (row : Dict) : Bool :=
  Dict.get row "role" ∈ [.str "user", .str "assistant"]
    && (Dict.get row "message_key").truthy
    && Dict.get row "content" ≠ .null

/-- The body of `load_session_messages` and of `load_session_user_messages`. -/
def loadMessages (store : List Dict) (filters : List (String × String)) (limit : ℕ) :
    List Dict :=
  let rows := listPages (foundRows store filters) (max 1 (min limit 100)) limit 1 []
  ((rows.filter isVisible).take limit).reverse

/-- `load_session_messages`. -/
def loadSessionMessages (store : List Dict) (sessionId : String) (limit : ℕ) : List Dict :=
  loadMessages store [("session_id", normalizeSessionId sessionId)] limit

/-- `load_session_user_messages`. -/
def loadSessionUserMessages (store : List Dict) (sessionId userId : String) (limit : ℕ) :
    List Dict :=
  let sessionId := normalizeSessionId sessionId
  loadMessages store [("session_id", sessionId), ("user_id", sessionUserId sessionId userId)]
    limit

/-- `str(row.get("message_key"))`. -/
def keyText (row : Dict) : String := (Dict.get row "message_key").pyStr

/-- `context_item_from_message`. -/
def contextItemFromMessage (row : Dict) : Dict :=
  [("message_key", .str ((Dict.get row "message_key").orElse (.str "")).pyStr),
    ("role", Dict.get row "role"), ("content", Dict.get row "content"),
    ("user_id", Dict.get row "user_id"), ("trace_id", Dict.get row "trace_id")]

/-- `items[-n:]`. -/
def lastItems {α : Type} (n : ℕ) (items : List α) : List α :=
  if n = 0 then items else items.drop (items.length - n)

structure Views where
  sessionContext : List Dict
  sessionUserContext : List Dict

/-- `load_session_context_views`. -/
def loadSessionContextViews (store : List Dict) (sessionId : String) (userId : Option String)
    (sessionLimit userLimit : ℕ) : Views :=
  let sessionRows := loadSessionMessages store sessionId sessionLimit
  let userRows := loadSessionUserMessages store sessionId
    (sessionUserId sessionId (userId.getD "")) (userLimit + sessionLimit)
  let seen := (sessionRows.filter fun row => (Dict.get row "message_key").truthy).map keyText
  { sessionContext := sessionRows.map contextItemFromMessage
    sessionUserContext := lastItems userLimit ((userRows.filter fun row =>
      (Dict.get row "message_key").truthy && keyText row ∉ seen).map contextItemFromMessage) }

/-! ## Reading the pages -/

theorem storePage_next (found : List Dict) (pageSize page : ℕ) :
    found.take ((page + 1 - 1) * pageSize) ++ storePage found pageSize (page + 1)
      = found.take ((page + 1) * pageSize) := by
  unfold storePage
  rw [Nat.add_sub_cancel, ← List.take_add, Nat.succ_mul]

/-- All is read when the last page is. -/
theorem length_le_of_lastPage {found : List Dict} {pageSize page : ℕ} (hsize : 0 < pageSize)
    (h : storePage found pageSize (page + 1) = [] ∨ pageCount found pageSize ≤ page + 1) :
    found.length ≤ (page + 1) * pageSize := by
  rcases h with h | h
  · have hlength := congrArg List.length h
    unfold storePage at hlength
    rw [List.length_take, List.length_drop, List.length_nil, Nat.add_sub_cancel] at hlength
    rw [Nat.succ_mul]
    omega
  · unfold pageCount at h
    have hlt := Nat.lt_mul_of_div_lt (Nat.lt_succ_of_le h) hsize
    rw [Nat.succ_mul] at hlt
    have hcomm := Nat.mul_comm (page + 1) pageSize
    omega

/-- The pages are read up to the limit, whatever their size. By induction over the pages that
are left. -/
theorem listPages_from {found : List Dict} {pageSize maxItems : ℕ} (hsize : 0 < pageSize)
    (page : ℕ) (result : List Dict) (hresult : result = found.take (page * pageSize)) :
    listPages found pageSize maxItems (page + 1) result = found.take maxItems := by
  induction h : pageCount found pageSize - page using Nat.strongRecOn generalizing page result with
  | ind left ih =>
      have hread : result ++ storePage found pageSize (page + 1)
          = found.take ((page + 1) * pageSize) := by
        rw [← storePage_next, Nat.add_sub_cancel, hresult]
      unfold listPages
      dsimp only
      rw [hread]
      split
      · rename_i henough
        rw [List.length_take] at henough
        rw [List.take_take, min_eq_left (henough.trans (min_le_left _ _))]
      · rename_i hmore
        rw [List.length_take, not_le] at hmore
        split
        · rename_i hlast
          have hall := length_le_of_lastPage hsize hlast
          rw [List.take_of_length_le hall, List.take_of_length_le (by omega)]
        · rename_i hnext
          rw [not_or, not_le] at hnext
          exact ih (pageCount found pageSize - (page + 1)) (by omega) (page + 1) _ rfl rfl

theorem listPages_eq_take {found : List Dict} {pageSize : ℕ} (hsize : 0 < pageSize)
    (maxItems : ℕ) : listPages found pageSize maxItems 1 [] = found.take maxItems :=
  listPages_from hsize 0 [] (by simp)

/-! ## Windows -/

/-- The `n` items at the end. -/
def newest {α : Type} (n : ℕ) (items : List α) : List α := items.drop (items.length - n)

theorem newest_eq {α : Type} (n : ℕ) (items : List α) :
    newest n items = (items.reverse.take n).reverse := by
  rw [List.take_reverse, List.reverse_reverse]
  rfl

theorem lastItems_eq {α : Type} {n : ℕ} (h : 1 ≤ n) (items : List α) :
    lastItems n items = newest n items := if_neg (by omega)

theorem newest_map {α β : Type} (f : α → β) (n : ℕ) (items : List α) :
    newest n (items.map f) = (newest n items).map f := by
  unfold newest
  rw [List.length_map, List.map_drop]

theorem newest_sublist {α : Type} (n : ℕ) (items : List α) : (newest n items).Sublist items :=
  List.drop_sublist _ _

theorem length_newest_le {α : Type} (n : ℕ) (items : List α) : (newest n items).length ≤ n := by
  unfold newest
  rw [List.length_drop]
  omega

/-- A stored conversation: every entry is a message of the user or the assistant
with a key of its own and a content. -/
structure Conversation (store : List Dict) : Prop where
  visible : ∀ row ∈ store, isVisible row = true
  keys : (store.map keyText).Nodup

theorem loadMessages_eq {store : List Dict} (h : ∀ row ∈ store, isVisible row = true)
    (filters : List (String × String)) (limit : ℕ) :
    loadMessages store filters limit
      = newest limit (store.filter (matchesFilters filters)) := by
  have hvisible : ∀ row ∈ (foundRows store filters).take limit, isVisible row = true := by
    intro row hrow
    have hfound := List.mem_reverse.mp (List.mem_of_mem_take hrow)
    exact h row (List.mem_of_mem_filter hfound)
  unfold loadMessages
  dsimp only
  rw [listPages_eq_take (by omega), List.filter_eq_self.mpr hvisible, List.take_take, min_self,
    newest_eq]
  rfl

/-! ## The user of a session -/

theorem normalizeSessionId_stripped (sessionId : String) :
    strip (normalizeSessionId sessionId) = normalizeSessionId sessionId
      ∧ normalizeSessionId sessionId ≠ "" := by
  unfold normalizeSessionId textOr
  split
  · decide
  · rename_i hne
    exact ⟨strip_strip sessionId, hne⟩

theorem sessionUserId_stripped (sessionId userId : String) :
    strip (sessionUserId sessionId userId) = sessionUserId sessionId userId
      ∧ sessionUserId sessionId userId ≠ "" := by
  unfold sessionUserId
  by_cases hblank : strip userId = ""
  · obtain ⟨hstrip, hne⟩ := normalizeSessionId_stripped sessionId
    rw [textOr, if_pos hblank, deriveUserIdFromSession]
    refine ⟨strip_append (by decide) (by decide) hstrip hne, fun hempty => ?_⟩
    have hlist := congrArg String.toList hempty
    rw [String.toList_append] at hlist
    simp at hlist
  · rw [textOr, if_neg hblank]
    exact ⟨strip_strip userId, hblank⟩

/-- Asking for the user a second time gives the same user. -/
theorem sessionUserId_again (sessionId sessionId' userId : String) :
    sessionUserId sessionId' (sessionUserId sessionId userId) = sessionUserId sessionId userId := by
  obtain ⟨hstrip, hne⟩ := sessionUserId_stripped sessionId userId
  change textOr (strip (sessionUserId sessionId userId)) _ = _
  rw [hstrip, textOr, if_neg hne]

/-! ## The two views -/

def ofSession (sessionId : String) (row : Dict) : Bool :=
  Dict.get row "session_id" = .str (normalizeSessionId sessionId)

def ofUser (sessionId : String) (userId : Option String) (row : Dict) : Bool :=
  Dict.get row "user_id" = .str (sessionUserId sessionId (userId.getD ""))

/-- The messages that are read are visible messages of the session. -/
theorem mem_loadSessionMessages {store : List Dict} {row : Dict} {sessionId : String} {limit : ℕ}
    (h : row ∈ loadSessionMessages store sessionId limit) :
    row ∈ store ∧ ofSession sessionId row = true ∧ isVisible row = true := by
  unfold loadSessionMessages loadMessages at h
  dsimp only at h
  rw [listPages_eq_take (by omega), List.mem_reverse] at h
  obtain ⟨htaken, hvisible⟩ := List.mem_filter.mp (List.mem_of_mem_take h)
  obtain ⟨hmem, hmatches⟩ := List.mem_filter.mp
    (List.mem_reverse.mp (List.mem_of_mem_take htaken))
  refine ⟨hmem, ?_, hvisible⟩
  simpa [matchesFilters, ofSession] using hmatches

section

variable {store : List Dict} (h : Conversation store)

include h

theorem loadSessionMessages_eq (sessionId : String) (limit : ℕ) :
    loadSessionMessages store sessionId limit
      = newest limit (store.filter (ofSession sessionId)) := by
  unfold loadSessionMessages
  rw [loadMessages_eq h.visible]
  refine congrArg (newest limit) (List.filter_congr fun row _ => ?_)
  simp [matchesFilters, ofSession]

theorem loadSessionUserMessages_eq (sessionId : String) (userId : Option String) (limit : ℕ) :
    loadSessionUserMessages store sessionId (sessionUserId sessionId (userId.getD "")) limit
      = newest limit ((store.filter (ofSession sessionId)).filter (ofUser sessionId userId)) := by
  unfold loadSessionUserMessages
  dsimp only
  rw [sessionUserId_again, loadMessages_eq h.visible, List.filter_filter]
  refine congrArg (newest limit) (List.filter_congr fun row _ => ?_)
  simp [matchesFilters, ofSession, ofUser, Bool.and_comm]

theorem keyText_inj {a b : Dict} (ha : a ∈ store) (hb : b ∈ store)
    (hkey : keyText a = keyText b) : a = b :=
  List.inj_on_of_nodup_map h.keys ha hb hkey

theorem truthy_key {row : Dict} (hrow : row ∈ store) :
    (Dict.get row "message_key").truthy = true := by
  have hvisible := h.visible row hrow
  unfold isVisible at hvisible
  simp only [Bool.and_eq_true] at hvisible
  exact hvisible.1.2

/-- The rows that the first view does not show, by their keys or themselves. -/
theorem unseen_eq {rows recent : List Dict} (hrows : rows ⊆ store) (hrecent : recent ⊆ store) :
    (rows.filter fun row => (Dict.get row "message_key").truthy
        && keyText row ∉ (recent.filter fun row => (Dict.get row "message_key").truthy).map keyText)
      = rows.filter (· ∉ recent) := by
  have hall : (recent.filter fun row => (Dict.get row "message_key").truthy) = recent :=
    List.filter_eq_self.mpr fun row hrow => truthy_key h (hrecent hrow)
  rw [hall]
  refine List.filter_congr fun row hrow => ?_
  rw [truthy_key h (hrows hrow), Bool.true_and]
  refine decide_eq_decide.mpr (not_congr ⟨fun hmem => ?_, fun hmem => List.mem_map_of_mem hmem⟩)
  obtain ⟨other, hother, hkey⟩ := List.mem_map.mp hmem
  rwa [← keyText_inj h (hrecent hother) (hrows hrow) hkey]

/-- The second query fetches as many messages more as the first view may hide. -/
theorem newest_unseen {own recent : List Dict} (hown : own.Sublist store) {m n : ℕ}
    (hrecent : recent.length ≤ m) :
    newest n ((newest (n + m) own).filter (· ∉ recent)) = newest n (own.filter (· ∉ recent)) := by
  have hhidden : (own.reverse.filter fun row => !decide (row ∉ recent)).length ≤ m := by
    have hnodup : own.reverse.Nodup := List.nodup_reverse.mpr (h.keys.of_map.sublist hown)
    refine (List.Subperm.length_le (List.subperm_of_subset (hnodup.filter _) ?_)).trans hrecent
    intro row hrow
    simpa using (List.mem_filter.mp hrow).2
  rw [newest_eq (n + m), List.filter_reverse, newest_eq, List.reverse_reverse,
    OrderedQuery.take_filter_take hhidden, newest_eq, List.filter_reverse]

end

/-- The session's newest messages, and the user's newest ones among the others. The second
query asks for as many messages more as the first window may hide, so that cutting what is left
at the front loses none. -/
theorem context_views_windows {store : List Dict} (h : Conversation store) (sessionId : String)
    (userId : Option String) (sessionLimit : ℕ) {userLimit : ℕ} (hlimit : 1 ≤ userLimit) :
    let views := loadSessionContextViews store sessionId userId sessionLimit userLimit
    let session := store.filter (ofSession sessionId)
    let recent := newest sessionLimit session
    views.sessionContext = recent.map contextItemFromMessage
      ∧ views.sessionUserContext
          = (newest userLimit
              ((session.filter (ofUser sessionId userId)).filter (· ∉ recent))).map
                contextItemFromMessage
      ∧ ∀ a ∈ views.sessionContext, ∀ b ∈ views.sessionUserContext,
          Dict.get a "message_key" ≠ Dict.get b "message_key" := by
  intro views session recent
  have hsession : session.Sublist store := List.filter_sublist
  have hown : (session.filter (ofUser sessionId userId)).Sublist store :=
    List.filter_sublist.trans hsession
  have hrecent : recent.Sublist store := (newest_sublist _ _).trans hsession
  have hfirst : views.sessionContext = recent.map contextItemFromMessage := by
    change (loadSessionMessages store sessionId sessionLimit).map _ = _
    rw [loadSessionMessages_eq h]
  have hsecond : views.sessionUserContext
      = (newest userLimit
          ((session.filter (ofUser sessionId userId)).filter (· ∉ recent))).map
            contextItemFromMessage := by
    change lastItems userLimit (((loadSessionUserMessages store sessionId _ _).filter _).map _) = _
    rw [lastItems_eq hlimit, newest_map, loadSessionUserMessages_eq h, loadSessionMessages_eq h,
      unseen_eq h ((newest_sublist _ _).trans hown).subset hrecent.subset,
      newest_unseen h hown (length_newest_le sessionLimit session)]
  refine ⟨hfirst, hsecond, ?_⟩
  rw [hfirst, hsecond]
  rintro _ hshown _ hother hkey
  obtain ⟨a, ha, rfl⟩ := List.mem_map.mp hshown
  obtain ⟨b, hb, rfl⟩ := List.mem_map.mp hother
  have hunseen := List.mem_filter.mp ((newest_sublist _ _).subset hb)
  have hbstore := hown.subset hunseen.1
  have hitem : ∀ row ∈ store,
      Dict.get (contextItemFromMessage row) "message_key" = .str (keyText row) := by
    intro row hrow
    change Json.str ((Dict.get row "message_key").orElse (.str "")).pyStr = _
    rw [Json.orElse, if_pos (truthy_key h hrow)]
    rfl
  rw [hitem a (hrecent.subset ha), hitem b hbstore] at hkey
  have hsame := keyText_inj h (hrecent.subset ha) hbstore (Json.str.inj hkey)
  rw [hsame] at ha
  exact absurd ha (by simpa using hunseen.2)

/-- A question and an answer of `u-1`, a question of `u-2`, and a question of `u-1`. -/
def sampleConversation : List Dict :=
  [("m1", "user", "u-1"), ("m2", "assistant", "u-1"), ("m3", "user", "u-2"),
    ("m4", "user", "u-1")].map fun m =>
      [("message_key", .str m.1), ("session_id", .str "s-1"), ("user_id", .str m.2.2),
        ("role", .str m.2.1), ("content", .str "hello")]

theorem context_views_windows_sample :
    (loadSessionContextViews sampleConversation " s-1" (some "u-1") 2 1).sessionUserContext.map
        (fun item => Dict.get item "message_key") = [.str "m2"] := by
  have hviews := (@context_views_windows sampleConversation
    ⟨by decide +kernel, by decide +kernel⟩ " s-1" (some "u-1") 2 1 (Nat.le_refl 1)).2.1
  rw [hviews]
  decide +kernel

end ContextViews

end Aegora
