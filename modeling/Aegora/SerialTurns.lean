import Aegora.SessionTurns
import Aegora.Transactions

/-!
# Whole turns, one at a time

The turns of a session are serial when at most one of them is between its
reading and its saving (`Serialised`): what a turn then reads are the messages
of whole turns, and no upsert finds nothing twice. The advisory lock gives this
to chat turns. A configured turn takes no lock, so its reading must not fall
into another turn, nor another turn's reading into it; and a save that breaks
off between its two messages leaves half a turn behind (`Undisturbed`).

`FreshMessages` holds of every interleaving: the keys of a run are its own.
`Orderly` carries the rest along the undisturbed ones.
-/

namespace Aegora

open Py Transactions

/-! ## Whole turns -/

/-- The two messages of one turn. -/
structure OneTurn (asked answered : ChatMessage) : Prop where
  user : asked.role = .user
  assistant : answered.role = .assistant
  trace : answered.traceId = asked.traceId
  session : answered.sessionId = asked.sessionId
  sameUser : answered.userId = asked.userId
  askedKey : asked.messageKey = messageKey asked.traceId .user
  answeredKey : answered.messageKey = messageKey asked.traceId .assistant

instance (a b : ChatMessage) : Decidable (OneTurn a b) :=
  decidable_of_iff (a.role = .user ∧ b.role = .assistant ∧ b.traceId = a.traceId
      ∧ b.sessionId = a.sessionId ∧ b.userId = a.userId
      ∧ a.messageKey = messageKey a.traceId .user
      ∧ b.messageKey = messageKey a.traceId .assistant)
    ⟨fun ⟨h₁, h₂, h₃, h₄, h₅, h₆, h₇⟩ => ⟨h₁, h₂, h₃, h₄, h₅, h₆, h₇⟩,
      fun ⟨h₁, h₂, h₃, h₄, h₅, h₆, h₇⟩ => ⟨h₁, h₂, h₃, h₄, h₅, h₆, h₇⟩⟩

/-- A history, oldest message first, of whole turns. -/
def WholeTurns : List ChatMessage → Prop
  | [] => True
  | [_] => False
  | a :: b :: rest => OneTurn a b ∧ WholeTurns rest

instance decidableWholeTurns : ∀ l, Decidable (WholeTurns l)
  | [] => isTrue trivial
  | [_] => isFalse id
  | a :: b :: rest =>
      haveI := decidableWholeTurns rest
      inferInstanceAs (Decidable (OneTurn a b ∧ WholeTurns rest))

theorem messageKey_inj {trace trace' : String} {role role' : ChatRole}
    (h : messageKey trace role = messageKey trace' role') : trace = trace' ∧ role = role' := by
  have hlist := congrArg String.toList h
  simp only [messageKey, String.toList_append] at hlist
  have hlast := congrArg List.getLast? hlist
  cases role <;> cases role' <;> simp [ChatRole.text] at hlast
  all_goals
    refine ⟨?_, rfl⟩
    have htrace := List.append_cancel_right (List.append_cancel_right hlist)
    exact String.toList_inj.mp htrace

namespace WholeTurns

variable {l l' : List ChatMessage}

theorem two_dvd_length (h : WholeTurns l) : 2 ∣ l.length := by
  fun_induction WholeTurns l with
  | case1 => exact ⟨0, rfl⟩
  | case2 => exact h.elim
  | case3 a b rest ih =>
      have hrest := ih h.2
      simp only [List.length_cons]
      omega

theorem append (h : WholeTurns l) (h' : WholeTurns l') : WholeTurns (l ++ l') := by
  fun_induction WholeTurns l with
  | case1 => exact h'
  | case2 => exact h.elim
  | case3 a b rest ih => exact ⟨h.1, ih h.2⟩

/-- A filter that keeps both messages of a turn or neither. -/
theorem filter {p : ChatMessage → Bool} (h : WholeTurns l)
    (hp : ∀ a b, a ∈ l → OneTurn a b → p b = p a) : WholeTurns (l.filter p) := by
  fun_induction WholeTurns l with
  | case1 => trivial
  | case2 => exact h.elim
  | case3 a b rest ih =>
      have hrest := ih h.2 fun a' b' ha' => hp a' b' (by simp [ha'])
      have hab := hp a b (by simp) h.1
      by_cases ha : p a = true
      · rw [List.filter_cons_of_pos ha, List.filter_cons_of_pos (hab.trans ha)]
        exact ⟨h.1, hrest⟩
      · rw [List.filter_cons_of_neg ha, List.filter_cons_of_neg (by rwa [hab])]
        exact hrest

theorem drop (h : WholeTurns l) (k : Nat) : WholeTurns (l.drop (2 * k)) := by
  fun_induction WholeTurns l generalizing k with
  | case1 => simp [WholeTurns]
  | case2 => exact h.elim
  | case3 a b rest ih =>
      cases k with
      | zero => exact h
      | succ k => exact ih h.2 k

/-- The newest messages, an even number of them. -/
theorem newest (h : WholeTurns l) (k : Nat) : WholeTurns (l.drop (l.length - 2 * k)) := by
  obtain ⟨n, hn⟩ := h.two_dvd_length
  have hlength : l.length - 2 * k = 2 * (n - k) := by omega
  rw [hlength]
  exact h.drop (n - k)

/-- Both messages of a turn are in a history of whole turns, or neither is. -/
theorem mem_keys_iff (h : WholeTurns l) (trace : String) :
    messageKey trace .assistant ∈ l.map ChatMessage.messageKey
      ↔ messageKey trace .user ∈ l.map ChatMessage.messageKey := by
  fun_induction WholeTurns l with
  | case1 => simp
  | case2 => exact h.elim
  | case3 a b rest ih =>
      simp only [List.map_cons, List.mem_cons, h.1.askedKey, h.1.answeredKey, ih h.2]
      constructor
      · rintro (hkey | hkey | hrest)
        · cases (messageKey_inj hkey).2
        · rw [(messageKey_inj hkey).1]
          exact .inl rfl
        · exact .inr (.inr hrest)
      · rintro (hkey | hkey | hrest)
        · rw [(messageKey_inj hkey).1]
          exact .inr (.inl rfl)
        · cases (messageKey_inj hkey).2
        · exact .inr (.inr hrest)

end WholeTurns

/-! ## Turns of one session side by side -/

/-- The turn is between its reading and the saving of its messages. -/
def SessionTurn.inside (t : SessionTurn) : Bool :=
  match t.phase with
  | .readingUser _ | .running | .finding _ _ | .writing _ _ _ => true
  | .waiting | .reading | .ended => false

def SessionTurn.session (t : SessionTurn) : String := t.request.session

theorem SessionTurn.sessionData_sessionId (t : SessionTurn) :
    t.sessionData.sessionId = t.session := by
  simp only [sessionData, session]

theorem SessionTurn.messageData_sessionId (t : SessionTurn) (answer : String) (role : ChatRole) :
    (t.messageData answer role).sessionId = t.session := by
  simp only [messageData, session]

/-- The session of the turn, while `p` holds of it. -/
def SessionTurn.sessionWhile (p : SessionTurn → Bool) (t : SessionTurn) : List String :=
  if p t then [t.session] else []

/-- The turns are serial: of those on a session at most one is between its reading and its
saving, each history read is of whole turns, a session has one entry and a key one message. -/
structure Serialised (s : Chats) : Prop where
  apart : Transactions.Exclusive (SessionTurn.sessionWhile SessionTurn.inside) s.turns
  whole : ∀ t ∈ s.turns, ∀ view ∈ t.views, WholeTurns view
  sessions : (s.store.sessions.data.map ChatSession.sessionId).Nodup
  messages : (s.store.messages.data.map ChatMessage.messageKey).Nodup

/-- A turn that is about to read does so while no other turn of its session is inside, chat turns
apart, which the lock keeps apart. -/
def SessionTurn.ReadsAlone (t : SessionTurn) (others : List SessionTurn) : Prop :=
  t.phase = .reading → ∀ o ∈ others, o.inside = true →
    t.request.entry = .handleChatTurn ∧ o.request.entry = .handleChatTurn

/-- The failure leaves the user's message without an answer. -/
def SessionTurn.halves (t : SessionTurn) (applied : Bool) : Bool :=
  match t.phase with
  | .finding (.message .assistant) _ => true
  | .writing (.message .user) _ _ => applied
  | .writing (.message .assistant) _ _ => !applied
  | _ => false

/-- The step neither reads into another turn nor breaks a save off between its messages. -/
def Undisturbed (s : Chats) : ChatAction → Prop
  | .start _ | .ran _ _ => True
  | .next i => ∀ t ∈ s.turns[i]?, t.ReadsAlone (s.others i t)
  | .fail i applied =>
      ∀ t ∈ s.turns[i]?, t.ReadsAlone (s.others i t) ∧ t.halves applied = false

instance (t : SessionTurn) (others : List SessionTurn) : Decidable (t.ReadsAlone others) :=
  inferInstanceAs (Decidable (_ → _))

instance (s : Chats) : ∀ a, Decidable (Undisturbed s a)
  | .start _ | .ran _ _ => isTrue trivial
  | .next i => inferInstanceAs (Decidable (∀ t ∈ s.turns[i]?, t.ReadsAlone (s.others i t)))
  | .fail i applied =>
      inferInstanceAs (Decidable (∀ t ∈ s.turns[i]?,
        t.ReadsAlone (s.others i t) ∧ t.halves applied = false))

/-! ## What a step does -/

theorem mem_others {s : Chats} {i : Nat} {t o : SessionTurn} :
    o ∈ s.others i t ↔ ∃ j, j ≠ i ∧ s.turns[j]? = some o ∧ o.session = t.session := by
  simp only [Chats.others, List.mem_filter, List.mem_eraseIdx_iff_getElem?, decide_eq_true_eq,
    SessionTurn.session]
  constructor
  · rintro ⟨⟨j, hji, hj⟩, hsession⟩
    exact ⟨j, hji, hj, hsession⟩
  · rintro ⟨j, hji, hj, hsession⟩
    exact ⟨⟨j, hji, hj⟩, hsession⟩

/-- The steps of one turn, with the store and the turn after each. -/
inductive TurnMove (s : Chats) (i : Nat) (t : SessionTurn) :
    ChatAction → ContentStore × SessionTurn → Prop
  | locks (h : t.phase = .waiting) (hfree : ∀ o ∈ s.others i t, o.holdsLock = false) :
      TurnMove s i t (.next i) (s.store, { t with phase := .reading })
  | readsHistory (h : t.phase = .reading) (hentry : t.request.entry = .handleChatTurn) :
      TurnMove s i t (.next i) (s.store, { t with
        phase := .running, views := [loadSessionMessages s.store t.session 20] })
  | readsSession (h : t.phase = .reading) :
      TurnMove s i t (.next i) (s.store, { t with
        phase := .readingUser (loadSessionMessages s.store t.session 8) })
  | readsUser (rows : List ChatMessage) (h : t.phase = .readingUser rows) :
      TurnMove s i t (.next i) (s.store, { t with
        phase := .running
        views := [rows, sessionUserContext rows
          (loadSessionUserMessages s.store t.session t.request.user (8 + 8)) 8] })
  | losesViews (applied : Bool) (h : t.phase = .reading ∨ ∃ rows, t.phase = .readingUser rows) :
      TurnMove s i t (.fail i applied) (s.store, { t with phase := .running })
  | answers (answer : Option String) (text : String) (h : t.phase = .running) :
      TurnMove s i t (.ran i answer) (s.store, { t with phase := .finding .session text })
  | finds (entry : SavedEntry) (answer : String) (h : t.phase = .finding entry answer) :
      TurnMove s i t (.next i) (s.store, { t with
        phase := .writing entry answer (t.find s.store entry) })
  | writes (entry : SavedEntry) (answer : String) (existing : Option Nat)
      (h : t.phase = .writing entry answer existing) :
      TurnMove s i t (.next i) (t.write answer existing s.store entry, { t with
        phase := SessionTurn.afterWrite answer entry })
  | raises (applied : Bool)
      (h : ∀ entry answer existing, t.phase = .writing entry answer existing → applied = false) :
      TurnMove s i t (.fail i applied) (s.store, { t with phase := .ended })
  | breaksOff (entry : SavedEntry) (answer : String) (existing : Option Nat)
      (h : t.phase = .writing entry answer existing) :
      TurnMove s i t (.fail i true) (t.write answer existing s.store entry, { t with
        phase := .ended })

variable {ids : TraceIds} {s s' : Chats} {a : ChatAction} {i : Nat} {t : SessionTurn}
  {moved : ContentStore × SessionTurn}

theorem move_of_next (h : t.next s.store = some moved)
    (hfree : t.phase = .waiting → ∀ o ∈ s.others i t, o.holdsLock = false) :
    TurnMove s i t (.next i) moved := by
  unfold SessionTurn.next at h
  cases hphase : t.phase with
  | waiting =>
      simp only [hphase, Option.some.injEq] at h
      subst h
      exact .locks hphase (hfree hphase)
  | reading =>
      simp only [hphase] at h
      cases hentry : t.request.entry <;>
        simp only [hentry, Option.some.injEq] at h <;> subst h
      · exact .readsHistory hphase hentry
      · exact .readsSession hphase
      · exact .readsSession hphase
  | readingUser rows =>
      simp only [hphase, Option.some.injEq] at h
      subst h
      exact .readsUser rows hphase
  | running => simp [hphase] at h
  | finding entry answer =>
      simp only [hphase, Option.some.injEq] at h
      subst h
      exact .finds entry answer hphase
  | writing entry answer existing =>
      simp only [hphase, Option.some.injEq] at h
      subst h
      exact .writes entry answer existing hphase
  | ended => simp [hphase] at h

theorem move_of_fail {applied : Bool} (h : t.fail applied s.store = some moved) :
    TurnMove s i t (.fail i applied) moved := by
  unfold SessionTurn.fail at h
  cases hphase : t.phase with
  | waiting | running | finding =>
      simp only [hphase, Option.some.injEq] at h
      subst h
      exact .raises applied (by simp [hphase])
  | reading =>
      simp only [hphase] at h
      cases hentry : t.request.entry <;>
        simp only [hentry, Option.some.injEq] at h <;> subst h
      · exact .raises applied (by simp [hphase])
      · exact .losesViews applied (.inl hphase)
      · exact .losesViews applied (.inl hphase)
  | readingUser rows =>
      simp only [hphase, Option.some.injEq] at h
      subst h
      exact .losesViews applied (.inr ⟨rows, hphase⟩)
  | writing entry answer existing =>
      simp only [hphase, Option.some.injEq] at h
      subst h
      cases applied with
      | true => exact .breaksOff entry answer existing hphase
      | false => exact .raises false (by simp)
  | ended => simp [hphase] at h

/-- A step starts a turn or moves one. -/
theorem chatStep_cases (h : chatStep ids s a = some s') :
    (∃ request, a = .start request ∧
        s' = { s with turns := s.turns ++ [request.begin (ids.id s.turns.length)] })
      ∨ ∃ i t moved, s.turns[i]? = some t ∧ TurnMove s i t a moved ∧ s' = s.set i moved := by
  cases a with
  | start request => exact .inl ⟨request, rfl, by simpa [chatStep] using h.symm⟩
  | next i =>
      right
      obtain ⟨t, ht, h⟩ := Option.bind_eq_some_iff.mp h
      split at h
      · cases h
      · rename_i hfree
        obtain ⟨moved, hmoved, h⟩ := Option.bind_eq_some_iff.mp h
        cases h
        refine ⟨i, t, moved, ht, move_of_next hmoved fun hphase o ho => ?_, rfl⟩
        by_contra hlock
        exact hfree ⟨hphase, o, ho, by simpa using hlock⟩
  | ran i answer =>
      right
      obtain ⟨t, ht, h⟩ := Option.bind_eq_some_iff.mp h
      obtain ⟨t', ht', h⟩ := Option.bind_eq_some_iff.mp h
      cases h
      unfold SessionTurn.ran at ht'
      split at ht'
      · rename_i hphase
        cases ht'
        exact ⟨i, t, _, ht, .answers answer _ hphase, rfl⟩
      · cases ht'
  | fail i applied =>
      right
      obtain ⟨t, ht, h⟩ := Option.bind_eq_some_iff.mp h
      obtain ⟨moved, hmoved, h⟩ := Option.bind_eq_some_iff.mp h
      cases h
      exact ⟨i, t, moved, ht, move_of_fail hmoved, rfl⟩

theorem TurnMove.request (h : TurnMove s i t a moved) : moved.2.request = t.request := by
  cases h <;> rfl

theorem TurnMove.trace (h : TurnMove s i t a moved) : moved.2.trace = t.trace := by
  cases h <;> rfl

/-! ## The keys of a run -/

/-- The turn may yet save its message of this role. -/
def SessionTurn.owes (t : SessionTurn) : ChatRole → Bool
  | .user =>
      match t.phase with
      | .finding (.message .assistant) _ | .writing (.message .assistant) _ _ | .ended => false
      | _ => true
  | .assistant =>
      match t.phase with
      | .ended => false
      | _ => true

/-- In every interleaving a key has one message: the traces are new, and a turn saves each of its
messages once. -/
structure FreshMessages (ids : TraceIds) (s : Chats) : Prop where
  distinct : (s.store.messages.data.map ChatMessage.messageKey).Nodup
  unused : ∀ n, s.turns.length ≤ n → ∀ role, ∀ m ∈ s.store.messages.data,
    m.messageKey ≠ messageKey (ids.id n) role
  traces : ∀ (i : Nat) (t : SessionTurn), s.turns[i]? = some t → t.trace = ids.id i
  owed : ∀ t ∈ s.turns, ∀ role, t.owes role = true → ∀ m ∈ s.store.messages.data,
    m.messageKey ≠ messageKey t.trace role
  created : ∀ t ∈ s.turns, ∀ role answer existing,
    t.phase = .writing (.message role) answer existing → existing = none

/-- A step leaves the messages as they are, or appends one that the turn owed. -/
theorem TurnMove.messages (h : TurnMove s i t a moved)
    (hcreated : ∀ role answer existing,
      t.phase = .writing (.message role) answer existing → existing = none) :
    (moved.1.messages = s.store.messages
        ∧ ∀ role, moved.2.owes role = true → t.owes role = true)
      ∨ ∃ role answer, t.owes role = true
        ∧ moved.1.messages = s.store.messages.create (t.messageData answer role)
        ∧ ∀ r, moved.2.owes r = true → t.owes r = true ∧ r ≠ role := by
  have hwrite : ∀ answer existing role, t.phase = .writing (.message role) answer existing →
      (t.write answer existing s.store (.message role)).messages
        = s.store.messages.create (t.messageData answer role) := by
    intro answer existing role hphase
    rw [hcreated role answer existing hphase]
    rfl
  cases h with
  | locks h | readsHistory h | readsSession h | readsUser _ h | answers _ _ h =>
      exact .inl ⟨rfl, fun role _ => by cases role <;> simp [SessionTurn.owes, h]⟩
  | losesViews _ h =>
      refine .inl ⟨rfl, fun role _ => ?_⟩
      obtain h | ⟨rows, h⟩ := h <;> cases role <;> simp [SessionTurn.owes, h]
  | raises _ h =>
      refine .inl ⟨rfl, fun role hrole => ?_⟩
      cases role <;> simp [SessionTurn.owes] at hrole
  | finds entry answer h =>
      refine .inl ⟨rfl, fun role hrole => ?_⟩
      cases role <;> cases entry with
      | session => simp [SessionTurn.owes, h]
      | message saved => cases saved <;> simp_all [SessionTurn.owes]
  | writes entry answer existing h =>
      cases entry with
      | session =>
          exact .inl ⟨rfl, fun role _ => by cases role <;> simp [SessionTurn.owes, h]⟩
      | message role =>
          refine .inr ⟨role, answer, ?_, hwrite answer existing role h, fun r hr => ?_⟩
          · cases role <;> simp [SessionTurn.owes, h]
          · cases role <;> cases r <;>
              simp [SessionTurn.owes, SessionTurn.afterWrite, h] at hr ⊢
  | breaksOff entry answer existing h =>
      cases entry with
      | session =>
          refine .inl ⟨rfl, fun role hrole => ?_⟩
          cases role <;> simp [SessionTurn.owes] at hrole
      | message role =>
          refine .inr ⟨role, answer, ?_, hwrite answer existing role h, fun r hr => ?_⟩
          · cases role <;> simp [SessionTurn.owes, h]
          · cases r <;> simp [SessionTurn.owes] at hr

/-- A write that is about to create its message finds none: the turn owes the message. -/
theorem TurnMove.created (h : TurnMove s i t a moved)
    (howed : ∀ role, t.owes role = true → ∀ m ∈ s.store.messages.data,
      m.messageKey ≠ messageKey t.trace role) :
    ∀ role answer existing,
      moved.2.phase = .writing (.message role) answer existing → existing = none := by
  intro role answer existing hphase
  cases h with
  | finds entry answer' h =>
      simp only [ChatPhase.writing.injEq] at hphase
      obtain ⟨rfl, -, rfl⟩ := hphase
      unfold SessionTurn.find
      refine StrapiRows.findOne_eq_none.mpr fun m hm => ?_
      have howes : t.owes role = true := by cases role <;> simp [SessionTurn.owes, h]
      simpa using howed role howes m hm
  | writes entry =>
      cases entry with
      | session => simp [SessionTurn.afterWrite] at hphase
      | message saved => cases saved <;> simp [SessionTurn.afterWrite] at hphase
  | locks | readsHistory | readsSession | readsUser | answers | losesViews | raises
  | breaksOff => cases hphase

theorem FreshMessages.step (h : FreshMessages ids s) (hstep : chatStep ids s a = some s') :
    FreshMessages ids s' := by
  obtain ⟨request, -, rfl⟩ | ⟨i, t, moved, ht, hmove, rfl⟩ := chatStep_cases hstep
  · refine ⟨h.distinct, fun n hn role => ?_, fun i t hi => ?_, fun t ht role => ?_,
      fun t ht role answer existing hphase => ?_⟩
    · exact h.unused n (by simp at hn; omega) role
    · obtain ⟨rfl, rfl⟩ | hi := Runs.getElem?_snoc_iff.mp hi
      · rfl
      · exact h.traces i t hi
    · obtain ht | ht := List.mem_append.mp ht
      · exact h.owed t ht role
      · rw [List.mem_singleton.mp ht]
        exact fun _ => h.unused _ le_rfl role
    · obtain ht | ht := List.mem_append.mp ht
      · exact h.created t ht role answer existing hphase
      · rw [List.mem_singleton.mp ht] at hphase
        simp only [ChatRequest.begin] at hphase
        repeat' split at hphase
        all_goals cases hphase
  · have hmem : t ∈ s.turns := List.mem_of_getElem? ht
    have htrace : t.trace = ids.id i := h.traces i t ht
    have hlt : i < s.turns.length := (List.getElem?_eq_some_iff.mp ht).1
    have hcreated := hmove.created (h.owed t hmem)
    have htraces : ∀ (j : Nat) (u : SessionTurn), (s.set i moved).turns[j]? = some u →
        u.trace = ids.id j := by
      intro j u hj
      obtain ⟨rfl, rfl⟩ | ⟨-, hj⟩ := (Runs.getElem?_set_iff ht).mp hj
      · exact hmove.trace.trans htrace
      · exact h.traces j u hj
    have hcreated' : ∀ u ∈ (s.set i moved).turns, ∀ role answer existing,
        u.phase = .writing (.message role) answer existing → existing = none := by
      intro u hu
      obtain hu | rfl := List.mem_or_eq_of_mem_set hu
      · exact h.created u hu
      · exact hcreated
    obtain ⟨hmessages, howes⟩ | ⟨role, answer, howes, hmessages, hafter⟩ :=
      hmove.messages (h.created t hmem)
    · refine ⟨by rw [Chats.set, hmessages]; exact h.distinct, fun n hn => ?_, htraces,
        fun u hu r hr => ?_, hcreated'⟩
      · rw [Chats.set, hmessages]
        exact h.unused n (by simpa [Chats.set] using hn)
      · rw [Chats.set, hmessages]
        obtain hu | rfl := List.mem_or_eq_of_mem_set hu
        · exact h.owed u hu r hr
        · rw [hmove.trace]
          exact h.owed t hmem r (howes r hr)
    · have hdata : (s.set i moved).store.messages.data
          = s.store.messages.data ++ [t.messageData answer role] := by
        simp [Chats.set, hmessages]
      have hmine : (t.messageData answer role).messageKey = messageKey (ids.id i) role := by
        rw [← htrace]
        rfl
      refine ⟨?_, fun n hn r m hm => ?_, htraces, fun u hu r hr m hm => ?_, hcreated'⟩
      · rw [hdata, List.map_append, List.nodup_append]
        refine ⟨h.distinct, by simp, fun key hkey key' hkey' => ?_⟩
        obtain ⟨m, hm, rfl⟩ := List.mem_map.mp hkey
        rw [show key' = (t.messageData answer role).messageKey by simpa using hkey', hmine,
          ← htrace]
        exact h.owed t hmem role howes m hm
      · rw [hdata] at hm
        obtain hm | hm := List.mem_append.mp hm
        · exact h.unused n (by simpa [Chats.set] using hn) r m hm
        · rw [List.mem_singleton.mp hm, hmine]
          intro hkey
          have hin := ids.distinct (messageKey_inj hkey).1
          simp only [Chats.set, List.length_set] at hn
          omega
      · obtain ⟨j, hj⟩ := List.mem_iff_getElem?.mp hu
        rw [hdata] at hm
        obtain hm | hm := List.mem_append.mp hm
        · obtain ⟨rfl, rfl⟩ | ⟨-, hj'⟩ := (Runs.getElem?_set_iff ht).mp hj
          · rw [hmove.trace]
            exact h.owed t hmem r (hafter r hr).1 m hm
          · exact h.owed u (List.mem_of_getElem? hj') r hr m hm
        · rw [List.mem_singleton.mp hm, hmine, htraces j u hj]
          intro hkey
          obtain ⟨htr, rfl⟩ := messageKey_inj hkey
          have hji := ids.distinct htr
          obtain ⟨-, rfl⟩ | ⟨hne, -⟩ := (Runs.getElem?_set_iff ht).mp hj
          · exact (hafter _ hr).2 rfl
          · exact hne hji.symm

/-! ## The undisturbed interleavings -/

/-- The messages of a session. -/
def sessionMessages (c : ContentStore) (session : String) : List ChatMessage :=
  c.messages.data.filter fun m => m.sessionId = session

/-- The turn has saved its user's message and not its answer. -/
def SessionTurn.half (t : SessionTurn) : Bool :=
  match t.phase with
  | .finding (.message .assistant) _ | .writing (.message .assistant) _ _ => true
  | _ => false

/-- The session has the messages of whole turns, and after them the user's message of this one. -/
def HalfWay (c : ContentStore) (t : SessionTurn) : Prop :=
  ∃ rest, sessionMessages c t.session = rest ++ [t.messageData "" .user] ∧ WholeTurns rest

/-- The turn and the store agree on what it has read and found. -/
def TurnFits (c : ContentStore) (t : SessionTurn) : Prop :=
  (∀ view ∈ t.views, WholeTurns view) ∧
    match t.phase with
    | .readingUser rows => WholeTurns rows
    | .writing .session _ existing =>
        c.sessions.StillFound ChatSession.sessionId t.session existing
    | .finding (.message .assistant) _ | .writing (.message .assistant) _ _ => HalfWay c t
    | _ => True

/-- What the undisturbed interleavings keep. -/
structure Orderly (s : Chats) : Prop where
  locked : Transactions.Exclusive (SessionTurn.sessionWhile SessionTurn.holdsLock) s.turns
  apart : Transactions.Exclusive (SessionTurn.sessionWhile SessionTurn.inside) s.turns
  sessions : (s.store.sessions.data.map ChatSession.sessionId).Nodup
  whole : ∀ session, (∀ t ∈ s.turns, t.session = session → t.half = false) →
    WholeTurns (sessionMessages s.store session)
  fits : ∀ t ∈ s.turns, TurnFits s.store t

section Moves

variable {c : ContentStore}

theorem inside_of_half (h : t.half = true) : t.inside = true := by
  unfold SessionTurn.half at h
  unfold SessionTurn.inside
  split at h <;> simp_all

/-- Outside of its reading and saving a turn holds on to nothing. -/
theorem fits_of_outside (h : t.inside = false) :
    TurnFits c t ↔ ∀ view ∈ t.views, WholeTurns view := by
  unfold SessionTurn.inside at h
  unfold TurnFits
  cases hphase : t.phase <;> simp_all

theorem fits_of_half (h : t.half = true) (hfits : TurnFits c t) : HalfWay c t := by
  unfold SessionTurn.half at h
  obtain ⟨-, hphase⟩ := hfits
  split at h <;> simp_all

/-- What is read of a session of whole turns is whole. -/
theorem whole_listMessages {p : ChatMessage → Bool} {k : Nat}
    (h : WholeTurns (c.messages.data.filter p)) : WholeTurns (listMessages c p (2 * k)) := by
  unfold listMessages
  rw [List.reverse_take, List.reverse_reverse, List.length_reverse]
  exact h.newest k

theorem whole_sessionRows {session : String} {k : Nat}
    (h : WholeTurns (sessionMessages c session)) :
    WholeTurns (loadSessionMessages c session (2 * k)) :=
  whole_listMessages h

theorem whole_userRows {session user : String} {k : Nat}
    (h : WholeTurns (sessionMessages c session)) :
    WholeTurns (loadSessionUserMessages c session user (2 * k)) := by
  refine whole_listMessages ?_
  have hfilter := h.filter (p := fun m => m.userId = sessionUserId session user)
    fun a b _ hab => by rw [hab.sameUser]
  rw [sessionMessages, List.filter_filter] at hfilter
  convert hfilter using 2
  funext m
  simp [Bool.and_comm]

theorem whole_sessionUserContext {rows userRows : List ChatMessage} {k : Nat}
    (hrows : WholeTurns rows) (huser : WholeTurns userRows) :
    WholeTurns (sessionUserContext rows userRows (2 * k)) := by
  refine WholeTurns.newest (huser.filter fun a b _ hab => ?_) k
  rw [hab.askedKey, hab.answeredKey]
  simp only [hrows.mem_keys_iff]

/-- A write of a session leaves the other sessions alone. -/
structure TouchesOnly (c c' : ContentStore) (session : String) : Prop where
  messages : ∀ other, other ≠ session → sessionMessages c' other = sessionMessages c other
  found : ∀ other existing, other ≠ session →
    c.sessions.StillFound ChatSession.sessionId other existing →
    c'.sessions.StillFound ChatSession.sessionId other existing

/-- A turn does not see what a write of another session does, nor, outside, one of its own. -/
theorem TurnFits.touched {c' : ContentStore} {session : String} (h : TurnFits c t)
    (hc : TouchesOnly c c' session) (ht : t.session = session → t.inside = false) :
    TurnFits c' t := by
  by_cases hsession : t.session = session
  · rw [fits_of_outside (ht hsession)] at h ⊢
    exact h
  · refine ⟨h.1, ?_⟩
    have hphase := h.2
    have hhalf : HalfWay c t → HalfWay c' t := by
      rintro ⟨rest, hrest, hwhole⟩
      exact ⟨rest, (hc.messages _ hsession).trans hrest, hwhole⟩
    split <;> simp_all
    exact hc.found _ _ hsession hphase

theorem touchesOnly_session {answer : String} {existing : Option Nat}
    (h : c.sessions.StillFound ChatSession.sessionId t.session existing) :
    TouchesOnly c (t.write answer existing c .session) t.session where
  messages _ _ := rfl
  found _ _ hne hother := hother.put_other h t.sessionData_sessionId hne

theorem sessionMessages_create {answer : String} {role : ChatRole} (session : String) :
    sessionMessages (t.write answer none c (.message role)) session
      = if t.session = session then
          sessionMessages c session ++ [t.messageData answer role]
        else sessionMessages c session := by
  have hdata : (t.write answer none c (.message role)).messages.data
      = c.messages.data ++ [t.messageData answer role] := by
    simp [SessionTurn.write, StrapiRows.put]
  unfold sessionMessages
  rw [hdata, List.filter_append, List.filter_singleton, t.messageData_sessionId]
  by_cases h : t.session = session <;> simp [h]

theorem touchesOnly_message {answer : String} {role : ChatRole} :
    TouchesOnly c (t.write answer none c (.message role)) t.session where
  messages _ hne := by rw [sessionMessages_create, if_neg (Ne.symm hne)]
  found _ _ _ hother := hother

end Moves

section Exclusion

variable {p : SessionTurn → Bool} {u t' : SessionTurn} {j : Nat}

@[simp] theorem mem_sessionWhile {session : String} :
    session ∈ t.sessionWhile p ↔ p t = true ∧ t.session = session := by
  unfold SessionTurn.sessionWhile
  split
  · rename_i hp
    rw [List.mem_singleton, eq_comm]
    exact ⟨fun h => ⟨hp, h⟩, And.right⟩
  · rename_i hp
    exact ⟨fun h => (nomatch h), fun h => absurd h.1 hp⟩

/-- While `p` holds of one turn, it does of no other of the session. -/
theorem not_of_exclusive (h : Transactions.Exclusive (SessionTurn.sessionWhile p) s.turns)
    (ht : s.turns[i]? = some t) (hp : p t = true) (hj : s.turns[j]? = some u) (hji : j ≠ i)
    (hsession : u.session = t.session) : p u = false := by
  by_contra hu
  exact h i j t u t.session (Ne.symm hji) ht hj (mem_sessionWhile.mpr ⟨hp, rfl⟩)
    (mem_sessionWhile.mpr ⟨by simpa using hu, hsession⟩)

/-- A turn of which `p` held, or of which it comes to hold while it does of no other. -/
theorem exclusive_set (h : Transactions.Exclusive (SessionTurn.sessionWhile p) s.turns)
    (ht : s.turns[i]? = some t) (hkey : t'.session = t.session)
    (hp : p t' = true → p t = true ∨ ∀ o ∈ s.others i t, p o = false) :
    Transactions.Exclusive (SessionTurn.sessionWhile p) (s.turns.set i t') := by
  refine h.set ht fun session hsession => ?_
  obtain ⟨hpt', rfl⟩ := mem_sessionWhile.mp hsession
  rcases hp hpt' with hpt | hfree
  · exact .inl (mem_sessionWhile.mpr ⟨hpt, hkey.symm⟩)
  · refine .inr (free_iff.mpr fun j u hji hj hu => ?_)
    obtain ⟨hpu, hu⟩ := mem_sessionWhile.mp hu
    rw [hfree u (mem_others.mpr ⟨j, hji, hj, hu.trans hkey⟩)] at hpu
    cases hpu

theorem exclusive_snoc (h : Transactions.Exclusive (SessionTurn.sessionWhile p) s.turns)
    (ht : p t = false) : Transactions.Exclusive (SessionTurn.sessionWhile p) (s.turns ++ [t]) :=
  h.snoc (by rw [SessionTurn.sessionWhile, if_neg (by simp [ht])])

end Exclusion

theorem orderly_set {c' : ContentStore} {t' : SessionTurn} (h : Orderly s)
    (ht : s.turns[i]? = some t) (hrequest : t'.request = t.request)
    (hlock : t'.holdsLock = true → t.holdsLock = true ∨ ∀ o ∈ s.others i t, o.holdsLock = false)
    (hinside : t'.inside = true → t.inside = true ∨ ∀ o ∈ s.others i t, o.inside = false)
    (hc : TouchesOnly s.store c' t.session) (hwrites : c' = s.store ∨ t.inside = true)
    (hsessions : (c'.sessions.data.map ChatSession.sessionId).Nodup)
    (hwhole : t'.half = false → (∀ o ∈ s.others i t, o.half = false) →
      WholeTurns (sessionMessages c' t.session))
    (hfits : TurnFits c' t') : Orderly (s.set i (c', t')) := by
  have hkey : t'.session = t.session := by rw [SessionTurn.session, hrequest]; rfl
  refine ⟨exclusive_set h.locked ht hkey hlock, exclusive_set h.apart ht hkey hinside, hsessions,
    fun session hhalf => ?_,
    fun u hu => ?_⟩
  · have hothers : ∀ (j : Nat) (u : SessionTurn), s.turns[j]? = some u → j ≠ i →
        u.session = session → u.half = false := by
      intro j u hj hji hu
      refine hhalf u (List.mem_of_getElem? (i := j) ?_) hu
      simpa [Chats.set, List.getElem?_set_ne (Ne.symm hji)] using hj
    by_cases hsession : session = t.session
    · subst hsession
      refine hwhole (hhalf t' (List.mem_of_getElem? (i := i) ?_) hkey) fun o ho => ?_
      · simp [Chats.set, (List.getElem?_eq_some_iff.mp ht).1]
      · obtain ⟨j, hji, hj, ho⟩ := mem_others.mp ho
        exact hothers j o hj hji ho
    · change WholeTurns (sessionMessages c' session)
      rw [hc.messages session hsession]
      refine h.whole session fun u hu husession => ?_
      obtain ⟨j, hj⟩ := List.mem_iff_getElem?.mp hu
      refine hothers j u hj (fun hji => ?_) husession
      subst hji
      rw [ht] at hj
      cases hj
      exact hsession husession.symm
  · obtain ⟨j, hj⟩ := List.mem_iff_getElem?.mp hu
    obtain ⟨-, rfl⟩ | ⟨hji, hj⟩ := (Runs.getElem?_set_iff ht).mp hj
    · exact hfits
    · have hfitsu := h.fits u (List.mem_of_getElem? hj)
      rcases hwrites with rfl | hin
      · exact hfitsu
      · exact hfitsu.touched hc fun hu => not_of_exclusive h.apart ht hin hj hji hu

/-! ## Steps -/

/-- Between the lock and the end of the turn only its entry point decides whether it holds. -/
theorem holdsLock_of_entered {t' : SessionTurn} (h : t'.holdsLock = true)
    (hrequest : t'.request = t.request) (hwaiting : t.phase ≠ .waiting)
    (hended : t.phase ≠ .ended) : t.holdsLock = true := by
  have hentry : t.request.entry = .handleChatTurn := by
    unfold SessionTurn.holdsLock at h
    rw [hrequest] at h
    split at h <;> first | assumption | cases h
  unfold SessionTurn.holdsLock
  rw [hentry]
  split <;> simp_all

theorem holdsLock_of_inside {t' : SessionTurn} (h : t'.holdsLock = true)
    (hrequest : t'.request = t.request) (hin : t.inside = true) : t.holdsLock = true := by
  refine holdsLock_of_entered h hrequest (fun hphase => ?_) (fun hphase => ?_) <;>
    simp [SessionTurn.inside, hphase] at hin

/-- No turn of the session is half saved while one that is not is inside. -/
theorem Orderly.no_half (h : Orderly s) (ht : s.turns[i]? = some t) (hin : t.inside = true) :
    ∀ o ∈ s.others i t, o.half = false := by
  intro o ho
  obtain ⟨j, hji, hj, hsession⟩ := mem_others.mp ho
  by_contra hhalf
  have hinside := inside_of_half (by simpa using hhalf)
  rw [not_of_exclusive h.apart ht hin hj hji hsession] at hinside
  cases hinside

/-- The session of a turn that is not half saved, no other one being so. -/
theorem Orderly.whole_session (h : Orderly s) (ht : s.turns[i]? = some t)
    (hmine : t.half = false) (hothers : ∀ o ∈ s.others i t, o.half = false) :
    WholeTurns (sessionMessages s.store t.session) := by
  refine h.whole t.session fun u hu hsession => ?_
  obtain ⟨j, hj⟩ := List.mem_iff_getElem?.mp hu
  by_cases hji : j = i
  · subst hji
    rw [ht] at hj
    cases hj
    exact hmine
  · exact hothers u (mem_others.mpr ⟨j, hji, hj, hsession⟩)

/-- A turn reads alone: the lock keeps the chat turns apart, the condition the others. -/
theorem Orderly.reads_alone (h : Orderly s) (ht : s.turns[i]? = some t)
    (hphase : t.phase = .reading) (halone : t.ReadsAlone (s.others i t)) :
    ∀ o ∈ s.others i t, o.inside = false := by
  intro o ho
  obtain ⟨j, hji, hj, hsession⟩ := mem_others.mp ho
  by_contra hin
  have hin : o.inside = true := by simpa using hin
  obtain ⟨hentry, hentry'⟩ := halone hphase o ho hin
  have hlock : t.holdsLock = true := by simp [SessionTurn.holdsLock, hentry, hphase]
  have hlock' : o.holdsLock = true := by
    unfold SessionTurn.inside at hin
    unfold SessionTurn.holdsLock
    rw [hentry']
    split at hin <;> simp_all
  rw [not_of_exclusive h.locked ht hlock hj hji hsession] at hlock'
  cases hlock'

/-- A step that leaves the store, and whether the turn is half saved, as they are. -/
theorem Orderly.unwritten {t' : SessionTurn} (h : Orderly s) (ht : s.turns[i]? = some t)
    (hrequest : t'.request = t.request)
    (hlock : t'.holdsLock = true → t.holdsLock = true ∨ ∀ o ∈ s.others i t, o.holdsLock = false)
    (hinside : t'.inside = true → t.inside = true ∨ ∀ o ∈ s.others i t, o.inside = false)
    (hhalf : t.half = t'.half) (hfits : TurnFits s.store t') :
    Orderly (s.set i (s.store, t')) :=
  orderly_set h ht hrequest hlock hinside ⟨fun _ _ => rfl, fun _ _ _ hfound => hfound⟩
    (.inl rfl) h.sessions
    (fun hmine hothers => h.whole_session ht (hhalf.trans hmine) hothers) hfits

/-- A turn that was inside goes on without a write. -/
theorem Orderly.inside_unwritten {t' : SessionTurn} (h : Orderly s) (ht : s.turns[i]? = some t)
    (hrequest : t'.request = t.request) (hin : t.inside = true) (hhalf : t.half = t'.half)
    (hfits : TurnFits s.store t') : Orderly (s.set i (s.store, t')) :=
  h.unwritten ht hrequest (fun hlock => .inl (holdsLock_of_inside hlock hrequest hin))
    (fun _ => .inl hin) hhalf hfits

/-- A turn that is inside writes in its own session. -/
theorem Orderly.inside_written {c' : ContentStore} {t' : SessionTurn} (h : Orderly s)
    (ht : s.turns[i]? = some t) (hrequest : t'.request = t.request) (hin : t.inside = true)
    (hc : TouchesOnly s.store c' t.session)
    (hsessions : (c'.sessions.data.map ChatSession.sessionId).Nodup)
    (hwhole : t'.half = false → (∀ o ∈ s.others i t, o.half = false) →
      WholeTurns (sessionMessages c' t.session))
    (hfits : TurnFits c' t') : Orderly (s.set i (c', t')) :=
  orderly_set h ht hrequest (fun hlock => .inl (holdsLock_of_inside hlock hrequest hin))
    (fun _ => .inl hin) hc (.inr hin) hsessions hwhole hfits

/-- The write of the session's entry. -/
theorem Orderly.session_written {t' : SessionTurn} {answer : String} {existing : Option Nat}
    (h : Orderly s) (ht : s.turns[i]? = some t)
    (hphase : t.phase = .writing .session answer existing) (hrequest : t'.request = t.request)
    (hviews : t'.views = t.views)
    (hafter : t'.phase = .finding (.message .user) answer ∨ t'.phase = .ended) :
    Orderly (s.set i (t.write answer existing s.store .session, t')) := by
  have hfits := h.fits t (List.mem_of_getElem? ht)
  have hin : t.inside = true := by simp [SessionTurn.inside, hphase]
  have hfound : s.store.sessions.StillFound ChatSession.sessionId t.session existing := by
    have hwriting := hfits.2
    rwa [hphase] at hwriting
  refine h.inside_written ht hrequest hin (touchesOnly_session hfound)
    (hfound.nodup_put t.sessionData_sessionId h.sessions) (fun _ hothers => ?_) ?_
  · exact h.whole_session ht (by simp [SessionTurn.half, hphase]) hothers
  · refine ⟨hviews ▸ hfits.1, ?_⟩
    obtain hafter | hafter := hafter <;> rw [hafter] <;> trivial

/-- The write of the user's message, the answer to come. -/
theorem Orderly.user_written {answer : String} (h : Orderly s) (ht : s.turns[i]? = some t)
    (hphase : t.phase = .writing (.message .user) answer none) :
    Orderly (s.set i (t.write answer none s.store (.message .user),
      { t with phase := .finding (.message .assistant) answer })) := by
  have hfits := h.fits t (List.mem_of_getElem? ht)
  have hin : t.inside = true := by simp [SessionTurn.inside, hphase]
  have hmine : t.half = false := by simp [SessionTurn.half, hphase]
  refine h.inside_written ht rfl hin touchesOnly_message h.sessions (fun hhalf => ?_)
    ⟨hfits.1, ?_⟩
  · simp [SessionTurn.half] at hhalf
  · refine ⟨sessionMessages s.store t.session, ?_, h.whole_session ht hmine (h.no_half ht hin)⟩
    exact (sessionMessages_create t.session).trans (if_pos rfl)

/-- The write of the answer completes the turn. -/
theorem Orderly.assistant_written {answer : String} (h : Orderly s) (ht : s.turns[i]? = some t)
    (hphase : t.phase = .writing (.message .assistant) answer none) :
    Orderly (s.set i (t.write answer none s.store (.message .assistant),
      { t with phase := .ended })) := by
  have hfits := h.fits t (List.mem_of_getElem? ht)
  have hin : t.inside = true := by simp [SessionTurn.inside, hphase]
  refine h.inside_written ht rfl hin touchesOnly_message h.sessions (fun _ _ => ?_)
    ⟨hfits.1, trivial⟩
  · obtain ⟨rest, hrest, hwhole⟩ :=
      fits_of_half (by simp [SessionTurn.half, hphase] : t.half = true) hfits
    rw [sessionMessages_create, if_pos rfl, hrest, List.append_assoc]
    exact hwhole.append ⟨⟨rfl, rfl, rfl, rfl, rfl, rfl, rfl⟩, trivial⟩

/-- A new turn holds no lock and is not inside. -/
theorem Orderly.started (h : Orderly s) (request : ChatRequest) (trace : String) :
    Orderly { s with turns := s.turns ++ [request.begin trace] } := by
  have hphase : (request.begin trace).phase = .waiting ∨ (request.begin trace).phase = .ended
      ∨ (request.begin trace).phase = .reading ∧ request.entry ≠ .handleChatTurn := by
    unfold ChatRequest.begin
    cases hentry : request.entry <;> simp
    exact (em _).symm
  have hlock : (request.begin trace).holdsLock = false := by
    have hentry : (request.begin trace).request = request := rfl
    unfold SessionTurn.holdsLock
    rw [hentry]
    obtain hphase | hphase | ⟨hphase, hne⟩ := hphase <;> rw [hphase] <;>
      cases hentry : request.entry <;> simp_all
  have hout : (request.begin trace).inside = false := by
    unfold SessionTurn.inside
    obtain hphase | hphase | ⟨hphase, -⟩ := hphase <;> rw [hphase]
  refine ⟨exclusive_snoc h.locked hlock, exclusive_snoc h.apart hout, h.sessions,
    fun session hhalf => ?_,
    fun t ht => ?_⟩
  · exact h.whole session fun t ht => hhalf t (List.mem_append_left _ ht)
  · obtain ht | ht := List.mem_append.mp ht
    · exact h.fits t ht
    · rw [List.mem_singleton.mp ht, fits_of_outside hout]
      intro view hview
      cases hview

/-- A turn that reads alone reads whole turns. -/
theorem Orderly.reads_whole (h : Orderly s) (ht : s.turns[i]? = some t)
    (hphase : t.phase = .reading) (halone : ∀ o ∈ s.others i t, o.inside = false) :
    WholeTurns (sessionMessages s.store t.session) := by
  refine h.whole_session ht (by simp [SessionTurn.half, hphase]) fun o ho => ?_
  by_contra hhalf
  have hin := inside_of_half (by simpa using hhalf)
  rw [halone o ho] at hin
  cases hin

/-- An undisturbed step of a turn. -/
theorem Orderly.move (h : Orderly s) (hfresh : FreshMessages ids s) (ht : s.turns[i]? = some t)
    (hC : Undisturbed s a) (hmove : TurnMove s i t a moved) : Orderly (s.set i moved) := by
  have hmem : t ∈ s.turns := List.mem_of_getElem? ht
  have hfits := h.fits t hmem
  cases hmove with
  | locks hphase hfree =>
      refine h.unwritten ht rfl (fun _ => .inr hfree) (fun hin => ?_) ?_ ⟨hfits.1, trivial⟩
      · simp [SessionTurn.inside] at hin
      · simp [SessionTurn.half, hphase]
  | readsHistory hphase hentry =>
      have halone := h.reads_alone ht hphase (hC t ht)
      have hwhole := h.reads_whole ht hphase halone
      refine h.unwritten ht rfl
        (fun hlock => .inl (holdsLock_of_entered hlock rfl (by simp [hphase]) (by simp [hphase])))
        (fun _ => .inr halone) (by simp [SessionTurn.half, hphase]) ⟨?_, trivial⟩
      intro view hview
      rw [List.mem_singleton.mp hview]
      exact whole_sessionRows (k := 10) hwhole
  | readsSession hphase =>
      have halone := h.reads_alone ht hphase (hC t ht)
      have hwhole := h.reads_whole ht hphase halone
      refine h.unwritten ht rfl
        (fun hlock => .inl (holdsLock_of_entered hlock rfl (by simp [hphase]) (by simp [hphase])))
        (fun _ => .inr halone) (by simp [SessionTurn.half, hphase]) ⟨hfits.1, ?_⟩
      exact whole_sessionRows (k := 4) hwhole
  | readsUser rows hphase =>
      have hin : t.inside = true := by simp [SessionTurn.inside, hphase]
      have hhalf : t.half = false := by simp [SessionTurn.half, hphase]
      have hwhole := h.whole_session ht hhalf (h.no_half ht hin)
      have hrows : WholeTurns rows := by
        have hreading := hfits.2
        rwa [hphase] at hreading
      refine h.inside_unwritten ht rfl hin hhalf ⟨fun view hview => ?_, trivial⟩
      rcases List.mem_cons.mp hview with rfl | hview
      · exact hrows
      · rw [List.mem_singleton.mp hview]
        exact whole_sessionUserContext (k := 4) hrows (whole_userRows (k := 8) hwhole)
  | losesViews applied hphase =>
      have hinside : t.inside = true ∨ ∀ o ∈ s.others i t, o.inside = false := by
        obtain hphase | ⟨rows, hphase⟩ := hphase
        · exact .inr (h.reads_alone ht hphase (hC t ht).1)
        · exact .inl (by simp [SessionTurn.inside, hphase])
      have hwaiting : t.phase ≠ .waiting ∧ t.phase ≠ .ended ∧ t.half = false := by
        obtain hphase | ⟨rows, hphase⟩ := hphase <;> simp [SessionTurn.half, hphase]
      exact h.unwritten ht rfl
        (fun hlock => .inl (holdsLock_of_entered hlock rfl hwaiting.1 hwaiting.2.1))
        (fun _ => hinside) hwaiting.2.2 ⟨hfits.1, trivial⟩
  | answers answer text hphase =>
      exact h.inside_unwritten ht rfl (by simp [SessionTurn.inside, hphase])
        (by simp [SessionTurn.half, hphase]) ⟨hfits.1, trivial⟩
  | finds entry answer hphase =>
      have hin : t.inside = true := by simp [SessionTurn.inside, hphase]
      refine h.inside_unwritten ht rfl hin ?_ ⟨hfits.1, ?_⟩
      · cases entry with
        | session => simp [SessionTurn.half, hphase]
        | message role => cases role <;> simp [SessionTurn.half, hphase]
      · cases entry with
        | session => exact s.store.sessions.stillFound_findOne ChatSession.sessionId t.session
        | message role =>
            cases role with
            | user => trivial
            | assistant =>
                have hhalf : t.half = true := by simp [SessionTurn.half, hphase]
                have hway : HalfWay s.store t := fits_of_half hhalf hfits
                exact hway
  | writes entry answer existing hphase =>
      cases entry with
      | session => exact h.session_written ht hphase rfl rfl (.inl rfl)
      | message role =>
          cases hfresh.created t hmem role answer existing hphase
          cases role with
          | user => exact h.user_written ht hphase
          | assistant => exact h.assistant_written ht hphase
  | raises applied hwriting =>
      have hhalf : t.half = false := by
        have hhalves := (hC t ht).2
        unfold SessionTurn.halves at hhalves
        unfold SessionTurn.half
        split at hhalves <;> simp_all
      refine h.unwritten ht rfl (fun hlock => ?_) (fun hin => ?_) hhalf ⟨hfits.1, trivial⟩
      · unfold SessionTurn.holdsLock at hlock
        cases hentry : t.request.entry <;> simp [hentry] at hlock
      · simp [SessionTurn.inside] at hin
  | breaksOff entry answer existing hphase =>
      cases entry with
      | session => exact h.session_written ht hphase rfl rfl (.inr rfl)
      | message role =>
          cases hfresh.created t hmem role answer existing hphase
          cases role with
          | user =>
              have hhalves := (hC t ht).2
              simp [SessionTurn.halves, hphase] at hhalves
          | assistant => exact h.assistant_written ht hphase

/-! ## Runs -/

/-- A store of turns that ended, whose traces are not those of the runs to come. -/
structure SavedChats (ids : TraceIds) extends ContentStore where
  sessionsOnce : (sessions.data.map ChatSession.sessionId).Nodup
  keysOnce : (messages.data.map ChatMessage.messageKey).Nodup
  whole : ∀ session, WholeTurns (sessionMessages toContentStore session)
  earlier : ∀ n role, ∀ m ∈ messages.data, m.messageKey ≠ messageKey (ids.id n) role

/-- Before the first turn. -/
def SavedChats.start (c : SavedChats ids) : Chats := ⟨c.toContentStore, []⟩

theorem SavedChats.orderly (c : SavedChats ids) : Orderly c.start :=
  ⟨exclusive_nil, exclusive_nil, c.sessionsOnce, fun session _ => c.whole session,
    by simp [SavedChats.start]⟩

theorem SavedChats.freshMessages (c : SavedChats ids) : FreshMessages ids c.start where
  distinct := c.keysOnce
  unused n _ := c.earlier n
  traces i t h := by simp [SavedChats.start] at h
  owed t h := by simp [SavedChats.start] at h
  created t h := by simp [SavedChats.start] at h

theorem Orderly.step (h : Orderly s) (hfresh : FreshMessages ids s) (hC : Undisturbed s a)
    (hstep : chatStep ids s a = some s') : Orderly s' := by
  obtain ⟨request, -, rfl⟩ | ⟨i, t, moved, ht, hmove, rfl⟩ := chatStep_cases hstep
  · exact h.started request _
  · exact h.move hfresh ht hC hmove

/-- The turns of an interleaving without a disturbed step are serial, after each step. Chat
turns are kept apart by their lock, configured turns by the condition; the run then carries
`Orderly` along, and serial turns are read off it. -/
theorem turns_serialised (ids : TraceIds) (c : SavedChats ids) (actions : List ChatAction)
    (h : Runs.Meets (chatStep ids) Undisturbed c.start actions) :
    ∀ before after s, actions = before ++ after →
      Runs.run (chatStep ids) c.start before = some s → Serialised s := by
  rintro before after s rfl hrun
  have hinv : Orderly s ∧ FreshMessages ids s :=
    Runs.run_invariant (I := fun s => Orderly s ∧ FreshMessages ids s)
      (fun s a s' hs hC hstep => ⟨hs.1.step hs.2 hC hstep, hs.2.step hstep⟩)
      ⟨c.orderly, c.freshMessages⟩ (Runs.meets_append h).1 hrun
  exact ⟨hinv.1.apart, fun t ht => (hinv.1.fits t ht).1, hinv.1.sessions, hinv.2.distinct⟩

section Example

/-- Traces by their number. -/
def exampleTraces : TraceIds where
  id n := String.ofList (List.replicate n 'x')
  distinct m n h := by simpa using congrArg String.length h

/-- Nothing is saved yet. -/
def noChats : SavedChats exampleTraces where
  sessions := ⟨[], 0, by simp, by simp⟩
  messages := ⟨[], 0, by simp, by simp⟩
  sessionsOnce := by decide
  keysOnce := by decide
  whole _ := trivial
  earlier _ _ _ h := by cases h

def configuredTurn (message : String) : ChatRequest where
  entry := .runConfiguredRequest
  sessionId := "s-1"
  userId := "u-1"
  message := message

def chatTurn (message : String) : ChatRequest where
  entry := .handleChatTurn
  sessionId := "s-1"
  message := message

/-- A configured turn, then two chat turns at once. -/
def exampleActions : List ChatAction :=
  [.start (configuredTurn "a"), .next 0, .next 0, .ran 0 (some "ok"), .next 0, .next 0, .next 0,
    .next 0, .next 0, .next 0, .start (chatTurn "b"), .start (chatTurn "c"), .next 2, .next 2,
    .ran 2 none, .next 2, .next 2, .next 2, .next 2, .next 2, .next 2, .next 1, .next 1,
    .ran 1 (some "ok")]

theorem turns_serialised_example :
    ∃ s, Runs.run (chatStep exampleTraces) noChats.start exampleActions = some s
      ∧ Serialised s := by
  have hruns : (Runs.run (chatStep exampleTraces) noChats.start exampleActions).isSome
      = true := by
    decide +kernel
  obtain ⟨s, hs⟩ := Option.isSome_iff_exists.mp hruns
  exact ⟨s, hs, turns_serialised exampleTraces noChats exampleActions (by decide +kernel)
    exampleActions [] s (List.append_nil _).symm hs⟩

/-- Two configured turns look for the session before either creates it. -/
def overlappingActions : List ChatAction :=
  [.start (configuredTurn "a"), .start (configuredTurn "b"), .next 0, .next 0, .ran 0 none,
    .next 0, .next 1, .next 1, .ran 1 none, .next 1, .next 0, .next 1]

/-- The session has two entries then. -/
theorem configured_turns_overlap :
    ¬ ∀ before after s, overlappingActions = before ++ after →
      Runs.run (chatStep exampleTraces) noChats.start before = some s → Serialised s := by
  intro h
  have hrun : ∃ s, Runs.run (chatStep exampleTraces) noChats.start overlappingActions = some s
      ∧ ¬ (s.store.sessions.data.map ChatSession.sessionId).Nodup := by
    have hsome : (Runs.run (chatStep exampleTraces) noChats.start overlappingActions).any
        (fun s => ¬ (s.store.sessions.data.map ChatSession.sessionId).Nodup) = true := by
      decide +kernel
    obtain ⟨s, hs, hnot⟩ := (Option.any_eq_true _ _).mp hsome
    exact ⟨s, hs, by simpa using hnot⟩
  obtain ⟨s, hs, hnot⟩ := hrun
  exact hnot (h overlappingActions [] s (List.append_nil _).symm hs).sessions

end Example

end Aegora
