import Aegora.ProviderAgreement

/-!
# Tenants and users on one OpenViking server

In the trusted mode every account and user has documents of its own, and each
was written for that account and user (`Accounted`). In the other two modes all
calls share the documents of the API key. There `recall` still leaves out what
was written for another user, but the operations that address one document take
whatever lies under its URI, so a run keeps users apart exactly when none of
these operations meets a document of somebody else.
-/

namespace Aegora

open Py

/-! ## Whose document it is -/

/-- The tenant and user in the metadata of an item, as `_visible_to_scope` reads them. -/
def MemoryItem.writtenFor (item : MemoryItem) : String × String :=
  (item.metadataText "tenant_id" "default", item.metadataText "user_id" "")

/-- The tenant and user that a document was written for. -/
def documentFor (document : Json) : Option (String × String) :=
  match documentToItem document "" with
  | .ok item => some item.writtenFor
  | .error _ => none

def MemoryScope.owner (scope : MemoryScope) : String × String := (scope.tenant, scope.userId)

/-- A call changes the server, unless it raises. -/
def vikingStep (provider : OpenViking) (server : VikingServer) (call : MemoryCall) :
    Option VikingServer :=
  some (match vikingCall provider server call with
    | .ok (server', _) => server'
    | .error _ => server)

/-- The items that a read returns. -/
def readItems (provider : OpenViking) (server : VikingServer) : MemoryCall → List MemoryItem
  | .getCurrent scope key _ =>
      match provider.getCurrent scope key server with
      | .ok item => item.toList
      | .error _ => []
  | .recall scope query limit now => provider.recall scope query limit now server
  | _ => []

/-- The call reads only what was written for its own tenant and user, and leaves every
document of another one in place. -/
structure Isolated (provider : OpenViking) (server : VikingServer) (call : MemoryCall)
    (server' : VikingServer) : Prop where
  reads : ∀ item ∈ readItems provider server call, item.writtenFor = call.scope.owner
  keeps : ∀ who uri document owner, Dict.get? (server.documents who) uri = some document →
    documentFor document = some owner → owner ≠ call.scope.owner →
      Dict.get? (server'.documents who) uri = some document

/-- A document that lies under the URI was written for this tenant and user. -/
def OwnUnder (server : VikingServer) (who : VikingIdentity) (uri : String)
    (mine : String × String) : Prop :=
  ∀ document owner, Dict.get? (server.documents who) uri = some document →
    documentFor document = some owner → owner = mine

/-- The document under the URI already says what `memory` would. -/
def AlreadySaid (provider : OpenViking) (server : VikingServer) (who : VikingIdentity)
    (uri : String) (memory : MemoryWrite) : Prop :=
  ∃ document item, Dict.get? (server.documents who) uri = some document
    ∧ documentToItem document uri = .ok item ∧ provider.sameItem memory item = true

/-- The document under the URI that the call addresses was written for its own tenant and
user, or is for `remember` a repetition that it leaves as it is. -/
def FindsOwn (provider : OpenViking) (server : VikingServer) : MemoryCall → Prop
  | .remember scope memory _ =>
      let uri := provider.env.memoryUri scope memory.key
      OwnUnder server (provider.identity scope) uri scope.owner
        ∨ AlreadySaid provider server (provider.identity scope) uri memory
  | .forget scope key _ =>
      OwnUnder server (provider.identity scope) (provider.env.memoryUri scope key) scope.owner
  | .getCurrent scope key _ =>
      OwnUnder server (provider.identity scope) (provider.env.memoryUri scope key) scope.owner
  | .recall _ _ _ _ => True

/-! ## One call -/

section Calls

variable {provider : OpenViking} {server server' : VikingServer} {scope : MemoryScope}
  {memory : MemoryWrite} {item : MemoryItem} {key : String} {now : Time}

/-- Where a document is read from does not matter for whose it is. -/
theorem documentFor_eq (document : Json) (uri : String) :
    documentFor document = match documentToItem document uri with
      | .ok item => some item.writtenFor
      | .error _ => none := by
  unfold documentFor documentToItem
  cases document with
  | obj raw =>
      dsimp only
      by_cases hschema : Dict.get raw "schema" ≠ .str documentSchema
      · rw [if_pos hschema, if_pos hschema]
      · rw [if_neg hschema, if_neg hschema]
        cases ((Dict.get raw "version").orElse (.int 1)).pyInt <;> rfl
  | _ => rfl

theorem writtenFor_newItem (current : Option MemoryItem) :
    (provider.newItem scope memory now current).writtenFor = scope.owner := by
  unfold MemoryItem.writtenFor MemoryItem.metadataText MemoryScope.owner
  rw [documentText_str scope.tenant _ rfl, documentText_str scope.userId _ rfl,
    textOr_empty]
  exact Prod.ext (if_neg (tenant_ne_empty scope)) rfl

/-- A document that `remember` writes was written for its caller. -/
theorem documentFor_newItem (current : Option MemoryItem) :
    documentFor (itemToDocument (provider.newItem scope memory now current))
      = some scope.owner := by
  rw [documentFor_eq _ "", documentToItem_itemToDocument, ← writtenFor_newItem current]
  rfl

/-- `get_current` reads the document under the key's URI. -/
theorem getCurrent_iff : provider.getCurrent scope key server = .ok (some item)
    ↔ ∃ document, Dict.get? (server.documents (provider.identity scope))
          (provider.env.memoryUri scope key) = some document
        ∧ documentToItem document (provider.env.memoryUri scope key) = .ok item := by
  unfold OpenViking.getCurrent OpenViking.readItem
  cases Dict.get? (server.documents (provider.identity scope))
      (provider.env.memoryUri scope key) with
  | none => simp
  | some document =>
      dsimp only
      cases hread : documentToItem document (provider.env.memoryUri scope key) <;>
        simp [Except.map, hread]

/-- Whose the document under the URI is, told by the item that is read there. -/
theorem ownUnder_iff {mine : String × String} :
    OwnUnder server (provider.identity scope) (provider.env.memoryUri scope key) mine
      ↔ ∀ item, provider.getCurrent scope key server = .ok (some item) →
          item.writtenFor = mine := by
  constructor
  · intro hown item hitem
    obtain ⟨document, hdocument, hread⟩ := getCurrent_iff.mp hitem
    refine hown document _ hdocument ?_
    rw [documentFor_eq _ (provider.env.memoryUri scope key), hread]
  · intro hall document owner hdocument howner
    rw [documentFor_eq _ (provider.env.memoryUri scope key)] at howner
    cases hread : documentToItem document (provider.env.memoryUri scope key) with
    | error message => rw [hread] at howner; cases howner
    | ok item =>
        rw [hread] at howner
        cases howner
        exact hall item (getCurrent_iff.mpr ⟨document, hdocument, hread⟩)

theorem alreadySaid_iff :
    AlreadySaid provider server (provider.identity scope)
        (provider.env.memoryUri scope memory.key) memory
      ↔ ∃ item, provider.getCurrent scope memory.key server = .ok (some item)
          ∧ provider.sameItem memory item = true := by
  constructor
  · rintro ⟨document, item, hdocument, hread, hsame⟩
    exact ⟨item, getCurrent_iff.mpr ⟨document, hdocument, hread⟩, hsame⟩
  · rintro ⟨item, hitem, hsame⟩
    obtain ⟨document, hdocument, hread⟩ := getCurrent_iff.mp hitem
    exact ⟨document, item, hdocument, hread, hsame⟩

/-- `recall` checks whose item it is. -/
theorem writtenFor_recalled {query : String} {limit : Int}
    (h : item ∈ provider.recall scope query limit now server) : item.writtenFor = scope.owner := by
  obtain ⟨hit, -, hitem⟩ := OpenViking.mem_collectItems h
  have hvisible : ∀ read : MemoryItem, visibleToScope read scope = true →
      read.writtenFor = scope.owner := by
    intro read hread
    unfold visibleToScope at hread
    split at hread
    · cases hread
    · rename_i htenant
      split at hread
      · cases hread
      · rename_i huser
        exact Prod.ext (not_not.mp htenant) (not_not.mp huser)
  unfold OpenViking.recalledItem at hitem
  dsimp only at hitem
  split at hitem
  · cases hitem
  · split at hitem
    · cases hitem
    · cases hitem
    · rename_i read _
      split at hitem
      · cases hitem
      · rename_i hseen
        have hown := hvisible read (by simpa using hseen)
        split at hitem
        · cases hitem
        · split at hitem
          · cases hitem
            exact hown
          · cases hitem
            rw [← hown]
            unfold MemoryItem.writtenFor MemoryItem.metadataText documentText
            dsimp only
            rw [Dict.get_set, Dict.get_set]
            rfl

/-- Nobody else's document is touched. -/
def KeepsOthers (server server' : VikingServer) (mine : String × String) : Prop :=
  ∀ who uri document owner, Dict.get? (server.documents who) uri = some document →
    documentFor document = some owner → owner ≠ mine →
      Dict.get? (server'.documents who) uri = some document

/-- Replacing or removing the document under one URI touches nobody else's, exactly when
that document was one's own. -/
theorem keepsOthers_update (mine : String × String) (who : VikingIdentity) (uri : String)
    {documents : Documents}
    (hother : ∀ other, other ≠ uri →
      Dict.get? documents other = Dict.get? (server.documents who) other)
    (hown : ∀ document, Dict.get? documents uri = some document →
      documentFor document = some mine) :
    KeepsOthers server (server.update who documents) mine ↔ OwnUnder server who uri mine := by
  constructor
  · intro hkeeps document owner hdocument howner
    by_contra hforeign
    have hkept := hkeeps who uri document owner hdocument howner hforeign
    simp only [VikingServer.update, if_true] at hkept
    rw [hown document hkept] at howner
    exact hforeign (Option.some.inj howner).symm
  · intro hmine who' uri' document owner hdocument howner hforeign
    unfold VikingServer.update
    dsimp only
    split
    · rename_i hwho
      subst hwho
      by_cases huri : uri' = uri
      · subst huri
        exact absurd (hmine document owner hdocument howner) hforeign
      · rw [hother uri' huri]
        exact hdocument
    · exact hdocument

theorem keepsOthers_self (mine : String × String) : KeepsOthers server server mine :=
  fun _ _ _ _ hdocument _ _ => hdocument

theorem remember_isolated {call : MemoryCall} (hcall : call = .remember scope memory now)
    (h : vikingStep provider server call = some server') :
    KeepsOthers server server' scope.owner ↔ FindsOwn provider server call := by
  subst hcall
  unfold vikingStep vikingCall at h
  show _ ↔ OwnUnder _ _ _ _ ∨ AlreadySaid _ _ _ _ _
  cases hcurrent : provider.getCurrent scope memory.key server with
  | error message =>
      simp only [OpenViking.remember, hcurrent, bind, Except.bind, Option.some.injEq] at h
      subst h
      refine iff_of_true (keepsOthers_self _) (Or.inl (ownUnder_iff.mpr fun item hitem => ?_))
      rw [hcurrent] at hitem
      cases hitem
  | ok current =>
      rcases OpenViking.remember_cases now hcurrent with
        ⟨item, hitem, hsame, hremember⟩ | ⟨hdiffers, hremember⟩
      · simp only [hremember, bind, Except.bind, pure, Except.pure, Option.some.injEq] at h
        subst h
        subst hitem
        exact iff_of_true (keepsOthers_self _)
          (Or.inr (alreadySaid_iff.mpr ⟨item, hcurrent, hsame⟩))
      · simp only [hremember, bind, Except.bind, pure, Except.pure, Option.some.injEq] at h
        subst h
        have hnew : ¬ AlreadySaid provider server (provider.identity scope)
            (provider.env.memoryUri scope memory.key) memory := by
          rw [alreadySaid_iff]
          rintro ⟨item, hitem, hsame⟩
          rw [hcurrent] at hitem
          rw [hdiffers item (Except.ok.inj hitem)] at hsame
          cases hsame
        rw [or_iff_left hnew]
        exact keepsOthers_update scope.owner (provider.identity scope)
          (provider.env.memoryUri scope memory.key)
          (fun other hother => (Dict.get?_set (server.documents (provider.identity scope)) _
            (itemToDocument (provider.newItem scope memory now current)) other).trans
              (if_neg hother))
          (fun document hdocument => by
            rw [Dict.get?_set, if_pos rfl] at hdocument
            cases hdocument
            exact documentFor_newItem current)

theorem forget_isolated {call : MemoryCall} (hcall : call = .forget scope key now)
    (h : vikingStep provider server call = some server') :
    KeepsOthers server server' scope.owner ↔ FindsOwn provider server call := by
  subst hcall
  unfold vikingStep vikingCall at h
  show _ ↔ OwnUnder _ _ _ _
  cases hcurrent : provider.getCurrent scope key server with
  | error message =>
      have hread : provider.readItem scope (provider.env.memoryUri scope key) server
          = .error message := hcurrent
      simp only [OpenViking.forget, hread, bind, Except.bind, Option.some.injEq] at h
      subst h
      refine iff_of_true (keepsOthers_self _) (ownUnder_iff.mpr fun item hitem => ?_)
      rw [hcurrent] at hitem
      cases hitem
  | ok current =>
      simp only [OpenViking.forget_cases hcurrent, bind, Except.bind, pure, Except.pure,
        Option.some.injEq] at h
      subst h
      cases current with
      | none =>
          refine iff_of_true (keepsOthers_self _) (ownUnder_iff.mpr fun item hitem => ?_)
          rw [hcurrent] at hitem
          cases hitem
      | some item =>
          simp only [Option.isSome_some, if_true]
          exact keepsOthers_update scope.owner (provider.identity scope)
            (provider.env.memoryUri scope key)
            (fun other hother => (Dict.get?_filter_ne (server.documents (provider.identity scope))
              _ other).trans (if_neg hother))
            (fun document hdocument => by
              rw [Dict.get?_filter_ne, if_pos rfl] at hdocument
              cases hdocument)

theorem isolated_iff {call : MemoryCall} (h : vikingStep provider server call = some server') :
    Isolated provider server call server' ↔ FindsOwn provider server call := by
  cases call with
  | remember scope memory now =>
      rw [← remember_isolated rfl h]
      exact ⟨fun hiso => hiso.keeps, fun hkeeps => ⟨fun _ hitem => absurd hitem List.not_mem_nil,
        hkeeps⟩⟩
  | forget scope key now =>
      rw [← forget_isolated rfl h]
      exact ⟨fun hiso => hiso.keeps, fun hkeeps => ⟨fun _ hitem => absurd hitem List.not_mem_nil,
        hkeeps⟩⟩
  | getCurrent scope key now =>
      have hsame : server' = server := by
        unfold vikingStep vikingCall at h
        cases hcurrent : provider.getCurrent scope key server with
        | error message =>
            simp only [hcurrent, bind, Except.bind, Option.some.injEq] at h
            exact h.symm
        | ok item =>
            simp only [hcurrent, bind, Except.bind, pure, Except.pure, Option.some.injEq] at h
            exact h.symm
      subst hsame
      show _ ↔ OwnUnder _ _ _ _
      rw [ownUnder_iff]
      constructor
      · intro hiso item hitem
        refine hiso.reads item ?_
        unfold readItems
        dsimp only
        rw [hitem]
        exact List.mem_singleton.mpr rfl
      · intro hfinds
        refine ⟨fun item hitem => ?_, keepsOthers_self _⟩
        unfold readItems at hitem
        dsimp only at hitem
        split at hitem
        · rename_i found hfound
          cases found with
          | none => cases hitem
          | some found =>
              cases List.mem_singleton.mp hitem
              exact hfinds item hfound
        · cases hitem
  | «recall» scope query limit now =>
      cases h
      exact iff_of_true ⟨fun item hitem => writtenFor_recalled hitem, keepsOthers_self _⟩ trivial

end Calls

/-! ## Runs -/

def VikingServer.empty : VikingServer := ⟨fun _ => []⟩

/-- In the trusted mode, what lies under an account and user was written for them. -/
def Accounted (server : VikingServer) : Prop :=
  ∀ account user, ∀ entry ∈ server.documents (.account account user),
    documentFor entry.2 = some (account, user)

theorem accounted_update {server : VikingServer} (h : Accounted server) {who : VikingIdentity}
    {documents : Documents}
    (hnew : ∀ account user, who = .account account user → ∀ entry ∈ documents,
      documentFor entry.2 = some (account, user)) : Accounted (server.update who documents) := by
  intro account user entry hentry
  unfold VikingServer.update at hentry
  dsimp only at hentry
  split at hentry
  · rename_i hwho
    exact hnew account user hwho.symm entry hentry
  · exact h account user entry hentry

section Runs

variable {provider : OpenViking} {server server' : VikingServer} {call : MemoryCall}

theorem identity_trusted (hmode : provider.authMode = .trusted) (scope : MemoryScope) :
    provider.identity scope = .account scope.tenant scope.userId := by
  rw [OpenViking.identity_eq]
  exact if_pos hmode

theorem accounted_step (hmode : provider.authMode = .trusted) (h : Accounted server)
    (hstep : vikingStep provider server call = some server') : Accounted server' := by
  unfold vikingStep vikingCall at hstep
  cases call with
  | remember scope memory now =>
      cases hcurrent : provider.getCurrent scope memory.key server with
      | error message =>
          simp only [OpenViking.remember, hcurrent, bind, Except.bind, Option.some.injEq] at hstep
          exact hstep ▸ h
      | ok current =>
          rcases OpenViking.remember_cases now hcurrent with
            ⟨_, -, -, hremember⟩ | ⟨-, hremember⟩ <;>
            simp only [hremember, bind, Except.bind, pure, Except.pure, Option.some.injEq] at hstep
          · exact hstep ▸ h
          · subst hstep
            refine accounted_update h fun account user hwho entry hentry => ?_
            rw [identity_trusted hmode] at hwho hentry
            cases hwho
            rcases Dict.mem_set hentry with rfl | hentry
            · exact documentFor_newItem current
            · exact h _ _ entry hentry
  | forget scope key now =>
      cases hcurrent : provider.getCurrent scope key server with
      | error message =>
          have hread : provider.readItem scope (provider.env.memoryUri scope key) server
              = .error message := hcurrent
          simp only [OpenViking.forget, hread, bind, Except.bind, Option.some.injEq] at hstep
          exact hstep ▸ h
      | ok current =>
          simp only [OpenViking.forget_cases hcurrent, bind, Except.bind, pure, Except.pure,
            Option.some.injEq] at hstep
          subst hstep
          cases current with
          | none => exact h
          | some item =>
              refine accounted_update h fun account user hwho entry hentry => ?_
              rw [hwho] at hentry
              exact h account user entry (List.mem_of_mem_filter hentry)
  | getCurrent scope key now =>
      cases hcurrent : provider.getCurrent scope key server <;>
        simp only [hcurrent, bind, Except.bind, pure, Except.pure, Option.some.injEq] at hstep <;>
        exact hstep ▸ h
  | «recall» scope query limit now =>
      cases hstep
      exact h

/-- Where every account has its own documents, every call finds its own. -/
theorem findsOwn_of_accounted (hmode : provider.authMode = .trusted) (h : Accounted server) :
    FindsOwn provider server call := by
  have hown : ∀ (scope : MemoryScope) (uri : String),
      OwnUnder server (provider.identity scope) uri scope.owner := by
    intro scope uri document owner hdocument hfor
    rw [identity_trusted hmode] at hdocument
    have howner := h _ _ _ (Dict.mem_of_get? hdocument)
    rw [hfor] at howner
    exact Option.some.inj howner
  cases call with
  | remember scope memory now => exact Or.inl (hown scope _)
  | forget scope key now => exact hown scope _
  | getCurrent scope key now => exact hown scope _
  | «recall» scope query limit now => trivial

theorem vikingStep_total (provider : OpenViking) (server : VikingServer) (call : MemoryCall) :
    ∃ server', vikingStep provider server call = some server' := ⟨_, rfl⟩

end Runs

/-- The calls of a run keep tenants and users apart if the mode is the trusted one, and
otherwise exactly when the document under every URI that a call addresses was written for
the caller. Only `recall` looks whose documents it has found. -/
theorem users_kept_apart (provider : OpenViking) (calls : List MemoryCall) :
    (∀ before call after server server', calls = before ++ call :: after →
        Runs.run (vikingStep provider) .empty before = some server →
        vikingStep provider server call = some server' → Isolated provider server call server')
      ↔ provider.authMode = .trusted
        ∨ Runs.Meets (vikingStep provider) (FindsOwn provider) .empty calls := by
  have hstep : ∀ server call server', vikingStep provider server call = some server' →
      (Isolated provider server call server' ↔ FindsOwn provider server call) :=
    fun _ _ _ => isolated_iff
  refine (Runs.steps_iff_meets (vikingStep_total provider) hstep).trans ⟨Or.inr, ?_⟩
  rintro (hmode | hmeets)
  · rw [Runs.meets_iff]
    intro before call after server _ hserver
    have haccounted : Accounted server :=
      Runs.run_invariant' (fun _ _ _ h hstep => accounted_step hmode h hstep)
        (fun _ _ _ hentry => absurd hentry List.not_mem_nil) hserver
    exact findsOwn_of_accounted hmode haccounted
  · exact hmeets

/-- With an API key, a user of one tenant reads what was written for a user of another. -/
theorem users_not_apart :
    ¬ ∀ (provider : OpenViking) (calls : List MemoryCall),
      ∀ before call after server server', calls = before ++ call :: after →
        Runs.run (vikingStep provider) .empty before = some server →
        vikingStep provider server call = some server' → Isolated provider server call server' := by
  intro h
  have hisolated := h (sampleViking .apiKey)
    [.remember (preferences "acme") (cityMemory none) 0,
     .getCurrent (preferences "globex") "city" 0]
    [.remember (preferences "acme") (cityMemory none) 0] _ [] _ _ rfl rfl rfl
  exact absurd hisolated.reads (by decide +kernel)

end Aegora
