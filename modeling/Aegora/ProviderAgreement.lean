import Aegora.MemoryMigration
import Aegora.NativePgLaws
import Aegora.OpenVikingLaws
import Aegora.Runs

/-!
# The two memory providers give the same answers

Both providers run the same calls of one tenant, user and agent, the native one
on its tables and the other on its documents. While their answers agree the
documents mirror the active rows (`Mirrors`): one document for each current row,
under its URI, that says what the row says.

The native provider strips the key of a read or a deletion, hides an expired
row from `get_current` and recalls from every namespace. The other one does
none of the three, so the answers agree in every run whose calls are
`Comparable`.
-/

namespace Aegora

open Py

/-! ## Calls and answers -/

structure MemoryParty where
  tenant : String
  user : String
  agent : Option String

/-- The scope is one of this tenant, user and agent. -/
def MemoryScope.within (scope : MemoryScope) (party : MemoryParty) : Prop :=
  scope.tenant = party.tenant ∧ scope.userId = party.user ∧ scope.agentId = party.agent

inductive MemoryCall where
  | remember (scope : MemoryScope) (memory : MemoryWrite) (now : Time)
  | forget (scope : MemoryScope) (key : String) (now : Time)
  | getCurrent (scope : MemoryScope) (key : String) (now : Time)
  | «recall» (scope : MemoryScope) (query : String) (limit : Int) (now : Time)

namespace MemoryCall

def scope : MemoryCall → MemoryScope
  | .remember scope _ _ => scope
  | .forget scope _ _ => scope
  | .getCurrent scope _ _ => scope
  | .recall scope _ _ _ => scope

def now : MemoryCall → Time
  | .remember _ _ now => now
  | .forget _ _ now => now
  | .getCurrent _ _ now => now
  | .recall _ _ _ now => now

/-- The texts that the URI of the call has digests of. -/
def texts : MemoryCall → List String
  | .remember scope memory _ => [scope.nameSpace, memory.key]
  | .forget scope key _ => [scope.nameSpace, key]
  | .getCurrent scope key _ => [scope.nameSpace, key]
  | .recall _ _ _ _ => []

end MemoryCall

/-- What a caller sees of an item. -/
structure MemoryView where
  key : String
  content : String
  version : Nat
  sourceKind : String
  validUntil : Option Time
deriving DecidableEq

def MemoryItem.view (item : MemoryItem) (validUntil : Option Time) : MemoryView where
  key := item.key
  content := item.content
  version := item.version
  sourceKind := item.sourceKind
  validUntil := validUntil

/-- `item.metadata.get("valid_until")` of an item of the native provider. -/
def nativeUntil (item : MemoryItem) : Option Time :=
  match Dict.get item.metadata "valid_until" with
  | .int time => some time
  | _ => none

def nativeView (item : MemoryItem) : MemoryView := item.view (nativeUntil item)

def VikingEnv.view (env : VikingEnv) (item : MemoryItem) : MemoryView :=
  item.view (env.validUntil item)

/-- The answer to a call; a recalled item comes with its scope and namespace. -/
inductive MemoryAnswer where
  | remembered (view : MemoryView)
  | forgotten (found : Bool)
  | current (view : Option MemoryView)
  | recalled (views : List (String × String × MemoryView))
deriving DecidableEq

/-- The same answer; recalled items are compared as a set. -/
def MemoryAnswer.Same : MemoryAnswer → MemoryAnswer → Prop
  | .recalled views, .recalled views' => ∀ view, view ∈ views ↔ view ∈ views'
  | answer, answer' => answer = answer'

/-- A read returns nothing whose time is over. -/
def MemoryAnswer.Fresh (now : Time) : MemoryAnswer → Prop
  | .current view => ∀ v ∈ view, v.validUntil.all (now < ·) = true
  | .recalled views => ∀ v ∈ views, v.2.2.validUntil.all (now < ·) = true
  | _ => True

/-- The scope, the namespace and the view of a recalled item. -/
def recalledView (view : MemoryItem → MemoryView) (item : MemoryItem) :
    String × String × MemoryView :=
  (item.scope, item.nameSpace, view item)

/-- A call to the native provider. -/
def nativeCall (env : FloatEnv) (t : MemoryTables) : MemoryCall → MemoryTables × MemoryAnswer
  | .remember scope memory now =>
      let result := remember env scope memory now t
      (result.1, .remembered (nativeView (rowToItem env result.2)))
  | .forget scope key now =>
      let result := forget scope key now t
      (result.1, .forgotten result.2)
  | .getCurrent scope key now =>
      (t, .current ((getCurrent scope key now t).map fun row => nativeView (rowToItem env row)))
  | .recall scope _ limit now =>
      (t, .recalled ((recallRows scope limit now t).map fun row =>
        recalledView nativeView (rowToItem env row)))

/-- A call to the other provider. -/
def vikingCall (provider : OpenViking) (server : VikingServer) :
    MemoryCall → Except String (VikingServer × MemoryAnswer)
  | .remember scope memory now => do
      let (server', item) ← provider.remember scope memory now server
      return (server', .remembered (provider.env.view item))
  | .forget scope key _ => do
      let (server', found) ← provider.forget scope key server
      return (server', .forgotten found)
  | .getCurrent scope key _ => do
      let item ← provider.getCurrent scope key server
      return (server, .current (item.map provider.env.view))
  | .recall scope query limit now =>
      return (server, .recalled ((provider.recall scope query limit now server).map
        (recalledView provider.env.view)))

/-- The stores of the two providers. -/
structure BothStores where
  tables : MemoryTables
  server : VikingServer

def BothStores.empty : BothStores where
  tables := {}
  server := ⟨fun _ => []⟩

/-- Both providers take the call; one that raises has changed nothing. -/
def bothStep (provider : OpenViking) (s : BothStores) (call : MemoryCall) : Option BothStores :=
  some {
    tables := (nativeCall provider.env.toFloatEnv s.tables call).1
    server := match vikingCall provider s.server call with
      | .ok (server, _) => server
      | .error _ => s.server }

/-- The providers give the same answer, and neither reads what has expired. -/
def AnswersAgree (provider : OpenViking) (s : BothStores) (call : MemoryCall) : Prop :=
  ∃ server answer, vikingCall provider s.server call = .ok (server, answer)
    ∧ answer.Same (nativeCall provider.env.toFloatEnv s.tables call).2
    ∧ answer.Fresh call.now

/-! ## Searches that find every document -/

/-- The search has a hit for every document under its target, while the documents are
within the limit. -/
def FindsAll (search : VikingSearch) : Prop :=
  ∀ (documents : Documents) query target (limit : Int), documents.length ≤ limit →
    ∀ entry ∈ documents, target.toList <+: entry.1.toList →
      ∃ hit ∈ flattenHits (search documents query target limit), hitText hit = entry.1

/-- The limit of a recall cuts nothing off, neither in the table nor on the server. -/
def NotBinding (provider : OpenViking) (s : BothStores) : MemoryCall → Prop
  | .recall scope query limit now =>
      ((s.tables.rows.filter (recallable scope now)).length : Int) ≤ limit
        ∧ ((s.server.documents (provider.identity scope)).length : Int) ≤ limit
        ∧ ((flattenHits (provider.search (s.server.documents (provider.identity scope)) query
            (categoryRoot scope ++ "/") (max 1 limit))).length : Int) ≤ limit
  | _ => True

/-- The call is one that the providers treat alike: a key that finds a row is
already stripped, a row that is read by its key has not expired (or is hidden
from both by a key that is not stripped), and what may be recalled lies in the
category of the scope. -/
def Comparable (s : BothStores) : MemoryCall → Prop
  | .remember _ _ _ => True
  | .forget scope key _ =>
      ∀ row, s.tables.current (scope.identity (strip key)) = some row → strip key = key
  | .getCurrent scope key now =>
      ∀ row, s.tables.current (scope.identity (strip key)) = some row →
        (row.unexpired now = true ↔ strip key = key)
  | .recall scope _ _ now =>
      ∀ row ∈ s.tables.rows, recallable scope now row = true →
        categoryOf row.nameSpace = categoryOf scope.nameSpace

/-! ## Rows and the items that mirror them -/

/-- Leaving out null values does not change what a dictionary reads. -/
theorem get_filter_not_null {d : Dict} (h : (d.map Prod.fst).Nodup) (k : String) :
    Dict.get (d.filter fun entry => decide (entry.2 ≠ .null)) k = Dict.get d k := by
  unfold Dict.get
  induction d with
  | nil => rfl
  | cons entry rest ih =>
      obtain ⟨l, v⟩ := entry
      obtain ⟨hl, hrest⟩ := List.nodup_cons.mp h
      by_cases hv : v = .null
      · rw [List.filter_cons_of_neg (by simp [hv]), ih hrest, Dict.get?_cons]
        split
        · rename_i hk
          have hmiss : Dict.get? rest k = none := by
            rw [Dict.get?, List.lookup_eq_none_iff]
            exact fun p hp => bne_iff_ne.mpr fun heq => hl
              (List.mem_map.mpr ⟨p, hp, by rw [← heq, hk]⟩)
          rw [hmiss, hv]
          rfl
        · rfl
      · rw [List.filter_cons_of_pos (by simp [hv]), Dict.get?_cons, Dict.get?_cons]
        split
        · rfl
        · exact ih hrest

theorem nativeView_rowToItem (env : FloatEnv) (row : MemoryRow) (h : row.version ≠ 0) :
    nativeView (rowToItem env row)
      = ⟨row.key, row.content, row.version, row.sourceKind.text, row.validUntil⟩ := by
  have huntil : nativeUntil (rowToItem env row) = row.validUntil := by
    unfold nativeUntil rowToItem
    dsimp only
    rw [get_filter_not_null (by simp)]
    simp only [Dict.get, Dict.get?_cons, String.reduceEq, if_true, if_false, Option.getD_some]
    cases row.validUntil <;> rfl
  unfold nativeView MemoryItem.view
  rw [huntil]
  simp [rowToItem, h]

/-- The item says what the row says. -/
structure Describes (env : VikingEnv) (row : MemoryRow) (item : MemoryItem) : Prop where
  key : item.key = row.key
  content : item.content = row.content
  version : item.version = row.version
  positive : row.version ≠ 0
  sourceKind : item.sourceKind = row.sourceKind.text
  scope : item.scope = row.scope.text
  nameSpace : item.nameSpace = textOr row.nameSpace "preferences"
  tenant : Dict.get item.metadata "tenant_id" = .str row.tenantId
  user : Dict.get item.metadata "user_id" = .str row.subjectUserId
  agent : Dict.get item.metadata "agent_id" = optText row.agentId
  validUntil : Dict.get item.metadata "valid_until"
    = optText (row.validUntil.map env.isoformat)

namespace Describes

variable {env : VikingEnv} {row : MemoryRow} {item : MemoryItem}

/-- The end of the validity survives the way through the document. -/
theorem validUntil_eq (h : Describes env row item) : env.validUntil item = row.validUntil := by
  unfold VikingEnv.validUntil
  rw [h.validUntil]
  cases row.validUntil with
  | none => rfl
  | some time =>
      have hoffset : offsetText (env.isoformat time) = env.isoformat time := by
        unfold offsetText
        have hchars : ∀ text : List Char, 'Z' ∉ text →
            (text.flatMap fun c => if c = 'Z' then "+00:00".toList else [c]) = text := by
          intro text htext
          induction text with
          | nil => rfl
          | cons c rest ih =>
              rw [List.mem_cons, not_or] at htext
              rw [List.flatMap_cons, if_neg (Ne.symm htext.1), ih htext.2]
              rfl
        rw [hchars _ (env.iso_offset time), String.ofList_toList]
      simp [optText, env.iso_nonempty, hoffset, env.fromiso_iso]

theorem metadataIso_eq (h : Describes env row item) :
    metadataIso item "valid_until" = row.validUntil.map env.isoformat := by
  unfold metadataIso
  rw [h.validUntil]
  cases row.validUntil with
  | none => rfl
  | some time => simp [optText, env.iso_nonempty]

theorem isoformat_injective : Function.Injective env.isoformat := fun a b hab =>
  Option.some.inj (by rw [← env.fromiso_iso a, ← env.fromiso_iso b, hab])

/-- Both providers take a write for a repetition, or neither does. -/
theorem same_iff (h : Describes env row item) (provider : OpenViking)
    (henv : provider.env = env) (memory : MemoryWrite) :
    provider.sameItem memory item = sameMemory memory row := by
  subst henv
  unfold OpenViking.sameItem sameMemory
  rw [h.metadataIso_eq, h.content]
  refine congrArg (_ && ·) (decide_eq_decide.mpr ?_)
  exact (Option.map_injective isoformat_injective).eq_iff

theorem view_eq (h : Describes env row item) (floats : FloatEnv) :
    env.view item = nativeView (rowToItem floats row) := by
  rw [nativeView_rowToItem floats row h.positive]
  unfold VikingEnv.view MemoryItem.view
  rw [h.key, h.content, h.version, h.sourceKind, h.validUntil_eq]

theorem recalledView_eq (h : Describes env row item) (floats : FloatEnv) :
    recalledView env.view item = recalledView nativeView (rowToItem floats row) := by
  unfold recalledView
  rw [h.view_eq floats, h.scope, h.nameSpace]
  rfl

theorem expired_eq (h : Describes env row item) (now : Time) :
    env.expired item now = !row.unexpired now := by
  unfold VikingEnv.expired MemoryRow.unexpired
  rw [h.validUntil_eq]
  cases row.validUntil with
  | none => rfl
  | some time =>
      rw [Option.any_some, Option.all_some, ← decide_not]
      exact decide_eq_decide.mpr Int.not_lt.symm

/-- What the document of a new item reads back as describes the new row. -/
theorem of_new {provider : OpenViking} (scope : MemoryScope) (memory : MemoryWrite) (now : Time)
    {current : Option MemoryRow} {item : Option MemoryItem} (id : Nat) (uri : String)
    (h : Option.Rel (Describes provider.env) current item) :
    Describes provider.env
      (insertedRow provider.env.toFloatEnv scope memory now current id)
      ((provider.newItem scope memory now item).reread uri) := by
  have hversion : (provider.newItem scope memory now item).version
      = (insertedRow provider.env.toFloatEnv scope memory now current id).version := by
    unfold OpenViking.newItem insertedRow
    cases h with
    | none => rfl
    | some h => simp [h.version]
  have hpositive :
      (insertedRow provider.env.toFloatEnv scope memory now current id).version ≠ 0 := by
    unfold insertedRow
    cases current <;> simp
  refine ⟨rfl, rfl, ?_, hpositive, ?_, ?_, rfl, rfl, rfl, rfl, rfl⟩
  · rw [← hversion] at hpositive ⊢
    exact if_neg hpositive
  · cases hkind : memory.sourceKind <;>
      simp [MemoryItem.reread, OpenViking.newItem, insertedRow, hkind, SourceKind.text, textOr]
  · cases hkind : scope.memoryScope <;>
      simp [MemoryItem.reread, OpenViking.newItem, insertedRow, hkind, ScopeKind.text, textOr]

end Describes

/-! ## The documents mirror the active rows -/

/-- The identity of the party on the server. -/
def OpenViking.partyIdentity (provider : OpenViking) (party : MemoryParty) : VikingIdentity :=
  provider.accountOf party.tenant party.user

theorem identity_within {provider : OpenViking} {scope : MemoryScope} {party : MemoryParty}
    (h : scope.within party) : provider.identity scope = provider.partyIdentity party := by
  rw [OpenViking.identity_eq, h.1, h.2.1]
  rfl

/-- The scope and key are ones of the party, with texts of the run. -/
structure Names (party : MemoryParty) (texts : List String) (scope : MemoryScope) (key : String) :
    Prop where
  within : scope.within party
  nameSpace : scope.nameSpace ∈ texts
  key : key ∈ texts

/-- For one party, a scope and a key have the URI of another pair exactly when they have
its identity. -/
theorem Names.uri_iff {env : VikingEnv} {party : MemoryParty} {texts : List String}
    (hfree : env.CollisionFree texts) {scope scope' : MemoryScope} {key key' : String}
    (h : Names party texts scope key) (h' : Names party texts scope' key') :
    env.memoryUri scope key = env.memoryUri scope' key'
      ↔ scope.identity key = scope'.identity key' := by
  have hagent : scope.agentId = scope'.agentId := h.within.2.2.trans h'.within.2.2.symm
  constructor
  · intro huri
    obtain ⟨hspace, hscope, hkey⟩ :=
      VikingEnv.memoryUri_inj hfree h.nameSpace h'.nameSpace h.key h'.key huri
    unfold MemoryScope.identity MemoryScope.rowAgent
    rw [h.within.1, h.within.2.1, h'.within.1, h'.within.2.1, hspace, hscope, hkey, hagent]
  · intro hidentity
    obtain ⟨-, -, hscope, hspace, -, hkey⟩ := MemoryIdentity.mk.inj hidentity
    unfold VikingEnv.memoryUri categoryRoot VikingEnv.scopeSegment
    rw [hspace, hscope, hkey, hagent]

/-- A current row has been written by a call of the run. -/
structure Written (party : MemoryParty) (texts : List String) (row : MemoryRow)
    (scope : MemoryScope) : Prop where
  names : Names party texts scope row.key
  identity : row.identity = scope.identity row.key
  agent : row.agentId = scope.rowAgent
  stripped : strip row.key = row.key
  nonempty : row.key ≠ ""

/-- One document for each current row, which says what the row says, and no others. -/
structure Mirrors (provider : OpenViking) (party : MemoryParty) (texts : List String)
    (s : BothStores) : Prop where
  constrained : Constrained s.tables
  written : ∀ identity row, s.tables.current identity = some row →
    ∃ scope, Written party texts row scope
  reads : ∀ scope key, Names party texts scope key →
    ∃ item, provider.getCurrent scope key s.server = .ok item
      ∧ Option.Rel (Describes provider.env) (s.tables.current (scope.identity key)) item
  documents : ∀ entry ∈ s.server.documents (provider.partyIdentity party),
    ∃ scope key, Names party texts scope key ∧ entry.1 = provider.env.memoryUri scope key

section Steps

variable {provider : OpenViking} {party : MemoryParty} {texts : List String} {s : BothStores}
  {scope : MemoryScope} {memory : MemoryWrite} {key : String} {now : Time}

theorem getCurrent_read (hscope : scope.within party) (server : VikingServer) :
    provider.getCurrent scope key server
      = match Dict.get? (server.documents (provider.partyIdentity party))
          (provider.env.memoryUri scope key) with
        | none => .ok none
        | some document =>
            (documentToItem document (provider.env.memoryUri scope key)).map some := by
  rw [← identity_within hscope]
  exact rfl

theorem getCurrent_update (hscope : scope.within party) (server : VikingServer)
    (documents : Documents) :
    provider.getCurrent scope key (server.update (provider.partyIdentity party) documents)
      = match Dict.get? documents (provider.env.memoryUri scope key) with
        | none => .ok none
        | some document =>
            (documentToItem document (provider.env.memoryUri scope key)).map some := by
  have hdocuments : (server.update (provider.partyIdentity party) documents).documents
      (provider.partyIdentity party) = documents := by
    simp [VikingServer.update]
  rw [getCurrent_read hscope, hdocuments]

theorem view_newItem {current : Option MemoryRow} {item : Option MemoryItem} (id : Nat)
    (h : Option.Rel (Describes provider.env) current item) :
    provider.env.view (provider.newItem scope memory now item)
      = nativeView (rowToItem provider.env.toFloatEnv
          (insertedRow provider.env.toFloatEnv scope memory now current id)) := by
  have hdescribes := Describes.of_new scope memory now id "" h
  rw [← hdescribes.view_eq]
  have hversion := hdescribes.version
  have hkind := hdescribes.sourceKind
  have hitem : (provider.newItem scope memory now item).version ≠ 0 := by
    unfold OpenViking.newItem
    cases item <;> simp
  have hkind' : (provider.newItem scope memory now item).sourceKind ≠ "" := by
    unfold OpenViking.newItem
    cases memory.sourceKind <;> simp [SourceKind.text]
  unfold VikingEnv.view MemoryItem.view VikingEnv.validUntil MemoryItem.reread textOr
  simp [hitem, hkind']

/-- A repetition leaves both stores as they are, and the providers see the same repetitions. -/
theorem remember_agrees (now : Time) (h : Mirrors provider party texts s)
    (hfree : provider.env.CollisionFree texts) (hnames : Names party texts scope memory.key) :
    ∃ server item, provider.remember scope memory now s.server = .ok (server, item)
      ∧ provider.env.view item = nativeView (rowToItem provider.env.toFloatEnv
          (remember provider.env.toFloatEnv scope memory now s.tables).2)
      ∧ Mirrors provider party texts
          ⟨(remember provider.env.toFloatEnv scope memory now s.tables).1, server⟩ := by
  obtain ⟨item, hitem, hrel⟩ := h.reads scope memory.key hnames
  have hcurrent' : ∀ identity,
      (remember provider.env.toFloatEnv scope memory now s.tables).1.current identity
        = if identity = scope.identity memory.key
          then some (remember provider.env.toFloatEnv scope memory now s.tables).2
          else s.tables.current identity := remember_current h.constrained
  rcases remember_cases provider.env.toFloatEnv scope memory now s.tables with
    ⟨row, hrow, hsame, hnative⟩ | ⟨hnew, hnative⟩
  · rw [hrow] at hrel
    cases hrel with
    | some hdescribes =>
        rename_i item
        rcases OpenViking.remember_cases now hitem with
          ⟨other, hother, -, hviking⟩ | ⟨hdiffers, -⟩
        · cases hother
          refine ⟨_, _, hviking, ?_, ?_⟩
          · rw [hnative]
            exact hdescribes.view_eq _
          · rw [hnative]
            exact h
        · have hnot := hdiffers item rfl
          rw [hdescribes.same_iff provider rfl, hsame] at hnot
          cases hnot
  · rcases OpenViking.remember_cases now hitem with
      ⟨other, hother, hsame, -⟩ | ⟨-, hviking⟩
    · subst hother
      cases hcurrent : s.tables.current (scope.identity memory.key) with
      | none =>
          rw [hcurrent] at hrel
          cases hrel
      | some row =>
          rw [hcurrent] at hrel
          cases hrel with
          | some hdescribes =>
              rw [hdescribes.same_iff provider rfl] at hsame
              exact absurd ⟨row, hcurrent, hsame⟩ hnew
    · rw [identity_within hnames.within] at hviking
      refine ⟨_, _, hviking, ?_, ?_⟩
      · rw [hnative]
        exact view_newItem s.tables.nextId hrel
      · have hrow : (remember provider.env.toFloatEnv scope memory now s.tables).2
            = insertedRow provider.env.toFloatEnv scope memory now
              (s.tables.current (scope.identity memory.key)) s.tables.nextId := by
          rw [hnative]
          rfl
        refine ⟨remember_constrained h.constrained, ?_, ?_, ?_⟩
        · intro identity row hcurrent
          rw [hcurrent'] at hcurrent
          split at hcurrent
          · cases hcurrent
            rw [hrow]
            exact ⟨scope, hnames, rfl, rfl, memory.keyStripped, memory.keyNonblank⟩
          · exact h.written identity row hcurrent
        · intro other otherKey hother
          dsimp only
          rw [hcurrent', getCurrent_update hother.within, Dict.get?_set]
          by_cases huri : provider.env.memoryUri other otherKey
              = provider.env.memoryUri scope memory.key
          · rw [if_pos ((Names.uri_iff hfree hother hnames).mp huri), if_pos huri]
            dsimp only
            rw [documentToItem_itemToDocument, hrow]
            exact ⟨_, rfl, .some (Describes.of_new _ _ _ _ _ hrel)⟩
          · rw [if_neg (mt (Names.uri_iff hfree hother hnames).mpr huri), if_neg huri,
              ← getCurrent_read hother.within]
            exact h.reads other otherKey hother
        · intro entry hentry
          simp only [VikingServer.update, if_true] at hentry
          rcases Dict.mem_set hentry with rfl | hentry
          · exact ⟨scope, memory.key, hnames, rfl⟩
          · exact h.documents entry hentry

/-- No current row has a key that is blank or not stripped. -/
theorem Mirrors.current_none (h : Mirrors provider party texts s)
    (hkey : strip key = key → key = "") : s.tables.current (scope.identity key) = none := by
  cases hcurrent : s.tables.current (scope.identity key) with
  | none => rfl
  | some row =>
      obtain ⟨-, hidentity, -⟩ := current_spec hcurrent
      obtain ⟨_, hwritten⟩ := h.written _ row hcurrent
      have hrow : row.key = key := congrArg MemoryIdentity.key hidentity
      have hstripped := hwritten.stripped
      rw [hrow] at hstripped
      exact absurd (hrow.trans (hkey hstripped)) hwritten.nonempty

/-- The tables count through their current rows only. -/
theorem Mirrors.congr (h : Mirrors provider party texts s) {t : MemoryTables}
    (ht : Constrained t) (hcurrent : ∀ identity, t.current identity = s.tables.current identity) :
    Mirrors provider party texts ⟨t, s.server⟩ where
  constrained := ht
  written identity row hrow := h.written identity row ((hcurrent identity).symm.trans hrow)
  reads other otherKey hother := by
    dsimp only
    rw [hcurrent]
    exact h.reads other otherKey hother
  documents := h.documents

/-- What `forget` answers, for a key that is not blank. -/
theorem forget_found {t : MemoryTables} (hkey : strip key ≠ "") :
    (forget scope key now t).2 = (t.current (scope.identity (strip key))).isSome := by
  unfold forget
  rw [if_neg hkey]

/-- Neither provider finds anything to forget. -/
theorem forget_missing (now : Time) (h : Mirrors provider party texts s)
    (hcurrent : s.tables.current (scope.identity (strip key)) = none) :
    (forget scope key now s.tables).2 = false
      ∧ Mirrors provider party texts ⟨(forget scope key now s.tables).1, s.server⟩ := by
  by_cases hblank : strip key = ""
  · rw [forget_blank hblank]
    exact ⟨rfl, h⟩
  · rw [forget_found hblank, hcurrent]
    refine ⟨rfl, h.congr (forget_constrained h.constrained key) fun identity => ?_⟩
    rw [forget_current h.constrained hblank]
    split
    · rename_i hidentity
      rw [hidentity, hcurrent]
    · rfl

/-- Both providers remove what they have under the key. -/
theorem forget_both (h : Mirrors provider party texts s)
    (hfree : provider.env.CollisionFree texts) (hnames : Names party texts scope key)
    (hstripped : strip key = key) (hkey : key ≠ "") :
    Mirrors provider party texts
      ⟨(forget scope key now s.tables).1,
        s.server.update (provider.partyIdentity party)
          ((s.server.documents (provider.partyIdentity party)).filter fun entry =>
            decide (entry.1 ≠ provider.env.memoryUri scope key))⟩ := by
  have hblank : strip key ≠ "" := by rw [hstripped]; exact hkey
  refine ⟨forget_constrained h.constrained key, ?_, ?_, ?_⟩
  · intro identity other hother
    rw [forget_current h.constrained hblank] at hother
    split at hother
    · cases hother
    · exact h.written identity other hother
  · intro other otherKey hother
    dsimp only
    rw [forget_current h.constrained hblank, hstripped, getCurrent_update hother.within,
      Dict.get?_filter_ne]
    by_cases huri : provider.env.memoryUri other otherKey = provider.env.memoryUri scope key
    · rw [if_pos ((Names.uri_iff hfree hother hnames).mp huri), if_pos huri]
      exact ⟨none, rfl, .none⟩
    · rw [if_neg (mt (Names.uri_iff hfree hother hnames).mpr huri), if_neg huri,
        ← getCurrent_read hother.within]
      exact h.reads other otherKey hother
  · intro entry hentry
    simp only [VikingServer.update, if_true] at hentry
    exact h.documents entry (List.mem_of_mem_filter hentry)

theorem forget_agrees (now : Time) (h : Mirrors provider party texts s)
    (hfree : provider.env.CollisionFree texts) (hnames : Names party texts scope key)
    (hkey : ∀ row, s.tables.current (scope.identity (strip key)) = some row → strip key = key) :
    ∃ server, provider.forget scope key s.server
        = .ok (server, (forget scope key now s.tables).2)
      ∧ Mirrors provider party texts ⟨(forget scope key now s.tables).1, server⟩ := by
  obtain ⟨item, hitem, hrel⟩ := h.reads scope key hnames
  have hviking := OpenViking.forget_cases hitem
  cases hcurrent : s.tables.current (scope.identity key) with
  | none =>
      rw [hcurrent] at hrel
      cases hrel
      have hmissing : s.tables.current (scope.identity (strip key)) = none := by
        cases hfound : s.tables.current (scope.identity (strip key)) with
        | none => rfl
        | some row => rw [hkey row hfound, hcurrent] at hfound; cases hfound
      obtain ⟨hfalse, hmirrors⟩ := forget_missing now h hmissing
      refine ⟨s.server, ?_, hmirrors⟩
      rw [hviking, hfalse]
      rfl
  | some row =>
      have hstripped : strip key = key ∧ key ≠ "" := by
        by_contra hnot
        rw [h.current_none fun hs => by_contra fun hne => hnot ⟨hs, hne⟩] at hcurrent
        cases hcurrent
      rw [hcurrent] at hrel
      cases hrel with
      | some hdescribes =>
          rw [identity_within hnames.within] at hviking
          refine ⟨_, ?_, forget_both h hfree hnames hstripped.1 hstripped.2⟩
          rw [hviking, forget_found (by rw [hstripped.1]; exact hstripped.2), hstripped.1,
            hcurrent]
          rfl

theorem getCurrent_agrees (now : Time) (h : Mirrors provider party texts s)
    (hnames : Names party texts scope key)
    (hkey : ∀ row, s.tables.current (scope.identity (strip key)) = some row →
      (row.unexpired now = true ↔ strip key = key)) :
    ∃ item, provider.getCurrent scope key s.server = .ok item
      ∧ item.map provider.env.view = (getCurrent scope key now s.tables).map fun row =>
          nativeView (rowToItem provider.env.toFloatEnv row) := by
  obtain ⟨item, hitem, hrel⟩ := h.reads scope key hnames
  refine ⟨item, hitem, ?_⟩
  rw [getCurrent_eq h.constrained]
  by_cases hstripped : strip key = key
  · rw [hstripped] at hkey ⊢
    by_cases hempty : key = ""
    · rw [h.current_none fun _ => hempty] at hrel
      cases hrel
      rw [if_pos hempty]
      rfl
    · rw [if_neg hempty]
      cases hcurrent : s.tables.current (scope.identity key) with
      | none =>
          rw [hcurrent] at hrel
          cases hrel
          rfl
      | some row =>
          rw [hcurrent] at hrel
          cases hrel with
          | some hdescribes =>
              rw [Option.filter_some, if_pos ((hkey row hcurrent).mpr rfl), Option.map_some,
                Option.map_some, hdescribes.view_eq provider.env.toFloatEnv]
  · rw [h.current_none fun hs => absurd hs hstripped] at hrel
    cases hrel
    split
    · rfl
    · cases hcurrent : s.tables.current (scope.identity (strip key)) with
      | none => rfl
      | some row =>
          have hexpired : ¬ row.unexpired now = true :=
            fun hrow => hstripped ((hkey row hcurrent).mp hrow)
          rw [Option.filter_some, if_neg hexpired]
          rfl

/-! ### `recall` -/

theorem tenant_ne_empty (scope : MemoryScope) : scope.tenant ≠ "" := by
  unfold MemoryScope.tenant
  split
  · decide
  · split
    · decide
    · assumption

variable {row : MemoryRow} {item : MemoryItem} {other : MemoryScope}

/-- Every current row of the party may be recalled until it expires. -/
theorem Written.recallable_eq (h : Written party texts row other) (hactive : row.active = true)
    (hscope : scope.within party) : recallable scope now row = row.unexpired now := by
  obtain ⟨htenant, huser, hkind, -, -, -⟩ := MemoryIdentity.mk.inj h.identity
  obtain ⟨hother, hother', hagent⟩ := h.names.within
  have hagents : row.agentId = other.rowAgent := h.agent
  have hscopes : (row.scope = .userGlobal || row.scope = .tenantUser
      || (row.scope = .userAgent && scope.agentId.any fun agentId => row.agentId = some agentId))
        = true := by
    unfold MemoryScope.rowAgent at hagents
    rw [hkind]
    cases hmemory : other.memoryScope with
    | userGlobal => rfl
    | tenantUser => rfl
    | userAgent =>
        rw [if_pos hmemory, hagent, ← hscope.2.2] at hagents
        have hsome := other.agent hmemory
        rw [hagent, ← hscope.2.2] at hsome
        cases hagentId : scope.agentId with
        | none => rw [hagentId] at hsome; cases hsome
        | some agentId => simp [hagents, hagentId]
  unfold recallable
  rw [hscopes, hactive, show row.tenantId = scope.tenant by rw [htenant, hother, hscope.1],
    show row.subjectUserId = scope.userId by rw [huser, hother', hscope.2.1]]
  simp

theorem Written.visible (h : Written party texts row other)
    (hitem : Describes provider.env row item) (hscope : scope.within party) :
    visibleToScope item scope = true := by
  obtain ⟨htenant, huser, hkind, -, -, -⟩ := MemoryIdentity.mk.inj h.identity
  obtain ⟨hother, hother', hagent⟩ := h.names.within
  have htenantText : item.metadataText "tenant_id" "default" = scope.tenant := by
    unfold MemoryItem.metadataText
    rw [documentText_str _ _ hitem.tenant, htenant, hother, ← hscope.1]
    exact if_neg (tenant_ne_empty scope)
  have huserText : item.metadataText "user_id" "" = scope.userId := by
    unfold MemoryItem.metadataText
    rw [documentText_str _ _ hitem.user, textOr_empty, huser, hother', hscope.2.1]
  unfold visibleToScope
  rw [htenantText, huserText, if_neg (by simp), if_neg (by simp), hitem.scope, hkind]
  cases hmemory : other.memoryScope with
  | userGlobal => rfl
  | tenantUser => rfl
  | userAgent =>
      have hsome := other.agent hmemory
      have hagents : row.agentId = other.rowAgent := h.agent
      unfold MemoryScope.rowAgent at hagents
      rw [if_pos hmemory, hagent, ← hscope.2.2] at hagents
      rw [hagent, ← hscope.2.2] at hsome
      cases hagentId : scope.agentId with
      | none => rw [hagentId] at hsome; cases hsome
      | some agentId =>
          rw [hagentId] at hsome hagents
          have hne : agentId ≠ "" := by simpa using hsome
          have htext : item.metadataText "agent_id" "" = agentId := by
            unfold MemoryItem.metadataText
            rw [documentText_str agentId _ (by rw [hitem.agent, hagents]; rfl),
              textOr_empty]
          simp [ScopeKind.text, nonEmpty, hne, htext]

/-- The score that a hit adds is not seen. -/
theorem recalledView_scored (env : VikingEnv) (item : MemoryItem) (score : Json) :
    recalledView env.view { item with metadata := Dict.set item.metadata "provider_score" score }
      = recalledView env.view item := by
  have hget : Dict.get (Dict.set item.metadata "provider_score" score) "valid_until"
      = Dict.get item.metadata "valid_until" := by
    rw [Dict.get_set]
    exact if_neg (by decide)
  unfold recalledView VikingEnv.view VikingEnv.validUntil MemoryItem.view
  dsimp only
  rw [hget]

/-- What `recall` makes of a hit for a document of the party. -/
theorem recalledItem_eq (now : Time) {hit : Dict} (hscope : scope.within party)
    (hother : other.within party) (huri : hitUri hit = provider.env.memoryUri other key)
    (hread : provider.getCurrent other key s.server = .ok (some item))
    (hvisible : visibleToScope item scope = true) :
    (provider.recalledItem scope now s.server hit).map (recalledView provider.env.view)
      = if provider.env.expired item now then none
        else some (recalledView provider.env.view item) := by
  have hreadItem : provider.readItem scope (hitUri hit) s.server = .ok (some item) := by
    rw [← hread, huri]
    unfold OpenViking.getCurrent OpenViking.readItem
    rw [identity_within hscope, identity_within hother]
  have hnamed : (decide (hitUri hit = "") || generatedUri (hitUri hit)) = false := by
    rw [huri, VikingEnv.generatedUri_memoryUri]
    simp [VikingEnv.memoryUri_ne_empty]
  unfold OpenViking.recalledItem
  simp only [hnamed, hreadItem, hvisible, Bool.not_true, Bool.false_eq_true, if_false]
  split
  · rfl
  · split
    · rfl
    · rw [Option.map_some, recalledView_scored]

/-- The server has a document under the URI of a hit that becomes an item. -/
theorem readItem_of_recalledItem {hit : Dict}
    (h : provider.recalledItem scope now s.server hit = some item) :
    ∃ read, provider.readItem scope (hitUri hit) s.server = .ok (some read) := by
  unfold OpenViking.recalledItem at h
  dsimp only at h
  split at h
  · cases h
  · cases hread : provider.readItem scope (hitUri hit) s.server with
    | error message => rw [hread] at h; cases h
    | ok read =>
        cases read with
        | none => rw [hread] at h; cases h
        | some read => exact ⟨read, rfl⟩

/-- A document that the party reads mirrors a current row. -/
theorem Mirrors.row_of_read (h : Mirrors provider party texts s) (hscope : scope.within party)
    {uri : String} (hread : provider.readItem scope uri s.server = .ok (some item)) :
    ∃ other key row writer, Names party texts other key
      ∧ uri = provider.env.memoryUri other key
      ∧ provider.getCurrent other key s.server = .ok (some item)
      ∧ row ∈ s.tables.rows ∧ row.active = true
      ∧ Written party texts row writer ∧ Describes provider.env row item := by
  have hdocument : ∃ document, Dict.get? (s.server.documents (provider.partyIdentity party)) uri
      = some document := by
    unfold OpenViking.readItem at hread
    rw [identity_within hscope] at hread
    cases hget : Dict.get? (s.server.documents (provider.partyIdentity party)) uri with
    | none => rw [hget] at hread; cases hread
    | some document => exact ⟨document, rfl⟩
  obtain ⟨document, hdocument⟩ := hdocument
  obtain ⟨other, key, hnames, huri⟩ := h.documents _ (Dict.mem_of_get? hdocument)
  dsimp only at huri
  have hget : provider.getCurrent other key s.server = .ok (some item) := by
    rw [← hread, huri]
    unfold OpenViking.getCurrent OpenViking.readItem
    rw [identity_within hscope, identity_within hnames.within]
  obtain ⟨read, hread', hrel⟩ := h.reads other key hnames
  rw [hget] at hread'
  cases hread'
  cases hcurrent : s.tables.current (other.identity key) with
  | none => rw [hcurrent] at hrel; cases hrel
  | some row =>
      rw [hcurrent] at hrel
      cases hrel with
      | some hdescribes =>
          obtain ⟨hrow, -, hactive⟩ := current_spec hcurrent
          obtain ⟨writer, hwritten⟩ := h.written _ row hcurrent
          exact ⟨other, key, row, writer, hnames, huri, hget, hrow, hactive, hwritten, hdescribes⟩

/-- A current row of the party has its document. -/
theorem Mirrors.document_of_row (h : Mirrors provider party texts s) (hrow : row ∈ s.tables.rows)
    (hactive : row.active = true) :
    ∃ writer item, Written party texts row writer
      ∧ provider.getCurrent writer row.key s.server = .ok (some item)
      ∧ Describes provider.env row item := by
  have hcurrent : s.tables.current row.identity = some row :=
    h.constrained.current_iff.mpr ⟨hrow, rfl, hactive⟩
  obtain ⟨writer, hwritten⟩ := h.written _ row hcurrent
  obtain ⟨read, hread, hrel⟩ := h.reads writer row.key hwritten.names
  rw [← hwritten.identity, hcurrent] at hrel
  cases hrel with
  | some hdescribes => exact ⟨writer, _, hwritten, hread, hdescribes⟩

/-- A document that is read lies on the server. -/
theorem mem_documents_of_getCurrent (hscope : scope.within party)
    (hread : provider.getCurrent scope key s.server = .ok (some item)) :
    ∃ entry ∈ s.server.documents (provider.partyIdentity party),
      entry.1 = provider.env.memoryUri scope key := by
  rw [getCurrent_read hscope] at hread
  cases hget : Dict.get? (s.server.documents (provider.partyIdentity party))
      (provider.env.memoryUri scope key) with
  | none => rw [hget] at hread; cases hread
  | some document => exact ⟨_, Dict.mem_of_get? hget, rfl⟩

/-- The rows that a recall selects while its limit cuts nothing off. -/
theorem mem_recallRows {t : MemoryTables} {limit : Int}
    (hlimit : ((t.rows.filter (recallable scope now)).length : Int) ≤ limit) :
    row ∈ recallRows scope limit now t ↔ row ∈ t.rows ∧ recallable scope now row = true := by
  unfold recallRows
  rw [List.take_of_length_le (by rw [List.length_insertionSort]; omega), List.mem_insertionSort,
    List.mem_filter]

theorem recall_agrees (query : String) (limit : Int) (now : Time)
    (h : Mirrors provider party texts s) (hfinds : FindsAll provider.search)
    (hscope : scope.within party)
    (hbinding : NotBinding provider s (.recall scope query limit now))
    (hcategory : ∀ row ∈ s.tables.rows, recallable scope now row = true →
      categoryOf row.nameSpace = categoryOf scope.nameSpace) (view : String × String × MemoryView) :
    view ∈ (provider.recall scope query limit now s.server).map (recalledView provider.env.view)
      ↔ view ∈ (recallRows scope limit now s.tables).map fun row =>
          recalledView nativeView (rowToItem provider.env.toFloatEnv row) := by
  obtain ⟨hrows, hserver, hhits⟩ := hbinding
  unfold OpenViking.recall
  dsimp only
  rw [OpenViking.collectItems_eq (by omega), List.mem_map, List.mem_map]
  constructor
  · rintro ⟨item, hitem, rfl⟩
    obtain ⟨hit, -, hrecalled⟩ := List.mem_filterMap.mp hitem
    obtain ⟨read, hread⟩ := readItem_of_recalledItem hrecalled
    obtain ⟨other, key, row, writer, hnames, huri, hget, hrow, hactive, hwritten, hdescribes⟩ :=
      h.row_of_read hscope hread
    have hview := recalledItem_eq now hscope hnames.within huri hget
      (hwritten.visible hdescribes hscope)
    rw [hrecalled, Option.map_some] at hview
    split at hview
    · cases hview
    · rename_i hexpired
      rw [hdescribes.expired_eq, Bool.not_eq_true'] at hexpired
      refine ⟨row, (mem_recallRows hrows).mpr ⟨hrow, ?_⟩, ?_⟩
      · rw [hwritten.recallable_eq hactive hscope]
        simpa using hexpired
      · rw [← hdescribes.recalledView_eq]
        exact (Option.some.inj hview).symm
  · rintro ⟨row, hrow, rfl⟩
    obtain ⟨hmem, hrecallable⟩ := (mem_recallRows hrows).mp hrow
    have hactive : row.active = true := by
      unfold recallable at hrecallable
      simp only [Bool.and_eq_true] at hrecallable
      exact hrecallable.1.1.2
    obtain ⟨writer, item, hwritten, hget, hdescribes⟩ := h.document_of_row hmem hactive
    obtain ⟨entry, hentry, huri⟩ := mem_documents_of_getCurrent hwritten.names.within hget
    have hspace : row.nameSpace = writer.nameSpace :=
      congrArg MemoryIdentity.nameSpace hwritten.identity
    have hunder : (categoryRoot scope ++ "/").toList <+: entry.1.toList := by
      rw [huri, VikingEnv.prefix_memoryUri, ← hcategory row hmem hrecallable, hspace]
    rw [identity_within hscope] at hserver ⊢
    obtain ⟨hit, hhit, hhitText⟩ := hfinds _ query (categoryRoot scope ++ "/") (max 1 limit)
      (by omega) entry hentry hunder
    have hhitUri : hitUri hit = provider.env.memoryUri writer row.key := by
      rw [hitUri, hhitText, huri, VikingEnv.strip_memoryUri]
    have hview := recalledItem_eq now hscope hwritten.names.within
      hhitUri hget (hwritten.visible hdescribes hscope)
    rw [hdescribes.expired_eq, ← hwritten.recallable_eq hactive hscope, hrecallable] at hview
    obtain ⟨recalled, hrecalled, hsame⟩ := Option.map_eq_some_iff.mp hview
    exact ⟨recalled, List.mem_filterMap.mpr ⟨hit, hhit, hrecalled⟩,
      hsame.trans (hdescribes.recalledView_eq _)⟩

/-! ## Runs -/

variable {call : MemoryCall}

/-- The native provider never reads what has expired. -/
theorem nativeCall_fresh (env : FloatEnv) (call : MemoryCall) {t : MemoryTables} (h : Constrained t)
    (hversions : ∀ row ∈ t.rows, row.active = true → row.version ≠ 0) :
    (nativeCall env t call).2.Fresh call.now := by
  have hview : ∀ row ∈ t.rows, row.active = true → row.unexpired call.now = true →
      (nativeView (rowToItem env row)).validUntil.all (call.now < ·) = true := by
    intro row hrow hactive hunexpired
    rw [nativeView_rowToItem env row (hversions row hrow hactive)]
    exact hunexpired
  cases call with
  | remember scope memory now => trivial
  | forget scope key now => trivial
  | getCurrent scope key now =>
      rintro view hview'
      obtain ⟨row, hrow, rfl⟩ := Option.map_eq_some_iff.mp hview'
      rw [getCurrent_eq h] at hrow
      split at hrow
      · cases hrow
      · obtain ⟨hcurrent, hunexpired⟩ := Option.filter_eq_some_iff.mp hrow
        obtain ⟨hmem, -, hactive⟩ := current_spec hcurrent
        exact hview row hmem hactive hunexpired
  | «recall» scope query limit now =>
      rintro view hview'
      obtain ⟨row, hrow, rfl⟩ := List.mem_map.mp hview'
      have hmem := List.mem_of_mem_take hrow
      rw [List.mem_insertionSort, List.mem_filter] at hmem
      unfold recallable at hmem
      simp only [Bool.and_eq_true] at hmem
      exact hview row hmem.1 hmem.2.1.1.2 hmem.2.1.2

theorem Mirrors.versions (h : Mirrors provider party texts s) :
    ∀ row ∈ s.tables.rows, row.active = true → row.version ≠ 0 := by
  intro row hrow hactive
  obtain ⟨writer, item, -, -, hdescribes⟩ := h.document_of_row hrow hactive
  exact hdescribes.positive

theorem bothStep_eq {server : VikingServer} {answer : MemoryAnswer}
    (h : vikingCall provider s.server call = .ok (server, answer)) :
    bothStep provider s call
      = some ⟨(nativeCall provider.env.toFloatEnv s.tables call).1, server⟩ := by
  unfold bothStep
  rw [h]

/-- A call that both providers treat alike: they answer alike, and the documents still
mirror the rows. -/
theorem Mirrors.step (h : Mirrors provider party texts s) (hfinds : FindsAll provider.search)
    (hfree : provider.env.CollisionFree texts) (hscope : call.scope.within party)
    (htexts : ∀ text ∈ call.texts, text ∈ texts)
    (hcall : NotBinding provider s call ∧ Comparable s call) :
    AnswersAgree provider s call
      ∧ ∀ s', bothStep provider s call = some s' → Mirrors provider party texts s' := by
  have hfresh := nativeCall_fresh provider.env.toFloatEnv call h.constrained h.versions
  cases call with
  | remember scope memory now =>
      have hnames : Names party texts scope memory.key :=
        ⟨hscope, htexts _ (by simp [MemoryCall.texts]), htexts _ (by simp [MemoryCall.texts])⟩
      obtain ⟨server, item, hviking, hview, hmirrors⟩ := remember_agrees now h hfree hnames
      have hanswer : vikingCall provider s.server (.remember scope memory now)
          = .ok (server, .remembered (provider.env.view item)) := by
        simp only [vikingCall, hviking, bind, Except.bind, pure, Except.pure]
      refine ⟨⟨server, _, hanswer, ?_, trivial⟩, fun s' hs' => ?_⟩
      · exact congrArg MemoryAnswer.remembered hview
      · rw [bothStep_eq hanswer] at hs'
        simp only [nativeCall, Option.some.injEq] at hs'
        subst hs'
        exact hmirrors
  | forget scope key now =>
      have hnames : Names party texts scope key :=
        ⟨hscope, htexts _ (by simp [MemoryCall.texts]), htexts _ (by simp [MemoryCall.texts])⟩
      obtain ⟨server, hviking, hmirrors⟩ := forget_agrees now h hfree hnames hcall.2
      have hanswer : vikingCall provider s.server (.forget scope key now)
          = .ok (server, .forgotten (forget scope key now s.tables).2) := by
        simp only [vikingCall, hviking, bind, Except.bind, pure, Except.pure]
      refine ⟨⟨server, _, hanswer, rfl, trivial⟩, fun s' hs' => ?_⟩
      rw [bothStep_eq hanswer] at hs'
      simp only [nativeCall, Option.some.injEq] at hs'
      subst hs'
      exact hmirrors
  | getCurrent scope key now =>
      have hnames : Names party texts scope key :=
        ⟨hscope, htexts _ (by simp [MemoryCall.texts]), htexts _ (by simp [MemoryCall.texts])⟩
      obtain ⟨item, hviking, hview⟩ := getCurrent_agrees now h hnames hcall.2
      have hanswer : vikingCall provider s.server (.getCurrent scope key now)
          = .ok (s.server, .current (item.map provider.env.view)) := by
        simp only [vikingCall, hviking, bind, Except.bind, pure, Except.pure]
      refine ⟨⟨_, _, hanswer, ?_, ?_⟩, fun s' hs' => ?_⟩
      · exact congrArg MemoryAnswer.current hview
      · rw [hview]
        exact hfresh
      · rw [bothStep_eq hanswer] at hs'
        simp only [nativeCall, Option.some.injEq] at hs'
        subst hs'
        exact h
  | «recall» scope query limit now =>
      have hagrees := recall_agrees query limit now h hfinds hscope
        hcall.1 hcall.2
      have hanswer : vikingCall provider s.server (.recall scope query limit now)
          = .ok (s.server, .recalled ((provider.recall scope query limit now s.server).map
            (recalledView provider.env.view))) := rfl
      refine ⟨⟨_, _, hanswer, hagrees, fun view hview => hfresh view ((hagrees view).mp hview)⟩,
        fun s' hs' => ?_⟩
      rw [bothStep_eq hanswer] at hs'
      simp only [nativeCall, Option.some.injEq] at hs'
      subst hs'
      exact h

theorem mirrors_empty (provider : OpenViking) (party : MemoryParty) (texts : List String) :
    Mirrors provider party texts .empty where
  constrained := {
    ids := List.Pairwise.nil
    sequence := fun _ hrow => absurd hrow List.not_mem_nil
    unique := List.nodup_nil
    agent := fun _ hrow => absurd hrow List.not_mem_nil
    users := List.nodup_nil
    keys := fun _ hentry => absurd hentry List.not_mem_nil }
  written _ _ hrow := nomatch hrow
  reads _ _ _ := ⟨none, rfl, .none⟩
  documents _ hentry := absurd hentry List.not_mem_nil

end Steps

/-- From empty stores, the providers give the same answers to every call of a run whose calls
they treat alike, and neither reads a memory whose time is over. After each call the documents
mirror the active rows again, and the answers are read off that. -/
theorem providers_agree (provider : OpenViking) (hfinds : FindsAll provider.search)
    (party : MemoryParty) (calls : List MemoryCall)
    (hparty : ∀ call ∈ calls, call.scope.within party)
    (hfree : provider.env.CollisionFree (calls.flatMap MemoryCall.texts))
    (hbinding : Runs.Meets (bothStep provider) (NotBinding provider) .empty calls)
    (hcomparable : Runs.Meets (bothStep provider) Comparable .empty calls) :
    ∀ before call after s, calls = before ++ call :: after →
      Runs.run (bothStep provider) .empty before = some s → AnswersAgree provider s call := by
  set texts := calls.flatMap MemoryCall.texts with htexts
  have hmeets : Runs.Meets (bothStep provider) (fun s call =>
      (NotBinding provider s call ∧ Comparable s call)
        ∧ call.scope.within party ∧ ∀ text ∈ call.texts, text ∈ texts) .empty calls := by
    rw [Runs.meets_iff] at hbinding hcomparable ⊢
    intro before call after s hcalls hs
    have hcall : call ∈ calls := by rw [hcalls]; simp
    exact ⟨⟨hbinding before call after s hcalls hs, hcomparable before call after s hcalls hs⟩,
      hparty call hcall, fun text htext => List.mem_flatMap.mpr ⟨call, hcall, htext⟩⟩
  intro before call after s hcalls hs
  subst hcalls
  have hmirrors : Mirrors provider party texts s :=
    Runs.run_invariant
      (fun s call s' h hcall hs' => (h.step hfinds hfree hcall.2.1 hcall.2.2 hcall.1).2 s' hs')
      (mirrors_empty provider party texts) (Runs.meets_append hmeets).1 hs
  obtain ⟨hcall, hscope, hcallTexts⟩ := Runs.meets_at hmeets hs
  exact (hmirrors.step hfinds hfree hscope hcallTexts hcall).1

/-! ### Runs -/

instance (scope : MemoryScope) (party : MemoryParty) : Decidable (scope.within party) :=
  instDecidableAnd

instance (env : VikingEnv) (texts : List String) : Decidable (env.CollisionFree texts) :=
  inferInstanceAs (Decidable (∀ a ∈ texts, ∀ b ∈ texts, env.digest 8 a = env.digest 8 b → a = b))

instance (provider : OpenViking) (s : BothStores) : DecidablePred (NotBinding provider s)
  | .remember _ _ _ => isTrue trivial
  | .forget _ _ _ => isTrue trivial
  | .getCurrent _ _ _ => isTrue trivial
  | .recall _ _ _ _ => instDecidableAnd

instance (s : BothStores) : DecidablePred (Comparable s)
  | .remember _ _ _ => isTrue trivial
  | .forget scope key _ =>
      inferInstanceAs (Decidable (∀ row ∈ s.tables.current (scope.identity (strip key)),
        strip key = key))
  | .getCurrent scope key now =>
      inferInstanceAs (Decidable (∀ row ∈ s.tables.current (scope.identity (strip key)),
        (row.unexpired now = true ↔ strip key = key)))
  | .recall scope _ _ now =>
      inferInstanceAs (Decidable (∀ row ∈ s.tables.rows, recallable scope now row = true →
        categoryOf row.nameSpace = categoryOf scope.nameSpace))

theorem exists_hit_dedupe {hits : List Dict} (seen : List String) {hit : Dict} (h : hit ∈ hits)
    (hseen : hitText hit ∉ seen) : ∃ other ∈ dedupeHits seen hits, hitText other = hitText hit := by
  induction hits generalizing seen with
  | nil => cases h
  | cons first rest ih =>
      unfold dedupeHits
      by_cases heq : hitText hit = hitText first
      · dsimp only
        rw [← heq]
        split
        · exact ⟨first, List.mem_cons_self, heq.symm⟩
        · exact ⟨first, List.mem_cons_self, heq.symm⟩
      · have hrest : hit ∈ rest := by
          rcases List.mem_cons.mp h with rfl | hrest
          · exact absurd rfl heq
          · exact hrest
        have hkept : ∀ seen', hitText hit ∉ seen' →
            ∃ other ∈ first :: dedupeHits seen' rest, hitText other = hitText hit :=
          fun seen' hseen' => by
            obtain ⟨other, hother, htext⟩ := ih _ hrest hseen'
            exact ⟨other, List.mem_cons_of_mem _ hother, htext⟩
        dsimp only
        split
        · exact hkept seen hseen
        · split
          · exact ih _ hrest hseen
          · exact hkept _ fun hmem => (List.mem_cons.mp hmem).elim heq hseen

theorem sampleSearch_finds : FindsAll sampleSearch := by
  intro documents query target limit _ entry hentry hunder
  have hmem : [("uri", Json.str entry.1), ("score", .float "0.9")]
      ∈ ((.obj [("uri", .str (target ++ ".overview.md")), ("score", .float "0.99")]
        :: (documents.filter fun entry => target.toList.isPrefixOf entry.1.toList).map fun entry =>
          Json.obj [("uri", .str entry.1), ("score", .float "0.9")]).filterMap Json.asDict?) := by
    refine List.mem_filterMap.mpr ⟨_, List.mem_cons_of_mem _ (List.mem_map.mpr
      ⟨entry, List.mem_filter.mpr ⟨hentry, List.isPrefixOf_iff_prefix.mpr hunder⟩, rfl⟩), rfl⟩
  obtain ⟨other, hother, htext⟩ := exists_hit_dedupe [] hmem List.not_mem_nil
  refine ⟨other, ?_, htext.trans ((documentText_str _ "" rfl).trans (textOr_empty entry.1))⟩
  unfold sampleSearch flattenHits
  simpa [hitLists, Dict.get, Dict.get?_cons, Json.asList?, Json.asDict?] using hother

/-- User `u1` of tenant `acme`, without an agent. -/
def acmeUser : MemoryParty := ⟨"acme", "u1", none⟩

/-- The city is written twice, read, recalled and forgotten. -/
def cityCalls : List MemoryCall :=
  [.remember (preferences "acme") (cityMemory none) 0,
   .remember (preferences "acme") (cityMemory (some 1000000)) 0,
   .getCurrent (preferences "acme") "city" 0,
   .recall (preferences "acme") "city" 8 0,
   .recall (preferences "acme") "city" 8 1000000,
   .forget (preferences "acme") "city" 1000000,
   .forget (preferences "acme") "city" 1000000]

theorem providers_agree_city :
    ∃ s, Runs.run (bothStep (sampleViking .trusted)) .empty (cityCalls.take 3) = some s
      ∧ AnswersAgree (sampleViking .trusted) s (.recall (preferences "acme") "city" 8 0) := by
  have hruns : (Runs.run (bothStep (sampleViking .trusted)) .empty
      (cityCalls.take 3)).isSome = true := by
    decide +kernel
  obtain ⟨s, hs⟩ := Option.isSome_iff_exists.mp hruns
  exact ⟨s, hs, providers_agree (sampleViking .trusted) sampleSearch_finds acmeUser cityCalls
    (by decide) (by decide +kernel) (by decide +kernel) (by decide +kernel)
    (cityCalls.take 3) _ (cityCalls.drop 4) s rfl hs⟩

/-- The other provider still reads a memory whose time is over. -/
theorem expired_memory_read :
    ¬ ∀ (provider : OpenViking) (party : MemoryParty) (calls : List MemoryCall),
      FindsAll provider.search →
      (∀ call ∈ calls, call.scope.within party) →
      provider.env.CollisionFree (calls.flatMap MemoryCall.texts) →
      (calls.map MemoryCall.now).Pairwise (· ≤ ·) →
      Runs.Meets (bothStep provider) (NotBinding provider) .empty calls →
      ∀ before call after s, calls = before ++ call :: after →
        Runs.run (bothStep provider) .empty before = some s → AnswersAgree provider s call := by
  intro h
  obtain ⟨server, answer, hanswer, hsame, -⟩ := h (sampleViking .trusted) acmeUser
    [.remember (preferences "acme") (cityMemory (some 1000000)) 0,
     .getCurrent (preferences "acme") "city" 2000000]
    sampleSearch_finds (by decide) (by decide +kernel) (by decide) (by decide +kernel)
    [.remember (preferences "acme") (cityMemory (some 1000000)) 0] _ [] _ rfl rfl
  have hread := congrArg (fun r => r.toOption.map Prod.snd) hanswer
  have hitem : answer = .current (some ⟨"city", "Lyon", 1, "explicit", some 1000000⟩) :=
    Option.some.inj (hread.symm.trans (by decide +kernel))
  subst hitem
  change MemoryAnswer.current _ = _ at hsame
  exact absurd hsame (by decide +kernel)

end Aegora
