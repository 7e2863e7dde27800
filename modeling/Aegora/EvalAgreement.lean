import Aegora.EvalProvider

/-!
# When the evaluation provider mirrors the native one

Both providers refine one table of stored memories. The items and the rows are
that table, place for place, as long as every write is one that both keep alike
(`EvalMirrors`); and a write that is not shows in the next `get_current`.
-/

namespace Aegora

open Py

/-! ## Stored memories -/

structure StoredMemory where
  identity : MemoryIdentity
  status : RowStatus
  content : String
  version : Nat
  sourceKind : SourceKind
  sourceAgentId : Option String

namespace StoredMemory

def active (m : StoredMemory) : Bool := m.status = .active

def withStatus (status : RowStatus) (m : StoredMemory) : StoredMemory := { m with status := status }

/-- What is compared of a memory. -/
def view (m : StoredMemory) : EvalView where
  key := m.identity.key
  content := m.content
  version := m.version
  scope := m.identity.scope.text
  nameSpace := m.identity.nameSpace
  sourceKind := m.sourceKind.text
  sourceAgentId := m.sourceAgentId

/-- The memory is one that `recall` of the scope may return. -/
def visibleTo (scope : MemoryScope) (m : StoredMemory) : Bool :=
  m.identity.tenantId = scope.tenant && m.identity.userId = scope.userId && m.active
    && (m.identity.scope ≠ .userAgent || m.identity.agentId = scope.agentId.getD "")

/-- A namespace and an agent are named where there is one to name. -/
structure WellFormed (m : StoredMemory) : Prop where
  key : m.identity.key ≠ ""
  nameSpace : m.identity.nameSpace ≠ ""
  version : m.version ≠ 0
  agent : m.identity.scope = .userAgent → m.identity.agentId ≠ ""

end StoredMemory

abbrev MemoryTable := List StoredMemory

namespace MemoryTable

def current (table : MemoryTable) (identity : MemoryIdentity) : Option StoredMemory :=
  VersionedTable.current StoredMemory.identity StoredMemory.active table identity

def Unique (table : MemoryTable) : Prop :=
  VersionedTable.UniqueLive StoredMemory.identity StoredMemory.active table

/-- The current memory of the identity gets another status. -/
def retire (table : MemoryTable) (identity : MemoryIdentity) (status : RowStatus) : MemoryTable :=
  VersionedTable.retire (fun m => decide (m.identity = identity) && m.active)
    (StoredMemory.withStatus status) table

/-- The memory that a write of the identity appends. -/
def next (table : MemoryTable) (identity : MemoryIdentity) (content : String)
    (sourceKind : SourceKind) (sourceAgentId : Option String) : StoredMemory where
  identity := identity
  status := .active
  content := content
  version := ((table.current identity).map fun m => m.version + 1).getD 1
  sourceKind := sourceKind
  sourceAgentId := sourceAgentId

def write (table : MemoryTable) (identity : MemoryIdentity) (content : String)
    (sourceKind : SourceKind) (sourceAgentId : Option String) : MemoryTable :=
  table.retire identity .superseded ++ [table.next identity content sourceKind sourceAgentId]

/-- The current memory of the identity already has the content. -/
def repeats (table : MemoryTable) (identity : MemoryIdentity) (content : String) : Bool :=
  (table.current identity).any fun m => m.content = content

end MemoryTable

/-- The table that the items are. -/
def EvalItem.stored (item : EvalItem) : StoredMemory where
  identity := {
    tenantId := textOr item.tenantId "default"
    userId := item.userId
    scope := item.scope
    nameSpace := item.nameSpace
    agentId := if item.scope = .userAgent then item.agentId.getD "" else ""
    key := item.key }
  status := item.status
  content := item.content
  version := item.version
  sourceKind := item.sourceKind
  sourceAgentId := item.sourceAgentId

/-- The table that the rows are. -/
def MemoryRow.stored (row : MemoryRow) : StoredMemory where
  identity := row.identity
  status := row.status
  content := row.content
  version := row.version
  sourceKind := row.sourceKind
  sourceAgentId := nonEmpty row.sourceAgentId

def EvalProvider.table (provider : EvalProvider) : MemoryTable :=
  provider.items.map EvalItem.stored

def MemoryTables.table (t : MemoryTables) : MemoryTable := t.rows.map MemoryRow.stored

/-! ## The evaluation provider on its table -/

section Eval

variable {provider : EvalProvider} {scope : MemoryScope} {memory : MemoryWrite}
  {key memoryType : String} {item : EvalItem} {status : RowStatus} {identity : MemoryIdentity}

theorem textOr_tenant (scope : MemoryScope) : textOr scope.tenant "default" = scope.tenant := by
  unfold textOr MemoryScope.tenant
  cases scope.tenantId with
  | none => decide
  | some tenantId => by_cases h : tenantId = "" <;> simp [h]

theorem evalMatches_eq (scope : MemoryScope) (key : String) (item : EvalItem) :
    evalMatches scope key item
      = (decide (item.stored.identity = scope.identity key) && item.stored.active) := by
  rw [Bool.eq_iff_iff]
  unfold evalMatches sameUser sameAgent StoredMemory.active EvalItem.stored MemoryScope.identity
    MemoryScope.rowAgent
  by_cases hscope : item.scope = scope.memoryScope
  · by_cases hagent : scope.memoryScope = .userAgent
    · simp [hscope, hagent]
      tauto
    · simp [hscope, hagent]
      tauto
  · simp [hscope]

theorem evalVisible_eq (scope : MemoryScope) (item : EvalItem) :
    evalVisible scope item = item.stored.visibleTo scope := by
  rw [Bool.eq_iff_iff]
  unfold evalVisible sameUser sameAgent StoredMemory.visibleTo StoredMemory.active EvalItem.stored
  cases item.scope <;> simp [and_assoc]

theorem newestItem_eq_head? {items : List EvalItem} (h : items.length ≤ 1) :
    newestItem items = items.head? := by
  rcases items with _ | ⟨item, _ | ⟨next, rest⟩⟩
  · rfl
  · rfl
  · simp at h

/-- Ids are given out once. -/
structure EvalProvider.Numbered (provider : EvalProvider) : Prop where
  nodup : (provider.items.map EvalItem.memoryId).Nodup
  below : ∀ item ∈ provider.items, ∃ n < provider.nextId, item.memoryId = toString n

theorem EvalProvider.current_table (identity : MemoryIdentity) :
    provider.table.current identity
      = (VersionedTable.current (StoredMemory.identity ∘ EvalItem.stored)
          (StoredMemory.active ∘ EvalItem.stored) provider.items identity).map EvalItem.stored :=
  VersionedTable.current_map

theorem EvalProvider.getCurrent_eq (h : provider.table.Unique) :
    provider.getCurrent scope key
      = VersionedTable.current (StoredMemory.identity ∘ EvalItem.stored)
          (StoredMemory.active ∘ EvalItem.stored) provider.items (scope.identity key) := by
  unfold EvalProvider.getCurrent VersionedTable.current
  rw [List.filter_congr fun item _ => evalMatches_eq scope key item, newestItem_eq_head?,
    List.head?_filter]
  · rfl
  · exact VersionedTable.length_filter_live_le (VersionedTable.uniqueLive_map.mp h) _

theorem EvalProvider.getCurrent_table (h : provider.table.Unique) :
    (provider.getCurrent scope key).map EvalItem.stored
      = provider.table.current (scope.identity key) := by
  rw [EvalProvider.getCurrent_eq h, EvalProvider.current_table]

/-- Setting the status of the current item retires the current memory. -/
theorem EvalProvider.setStatus_table (h : provider.table.Unique) (hnumbered : provider.Numbered)
    (hcurrent : provider.getCurrent scope key = some item) (status : RowStatus) :
    (provider.setStatus item status).map EvalItem.stored
      = provider.table.retire (scope.identity key) status := by
  have hunique := VersionedTable.uniqueLive_map.mp h
  rw [EvalProvider.getCurrent_eq h] at hcurrent
  obtain ⟨hitem, hidentity, hactive⟩ := VersionedTable.current_spec hcurrent
  have hretire : provider.setStatus item status = VersionedTable.retire
      (fun other => decide (other.stored.identity = scope.identity key) && other.stored.active)
      (fun other => { other with status := status }) provider.items := by
    refine List.map_congr_left fun other hother => ?_
    have hiff : other.memoryId = item.memoryId
        ↔ other.stored.identity = scope.identity key ∧ other.stored.active = true := by
      constructor
      · intro hid
        rw [List.inj_on_of_nodup_map hnumbered.nodup hother hitem hid]
        exact ⟨hidentity, hactive⟩
      · intro hlive
        have hsame := (VersionedTable.current_eq_some hunique).mpr ⟨hother, hlive⟩
        rw [hcurrent] at hsame
        rw [Option.some.inj hsame]
    simp only [hiff, Bool.and_eq_true, decide_eq_true_eq]
  have hstored : ∀ other : EvalItem, ({ other with status := status } : EvalItem).stored
      = other.stored.withStatus status := fun _ => rfl
  rw [hretire]
  exact (VersionedTable.retire_map (f := EvalItem.stored)
    (p := fun m => decide (m.identity = scope.identity key) && m.active) hstored).symm

theorem retire_eq_self_of_none {table : MemoryTable} (h : table.current identity = none)
    (status : RowStatus) : table.retire identity status = table := by
  refine VersionedTable.retire_eq_self fun m hm => ?_
  by_cases hidentity : m.identity = identity
  · simp [hidentity, VersionedTable.current_eq_none.mp h m hm hidentity]
  · simp [hidentity]

theorem newItem_stored (current : Option EvalItem) :
    (provider.newItem scope memory memoryType current).stored = {
      identity := scope.identity memory.key
      status := .active
      content := memory.value
      version := (current.map fun item => item.version + 1).getD 1
      sourceKind := memory.sourceKind
      sourceAgentId := memory.sourceAgentId } := by
  unfold EvalProvider.newItem EvalItem.stored MemoryScope.identity MemoryScope.rowAgent
  rw [textOr_tenant]
  by_cases hagent : scope.memoryScope = .userAgent <;> simp [hagent]

/-- A write to the evaluation provider is one to its table. -/
theorem EvalProvider.remember_table (h : provider.table.Unique) (hnumbered : provider.Numbered) :
    (provider.remember scope memory memoryType).1.table
      = if provider.table.repeats (scope.identity memory.key) memory.value then provider.table
        else provider.table.write (scope.identity memory.key) memory.value memory.sourceKind
          memory.sourceAgentId := by
  have htable := @EvalProvider.getCurrent_table provider scope memory.key h
  unfold EvalProvider.remember MemoryTable.repeats MemoryTable.write MemoryTable.next
  cases hcurrent : provider.getCurrent scope memory.key with
  | none =>
      rw [hcurrent, Option.map_none] at htable
      rw [← htable, retire_eq_self_of_none htable.symm]
      simp [EvalProvider.table, newItem_stored]
  | some current =>
      rw [hcurrent, Option.map_some] at htable
      rw [← htable]
      have hcontent : current.stored.content = current.content := rfl
      by_cases hsame : current.content = memory.value
      · simp [hsame, hcontent]
      · simp only [hsame, hcontent, Option.any_some, decide_false, if_false, Bool.false_eq_true]
        unfold EvalProvider.table
        rw [List.map_append, EvalProvider.setStatus_table h hnumbered hcurrent,
          List.map_singleton, newItem_stored]
        rfl

theorem EvalProvider.forget_table (h : provider.table.Unique) (hnumbered : provider.Numbered) :
    (provider.forget scope key).1.table = provider.table.retire (scope.identity key) .deleted := by
  have htable := @EvalProvider.getCurrent_table provider scope key h
  unfold EvalProvider.forget
  cases hcurrent : provider.getCurrent scope key with
  | none =>
      rw [hcurrent, Option.map_none] at htable
      exact (retire_eq_self_of_none htable.symm .deleted).symm
  | some current => exact EvalProvider.setStatus_table h hnumbered hcurrent .deleted

end Eval

/-! ## The native provider on its table -/

section Native

variable {env : FloatEnv} {t : MemoryTables} {scope : MemoryScope} {memory : MemoryWrite}
  {key : String} {now : Time} {identity : MemoryIdentity} {row : MemoryRow}

/-- No current row has an end. -/
def Unending (t : MemoryTables) : Prop :=
  ∀ row ∈ t.rows, row.active = true → row.validUntil = none

theorem MemoryTables.current_table (t : MemoryTables) (identity : MemoryIdentity) :
    t.table.current identity = (t.current identity).map MemoryRow.stored :=
  VersionedTable.current_map

theorem Constrained.table_unique (h : Constrained t) : t.table.Unique :=
  VersionedTable.uniqueLive_map.mpr h.unique

theorem duplicate_iff (hunending : Unending t) (hexpiry : memory.expiresAt = none) :
    Duplicate t scope memory
      ↔ t.table.repeats (scope.identity memory.key) memory.value = true := by
  unfold Duplicate MemoryTable.repeats
  rw [MemoryTables.current_table]
  cases hcurrent : t.current (scope.identity memory.key) with
  | none => simp
  | some row =>
      obtain ⟨hrow, -, hactive⟩ := current_spec hcurrent
      simp [sameMemory, hexpiry, hunending row hrow hactive, MemoryRow.stored]

theorem supersedeCurrent_table (h : Constrained t) :
    (supersedeCurrent now t identity).table = t.table.retire identity .superseded := by
  have hretire : (supersedeCurrent now t identity).rows = VersionedTable.retire
      (fun row => decide (row.stored.identity = identity) && row.stored.active)
      (MemoryRow.supersede now) t.rows := by
    refine VersionedTable.retire_congr fun row hrow => ?_
    rw [Bool.eq_iff_iff, Option.any_eq_true, Bool.and_eq_true, decide_eq_true_eq]
    constructor
    · rintro ⟨current, hcurrent, hid⟩
      obtain ⟨hmem, hlive⟩ := current_spec hcurrent
      rw [h.same_id hrow hmem (of_decide_eq_true hid)]
      exact hlive
    · intro hlive
      exact ⟨row, h.current_iff.mpr ⟨hrow, hlive⟩, decide_eq_true rfl⟩
  have hstored : ∀ row, (MemoryRow.supersede now row).stored
      = row.stored.withStatus .superseded := fun _ => rfl
  unfold MemoryTables.table
  rw [hretire]
  exact (VersionedTable.retire_map (f := MemoryRow.stored)
    (p := fun m => decide (m.identity = identity) && m.active) hstored).symm

/-- The source agent that a row of the write is read back with. -/
def keptSource (scope : MemoryScope) (memory : MemoryWrite) : Option String :=
  nonEmpty ((nonEmpty memory.sourceAgentId).or scope.agentId)

theorem insertedRow_stored (env : FloatEnv) (scope : MemoryScope) (memory : MemoryWrite)
    (now : Time) (t : MemoryTables) (id : Nat) :
    (insertedRow env scope memory now (t.current (scope.identity memory.key)) id).stored
      = t.table.next (scope.identity memory.key) memory.value memory.sourceKind
        (keptSource scope memory) := by
  unfold MemoryTable.next
  rw [MemoryTables.current_table, Option.map_map]
  rfl

/-- A write to the native provider is one to its table. -/
theorem remember_table (h : Constrained t) (hunending : Unending t)
    (hexpiry : memory.expiresAt = none) :
    (remember env scope memory now t).1.table
      = if t.table.repeats (scope.identity memory.key) memory.value then t.table
        else t.table.write (scope.identity memory.key) memory.value memory.sourceKind
          (keptSource scope memory) := by
  have hduplicate := @duplicate_iff t scope memory hunending hexpiry
  rcases remember_cases env scope memory now t with ⟨current, hcurrent, hsame, heq⟩ | ⟨hnew, heq⟩
  · rw [heq, if_pos (hduplicate.mp ⟨current, hcurrent, hsame⟩)]
  · rw [heq, if_neg (fun hrepeats => hnew (hduplicate.mpr hrepeats))]
    have hrows : (insertVersion env scope memory now
          (t.current (scope.identity memory.key)) t).1.table
        = (supersedeCurrent now t (scope.identity memory.key)).table
          ++ [(insertedRow env scope memory now (t.current (scope.identity memory.key))
            t.nextId).stored] := by
      unfold MemoryTables.table
      rw [insertVersion_rows, List.map_append]
      rfl
    rw [hrows, supersedeCurrent_table h, insertedRow_stored]
    rfl

theorem forget_table (htrimmed : strip key = key) (hkeys : ∀ m ∈ t.table, m.identity.key ≠ "") :
    (forget scope key now t).1.table = t.table.retire (scope.identity key) .deleted := by
  unfold forget
  rw [htrimmed]
  split
  · rename_i hblank
    refine (retire_eq_self_of_none (VersionedTable.current_eq_none.mpr ?_) .deleted).symm
    intro m hm hidentity
    refine absurd ?_ (hkeys m hm)
    rw [hidentity, hblank]
    rfl
  · have hstored : ∀ row, (MemoryRow.delete now row).stored = row.stored.withStatus .deleted :=
      fun _ => rfl
    exact (VersionedTable.retire_map (f := MemoryRow.stored)
      (p := fun m => decide (m.identity = scope.identity key) && m.active) hstored).symm

end Native

/-! ## The two tables are one -/

structure EvalMirrors (s : EvalPair) : Prop where
  same : s.eval.table = s.tables.table
  numbered : s.eval.Numbered
  constrained : Constrained s.tables
  unending : Unending s.tables
  wellFormed : ∀ m ∈ s.tables.table, m.WellFormed

section EvalMirrors

variable {env : FloatEnv} {s s' : EvalPair} {scope : MemoryScope} {memory : MemoryWrite}
  {key memoryType : String} {now : Time} {table : MemoryTable} {identity : MemoryIdentity}

theorem EvalMirrors.unique (h : EvalMirrors s) : s.eval.table.Unique :=
  h.same ▸ h.constrained.table_unique

theorem mem_retire_wellFormed (h : ∀ m ∈ table, m.WellFormed) (status : RowStatus) :
    ∀ m ∈ table.retire identity status, m.WellFormed := by
  intro m hm
  rcases VersionedTable.mem_retire.mp hm with ⟨hm, -⟩ | ⟨old, hold, -, rfl⟩
  · exact h m hm
  · exact ⟨(h old hold).key, (h old hold).nameSpace, (h old hold).version, (h old hold).agent⟩

/-- What is written under a named namespace is well formed. -/
theorem next_wellFormed (hnameSpace : scope.nameSpace ≠ "") (sourceAgentId : Option String) :
    (table.next (scope.identity memory.key) memory.value memory.sourceKind
      sourceAgentId).WellFormed where
  key := memory.keyNonblank
  nameSpace := hnameSpace
  version := by
    unfold MemoryTable.next
    cases table.current (scope.identity memory.key) <;> simp
  agent hscope := by
    have hagent := scope.agent hscope
    have hrow : scope.rowAgent = scope.agentId := if_pos hscope
    show scope.rowAgent.getD "" ≠ ""
    rw [hrow]
    cases hid : scope.agentId with
    | none => simp [hid] at hagent
    | some agentId => simpa [hid] using hagent

theorem namesSource_iff : NamesSource scope memory
    ↔ memory.sourceAgentId = keptSource scope memory := by
  unfold NamesSource keptSource
  cases hsource : memory.sourceAgentId with
  | none => simp [nonEmpty, eq_comm]
  | some source =>
      by_cases hblank : source = ""
      · rw [hblank]
        simp [(nonEmpty_ne_blank _).symm]
      · simp [nonEmpty, hblank]

/-! ### Answers -/

theorem rowView_eq {row : MemoryRow} (h : row.stored.WellFormed) :
    (rowToItem env row).evalView = row.stored.view := by
  have hnameSpace : row.nameSpace ≠ "" := h.nameSpace
  have hversion : row.version ≠ 0 := h.version
  unfold MemoryItem.evalView StoredMemory.view rowToItem textOr
  rw [if_neg hnameSpace, if_neg hversion]
  rfl

theorem evalCurrent_view (h : s.eval.table.Unique) :
    (s.eval.getCurrent scope key).map EvalItem.evalView
      = (s.eval.table.current (scope.identity key)).map StoredMemory.view := by
  rw [← EvalProvider.getCurrent_table h, Option.map_map]
  rfl

theorem getCurrent_unending (h : Constrained s.tables) (hunending : Unending s.tables)
    (htrimmed : strip key = key) (hkey : key ≠ "") :
    getCurrent scope key now s.tables = s.tables.current (scope.identity key) := by
  rw [getCurrent_eq h, htrimmed, if_neg hkey]
  cases hcurrent : s.tables.current (scope.identity key) with
  | none => rfl
  | some row =>
      obtain ⟨hrow, -, hactive⟩ := current_spec hcurrent
      rw [Option.filter_some, MemoryRow.unexpired, hunending row hrow hactive]
      rfl

theorem EvalMirrors.current_view (h : EvalMirrors s) (htrimmed : strip key = key) :
    (getCurrent scope key now s.tables).map (fun row => (rowToItem env row).evalView)
      = (s.tables.table.current (scope.identity key)).map StoredMemory.view := by
  by_cases hkey : key = ""
  · have hnone : s.tables.table.current (scope.identity key) = none := by
      refine VersionedTable.current_eq_none.mpr fun m hm hidentity => ?_
      refine absurd ?_ (h.wellFormed m hm).key
      rw [hidentity, hkey]
      rfl
    have hblank : getCurrent scope key now s.tables = none := by
      unfold getCurrent
      rw [htrimmed, if_pos hkey]
    rw [hnone, hblank]
    rfl
  · rw [getCurrent_unending h.constrained h.unending htrimmed hkey, MemoryTables.current_table,
      Option.map_map]
    cases hcurrent : s.tables.current (scope.identity key) with
    | none => rfl
    | some row =>
        have hmem : row.stored ∈ s.tables.table :=
          List.mem_map_of_mem (current_spec hcurrent).1
        exact congrArg some (rowView_eq (h.wellFormed _ hmem))

/-- Where a row is the current one, `recall` selects it as the table says. -/
theorem EvalMirrors.recallable_eq (h : EvalMirrors s) {row : MemoryRow}
    (hrow : row ∈ s.tables.rows) :
    recallable scope now row = row.stored.visibleTo scope := by
  have hagent := (h.wellFormed _ (List.mem_map_of_mem hrow)).agent
  unfold recallable StoredMemory.visibleTo
  change _ = (decide (row.tenantId = scope.tenant) && decide (row.subjectUserId = scope.userId)
    && row.active && (decide (row.scope ≠ .userAgent)
      || decide (row.agentId.getD "" = scope.agentId.getD "")))
  cases hactive : row.active with
  | false => simp
  | true =>
      rw [show row.unexpired now = true by
        rw [MemoryRow.unexpired, h.unending row hrow hactive]
        rfl]
      cases hscope : row.scope with
      | userGlobal => simp
      | tenantUser => simp
      | userAgent =>
          have hnamed : row.agentId.getD "" ≠ "" := hagent hscope
          have hsame : scope.agentId.any (fun agentId => decide (row.agentId = some agentId))
              = decide (row.agentId.getD "" = scope.agentId.getD "") := by
            cases hid : scope.agentId with
            | none => simp [hnamed]
            | some agentId =>
                cases hrowAgent : row.agentId with
                | none => simp [hrowAgent] at hnamed
                | some rowAgent => simp
          simp [hsame]

theorem takeSlice_of_length_le {α : Type*} {items : List α} {limit : Int}
    (h : (items.length : Int) ≤ limit) : takeSlice limit items = items := by
  unfold takeSlice
  rw [if_pos (by omega), List.take_of_length_le (by omega)]

theorem EvalMirrors.recalled (h : EvalMirrors s) {limit : Int}
    (hitems : s.eval.items.length ≤ limit)
    (hrows : s.tables.rows.length ≤ limit) :
    ((s.eval.recall scope limit).map EvalItem.evalView).Perm
      ((recallRows scope limit now s.tables).map fun row => (rowToItem env row).evalView) := by
  have heval : ((s.eval.recall scope limit).map EvalItem.evalView).Perm
      ((s.eval.table.filter (StoredMemory.visibleTo scope)).map StoredMemory.view) := by
    unfold EvalProvider.recall EvalProvider.table
    rw [takeSlice_of_length_le]
    · rw [List.filter_map, List.map_map, List.filter_congr fun item _ => evalVisible_eq scope item]
      exact (List.perm_insertionSort _ _).map _
    · rw [List.length_insertionSort]
      have hle := List.length_filter_le (evalVisible scope) s.eval.items
      omega
  have hnative : ((recallRows scope limit now s.tables).map
      fun row => (rowToItem env row).evalView).Perm
        ((s.tables.table.filter (StoredMemory.visibleTo scope)).map StoredMemory.view) := by
    unfold recallRows MemoryTables.table
    rw [List.take_of_length_le]
    · rw [List.filter_map, List.map_map, List.filter_congr fun row hrow => h.recallable_eq hrow]
      refine ((List.perm_insertionSort _ _).map _).trans (List.Perm.of_eq ?_)
      refine List.map_congr_left fun row hrow => ?_
      exact rowView_eq (h.wellFormed _ (List.mem_map_of_mem (List.mem_filter.mp hrow).1))
    · rw [List.length_insertionSort]
      have hle := List.length_filter_le (recallable scope now) s.tables.rows
      omega
  rw [h.same] at heval
  exact heval.trans hnative.symm

theorem EvalMirrors.answersMatch (h : EvalMirrors s) (env : FloatEnv) : AnswersMatch env s where
  current scope key now htrimmed := by
    rw [evalCurrent_view h.unique, h.current_view htrimmed, h.same]
  recalled _ _ _ hitems hrows := h.recalled hitems hrows

/-! ### Calls -/

theorem EvalProvider.setStatus_ids (provider : EvalProvider) (item : EvalItem)
    (status : RowStatus) :
    (provider.setStatus item status).map EvalItem.memoryId
      = provider.items.map EvalItem.memoryId := by
  unfold EvalProvider.setStatus
  rw [List.map_map]
  refine List.map_congr_left fun other _ => ?_
  simp only [Function.comp_apply]
  split <;> rfl

theorem EvalProvider.Numbered.setStatus {provider : EvalProvider} (h : provider.Numbered)
    (item : EvalItem) (status : RowStatus) :
    EvalProvider.Numbered { provider with items := provider.setStatus item status } where
  nodup := by
    rw [EvalProvider.setStatus_ids]
    exact h.nodup
  below other hother := by
    have hid := List.mem_map_of_mem (f := EvalItem.memoryId) hother
    rw [EvalProvider.setStatus_ids] at hid
    obtain ⟨old, hold, heq⟩ := List.mem_map.mp hid
    rw [← heq]
    exact h.below old hold

theorem EvalProvider.Numbered.append {provider : EvalProvider} (h : provider.Numbered)
    {item : EvalItem} (hid : item.memoryId = toString provider.nextId) :
    EvalProvider.Numbered { items := provider.items ++ [item], nextId := provider.nextId + 1 } where
  nodup := by
    rw [List.map_append, List.map_singleton]
    refine List.nodup_append.mpr ⟨h.nodup, List.nodup_singleton _, fun a ha b hb hab => ?_⟩
    obtain ⟨old, hold, rfl⟩ := List.mem_map.mp ha
    obtain ⟨n, hn, heq⟩ := h.below old hold
    rw [List.mem_singleton.mp hb, heq, hid] at hab
    have hread := congrArg intOfText hab
    rw [intOfText_toString, intOfText_toString] at hread
    have hsame := Int.ofNat_inj.mp (Option.some.inj hread)
    omega
  below other hother := by
    rcases List.mem_append.mp hother with hother | hother
    · obtain ⟨n, hn, heq⟩ := h.below other hother
      exact ⟨n, Nat.lt_succ_of_lt hn, heq⟩
    · rw [List.mem_singleton.mp hother]
      exact ⟨provider.nextId, Nat.lt_succ_self _, hid⟩

theorem EvalProvider.Numbered.remember {provider : EvalProvider} (h : provider.Numbered)
    (scope : MemoryScope) (memory : MemoryWrite) (memoryType : String) :
    (provider.remember scope memory memoryType).1.Numbered := by
  unfold EvalProvider.remember
  cases provider.getCurrent scope memory.key with
  | none => exact h.append rfl
  | some current =>
      by_cases hsame : current.content = memory.value
      · simpa [hsame] using h
      · simp only [hsame, if_false]
        exact (h.setStatus current .superseded).append rfl

theorem EvalProvider.Numbered.forget {provider : EvalProvider} (h : provider.Numbered)
    (scope : MemoryScope) (key : String) : (provider.forget scope key).1.Numbered := by
  unfold EvalProvider.forget
  cases provider.getCurrent scope key with
  | none => exact h
  | some current => exact h.setStatus current .deleted

theorem unending_of_retired {t t' : MemoryTables} (h : Unending t)
    (hrows : ∀ row ∈ t'.rows, row.active = true → row ∈ t.rows ∨ row.validUntil = none) :
    Unending t' := by
  intro row hrow hactive
  rcases hrows row hrow hactive with hold | hnone
  · exact h row hold hactive
  · exact hnone

theorem unending_remember (h : Unending s.tables) (hexpiry : memory.expiresAt = none) :
    Unending (remember env scope memory now s.tables).1 := by
  rcases remember_cases env scope memory now s.tables with ⟨current, -, -, heq⟩ | ⟨-, heq⟩
  · rw [heq]
    exact h
  · rw [heq]
    refine unending_of_retired h fun row hrow hactive => ?_
    rw [insertVersion_rows] at hrow
    rcases List.mem_append.mp hrow with hrow | hrow
    · rcases VersionedTable.mem_retire.mp hrow with ⟨hrow, -⟩ | ⟨old, -, -, rfl⟩
      · exact Or.inl hrow
      · rw [(retires_supersede now).inactive] at hactive
        cases hactive
    · rw [List.mem_singleton.mp hrow]
      exact Or.inr hexpiry

theorem unending_forget (h : Unending s.tables) : Unending (forget scope key now s.tables).1 := by
  refine unending_of_retired h fun row hrow hactive => ?_
  unfold forget at hrow
  split at hrow
  · exact Or.inl hrow
  · rcases VersionedTable.mem_retire.mp hrow with ⟨hrow, -⟩ | ⟨old, -, -, rfl⟩
    · exact Or.inl hrow
    · rw [(retires_delete now).inactive] at hactive
      cases hactive

theorem write_wellFormed (h : ∀ m ∈ table, m.WellFormed) (hnameSpace : scope.nameSpace ≠ "")
    (sourceAgentId : Option String) :
    ∀ m ∈ table.write (scope.identity memory.key) memory.value memory.sourceKind sourceAgentId,
      m.WellFormed := by
  intro m hm
  rcases List.mem_append.mp hm with hm | hm
  · exact mem_retire_wellFormed h .superseded m hm
  · rw [List.mem_singleton.mp hm]
    exact next_wellFormed hnameSpace sourceAgentId

/-- A write that says what is current changes neither table. -/
theorem EvalMirrors.repeat_remember (h : EvalMirrors s) (hexpiry : memory.expiresAt = none)
    (hduplicate : Duplicate s.tables scope memory) :
    EvalMirrors { s with eval := (s.eval.remember scope memory memoryType).1 } := by
  have hrepeats := (duplicate_iff h.unending hexpiry).mp hduplicate
  refine { h with
    same := ?_
    numbered := h.numbered.remember scope memory memoryType }
  rw [EvalProvider.remember_table h.unique h.numbered, h.same, if_pos hrepeats]

/-- Both providers keep the same of a write. -/
theorem EvalMirrors.keep_remember (h : EvalMirrors s) (hexpiry : memory.expiresAt = none)
    (hnameSpace : scope.nameSpace ≠ "")
    (hsource : memory.sourceAgentId = keptSource scope memory) (kind : MemoryType) :
    EvalMirrors {
      eval := (s.eval.remember scope memory memoryType).1
      tables := (remember env scope { memory with memoryType := kind } now s.tables).1 } := by
  have hnative := @remember_table env s.tables scope { memory with memoryType := kind } now
    h.constrained h.unending hexpiry
  have hkept : keptSource scope { memory with memoryType := kind } = memory.sourceAgentId :=
    hsource.symm
  rw [hkept] at hnative
  refine {
    same := ?_
    numbered := h.numbered.remember scope memory memoryType
    constrained := remember_constrained h.constrained
    unending := unending_remember h.unending hexpiry
    wellFormed := fun m hm => ?_ }
  · rw [EvalProvider.remember_table h.unique h.numbered, hnative, h.same]
  · rw [hnative] at hm
    split at hm
    · exact h.wellFormed m hm
    · exact write_wellFormed h.wellFormed hnameSpace _ m hm

theorem EvalMirrors.keep_forget (h : EvalMirrors s) (htrimmed : strip key = key) :
    EvalMirrors {
      eval := (s.eval.forget scope key).1
      tables := (forget scope key now s.tables).1 } := by
  have hnative := @forget_table s.tables scope key now htrimmed
    fun m hm => (h.wellFormed m hm).key
  refine {
    same := ?_
    numbered := h.numbered.forget scope key
    constrained := forget_constrained h.constrained key
    unending := unending_forget h.unending
    wellFormed := fun m hm => ?_ }
  · rw [EvalProvider.forget_table h.unique h.numbered, hnative, h.same]
  · rw [hnative] at hm
    exact mem_retire_wellFormed h.wellFormed .deleted m hm

theorem evalStep_mirrors (h : EvalMirrors s) {call : EvalCall} (halike : WritesAlike s call)
    (hstep : evalStep env s call = some s') : EvalMirrors s' := by
  cases call with
  | remember scope memory memoryType now hexpiry =>
      cases hstep
      unfold nativeRemember
      rcases halike with hduplicate | ⟨htype, hnameSpace, hsource⟩
      · cases hkind : MemoryType.parse memoryType with
        | none =>
            obtain ⟨current, hcurrent, hsame⟩ := hduplicate
            simp only [hcurrent, hsame, if_true]
            exact h.repeat_remember hexpiry ⟨current, hcurrent, hsame⟩
        | some kind =>
            obtain ⟨current, hcurrent, hsame⟩ := hduplicate
            have hremember : remember env scope { memory with memoryType := kind } now s.tables
                = (s.tables, current) := by
              unfold remember
              dsimp only
              rw [hcurrent]
              exact if_pos hsame
            simp only [hremember]
            exact h.repeat_remember hexpiry ⟨current, hcurrent, hsame⟩
      · obtain ⟨kind, hkind⟩ := Option.isSome_iff_exists.mp htype
        simp only [hkind]
        exact h.keep_remember hexpiry hnameSpace (namesSource_iff.mp hsource) kind
  | forget scope key now htrimmed =>
      cases hstep
      exact h.keep_forget htrimmed
  | getCurrent scope key now htrimmed =>
      cases hstep
      exact h

/-! ### A write that shows -/

theorem write_unique (h : table.Unique) (content : String) (sourceKind : SourceKind)
    (sourceAgentId : Option String) :
    (table.write identity content sourceKind sourceAgentId).Unique
      ∧ (table.write identity content sourceKind sourceAgentId).current identity
        = some (table.next identity content sourceKind sourceAgentId) := by
  have hretired : (table.retire identity .superseded).current identity = none := by
    refine VersionedTable.current_eq_none.mpr fun m hm hidentity => ?_
    rcases VersionedTable.mem_retire.mp hm with ⟨-, hp⟩ | ⟨old, -, -, rfl⟩
    · simpa [hidentity] using hp
    · rfl
  constructor
  · refine VersionedTable.uniqueLive_append (VersionedTable.uniqueLive_retire (fun _ => rfl) h) ?_
      fun m hm _ => ?_
    · exact List.nodup_singleton _
    · rw [List.mem_singleton.mp hm]
      exact hretired
  · unfold MemoryTable.write MemoryTable.current
    rw [VersionedTable.current_append]
    change ((table.retire identity .superseded).current identity).or _ = _
    rw [hretired, Option.none_or]
    simp [VersionedTable.current, MemoryTable.next, StoredMemory.active]

/-- What `get_current` of the evaluation provider answers after a write that repeats nothing. -/
theorem EvalMirrors.evalCurrent_written (h : EvalMirrors s) (hexpiry : memory.expiresAt = none)
    (hnew : ¬ Duplicate s.tables scope memory) :
    ((s.eval.remember scope memory memoryType).1.getCurrent scope memory.key).map
        EvalItem.evalView
      = some (s.tables.table.next (scope.identity memory.key) memory.value memory.sourceKind
        memory.sourceAgentId).view := by
  have hrepeats : ¬ s.tables.table.repeats (scope.identity memory.key) memory.value = true :=
    fun hrepeats => hnew ((duplicate_iff h.unending hexpiry).mpr hrepeats)
  have htable := @EvalProvider.remember_table s.eval scope memory memoryType h.unique
    h.numbered
  rw [h.same, if_neg hrepeats] at htable
  obtain ⟨hunique, hcurrent⟩ := @write_unique s.tables.table (scope.identity memory.key)
    h.constrained.table_unique memory.value memory.sourceKind memory.sourceAgentId
  rw [← htable] at hunique hcurrent
  have hview := @evalCurrent_view ⟨(s.eval.remember scope memory memoryType).1, s.tables⟩ scope
    memory.key hunique
  rw [hcurrent] at hview
  exact hview

/-- What `get_current` of the native provider answers after a write. -/
theorem EvalMirrors.nativeCurrent_written (h : EvalMirrors s) (hexpiry : memory.expiresAt = none)
    (hnew : ¬ Duplicate s.tables scope memory) :
    (getCurrent scope memory.key now (remember env scope memory now s.tables).1).map
        (fun row => (rowToItem env row).evalView)
      = some (rowToItem env (insertedRow env scope memory now
        (s.tables.current (scope.identity memory.key)) s.tables.nextId)).evalView := by
  have hcurrent := @getCurrent_unending ⟨s.eval, (remember env scope memory now s.tables).1⟩ scope
    memory.key now (remember_constrained h.constrained) (unending_remember h.unending hexpiry)
    memory.keyStripped memory.keyNonblank
  dsimp only at hcurrent
  rw [hcurrent, remember_current h.constrained, if_pos rfl]
  rcases remember_cases env scope memory now s.tables with ⟨current, hrow, hsame, -⟩ | ⟨-, heq⟩
  · exact absurd ⟨current, hrow, hsame⟩ hnew
  · rw [heq]
    rfl

/-- After a write that is kept by both, equal answers mean that it was written alike. -/
theorem EvalMirrors.alike_of_kept (h : EvalMirrors s) (hexpiry : memory.expiresAt = none)
    (hnew : ¬ Duplicate s.tables scope memory) {kind : MemoryType}
    (hanswers : ((s.eval.remember scope memory memoryType).1.getCurrent scope memory.key).map
        EvalItem.evalView
      = (getCurrent scope memory.key now
        (remember env scope { memory with memoryType := kind } now s.tables).1).map
          fun row => (rowToItem env row).evalView) :
    scope.nameSpace ≠ "" ∧ NamesSource scope memory := by
  have hnative := @EvalMirrors.nativeCurrent_written env s scope
    { memory with memoryType := kind } now h hexpiry hnew
  rw [h.evalCurrent_written hexpiry hnew, hnative] at hanswers
  have hview := Option.some.inj hanswers
  refine ⟨fun hblank => ?_, namesSource_iff.mpr (congrArg EvalView.sourceAgentId hview)⟩
  have hspace : scope.nameSpace = textOr scope.nameSpace "preferences" :=
    congrArg EvalView.nameSpace hview
  rw [hblank] at hspace
  exact absurd hspace (by decide)

/-- A write that only one of the providers accepts shows in the answers that follow it. -/
theorem EvalMirrors.alike_of_answers (h : EvalMirrors s) {call : EvalCall}
    (hanswers : ∀ t, evalStep env s call = some t → AnswersMatch env t) : WritesAlike s call := by
  cases call with
  | remember scope memory memoryType now hexpiry =>
      have hcurrent := (hanswers _ rfl).current scope memory.key now memory.keyStripped
      by_cases hnew : Duplicate s.tables scope memory
      · exact Or.inl hnew
      · refine Or.inr ?_
        cases hkind : MemoryType.parse memoryType with
        | some kind =>
            refine ⟨rfl, @EvalMirrors.alike_of_kept env s scope memory memoryType now h hexpiry hnew
              kind ?_⟩
            simpa only [nativeRemember, hkind] using hcurrent
        | none =>
            exfalso
            have hrows : (nativeRemember env scope memory memoryType now s.tables).1.rows
                = s.tables.rows := by
              unfold nativeRemember
              rw [hkind]
              dsimp only
              split
              · split <;> rfl
              · rfl
            have hsame : getCurrent scope memory.key now
                (nativeRemember env scope memory memoryType now s.tables).1
                = getCurrent scope memory.key now s.tables := by
              unfold getCurrent
              rw [hrows]
            rw [hsame, h.evalCurrent_written hexpiry hnew, h.current_view memory.keyStripped]
              at hcurrent
            obtain ⟨m, hm, hview⟩ := Option.map_eq_some_iff.mp hcurrent.symm
            refine hnew ((duplicate_iff h.unending hexpiry).mpr ?_)
            unfold MemoryTable.repeats
            rw [hm]
            exact decide_eq_true (congrArg EvalView.content hview)
  | forget scope key now htrimmed => trivial
  | getCurrent scope key now htrimmed => trivial

theorem evalMirrors_empty : EvalMirrors {} where
  same := rfl
  numbered := ⟨List.nodup_nil, fun _ hitem => absurd hitem List.not_mem_nil⟩
  constrained := {
    ids := List.Pairwise.nil
    sequence := fun _ hrow => absurd hrow List.not_mem_nil
    unique := List.nodup_nil
    agent := fun _ hrow => absurd hrow List.not_mem_nil
    users := List.nodup_nil
    keys := fun _ hentry => absurd hentry List.not_mem_nil }
  unending _ hrow := absurd hrow List.not_mem_nil
  wellFormed _ hm := absurd hm List.not_mem_nil

end EvalMirrors

/-- The providers give the same answers in every state of a run exactly when every write of the
run is one that both keep alike. Such writes keep the items and the rows in step, place for
place, and any other write shows in the `get_current` that follows it. -/
theorem eval_mirrors_native_iff (env : FloatEnv) (calls : List EvalCall) :
    (∀ before after s, calls = before ++ after → Runs.run (evalStep env) {} before = some s →
      AnswersMatch env s)
      ↔ Runs.Meets (evalStep env) WritesAlike {} calls :=
  Runs.states_iff_meets (I := EvalMirrors) (fun _ h => h.answersMatch env)
    (fun _ _ _ h halike hstep => evalStep_mirrors h halike hstep)
    (fun _ _ h hanswers => h.alike_of_answers hanswers) evalMirrors_empty

/-! ## A write that leaves its agent to the scope -/

/-- A preference that agent `agent-a` saves. -/
def agentScope : MemoryScope where
  userId := "reader"
  agentId := some "agent-a"
  userStripped := by decide
  user := by decide
  agent := fun _ => rfl

def unnamedWrite : List EvalCall := [.remember agentScope (cityMemory none) "semantic" 0 rfl]

theorem source_agent_differs :
    ∃ s, Runs.run (evalStep exactFloats) {} unnamedWrite = some s ∧ ¬ AnswersMatch exactFloats s
      ∧ (s.eval.getCurrent agentScope "city").map (EvalView.sourceAgentId ∘ EvalItem.evalView)
        = some none
      ∧ (getCurrent agentScope "city" 1 s.tables).map (fun row =>
          (rowToItem exactFloats row).sourceAgentId) = some (some "agent-a") := by
  refine ⟨_, rfl, fun hanswers => ?_, by decide +kernel, by decide +kernel⟩
  have hcurrent := hanswers.current agentScope "city" 1 city_stripped
  have hsource := congrArg (Option.map EvalView.sourceAgentId) hcurrent
  exact absurd hsource (by decide +kernel)

end Aegora
