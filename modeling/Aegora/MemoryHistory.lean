import Aegora.MemoryMigration
import Aegora.MemoryTransactions

/-!
# The history of a memory

However the transactions of the provider interleave, an identity has at most
one active row, the rows that replace one another form chains with versions one
apart, and each change of a row's status is committed with one record of it.

A row changes its status only while it is active and locked, and only once:
`Retired` says what the change keeps. A new version is inserted by the
transaction that has retired its predecessor, so nobody else can succeed the
same row. `MemoryCommits` collects what is known of a commit from its locks.
-/

namespace Aegora

open Py Transactions

/-! ## What is kept -/

/-- `new` is the version after `old`. -/
structure Succeeds (old new : MemoryRow) : Prop where
  identity : old.identity = new.identity
  status : old.status = .superseded
  version : new.version = old.version + 1

structure MemoryHistory (rows : List MemoryRow) : Prop where
  ids : (rows.map MemoryRow.id).Nodup
  oneActive : ∀ a ∈ rows, ∀ b ∈ rows, a.active = true → b.active = true →
    a.identity = b.identity → a = b
  supersedes : ∀ row ∈ rows, ∀ id, row.supersedesId = some id →
    ∃ old ∈ rows, old.id = id ∧ Succeeds old row
  once : ∀ a ∈ rows, ∀ b ∈ rows, ∀ id, a.supersedesId = some id → b.supersedesId = some id → a = b

/-- The type of the record that the status of a row calls for. -/
def MemoryRow.eventType (row : MemoryRow) : MemoryEventType :=
  match row.status with
  | .active => if row.supersedesId = none then .created else .updated
  | .superseded => .superseded
  | .deleted => .forgotten
  | .expired => .expired

structure MemoryEvent.Records (event : MemoryEvent) (row : MemoryRow) : Prop where
  memoryId : event.memoryId = row.id
  tenantId : event.tenantId = row.tenantId
  subjectUserId : event.subjectUserId = row.subjectUserId
  nameSpace : event.nameSpace = row.nameSpace
  key : event.key = row.key
  eventType : event.eventType = row.eventType

/-- The status of a row, if it is there. -/
def MemoryDb.status? (db : MemoryDb) (id : Nat) : Option RowStatus :=
  (find MemoryRow.id db.tables.rows id).map MemoryRow.status

/-- No row is gone, and each row with another status than before has one record among the
new ones, which matches it. -/
def Recorded (db db' : MemoryDb) : Prop :=
  ∃ new, db'.events = db.events ++ new
    ∧ (∀ row ∈ db.tables.rows, ∃ row' ∈ db'.tables.rows, row'.id = row.id)
    ∧ ∀ row ∈ db'.tables.rows, db.status? row.id ≠ some row.status →
      ∃ event, new.filter (fun event => event.memoryId = row.id) = [event] ∧ event.Records row

/-- Tables with a history. -/
structure HistoryStore where
  db : MemoryDb
  history : MemoryHistory db.tables.rows
  sequence : ∀ row ∈ db.tables.rows, row.id < db.tables.nextId

/-! ## Retiring and inserting -/

/-- A row that was active, and what a change of its status leaves. -/
structure Retired (old new : MemoryRow) : Prop where
  id : new.id = old.id
  identity : new.identity = old.identity
  version : new.version = old.version
  supersedesId : new.supersedesId = old.supersedesId
  before : old.active = true
  after : new.active = false

section Histories

variable {rows new : List MemoryRow} {old row : MemoryRow}

theorem retired_supersede (now : Time) (h : old.active = true) : Retired old (old.supersede now) :=
  ⟨rfl, rfl, rfl, rfl, h, rfl⟩

theorem retired_delete (now : Time) (h : old.active = true) : Retired old (old.delete now) :=
  ⟨rfl, rfl, rfl, rfl, h, rfl⟩

theorem retired_expire (now : Time) (h : old.active = true) : Retired old (old.expire now) :=
  ⟨rfl, rfl, rfl, rfl, h, rfl⟩

theorem MemoryHistory.same_id (h : MemoryHistory rows) {a b : MemoryRow} (ha : a ∈ rows)
    (hb : b ∈ rows) (hid : a.id = b.id) : a = b :=
  List.inj_on_of_nodup_map h.ids ha hb hid

/-- An active row has no successor. -/
theorem MemoryHistory.no_successor (h : MemoryHistory rows) (hold : old ∈ rows)
    (hactive : old.active = true) : ∀ row ∈ rows, row.supersedesId ≠ some old.id := by
  intro row hrow hid
  obtain ⟨other, hother, hsame, hsucceeds⟩ := h.supersedes row hrow old.id hid
  rw [h.same_id hother hold hsame] at hsucceeds
  have hstatus := of_decide_eq_true hactive
  rw [hsucceeds.status] at hstatus
  cases hstatus

theorem MemoryHistory.retire (h : MemoryHistory rows) (hids : (new.map MemoryRow.id).Nodup)
    (hnew : ∀ row ∈ new, ∃ old ∈ rows, Retired old row) :
    MemoryHistory (putAll MemoryRow.id rows new) := by
  have hafter : ((putAll MemoryRow.id rows new).map MemoryRow.id).Nodup := nodup_putAll h.ids
  have horigin : ∀ row ∈ putAll MemoryRow.id rows new, ∃ old ∈ rows, row.id = old.id
      ∧ row.identity = old.identity ∧ row.version = old.version
      ∧ row.supersedesId = old.supersedesId ∧ (row.active = true → row = old) := by
    intro row hrow
    rcases (mem_putAll hids).mp hrow with hrow | ⟨hrow, -⟩
    · obtain ⟨old, hold, hretired⟩ := hnew row hrow
      refine ⟨old, hold, hretired.id, hretired.identity, hretired.version,
        hretired.supersedesId, fun hactive => ?_⟩
      rw [hretired.after] at hactive
      cases hactive
    · exact ⟨row, hrow, rfl, rfl, rfl, rfl, fun _ => rfl⟩
  refine {
    ids := hafter
    oneActive := ?_
    supersedes := ?_
    once := ?_ }
  · intro a ha b hb hactiveA hactiveB hsame
    obtain ⟨oldA, holdA, -, -, -, -, heqA⟩ := horigin a ha
    obtain ⟨oldB, holdB, -, -, -, -, heqB⟩ := horigin b hb
    rw [← heqA hactiveA] at holdA
    rw [← heqB hactiveB] at holdB
    exact h.oneActive a holdA b holdB hactiveA hactiveB hsame
  · intro row hrow id hid
    obtain ⟨old, hold, -, hidentity, hversion, hsupersedes, -⟩ := horigin row hrow
    rw [hsupersedes] at hid
    obtain ⟨first, hfirst, hfirstId, hsucceeds⟩ := h.supersedes old hold id hid
    refine ⟨first, (mem_putAll hids).mpr (Or.inr ⟨hfirst, fun hmem => ?_⟩), hfirstId,
      hsucceeds.identity.trans hidentity.symm, hsucceeds.status, ?_⟩
    · obtain ⟨other, hother, hotherId⟩ := List.mem_map.mp hmem
      obtain ⟨before, hbefore, hretired⟩ := hnew other hother
      refine h.no_successor hbefore hretired.before old hold ?_
      rw [hid, ← hfirstId, ← hotherId, hretired.id]
    · rw [hversion]
      exact hsucceeds.version
  · intro a ha b hb id hidA hidB
    obtain ⟨oldA, holdA, hA, -, -, hsupersedesA, -⟩ := horigin a ha
    obtain ⟨oldB, holdB, hB, -, -, hsupersedesB, -⟩ := horigin b hb
    rw [hsupersedesA] at hidA
    rw [hsupersedesB] at hidB
    refine List.inj_on_of_nodup_map hafter ha hb ?_
    rw [hA, hB, h.once oldA holdA oldB holdB id hidA hidB]

theorem MemoryHistory.insert (h : MemoryHistory rows) (hid : ∀ old ∈ rows, old.id ≠ row.id)
    (hnone : ∀ old ∈ rows, old.active = true → old.identity ≠ row.identity)
    (hsupersedes : ∀ id, row.supersedesId = some id →
      (∃ old ∈ rows, old.id = id ∧ Succeeds old row)
        ∧ ∀ other ∈ rows, other.supersedesId ≠ some id) :
    MemoryHistory (putAll MemoryRow.id rows [row]) := by
  have hmem : ∀ other, other ∈ putAll MemoryRow.id rows [row] ↔ other = row ∨ other ∈ rows := by
    intro other
    rw [mem_putAll (by simp), List.mem_singleton, List.map_singleton, List.mem_singleton]
    exact or_congr_right (and_iff_left_of_imp (hid other))
  refine {
    ids := nodup_putAll h.ids
    oneActive := ?_
    supersedes := ?_
    once := ?_ }
  · intro a ha b hb hactiveA hactiveB hsame
    rcases (hmem a).mp ha with hA | hA <;> rcases (hmem b).mp hb with hB | hB
    · rw [hA, hB]
    · exact absurd (hsame.symm.trans (by rw [hA])) (hnone b hB hactiveB)
    · exact absurd (hsame.trans (by rw [hB])) (hnone a hA hactiveA)
    · exact h.oneActive a hA b hB hactiveA hactiveB hsame
  · intro other hother id hotherId
    have hold : ∃ old ∈ rows, old.id = id ∧ Succeeds old other := by
      rcases (hmem other).mp hother with rfl | hother
      · exact (hsupersedes id hotherId).1
      · exact h.supersedes other hother id hotherId
    obtain ⟨old, hold, hsucceeds⟩ := hold
    exact ⟨old, (hmem old).mpr (Or.inr hold), hsucceeds⟩
  · intro a ha b hb id hidA hidB
    rcases (hmem a).mp ha with hA | hA <;> rcases (hmem b).mp hb with hB | hB
    · rw [hA, hB]
    · rw [hA] at hidA
      exact absurd hidB ((hsupersedes id hidA).2 b hB)
    · rw [hB] at hidB
      exact absurd hidA ((hsupersedes id hidB).2 a hA)
    · exact h.once a hA b hB id hidA hidB

end Histories

/-! ## What a transaction knows -/

/-- The active row of an identity, which the transaction has locked. -/
structure IsCurrent (rows : List MemoryRow) (identity : MemoryIdentity) (row : MemoryRow) :
    Prop where
  mem : row ∈ rows
  active : row.active = true
  identity : row.identity = identity

/-- The row that is about to be committed as the next version after `current`. -/
structure IsInserted (env : EventEnv) (t : MemoryTables) (scope : MemoryScope)
    (memory : MemoryWrite) (now : Time) (current : Option MemoryRow) (row : MemoryRow) : Prop where
  values : row = insertedRow env.toFloatEnv scope memory now current row.id
  sequence : row.id < t.nextId
  fresh : ∀ old ∈ t.rows, old.id ≠ row.id
  alone : ∀ old ∈ t.rows, old.active = true → old.identity = row.identity → current = some old

def MemoryTxnOk (env : EventEnv) (t : MemoryTables) : MemoryTxn → Prop
  | .remember scope memory now point =>
      match point with
      | .begun | .selecting _ => True
      | .selected current => ∀ old ∈ current, IsCurrent t.rows (scope.identity memory.key) old
      | .superseded current => IsCurrent t.rows (scope.identity memory.key) current
      | .inserted current row =>
          (∀ old ∈ current, IsCurrent t.rows (scope.identity memory.key) old)
            ∧ IsInserted env t scope memory now current row
  | .forget scope key _ _ _ _ (.deleted row) =>
      IsCurrent t.rows (scope.identity (strip key)) row
  | .expireDue _ _ _ (.expired rows) =>
      (rows.map MemoryRow.id).Nodup ∧ ∀ row ∈ rows, row ∈ t.rows ∧ row.active = true
  | _ => True

/-- What is known of the commit of a transaction with these writes. -/
structure MemoryCommits (t : MemoryTables) (txn : MemoryTxn) (writes : List RecordedWrite) :
    Prop where
  ids : (writes.map (·.1.id)).Nodup
  rowLocks : ∀ write ∈ writes, .row write.1.id ∈ txn.holds
  entryLocks : ∀ write ∈ writes, write.1.active = true → .entry write.1.identity ∈ txn.holds
  sequence : ∀ write ∈ writes, write.1.id < t.nextId
  history : MemoryHistory t.rows →
    MemoryHistory (putAll MemoryRow.id t.rows (writes.map Prod.fst))
  records : ∀ write ∈ writes, write.2.Records write.1

section Kinds

variable {env : EventEnv} {t : MemoryTables} {scope : MemoryScope} {memory : MemoryWrite}
  {now : Time} {current : Option MemoryRow} {row old : MemoryRow}

/-- The columns that a record has in common with its row. -/
theorem IsCurrent.columns {rows : List MemoryRow} {key : String}
    (h : IsCurrent rows (scope.identity key) row) : scope.tenant = row.tenantId
      ∧ scope.userId = row.subjectUserId ∧ scope.nameSpace = row.nameSpace ∧ key = row.key := by
  have hidentity := h.identity
  simp only [MemoryRow.identity, MemoryScope.identity, MemoryIdentity.mk.injEq] at hidentity
  obtain ⟨htenant, huser, -, hspace, -, hkey⟩ := hidentity
  exact ⟨htenant.symm, huser.symm, hspace.symm, hkey.symm⟩

theorem supersededEvent_records {rows : List MemoryRow}
    (h : IsCurrent rows (scope.identity memory.key) old) :
    (supersededEvent scope memory old).Records (old.supersede now) := by
  obtain ⟨htenant, huser, hspace, hkey⟩ := h.columns
  exact ⟨rfl, htenant, huser, hspace, hkey, rfl⟩

theorem insertedEvent_records (h : IsInserted env t scope memory now current row) :
    (insertedEvent env scope memory row).Records row := by
  rw [h.values]
  exact ⟨rfl, rfl, rfl, rfl, rfl, rfl⟩

theorem forgottenEvent_records {rows : List MemoryRow} {key : String}
    {reason sourceTraceId : Option String} {sourceKind : String}
    (h : IsCurrent rows (scope.identity key) row) :
    (forgottenEvent scope key reason sourceTraceId sourceKind row).Records (row.delete now) := by
  obtain ⟨htenant, huser, hspace, hkey⟩ := h.columns
  exact ⟨rfl, htenant, huser, hspace, hkey, rfl⟩

theorem expiredEvent_records : (expiredEvent row).Records (row.expire now) :=
  ⟨rfl, rfl, rfl, rfl, rfl, rfl⟩

theorem IsInserted.identity (h : IsInserted env t scope memory now current row) :
    row.identity = scope.identity memory.key := by
  rw [h.values]
  rfl

theorem IsInserted.supersedesId (h : IsInserted env t scope memory now current row) :
    row.supersedesId = current.map MemoryRow.id := by
  rw [h.values]
  rfl

/-- The first version of an identity. -/
theorem first_history (h : MemoryHistory t.rows)
    (hrow : IsInserted env t scope memory now none row) :
    MemoryHistory (putAll MemoryRow.id t.rows [row]) := by
  refine h.insert hrow.fresh (fun old hold hactive hsame => ?_) fun id hid => ?_
  · cases hrow.alone old hold hactive hsame
  · rw [hrow.supersedesId] at hid
    cases hid

/-- The version after `old`. -/
theorem next_history (h : MemoryHistory t.rows)
    (hold : IsCurrent t.rows (scope.identity memory.key) old)
    (hrow : IsInserted env t scope memory now (some old) row) :
    MemoryHistory (putAll MemoryRow.id t.rows [old.supersede now, row]) := by
  have hids : ([old.supersede now].map MemoryRow.id).Nodup := by simp
  have hretired : MemoryHistory (putAll MemoryRow.id t.rows [old.supersede now]) :=
    h.retire hids fun row hmem => ⟨old, hold.mem, by
      rw [List.mem_singleton.mp hmem]
      exact retired_supersede now hold.active⟩
  have hmem : ∀ other, other ∈ putAll MemoryRow.id t.rows [old.supersede now]
      ↔ other = old.supersede now ∨ (other ∈ t.rows ∧ other.id ≠ old.id) := by
    intro other
    rw [mem_putAll hids, List.mem_singleton, List.map_singleton, List.mem_singleton]
    rfl
  refine hretired.insert (fun other hother => ?_) (fun other hother hactive hsame => ?_)
    fun id hid => ⟨⟨old.supersede now, (hmem _).mpr (Or.inl rfl), ?_, ?_⟩, fun other hother => ?_⟩
  · rcases (hmem other).mp hother with rfl | ⟨hother, -⟩
    · exact hrow.fresh old hold.mem
    · exact hrow.fresh other hother
  · rcases (hmem other).mp hother with rfl | ⟨hother, hid⟩
    · cases hactive
    · cases hrow.alone other hother hactive hsame
      exact hid rfl
  · rw [hrow.supersedesId] at hid
    exact Option.some.inj hid
  · refine ⟨?_, rfl, ?_⟩
    · rw [hrow.identity]
      exact hold.identity
    · rw [hrow.values]
      rfl
  · rw [hrow.supersedesId] at hid
    rw [← hid]
    rcases (hmem other).mp hother with rfl | ⟨hother, -⟩
    · exact h.no_successor hold.mem hold.active old hold.mem
    · exact h.no_successor hold.mem hold.active other hother

theorem inserted_commits (hsequence : ∀ row ∈ t.rows, row.id < t.nextId)
    (h : MemoryTxnOk env t (.remember scope memory now (.inserted current row)))
    {writes : List RecordedWrite}
    (hwrites : (MemoryTxn.remember scope memory now (.inserted current row)).writes env
      = some writes) :
    MemoryCommits t (.remember scope memory now (.inserted current row)) writes := by
  obtain ⟨hcurrent, hrow⟩ := h
  cases hwrites
  have hevent := insertedEvent_records hrow
  cases current with
  | none =>
      refine {
        ids := by simp
        rowLocks := ?_
        entryLocks := ?_
        sequence := ?_
        history := fun h => first_history h hrow
        records := ?_ } <;>
      intro write hwrite <;> rw [List.mem_singleton.mp hwrite]
      · simp [MemoryTxn.holds]
      · simp [MemoryTxn.holds]
      · exact hrow.sequence
      · exact hevent
  | some old =>
      have hold := hcurrent old rfl
      have hcases : ∀ write, write ∈ [(old.supersede now, supersededEvent scope memory old),
          (row, insertedEvent env scope memory row)] →
            write = (old.supersede now, supersededEvent scope memory old)
              ∨ write = (row, insertedEvent env scope memory row) := by simp
      refine {
        ids := ?_
        rowLocks := ?_
        entryLocks := ?_
        sequence := ?_
        history := fun h => next_history h hold hrow
        records := ?_ }
      · exact List.nodup_cons.mpr
          ⟨by simpa [MemoryRow.supersede] using hrow.fresh old hold.mem, by simp⟩
      · intro write hwrite
        rcases hcases write hwrite with rfl | rfl
        · simp [MemoryTxn.holds, MemoryRow.supersede]
        · simp [MemoryTxn.holds]
      · intro write hwrite hactive
        rcases hcases write hwrite with rfl | rfl
        · cases hactive
        · simp [MemoryTxn.holds]
      · intro write hwrite
        rcases hcases write hwrite with rfl | rfl
        · exact hsequence old hold.mem
        · exact hrow.sequence
      · intro write hwrite
        rcases hcases write hwrite with rfl | rfl
        · exact supersededEvent_records hold
        · exact hevent

theorem deleted_commits (hsequence : ∀ row ∈ t.rows, row.id < t.nextId) {key : String}
    {reason sourceTraceId : Option String} {sourceKind : String}
    (h : MemoryTxnOk env t
      (.forget scope key reason sourceTraceId sourceKind now (.deleted row)))
    {writes : List RecordedWrite}
    (hwrites : (MemoryTxn.forget scope key reason sourceTraceId sourceKind now
      (.deleted row)).writes env = some writes) :
    MemoryCommits t (.forget scope key reason sourceTraceId sourceKind now (.deleted row))
      writes := by
  have hrow : IsCurrent t.rows (scope.identity (strip key)) row := h
  cases hwrites
  refine {
    ids := by simp
    rowLocks := ?_
    entryLocks := ?_
    sequence := ?_
    history := fun h => h.retire (by simp) fun new hnew => ⟨row, hrow.mem, ?_⟩
    records := ?_ }
  · intro write hwrite
    rw [List.mem_singleton.mp hwrite]
    simp [MemoryTxn.holds, MemoryRow.delete]
  · intro write hwrite hactive
    rw [List.mem_singleton.mp hwrite] at hactive
    cases hactive
  · intro write hwrite
    rw [List.mem_singleton.mp hwrite]
    exact hsequence row hrow.mem
  · rw [List.mem_singleton.mp hnew]
    exact retired_delete now hrow.active
  · intro write hwrite
    rw [List.mem_singleton.mp hwrite]
    exact forgottenEvent_records hrow

theorem expired_commits (hsequence : ∀ row ∈ t.rows, row.id < t.nextId)
    {tenantId : Option String} {limit : Int} {rows : List MemoryRow}
    (h : MemoryTxnOk env t (.expireDue tenantId limit now (.expired rows)))
    {writes : List RecordedWrite}
    (hwrites : (MemoryTxn.expireDue tenantId limit now (.expired rows)).writes env
      = some writes) :
    MemoryCommits t (.expireDue tenantId limit now (.expired rows)) writes := by
  obtain ⟨hids, hrows⟩ := h
  cases hwrites
  have hfirst : (rows.map fun row => (row.expire now, expiredEvent row)).map Prod.fst
      = rows.map (MemoryRow.expire now) := by
    rw [List.map_map]
    rfl
  have hsame : (rows.map (MemoryRow.expire now)).map MemoryRow.id = rows.map MemoryRow.id := by
    rw [List.map_map]
    rfl
  refine {
    ids := ?_
    rowLocks := ?_
    entryLocks := ?_
    sequence := ?_
    history := fun h => ?_
    records := ?_ }
  · rw [List.map_map]
    exact hids
  · intro write hwrite
    obtain ⟨row, hrow, rfl⟩ := List.mem_map.mp hwrite
    exact List.mem_map.mpr ⟨row, hrow, rfl⟩
  · intro write hwrite hactive
    obtain ⟨row, -, rfl⟩ := List.mem_map.mp hwrite
    cases hactive
  · intro write hwrite
    obtain ⟨row, hrow, rfl⟩ := List.mem_map.mp hwrite
    exact hsequence row (hrows row hrow).1
  · rw [hfirst]
    refine h.retire (by rw [hsame]; exact hids) fun new hnew => ?_
    obtain ⟨row, hrow, rfl⟩ := List.mem_map.mp hnew
    exact ⟨row, (hrows row hrow).1, retired_expire now (hrows row hrow).2⟩
  · intro write hwrite
    obtain ⟨row, -, rfl⟩ := List.mem_map.mp hwrite
    exact expiredEvent_records

end Kinds

/-! ## What a commit does -/

namespace MemoryCommits

variable {env : EventEnv} {db : MemoryDb} {txn other : MemoryTxn} {writes : List RecordedWrite}
  {facts : List (String × Facts)} {row : MemoryRow}

theorem mem_commit (h : MemoryCommits db.tables txn writes) :
    row ∈ (db.commit writes facts).tables.rows ↔ row ∈ writes.map Prod.fst
      ∨ (row ∈ db.tables.rows ∧ row.id ∉ writes.map (·.1.id)) := by
  have hids : ((writes.map Prod.fst).map MemoryRow.id).Nodup := by
    rw [List.map_map]
    exact h.ids
  refine (mem_putAll hids).trans (or_congr_right (and_congr_right fun _ => ?_))
  rw [List.map_map]
  rfl

/-- A row that another transaction has locked stays as it is. -/
theorem stays (h : MemoryCommits db.tables txn writes) (hrow : row ∈ db.tables.rows)
    (hlock : .row row.id ∉ txn.holds) : row ∈ (db.commit writes facts).tables.rows := by
  refine h.mem_commit.mpr (Or.inr ⟨hrow, fun hmem => hlock ?_⟩)
  obtain ⟨write, hwrite, hid⟩ := List.mem_map.mp hmem
  rw [← hid]
  exact h.rowLocks write hwrite

/-- An active row is committed only with its entry in the index. -/
theorem active_before (h : MemoryCommits db.tables txn writes)
    (hrow : row ∈ (db.commit writes facts).tables.rows) (hactive : row.active = true)
    (hlock : .entry row.identity ∉ txn.holds) : row ∈ db.tables.rows := by
  rcases h.mem_commit.mp hrow with hrow | ⟨hrow, -⟩
  · obtain ⟨write, hwrite, rfl⟩ := List.mem_map.mp hrow
    exact absurd (h.entryLocks write hwrite hactive) hlock
  · exact hrow

theorem isCurrent (h : MemoryCommits db.tables txn writes) {identity : MemoryIdentity}
    (hrow : IsCurrent db.tables.rows identity row) (hlock : .row row.id ∉ txn.holds) :
    IsCurrent (db.commit writes facts).tables.rows identity row :=
  ⟨h.stays hrow.mem hlock, hrow.active, hrow.identity⟩

/-- A commit leaves what the other transactions know. -/
theorem others (h : MemoryCommits db.tables txn writes)
    (hapart : ∀ lock ∈ other.holds, lock ∉ txn.holds) (hother : MemoryTxnOk env db.tables other) :
    MemoryTxnOk env (db.commit writes facts).tables other := by
  cases other with
  | remember scope memory now point =>
      cases point with
      | begun => trivial
      | selecting id => trivial
      | selected current =>
          intro old hold
          cases hold
          exact h.isCurrent (hother old rfl) (hapart _ (by simp [MemoryTxn.holds]))
      | superseded current => exact h.isCurrent hother (hapart _ (by simp [MemoryTxn.holds]))
      | inserted current row =>
          obtain ⟨hcurrent, hrow⟩ := hother
          refine ⟨fun old hold => ?_, hrow.values, hrow.sequence, fun old hold hid => ?_,
            fun old hold hactive hsame => ?_⟩
          · cases hold
            exact h.isCurrent (hcurrent old rfl) (hapart _ (by simp [MemoryTxn.holds]))
          · rcases h.mem_commit.mp hold with hold | ⟨hold, -⟩
            · obtain ⟨write, hwrite, rfl⟩ := List.mem_map.mp hold
              have hlock := h.rowLocks write hwrite
              rw [hid] at hlock
              exact hapart (.row row.id) (by simp [MemoryTxn.holds]) hlock
            · exact hrow.fresh old hold hid
          · have hentry := hapart (.entry row.identity) (by simp [MemoryTxn.holds])
            rw [← hsame] at hentry
            exact hrow.alone old (h.active_before hold hactive hentry) hactive hsame
  | forget scope key reason sourceTraceId sourceKind now point =>
      cases point with
      | begun => trivial
      | updating id => trivial
      | deleted row => exact h.isCurrent hother (hapart _ (by simp [MemoryTxn.holds]))
  | expireDue tenantId limit now point =>
      cases point with
      | begun => trivial
      | expired rows =>
          obtain ⟨hids, hrows⟩ := hother
          refine ⟨hids, fun row hrow => ⟨h.stays (hrows row hrow).1 (hapart _ ?_),
            (hrows row hrow).2⟩⟩
          exact List.mem_map.mpr ⟨row, hrow, rfl⟩
  | finished result => trivial

theorem recorded (h : MemoryCommits db.tables txn writes)
    (hids : (db.tables.rows.map MemoryRow.id).Nodup) : Recorded db (db.commit writes facts) := by
  refine ⟨writes.map Prod.snd, rfl, fun row hrow => ?_, fun row hrow hchanged => ?_⟩
  · by_cases hmem : row.id ∈ writes.map (·.1.id)
    · obtain ⟨write, hwrite, hid⟩ := List.mem_map.mp hmem
      exact ⟨write.1, h.mem_commit.mpr (Or.inl (List.mem_map_of_mem hwrite)), hid⟩
    · exact ⟨row, h.mem_commit.mpr (Or.inr ⟨hrow, hmem⟩), rfl⟩
  · rcases h.mem_commit.mp hrow with hrow | ⟨hrow, -⟩
    · obtain ⟨write, hwrite, rfl⟩ := List.mem_map.mp hrow
      have hrecord := h.records write hwrite
      refine ⟨write.2, ?_, hrecord⟩
      have hrecords : writes.map (fun write => write.2.memoryId) = writes.map (·.1.id) :=
        List.map_congr_left fun write hwrite => (h.records write hwrite).memoryId
      have hnodup : ((writes.map Prod.snd).map MemoryEvent.memoryId).Nodup := by
        rw [List.map_map]
        exact hrecords ▸ h.ids
      rw [← hrecord.memoryId]
      exact filter_key hnodup (List.mem_map_of_mem hwrite)
    · refine absurd ?_ hchanged
      unfold MemoryDb.status?
      rw [(find_eq_some hids).mpr ⟨hrow, rfl⟩]
      rfl

end MemoryCommits

/-! ## Statements -/

section Statements

variable {env : EventEnv} {db db' : MemoryDb} {free : MemoryLock → Bool} {unwritten : Nat → Bool}
  {txn txn' : MemoryTxn}

/-- A statement before the commit: it hands out an id at most, takes only free locks and
knows what it needs. -/
structure MemoryProceeds (env : EventEnv) (free : MemoryLock → Bool) (db : MemoryDb)
    (txn : MemoryTxn) (db' : MemoryDb) (txn' : MemoryTxn) : Prop where
  rows : db'.tables.rows = db.tables.rows
  events : db'.events = db.events
  nextId : db.tables.nextId ≤ db'.tables.nextId
  locks : ∀ lock ∈ txn'.holds, lock ∈ txn.holds ∨ free lock = true
  ok : MemoryTxnOk env db'.tables txn'

inductive MemoryAdvances (env : EventEnv) (free : MemoryLock → Bool) (db : MemoryDb)
    (txn : MemoryTxn) : MemoryDb → MemoryTxn → Prop where
  | proceeds {db' : MemoryDb} {txn' : MemoryTxn} (h : MemoryProceeds env free db txn db' txn') :
      MemoryAdvances env free db txn db' txn'
  | commits {writes : List RecordedWrite} (facts : List (String × Facts)) (result : MemoryResult)
      (h : txn.writes env = some writes) :
      MemoryAdvances env free db txn (db.commit writes facts) (.finished result)

/-- A statement that changes nothing. -/
theorem proceeds_same (hlocks : ∀ lock ∈ txn'.holds, lock ∈ txn.holds ∨ free lock = true)
    (hok : MemoryTxnOk env db.tables txn') : MemoryAdvances env free db txn db txn' :=
  .proceeds ⟨rfl, rfl, Nat.le_refl _, hlocks, hok⟩

theorem proceeds_result (result : MemoryResult) :
    MemoryAdvances env free db txn db (.finished result) :=
  proceeds_same (fun _ hlock => absurd hlock List.not_mem_nil) trivial

theorem recheck_isCurrent {identity : MemoryIdentity} {id : Nat} {row : MemoryRow}
    (h : db.recheck identity id = some row) :
    row.id = id ∧ IsCurrent db.tables.rows identity row := by
  obtain ⟨hfound, hcheck⟩ := Option.filter_eq_some_iff.mp h
  obtain ⟨hrow, hid⟩ := find_spec hfound
  rw [Bool.and_eq_true, decide_eq_true_eq] at hcheck
  exact ⟨hid, hrow, hcheck.1, hcheck.2⟩

section Remember

variable {scope : MemoryScope} {memory : MemoryWrite} {now : Time}

/-- The `INSERT`: nobody else is adding a row of the identity, and no other row of it is
active. -/
theorem insert_advances {current : Option MemoryRow}
    (hids : (db.tables.rows.map MemoryRow.id).Nodup)
    (hsequence : ∀ row ∈ db.tables.rows, row.id < db.tables.nextId)
    (hfresh : free (.row db.tables.nextId) = true)
    (hcurrent : ∀ old ∈ current, IsCurrent db.tables.rows (scope.identity memory.key) old)
    (hlocks : ∀ old ∈ current, .row old.id ∈ txn.holds)
    (hnext : insertNext env db free unwritten scope memory now current = some (db', txn')) :
    MemoryAdvances env free db txn db' txn' := by
  unfold insertNext at hnext
  dsimp only at hnext
  split at hnext
  · cases hnext
  · rename_i hentry
    split at hnext
    · split at hnext
      · cases hnext
        exact .proceeds ⟨rfl, rfl, Nat.le_succ _,
          fun _ hlock => absurd hlock List.not_mem_nil, trivial⟩
      · cases hnext
    · rename_i hconflict
      cases hnext
      refine .proceeds ⟨rfl, rfl, Nat.le_succ _, fun lock hlock => ?_, hcurrent, rfl,
        Nat.lt_succ_self _, fun old hold => Nat.ne_of_lt (hsequence old hold),
        fun old hold hactive hsame => ?_⟩
      · rcases List.mem_cons.mp hlock with rfl | hlock
        · have hidentity : free (.entry (scope.identity memory.key)) = true := by
            simpa using hentry
          exact Or.inr hidentity
        · rcases List.mem_cons.mp hlock with rfl | hlock
          · exact Or.inr hfresh
          · obtain ⟨old, hold, rfl⟩ := List.mem_map.mp hlock
            exact Or.inl (hlocks old (Option.mem_toList.mp hold))
      · have hmiss := List.find?_eq_none.mp hconflict old hold
        have hidentity : old.identity = scope.identity memory.key := hsame
        simp only [hactive, hidentity, decide_true, Bool.true_and, Bool.not_eq_true,
          Option.all_eq_false, decide_eq_false_iff_not, Decidable.not_not] at hmiss
        obtain ⟨other, hother, hid⟩ := hmiss
        rw [List.inj_on_of_nodup_map hids hold (hcurrent other hother).mem hid]
        exact hother

theorem remember_advances {point : RememberPoint}
    (hids : (db.tables.rows.map MemoryRow.id).Nodup)
    (hsequence : ∀ row ∈ db.tables.rows, row.id < db.tables.nextId)
    (hfresh : free (.row db.tables.nextId) = true)
    (h : MemoryTxnOk env db.tables (.remember scope memory now point))
    (hnext : rememberNext env db free unwritten scope memory now point = some (db', txn')) :
    MemoryAdvances env free db (.remember scope memory now point) db' txn' := by
  cases point with
  | begun =>
      rw [rememberNext] at hnext
      split at hnext
      · cases hnext
        exact proceeds_same (fun _ hlock => absurd hlock List.not_mem_nil)
          fun _ hold => nomatch hold
      · cases hnext
        exact proceeds_same (fun _ hlock => absurd hlock List.not_mem_nil) trivial
  | selecting id =>
      rw [rememberNext] at hnext
      split at hnext
      · rename_i hfree
        cases hnext
        refine proceeds_same (fun lock hlock => Or.inr ?_) fun old hold =>
          (recheck_isCurrent hold).2
        obtain ⟨old, hold, rfl⟩ := List.mem_map.mp hlock
        rw [(recheck_isCurrent (Option.mem_toList.mp hold)).1]
        exact hfree
      · cases hnext
  | selected current =>
      cases current with
      | none => exact insert_advances hids hsequence hfresh h (fun _ hold => nomatch hold) hnext
      | some current =>
          rw [rememberNext] at hnext
          split at hnext
          · cases hnext
            exact proceeds_result _
          · cases hnext
            exact proceeds_same (fun lock hlock => Or.inl hlock) (h current rfl)
  | superseded current =>
      refine insert_advances hids hsequence hfresh (fun old hold => ?_) (fun old hold => ?_) hnext
      · cases hold
        exact h
      · cases hold
        exact List.mem_singleton.mpr rfl
  | inserted current row =>
      cases hnext
      exact .commits _ _ rfl

end Remember

theorem forget_advances {scope : MemoryScope} {key : String}
    {reason sourceTraceId : Option String} {sourceKind : String} {now : Time} {point : ForgetPoint}
    (hnext : forgetNext env db free scope key reason sourceTraceId sourceKind now point
      = some (db', txn')) :
    MemoryAdvances env free db (.forget scope key reason sourceTraceId sourceKind now point) db'
      txn' := by
  cases point with
  | begun =>
      rw [forgetNext] at hnext
      split at hnext
      · cases hnext
        exact proceeds_result _
      · split at hnext
        · cases hnext
          exact proceeds_result _
        · cases hnext
          exact proceeds_same (fun _ hlock => absurd hlock List.not_mem_nil) trivial
  | updating id =>
      rw [forgetNext] at hnext
      split at hnext
      · rename_i hfree
        split at hnext
        · cases hnext
          exact proceeds_result _
        · rename_i row hrow
          obtain ⟨hid, hcurrent⟩ := recheck_isCurrent hrow
          cases hnext
          refine proceeds_same (fun lock hlock => Or.inr ?_) hcurrent
          rw [List.mem_singleton.mp hlock, hid]
          exact hfree
      · cases hnext
  | deleted row =>
      cases hnext
      exact .commits _ _ rfl

theorem expire_advances (hids : (db.tables.rows.map MemoryRow.id).Nodup)
    {tenantId : Option String} {limit : Int} {now : Time} {point : ExpirePoint}
    (hnext : expireNext env db free tenantId limit now point = some (db', txn')) :
    MemoryAdvances env free db (.expireDue tenantId limit now point) db' txn' := by
  cases point with
  | begun =>
      cases hnext
      set sorted := (db.tables.rows.filter (MemoryRow.due tenantId now)).insertionSort
        (dueBefore · ·) with hsorted
      have hperm : sorted.Perm (db.tables.rows.filter (MemoryRow.due tenantId now)) :=
        List.perm_insertionSort _ _
      have hsub : ((sorted.filter fun row => free (.row row.id)).take
          (max 1 limit).toNat).Sublist sorted :=
        (List.take_sublist _ _).trans List.filter_sublist
      refine proceeds_same (fun lock hlock => Or.inr ?_) ⟨?_, fun row hrow => ?_⟩
      · obtain ⟨row, hrow, rfl⟩ := List.mem_map.mp hlock
        exact (List.mem_filter.mp (List.mem_of_mem_take hrow)).2
      · refine List.Nodup.sublist (hsub.map MemoryRow.id) ?_
        rw [(hperm.map MemoryRow.id).nodup_iff]
        exact hids.sublist (List.filter_sublist.map _)
      · obtain ⟨hrow, hdue⟩ := List.mem_filter.mp (hperm.mem_iff.mp (hsub.subset hrow))
        unfold MemoryRow.due at hdue
        rw [Bool.and_eq_true, Bool.and_eq_true] at hdue
        exact ⟨hrow, hdue.1.1⟩
  | expired rows =>
      cases hnext
      exact .commits _ _ rfl

end Statements

/-! ## Runs -/

structure MemoryInv (env : EventEnv) (s : MemoryState) : Prop where
  history : MemoryHistory s.db.tables.rows
  sequence : ∀ row ∈ s.db.tables.rows, row.id < s.db.tables.nextId
  exclusive : Transactions.Exclusive MemoryTxn.holds s.txns
  ok : ∀ (i : Nat) (txn : MemoryTxn), s.txns[i]? = some txn → MemoryTxnOk env s.db.tables txn

section Steps

variable {env : EventEnv} {s s' : MemoryState} {t : MemoryTables} {txn txn' : MemoryTxn}

/-- Only ids that have been handed out are locked. -/
theorem locked_lt (hsequence : ∀ row ∈ t.rows, row.id < t.nextId) (h : MemoryTxnOk env t txn)
    {id : Nat} (hlock : .row id ∈ txn.holds) : id < t.nextId := by
  unfold MemoryTxn.holds at hlock
  split at hlock
  · obtain ⟨old, hold, hid⟩ := List.mem_map.mp hlock
    cases hid
    exact hsequence old (h old (Option.mem_toList.mp hold)).mem
  · cases List.mem_singleton.mp hlock
    exact hsequence _ h.mem
  · obtain ⟨hcurrent, hrow⟩ := h
    rcases List.mem_cons.mp hlock with hlock | hlock
    · cases hlock
    · rcases List.mem_cons.mp hlock with hlock | hlock
      · cases hlock
        exact hrow.sequence
      · obtain ⟨old, hold, hid⟩ := List.mem_map.mp hlock
        cases hid
        exact hsequence old (hcurrent old (Option.mem_toList.mp hold)).mem
  · cases List.mem_singleton.mp hlock
    exact hsequence _ h.mem
  · obtain ⟨row, hrow, hid⟩ := List.mem_map.mp hlock
    cases hid
    exact hsequence row (h.2 row hrow).1
  · cases hlock

/-- What a transaction knows does not depend on the sequence. -/
theorem MemoryTxnOk.later (h : MemoryTxnOk env t txn) {t' : MemoryTables} (hrows : t'.rows = t.rows)
    (hnext : t.nextId ≤ t'.nextId) : MemoryTxnOk env t' txn := by
  obtain ⟨rows, facts, nextId⟩ := t'
  cases hrows
  cases txn with
  | remember scope memory now point =>
      cases point with
      | begun => trivial
      | selecting id => trivial
      | selected current => exact h
      | superseded current => exact h
      | inserted current row =>
          obtain ⟨hcurrent, hrow⟩ := h
          exact ⟨hcurrent, hrow.values, Nat.lt_of_lt_of_le hrow.sequence hnext, hrow.fresh,
            hrow.alone⟩
  | forget scope key reason sourceTraceId sourceKind now point => cases point <;> exact h
  | expireDue tenantId limit now point => cases point <;> exact h
  | finished result => trivial

theorem MemoryInv.commits (h : MemoryInv env s) {i : Nat} {writes : List RecordedWrite}
    (htxn : s.txns[i]? = some txn) (hwrites : txn.writes env = some writes) :
    MemoryCommits s.db.tables txn writes := by
  have hok := h.ok i txn htxn
  unfold MemoryTxn.writes at hwrites
  split at hwrites
  · exact inserted_commits h.sequence hok hwrites
  · exact deleted_commits h.sequence hok hwrites
  · exact expired_commits h.sequence hok hwrites
  · cases hwrites

theorem MemoryInv.commit (h : MemoryInv env s) {i : Nat} {writes : List RecordedWrite}
    (htxn : s.txns[i]? = some txn) (hwrites : txn.writes env = some writes)
    (facts : List (String × Facts)) (result : MemoryResult) :
    MemoryInv env ⟨s.db.commit writes facts, s.txns.set i (.finished result)⟩ := by
  have hcommits := h.commits htxn hwrites
  refine {
    history := hcommits.history h.history
    sequence := fun row hrow => ?_
    exclusive := h.exclusive.set htxn fun _ hlock => absurd hlock List.not_mem_nil
    ok := fun j other hother => ?_ }
  · rcases hcommits.mem_commit.mp hrow with hrow | ⟨hrow, -⟩
    · obtain ⟨write, hwrite, rfl⟩ := List.mem_map.mp hrow
      exact hcommits.sequence write hwrite
    · exact h.sequence row hrow
  · rcases (Runs.getElem?_set_iff htxn).mp hother with ⟨-, rfl⟩ | ⟨hj, hother⟩
    · trivial
    · exact hcommits.others
        (fun lock hlock => h.exclusive j i other txn lock hj hother htxn hlock)
        (h.ok j other hother)

theorem MemoryInv.proceed (h : MemoryInv env s) {i : Nat} {db' : MemoryDb}
    (htxn : s.txns[i]? = some txn)
    (hproceeds : MemoryProceeds env (Transactions.free MemoryTxn.holds s.txns i) s.db txn db'
      txn') : MemoryInv env ⟨db', s.txns.set i txn'⟩ := by
  refine {
    history := by rw [hproceeds.rows]; exact h.history
    sequence := fun row hrow => ?_
    exclusive := h.exclusive.set htxn hproceeds.locks
    ok := fun j other hother => ?_ }
  · rw [hproceeds.rows] at hrow
    exact Nat.lt_of_lt_of_le (h.sequence row hrow) hproceeds.nextId
  · rcases (Runs.getElem?_set_iff htxn).mp hother with ⟨-, rfl⟩ | ⟨-, hother⟩
    · exact hproceeds.ok
    · exact (h.ok j other hother).later hproceeds.rows hproceeds.nextId

/-- One statement of one transaction. -/
theorem MemoryInv.advances (h : MemoryInv env s) {i : Nat} {db' : MemoryDb}
    {unwritten : Nat → Bool} (htxn : s.txns[i]? = some txn)
    (hnext : txn.next env s.db (Transactions.free MemoryTxn.holds s.txns i) unwritten
      = some (db', txn')) :
    MemoryAdvances env (Transactions.free MemoryTxn.holds s.txns i) s.db txn db' txn' := by
  have hfresh : Transactions.free MemoryTxn.holds s.txns i (.row s.db.tables.nextId) = true :=
    free_iff.mpr fun j other _ hother hlock =>
      Nat.lt_irrefl _ (locked_lt h.sequence (h.ok j other hother) hlock)
  cases txn with
  | remember scope memory now point =>
      exact remember_advances h.history.ids h.sequence hfresh (h.ok i _ htxn) hnext
  | forget scope key reason sourceTraceId sourceKind now point => exact forget_advances hnext
  | expireDue tenantId limit now point => exact expire_advances h.history.ids hnext
  | finished result => cases hnext

theorem recorded_same {db db' : MemoryDb} (hids : (db.tables.rows.map MemoryRow.id).Nodup)
    (hrows : db'.tables.rows = db.tables.rows) (hevents : db'.events = db.events) :
    Recorded db db' := by
  refine ⟨[], by rw [hevents, List.append_nil], fun row hrow => ⟨row, hrows ▸ hrow, rfl⟩,
    fun row hrow hchanged => absurd ?_ hchanged⟩
  rw [hrows] at hrow
  unfold MemoryDb.status?
  rw [(find_eq_some hids).mpr ⟨hrow, rfl⟩]
  rfl

theorem memoryTxnStep_inv (h : MemoryInv env s) {action : MemoryAction}
    (hstep : memoryTxnStep env s action = some s') : MemoryInv env s' ∧ Recorded s.db s'.db := by
  cases action with
  | call request =>
      cases hstep
      have hnothing : request.txn.holds = [] := by cases request <;> rfl
      refine ⟨{ h with
        exclusive := h.exclusive.snoc hnothing
        ok := fun j other hother => ?_ }, recorded_same h.history.ids rfl rfl⟩
      rcases Runs.getElem?_snoc_iff.mp hother with ⟨-, rfl⟩ | hother
      · cases request <;> trivial
      · exact h.ok j other hother
  | next i =>
      obtain ⟨txn, htxn, hstep⟩ := Option.bind_eq_some_iff.mp hstep
      obtain ⟨⟨db', txn'⟩, hnext, hstep⟩ := Option.bind_eq_some_iff.mp hstep
      cases hstep
      rcases h.advances htxn hnext with hproceeds | ⟨facts, result, hwrites⟩
      · exact ⟨h.proceed htxn hproceeds,
          recorded_same h.history.ids hproceeds.rows hproceeds.events⟩
      · exact ⟨h.commit htxn hwrites facts result,
          (h.commits htxn hwrites).recorded h.history.ids⟩
  | lose i =>
      obtain ⟨txn, htxn, hstep⟩ := Option.bind_eq_some_iff.mp hstep
      cases hstep
      refine ⟨h.proceed htxn ⟨rfl, rfl, Nat.le_refl _, ?_, trivial⟩,
        recorded_same h.history.ids rfl rfl⟩
      exact fun _ hlock => absurd hlock List.not_mem_nil

theorem HistoryStore.inv (start : HistoryStore) : MemoryInv env ⟨start.db, []⟩ where
  history := start.history
  sequence := start.sequence
  exclusive := exclusive_nil
  ok _ _ htxn := nomatch htxn

end Steps

/-- The rows keep their history in every run, and each of its steps records the changes of
status that it makes visible. Only a commit changes the tables, and its locks tell that nobody
else has touched the rows it retires. -/
theorem memory_history_kept (env : EventEnv) (start : HistoryStore) (actions : List MemoryAction)
    (s : MemoryState) (hrun : Runs.run (memoryTxnStep env) ⟨start.db, []⟩ actions = some s) :
    MemoryHistory s.db.tables.rows
      ∧ ∀ action s', memoryTxnStep env s action = some s' → Recorded s.db s'.db := by
  have hinv : MemoryInv env s :=
    Runs.run_invariant' (fun _ _ _ ht hstep => (memoryTxnStep_inv ht hstep).1) start.inv hrun
  exact ⟨hinv.history, fun action s' hstep => (memoryTxnStep_inv hinv hstep).2⟩

def exactEvents : EventEnv where
  toFloatEnv := exactFloats
  isoformat time := toString time

def emptyHistory : HistoryStore where
  db := {}
  history := ⟨List.nodup_nil, fun _ ha => (nomatch ha), fun _ hrow => (nomatch hrow),
    fun _ ha => (nomatch ha)⟩
  sequence := fun _ hrow => nomatch hrow

/-- A memory is written, replaced by one that ends, and swept. -/
theorem memory_history_kept_swept :
    ∃ s, Runs.run (memoryTxnStep exactEvents) ⟨emptyHistory.db, []⟩
        (.call (.remember (preferences "acme") (cityMemory none) 1) :: List.replicate 3 (.next 0)
          ++ .call (.remember (preferences "acme") (cityMemory (some 5)) 2)
            :: List.replicate 5 (.next 1)
          ++ .call (.expireDue none 500 6) :: List.replicate 2 (.next 2)) = some s
      ∧ MemoryHistory s.db.tables.rows
      ∧ ∀ action s', memoryTxnStep exactEvents s action = some s' → Recorded s.db s'.db := by
  have hsome : (Runs.run (memoryTxnStep exactEvents) ⟨emptyHistory.db, []⟩
      (.call (.remember (preferences "acme") (cityMemory none) 1) :: List.replicate 3 (.next 0)
        ++ .call (.remember (preferences "acme") (cityMemory (some 5)) 2)
          :: List.replicate 5 (.next 1)
        ++ .call (.expireDue none 500 6) :: List.replicate 2 (.next 2))).isSome := by
    decide +kernel
  obtain ⟨s, hs⟩ := Option.isSome_iff_exists.mp hsome
  exact ⟨s, hs, memory_history_kept exactEvents emptyHistory _ s hs⟩

end Aegora
