import Mathlib.Data.Prod.Lex
import Aegora.MemoryMigration
import Aegora.OrderedQuery

/-!
# What one tenant sees of the others

The rows of `memory_items` belong to one tenant each, and an operation of a
tenant reads and writes only its rows. Two things connect the tenants. The
facts of `user_memories` belong to a user alone, and the backfill turns them
into rows of the default tenant. And the limit of a sweep counts the due rows
of all tenants. `own` follows what the facts would be if only the default
tenant had written them; a run in which neither shows (`KeepsApart`) gives a
tenant what any other such run with the same operations of that tenant does,
up to the numbers that the tables hand out.
-/

namespace Aegora

open Py Runs

/-! ## Runs over several tenants -/

/-- The tables, and the facts that the operations of the default tenant alone
leave. -/
structure TenantState where
  tables : MemoryTables
  own : List (String × Facts)

def MemoryStore.shared (store : MemoryStore) : TenantState := ⟨store.tables, store.tables.facts⟩

/-- The tenant an operation is for, none where it is for all. -/
def MemoryOp.tenant : MemoryOp → Option String
  | .remember scope _ _ => some scope.tenant
  | .forget scope _ _ => some scope.tenant
  | .expireDue tenantId _ _ => tenantId
  | .migrate _ => none

/-- The operation is performed for the tenant, alone or among all. -/
def MemoryOp.reaches (tenantId : String) (op : MemoryOp) : Bool :=
  op.tenant.all fun tenant => decide (tenant = tenantId)

def tenantStep (env : FloatEnv) (s : TenantState) (op : MemoryOp) : Option TenantState :=
  some
    { tables := applyOp env s.tables op
      own := if op.reaches "default" then (applyOp env { s.tables with facts := s.own } op).facts
        else s.own }

/-- The facts that the backfill finds no active row for. -/
def missingFacts (t : MemoryTables) : List (String × String × String) :=
  (allFacts t).filter fun fact => lacksRow t fact.1 fact.2.1

/-- A sweep of all tenants still takes the rows of this one that it would take
of this one alone, and the facts that a backfill turns into rows of the default
tenant are the ones this tenant has left itself. -/
def KeepsApart (tenantId : String) (s : TenantState) : MemoryOp → Prop
  | .expireDue none limit now =>
      ∀ row ∈ dueRows (some tenantId) limit now s.tables, row ∈ dueRows none limit now s.tables
  | .migrate _ =>
      tenantId = "default" → missingFacts s.tables = missingFacts { s.tables with facts := s.own }
  | _ => True

instance (tenantId : String) (s : TenantState) : ∀ op, Decidable (KeepsApart tenantId s op)
  | .expireDue none limit now =>
      inferInstanceAs (Decidable (∀ row ∈ dueRows (some tenantId) limit now s.tables,
        row ∈ dueRows none limit now s.tables))
  | .migrate _ =>
      inferInstanceAs (Decidable (tenantId = "default" →
        missingFacts s.tables = missingFacts { s.tables with facts := s.own }))
  | .expireDue (some _) _ _ => isTrue trivial
  | .remember _ _ _ => isTrue trivial
  | .forget _ _ _ => isTrue trivial

/-! ## The rows of a tenant -/

/-- The columns of a row without the numbers of the sequence. -/
def MemoryRow.erase (row : MemoryRow) : MemoryRow := { row with id := 0, supersedesId := none }

def ofTenant (tenantId : String) (rows : List MemoryRow) : List MemoryRow :=
  rows.filter fun row => row.tenantId = tenantId

/-- The rows of a tenant, up to the numbers of the sequence. -/
def slice (tenantId : String) (rows : List MemoryRow) : List MemoryRow :=
  (ofTenant tenantId rows).map MemoryRow.erase

section Slices

variable {env : FloatEnv} {tenantId : String} {rows : List MemoryRow} {t t' : MemoryTables}
  {identity : MemoryIdentity} {row : MemoryRow} {scope : MemoryScope} {memory : MemoryWrite}
  {now : Time}

theorem mem_ofTenant : row ∈ ofTenant tenantId rows ↔ row ∈ rows ∧ row.tenantId = tenantId := by
  unfold ofTenant
  rw [List.mem_filter, decide_eq_true_eq]

theorem slice_append (new : List MemoryRow) :
    slice tenantId (rows ++ new) = slice tenantId rows ++ slice tenantId new := by
  simp [slice, ofTenant]

theorem slice_foreign (h : ∀ row ∈ rows, row.tenantId ≠ tenantId) : slice tenantId rows = [] := by
  unfold slice ofTenant
  rw [List.filter_eq_nil_iff.mpr fun row hrow => by simpa using h row hrow, List.map_nil]

theorem ofTenant_retire {p : MemoryRow → Bool} {out : MemoryRow → MemoryRow}
    (hout : Retires out) : ofTenant tenantId (VersionedTable.retire p out rows)
      = VersionedTable.retire p out (ofTenant tenantId rows) := by
  have htenant : ∀ row, (out row).tenantId = row.tenantId := fun row =>
    congrArg MemoryIdentity.tenantId (hout.identity row)
  unfold ofTenant VersionedTable.retire
  rw [List.filter_map]
  congr 1
  refine List.filter_congr fun row _ => ?_
  rw [Function.comp_apply]
  split <;> simp [htenant]

/-- Rows that are selected by what is not a number are retired in the slice. -/
theorem slice_retire {p q : MemoryRow → Bool} {out : MemoryRow → MemoryRow} (hout : Retires out)
    (herase : ∀ row, (out row).erase = out row.erase)
    (hp : ∀ row ∈ rows, row.tenantId = tenantId → p row = q row.erase) :
    slice tenantId (VersionedTable.retire p out rows)
      = VersionedTable.retire q out (slice tenantId rows) := by
  unfold slice
  rw [ofTenant_retire hout]
  unfold VersionedTable.retire
  rw [List.map_map, List.map_map]
  refine List.map_congr_left fun row hrow => ?_
  obtain ⟨hrow, htenant⟩ := mem_ofTenant.mp hrow
  rw [Function.comp_apply, Function.comp_apply, hp row hrow htenant]
  split
  · exact herase row
  · rfl

/-- Retiring rows of other tenants leaves the slice. -/
theorem slice_retire_foreign {p : MemoryRow → Bool} {out : MemoryRow → MemoryRow}
    (hout : Retires out) (hp : ∀ row ∈ rows, row.tenantId = tenantId → p row = false) :
    slice tenantId (VersionedTable.retire p out rows) = slice tenantId rows := by
  unfold slice
  rw [ofTenant_retire hout]
  refine congrArg _ (VersionedTable.retire_eq_self fun row hrow => ?_)
  obtain ⟨hrow, htenant⟩ := mem_ofTenant.mp hrow
  exact hp row hrow htenant

/-- The active row of one of the tenant's identities, up to the numbers. -/
theorem current_slice (h : identity.tenantId = tenantId) :
    (t.current identity).map MemoryRow.erase
      = VersionedTable.current MemoryRow.identity MemoryRow.active (slice tenantId t.rows)
        identity := by
  unfold MemoryTables.current VersionedTable.current slice ofTenant
  rw [List.find?_map, List.find?_filter]
  congr 2
  funext row
  rw [Function.comp_apply]
  by_cases hid : row.identity = identity
  · have htenant : row.tenantId = tenantId := by rw [← h, ← hid]; rfl
    simp [htenant, MemoryRow.erase, MemoryRow.active, MemoryRow.identity]
  · have herase : row.erase.identity ≠ identity := hid
    simp [hid, herase]

/-! ### Operations of other tenants -/

theorem remember_foreign (h : Constrained t) (hforeign : scope.tenant ≠ tenantId) :
    slice tenantId (remember env scope memory now t).1.rows = slice tenantId t.rows := by
  rcases remember_cases env scope memory now t with ⟨_, -, -, heq⟩ | ⟨-, heq⟩
  · rw [heq]
  · have hinserted : slice tenantId
        [(insertVersion env scope memory now (t.current (scope.identity memory.key)) t).2] = [] :=
      slice_foreign fun row hrow => by
        rw [List.mem_singleton.mp hrow]
        exact hforeign
    rw [heq, insertVersion_rows, slice_append, hinserted, List.append_nil]
    refine slice_retire_foreign (retires_supersede now) fun row hrow htenant => ?_
    simp only [Option.any_eq_false, decide_eq_false_iff_not]
    intro old hold hid
    obtain ⟨hmem, hidentity, -⟩ := current_spec hold
    rw [← h.same_id hrow hmem hid] at hidentity
    exact hforeign (htenant.symm.trans (congrArg MemoryIdentity.tenantId hidentity)).symm

theorem forget_foreign {key : String} (hforeign : scope.tenant ≠ tenantId) :
    slice tenantId (forget scope key now t).1.rows = slice tenantId t.rows := by
  unfold forget
  split
  · rfl
  · refine slice_retire_foreign (retires_delete now) fun row _ htenant => ?_
    rw [Bool.and_eq_false_iff, decide_eq_false_iff_not]
    refine Or.inl fun hidentity => hforeign ?_
    exact (htenant.symm.trans (congrArg MemoryIdentity.tenantId hidentity)).symm

theorem expireDue_foreign (h : Constrained t) {other : String} {limit : Int}
    (hforeign : other ≠ tenantId) :
    slice tenantId (expireDue (some other) limit now t).1.rows = slice tenantId t.rows := by
  refine slice_retire_foreign (retires_expire now) fun row hrow htenant => ?_
  rw [decide_eq_false_iff_not]
  intro hid
  obtain ⟨due, hdue, hsame⟩ := List.mem_map.mp hid
  obtain ⟨hmem, hover⟩ := mem_dueRows hdue
  rw [h.same_id hmem hrow hsame] at hover
  simp only [MemoryRow.due, Option.all_some, Bool.and_eq_true, decide_eq_true_eq] at hover
  exact hforeign (hover.2.symm.trans htenant)

theorem applyOp_foreign (h : Constrained t) {op : MemoryOp} (hop : op.reaches tenantId = false) :
    slice tenantId (applyOp env t op).rows = slice tenantId t.rows := by
  unfold MemoryOp.reaches MemoryOp.tenant at hop
  cases op with
  | remember scope memory now => exact remember_foreign h (by simpa using hop)
  | forget scope key now =>
      simp only [applyOp]
      exact forget_foreign (by simpa using hop)
  | expireDue other limit now =>
      cases other with
      | none => simp at hop
      | some other => exact expireDue_foreign h (by simpa using hop)
  | migrate now => simp at hop

/-! ### Operations of the tenant -/

theorem current_alike (hslice : slice tenantId t.rows = slice tenantId t'.rows)
    (identity : MemoryIdentity) (h : identity.tenantId = tenantId) :
    (t.current identity).map MemoryRow.erase = (t'.current identity).map MemoryRow.erase := by
  rw [current_slice h, current_slice h, hslice]

theorem duplicate_alike (hslice : slice tenantId t.rows = slice tenantId t'.rows)
    (htenant : scope.tenant = tenantId) :
    Duplicate t scope memory ↔ Duplicate t' scope memory := by
  have hsame : ∀ u : MemoryTables, Duplicate u scope memory
      ↔ ((u.current (scope.identity memory.key)).map MemoryRow.erase).any (sameMemory memory)
        = true := by
    intro u
    unfold Duplicate
    cases u.current (scope.identity memory.key) <;> simp [sameMemory, MemoryRow.erase]
  rw [hsame, hsame, current_alike hslice _ htenant]

/-- The number of a row only serves to find the current row again. -/
theorem superseded_eq (h : Constrained t) (hrow : row ∈ t.rows) :
    (t.current identity).any (fun old => decide (row.id = old.id))
      = (decide (row.erase.identity = identity) && row.erase.active) := by
  rw [Bool.eq_iff_iff, Option.any_eq_true, Bool.and_eq_true, decide_eq_true_eq]
  constructor
  · rintro ⟨old, hold, hid⟩
    obtain ⟨hmem, hidentity, hactive⟩ := current_spec hold
    rw [h.same_id hrow hmem (of_decide_eq_true hid)]
    exact ⟨hidentity, hactive⟩
  · rintro ⟨hidentity, hactive⟩
    exact ⟨row, h.current_iff.mpr ⟨hrow, hidentity, hactive⟩, decide_eq_true rfl⟩

theorem insertedRow_alike {current current' : Option MemoryRow}
    (h : current.map MemoryRow.erase = current'.map MemoryRow.erase) (id id' : Nat) :
    (insertedRow env scope memory now current id).erase
      = (insertedRow env scope memory now current' id').erase := by
  have hversion : (current.map fun row => row.version + 1)
      = current'.map fun row => row.version + 1 := by
    have hmap := congrArg (Option.map fun row => row.version + 1) h
    rwa [Option.map_map, Option.map_map] at hmap
  simp only [insertedRow, MemoryRow.erase, hversion]

theorem remember_alike (h : Constrained t) (h' : Constrained t')
    (hslice : slice tenantId t.rows = slice tenantId t'.rows) (htenant : scope.tenant = tenantId) :
    slice tenantId (remember env scope memory now t).1.rows
      = slice tenantId (remember env scope memory now t').1.rows := by
  have hsuperseded : ∀ {u : MemoryTables}, Constrained u →
      slice tenantId (supersedeCurrent now u (scope.identity memory.key)).rows
        = VersionedTable.retire
          (fun row => decide (row.identity = scope.identity memory.key) && row.active)
          (MemoryRow.supersede now) (slice tenantId u.rows) := fun hu =>
    slice_retire (retires_supersede now) (fun _ => rfl) fun _ hrow _ => superseded_eq hu hrow
  have hinserted : (insertedRow env scope memory now
        (t.current (scope.identity memory.key)) t.nextId).erase
      = (insertedRow env scope memory now
        (t'.current (scope.identity memory.key)) t'.nextId).erase :=
    insertedRow_alike (current_alike hslice _ htenant) _ _
  rcases remember_cases env scope memory now t with ⟨row, hrow, hsame, heq⟩ | ⟨hnew, heq⟩
  · rcases remember_cases env scope memory now t' with ⟨_, -, -, heq'⟩ | ⟨hnew, -⟩
    · rw [heq, heq']
      exact hslice
    · exact absurd ((duplicate_alike hslice htenant).mp ⟨row, hrow, hsame⟩) hnew
  · rcases remember_cases env scope memory now t' with ⟨row, hrow, hsame, -⟩ | ⟨-, heq'⟩
    · exact absurd ((duplicate_alike hslice htenant).mpr ⟨row, hrow, hsame⟩) hnew
    · rw [heq, heq', insertVersion_rows, insertVersion_rows, slice_append, slice_append,
        hsuperseded h, hsuperseded h', hslice]
      congr 1
      have hsingle : ∀ {new : MemoryRow}, new.tenantId = tenantId →
          slice tenantId [new] = [new.erase] := fun hnew => by simp [slice, ofTenant, hnew]
      rw [hsingle htenant, hsingle htenant]
      exact congrArg (fun row => [row]) hinserted

theorem remember_facts_alike (hslice : slice tenantId t.rows = slice tenantId t'.rows)
    (htenant : scope.tenant = tenantId) (hfacts : t.facts = t'.facts) :
    (remember env scope memory now t).1.facts = (remember env scope memory now t').1.facts := by
  have hspec : ∀ u : MemoryTables, (Duplicate u scope memory
        ∧ (remember env scope memory now u).1.facts = u.facts)
      ∨ (¬ Duplicate u scope memory ∧ (remember env scope memory now u).1.facts
        = if scope.legacy then setFact u.facts scope.userId memory.key memory.value
          else u.facts) := by
    intro u
    rcases remember_cases env scope memory now u with ⟨row, hrow, hsame, heq⟩ | ⟨hnew, heq⟩
    · exact Or.inl ⟨⟨row, hrow, hsame⟩, by rw [heq]⟩
    · exact Or.inr ⟨hnew, by rw [heq]; rfl⟩
  have hiff : Duplicate t scope memory ↔ Duplicate t' scope memory :=
    duplicate_alike hslice htenant
  rcases hspec t with ⟨hdup, heq⟩ | ⟨hdup, heq⟩ <;>
    rcases hspec t' with ⟨hdup', heq'⟩ | ⟨hdup', heq'⟩
  · rw [heq, heq', hfacts]
  · exact absurd (hiff.mp hdup) hdup'
  · exact absurd (hiff.mpr hdup') hdup
  · rw [heq, heq', hfacts]

theorem forget_alike {key : String} (hslice : slice tenantId t.rows = slice tenantId t'.rows) :
    slice tenantId (forget scope key now t).1.rows
      = slice tenantId (forget scope key now t').1.rows := by
  unfold forget
  split
  · exact hslice
  · have hdeleted : ∀ u : MemoryTables, slice tenantId (VersionedTable.retire
          (fun row => decide (row.identity = scope.identity (strip key)) && row.active)
          (MemoryRow.delete now) u.rows)
        = VersionedTable.retire
          (fun row => decide (row.identity = scope.identity (strip key)) && row.active)
          (MemoryRow.delete now) (slice tenantId u.rows) := fun u =>
      slice_retire (retires_delete now) (fun _ => rfl) fun _ _ _ => rfl
    rw [hdeleted, hdeleted, hslice]

theorem forget_facts_alike {key : String}
    (hslice : slice tenantId t.rows = slice tenantId t'.rows) (htenant : scope.tenant = tenantId)
    (hfacts : t.facts = t'.facts) :
    (forget scope key now t).1.facts = (forget scope key now t').1.facts := by
  unfold forget
  split
  · exact hfacts
  · have hsome := congrArg Option.isSome
      (current_alike hslice (scope.identity (strip key)) htenant)
    rw [Option.isSome_map, Option.isSome_map] at hsome
    dsimp only
    rw [hsome, hfacts]

/-! ### Sweeps

The order of a sweep ends on the numbers, so the rows of the two tables are
followed side by side. -/

/-- The rows of the tenant in two tables, side by side. -/
theorem tenantPairs (h : Constrained t) (h' : Constrained t')
    (hslice : slice tenantId t.rows = slice tenantId t'.rows) :
    ∃ z : List (MemoryRow × MemoryRow),
      ofTenant tenantId t.rows = z.map Prod.fst ∧ ofTenant tenantId t'.rows = z.map Prod.snd
        ∧ (∀ x ∈ z, x.1.erase = x.2.erase)
        ∧ ∀ x ∈ z, ∀ y ∈ z, x.1.id ≤ y.1.id ↔ x.2.id ≤ y.2.id := by
  obtain ⟨z, hleft, hright, herase⟩ := OrderedQuery.exists_pairs hslice
  refine ⟨z, hleft, hright, herase, ?_⟩
  have hids : ∀ {u : MemoryTables}, Constrained u →
      (ofTenant tenantId u.rows).Pairwise fun a b => a.id < b.id := fun hu =>
    (List.pairwise_map.mp hu.ids).filter _
  have hfst := hids h
  have hsnd := hids h'
  rw [hleft, List.pairwise_map] at hfst
  rw [hright, List.pairwise_map] at hsnd
  intro x hx y hy
  have hboth : z.Pairwise fun x y => x.1.id < y.1.id ∧ x.2.id < y.2.id := hfst.and hsnd
  obtain ⟨i, hi, rfl⟩ := List.getElem_of_mem hx
  obtain ⟨j, hj, rfl⟩ := List.getElem_of_mem hy
  rw [List.pairwise_iff_getElem] at hboth
  rcases Nat.lt_trichotomy i j with hij | rfl | hij
  · have := hboth i j hi hj hij
    omega
  · simp
  · have := hboth j i hj hi hij
    omega

def dueKey (row : MemoryRow) : Time ×ₗ Nat := toLex (row.validUntil.getD 0, row.id)

theorem dueBefore_iff (a b : MemoryRow) : dueBefore a b = true ↔ dueKey a ≤ dueKey b := by
  unfold dueBefore dueKey
  rw [Prod.Lex.toLex_le_toLex]
  by_cases heq : a.validUntil.getD 0 = b.validUntil.getD 0 <;> simp [heq]

theorem dueKey_injective (h : Constrained t) {p : MemoryRow → Bool} :
    ∀ a ∈ t.rows.filter p, ∀ b ∈ t.rows.filter p, dueKey a = dueKey b → a = b := by
  intro a ha b hb heq
  refine h.same_id (List.mem_of_mem_filter ha) (List.mem_of_mem_filter hb) ?_
  exact congrArg (fun key => (ofLex key).2) heq

theorem due_tenant (row : MemoryRow) :
    row.due (some tenantId) now = (row.due none now && decide (row.tenantId = tenantId)) := by
  simp [MemoryRow.due]

theorem filter_ofTenant {p : MemoryRow → Bool}
    (hp : ∀ row, p row = true → row.tenantId = tenantId) :
    (ofTenant tenantId rows).filter p = rows.filter p := by
  unfold ofTenant
  rw [List.filter_filter]
  refine List.filter_congr fun row _ => ?_
  cases hrow : p row with
  | false => rfl
  | true => simp [hp row hrow]

/-- The rows of one tenant that a sweep of all takes are among those that a
sweep of this tenant takes. -/
theorem mem_dueRows_of_all (h : Constrained t) {limit : Int} (hrow : row ∈ dueRows none limit now t)
    (htenant : row.tenantId = tenantId) : row ∈ dueRows (some tenantId) limit now t := by
  have hmem : row ∈ (dueRows none limit now t).filter fun row => row.tenantId = tenantId :=
    List.mem_filter.mpr ⟨hrow, decide_eq_true htenant⟩
  have hprefix := (OrderedQuery.prefix_filter_take _).subset hmem
  rw [OrderedQuery.filter_insertionSort dueBefore_iff (dueKey_injective h),
    List.filter_filter] at hprefix
  unfold dueRows
  convert hprefix using 4
  funext row
  rw [due_tenant, Bool.and_comm]

theorem mem_ids_dueRows (h : Constrained t) {sweep : Option String} {limit : Int}
    (hrow : row ∈ t.rows) :
    row.id ∈ (dueRows sweep limit now t).map MemoryRow.id ↔ row ∈ dueRows sweep limit now t := by
  refine ⟨fun hid => ?_, List.mem_map_of_mem⟩
  obtain ⟨due, hdue, hsame⟩ := List.mem_map.mp hid
  rwa [h.same_id hrow (mem_dueRows hdue).1 hsame.symm]

/-- A sweep of all that is not cut short is a sweep of the tenant to it. -/
theorem expireDue_all (h : Constrained t) {limit : Int}
    (hcut : ∀ row ∈ dueRows (some tenantId) limit now t, row ∈ dueRows none limit now t) :
    slice tenantId (expireDue none limit now t).1.rows
      = slice tenantId (expireDue (some tenantId) limit now t).1.rows := by
  unfold slice expireDue
  rw [ofTenant_retire (retires_expire now), ofTenant_retire (retires_expire now)]
  unfold VersionedTable.retire
  rw [List.map_map, List.map_map]
  refine List.map_congr_left fun row hrow => ?_
  obtain ⟨hrow, htenant⟩ := mem_ofTenant.mp hrow
  rw [Function.comp_apply, Function.comp_apply]
  congr 1
  have hsame : row ∈ dueRows none limit now t ↔ row ∈ dueRows (some tenantId) limit now t :=
    ⟨fun hdue => mem_dueRows_of_all h hdue htenant, hcut row⟩
  simp only [decide_eq_true_eq, mem_ids_dueRows h hrow, hsame]

theorem expireDue_alike (h : Constrained t) (h' : Constrained t')
    (hslice : slice tenantId t.rows = slice tenantId t'.rows) (limit : Int) :
    slice tenantId (expireDue (some tenantId) limit now t).1.rows
      = slice tenantId (expireDue (some tenantId) limit now t').1.rows := by
  obtain ⟨z, hleft, hright, herase, hids⟩ := tenantPairs h h' hslice
  have hdue : ∀ x ∈ z, x.1.due (some tenantId) now = x.2.due (some tenantId) now := by
    intro x hx
    change x.1.erase.due (some tenantId) now = x.2.erase.due (some tenantId) now
    rw [herase x hx]
  have hbefore : ∀ x ∈ z, ∀ y ∈ z, dueBefore x.1 y.1 = true ↔ dueBefore x.2 y.2 = true := by
    intro x hx y hy
    have hx' := congrArg MemoryRow.validUntil (herase x hx)
    have hy' := congrArg MemoryRow.validUntil (herase y hy)
    simp only [MemoryRow.erase] at hx' hy'
    simp only [dueBefore, hx', hy', hids x hx y hy]
  obtain ⟨w, hw, hfst, hsnd⟩ := OrderedQuery.exists_query_pairs (r := (dueBefore · ·))
    (s := (dueBefore · ·)) hdue hbefore (max 1 limit).toNat
  have hrows : ∀ u : MemoryTables, u.rows.filter (MemoryRow.due (some tenantId) now)
      = (ofTenant tenantId u.rows).filter (MemoryRow.due (some tenantId) now) := by
    refine fun u => (filter_ofTenant fun row hrow => ?_).symm
    rw [due_tenant, Bool.and_eq_true, decide_eq_true_eq] at hrow
    exact hrow.2
  have hdueRows : dueRows (some tenantId) limit now t = w.map Prod.fst := by
    rw [dueRows, hrows, hleft, hfst]
  have hdueRows' : dueRows (some tenantId) limit now t' = w.map Prod.snd := by
    rw [dueRows, hrows, hright, hsnd]
  unfold slice expireDue
  dsimp only
  rw [ofTenant_retire (retires_expire now), ofTenant_retire (retires_expire now), hleft, hright,
    hdueRows, hdueRows']
  unfold VersionedTable.retire
  simp only [List.map_map]
  refine List.map_congr_left fun x hx => ?_
  have hselected : x.1.id ∈ w.map (MemoryRow.id ∘ Prod.fst)
      ↔ x.2.id ∈ w.map (MemoryRow.id ∘ Prod.snd) := by
    rw [List.mem_map, List.mem_map]
    refine exists_congr fun y => and_congr_right fun hy => ?_
    rw [Function.comp_apply, Function.comp_apply, le_antisymm_iff, le_antisymm_iff,
      hids y (hw hy) x hx, hids x hx y (hw hy)]
  simp only [Function.comp_apply, decide_eq_true_eq]
  by_cases hx' : x.1.id ∈ w.map (MemoryRow.id ∘ Prod.fst)
  · rw [if_pos hx', if_pos (hselected.mp hx')]
    exact congrArg (MemoryRow.expire now) (herase x hx)
  · rw [if_neg hx', if_neg (hx' ∘ hselected.mpr)]
    exact herase x hx

/-! ### The backfill -/

theorem lacksRow_alike (hslice : slice "default" t.rows = slice "default" t'.rows)
    (userId key : String) : lacksRow t userId key = lacksRow t' userId key := by
  have hspec : ∀ u : MemoryTables, lacksRow u userId key
      = !(slice "default" u.rows).any fun row => row.subjectUserId = userId
        && row.scope = .userGlobal && row.nameSpace = "preferences" && row.agentId = none
        && row.key = key && row.active := by
    intro u
    unfold lacksRow slice ofTenant
    rw [List.any_map, List.any_filter]
    simp only [Function.comp_apply, MemoryRow.erase, MemoryRow.active, Bool.and_assoc]
    rfl
  rw [hspec, hspec, hslice]

theorem slice_backfilledRows : slice tenantId (backfilledRows now t)
    = if tenantId = "default" then
        (missingFacts t).map fun fact => (backfilledRow now fact.1 fact.2.1 fact.2.2 0).erase
      else [] := by
  split
  · rename_i htenant
    subst htenant
    have hall : ofTenant "default" (backfilledRows now t) = backfilledRows now t := by
      refine List.filter_eq_self.mpr fun row hrow => ?_
      obtain ⟨entry, -, rfl⟩ := List.mem_map.mp hrow
      rfl
    unfold slice
    rw [hall]
    unfold backfilledRows missingFacts
    conv_rhs => rw [← List.zipIdx_map_fst t.nextId (List.filter _ (allFacts t))]
    rw [List.map_map, List.map_map]
    rfl
  · rename_i htenant
    refine slice_foreign fun row hrow => ?_
    obtain ⟨entry, -, rfl⟩ := List.mem_map.mp hrow
    exact Ne.symm htenant

/-! ## Alike states -/

/-- Two states hold the same for a tenant. -/
structure Alike (tenantId : String) (s s' : TenantState) : Prop where
  left : Constrained s.tables
  right : Constrained s'.tables
  rows : slice tenantId s.tables.rows = slice tenantId s'.tables.rows
  own : tenantId = "default" → s.own = s'.own

variable {s s' u u' : TenantState} {op : MemoryOp}

theorem Alike.symm (h : Alike tenantId s s') : Alike tenantId s' s :=
  ⟨h.right, h.left, h.rows.symm, fun hdefault => (h.own hdefault).symm⟩

/-- An operation of another tenant changes nothing for this one. -/
theorem alike_foreign (h : Alike tenantId s s') (hop : op.reaches tenantId = false)
    (hstep : tenantStep env s op = some u) : Alike tenantId u s' := by
  cases hstep
  refine ⟨applyOp_constrained h.left op, h.right, (applyOp_foreign h.left hop).trans h.rows, ?_⟩
  rintro rfl
  rw [hop]
  exact h.own rfl

theorem rows_alike (h : Alike tenantId s s') (hs : KeepsApart tenantId s op)
    (hs' : KeepsApart tenantId s' op) (hop : op.reaches tenantId = true) :
    slice tenantId (applyOp env s.tables op).rows
      = slice tenantId (applyOp env s'.tables op).rows := by
  cases op with
  | remember scope memory now =>
      exact remember_alike h.left h.right h.rows (of_decide_eq_true hop)
  | forget scope key now =>
      simp only [applyOp]
      exact forget_alike h.rows
  | expireDue other limit now =>
      cases other with
      | none =>
          exact (expireDue_all h.left hs).trans
            ((expireDue_alike h.left h.right h.rows limit).trans (expireDue_all h.right hs').symm)
      | some other =>
          obtain rfl : other = tenantId := of_decide_eq_true hop
          exact expireDue_alike h.left h.right h.rows limit
  | migrate now =>
      simp only [applyOp, migrate]
      rw [slice_append, slice_append, slice_backfilledRows, slice_backfilledRows, h.rows]
      congr 1
      split
      · rename_i hdefault
        subst hdefault
        have hlacks := lacksRow_alike h.rows
        have howned : missingFacts { s.tables with facts := s.own }
            = missingFacts { s'.tables with facts := s'.own } := by
          rw [h.own rfl]
          exact List.filter_congr fun fact _ => hlacks fact.1 fact.2.1
        rw [hs rfl, hs' rfl, howned]
      · rfl

theorem own_alike (h : Alike "default" s s') (hop : op.reaches "default" = true) :
    (applyOp env { s.tables with facts := s.own } op).facts
      = (applyOp env { s'.tables with facts := s'.own } op).facts := by
  cases op with
  | remember scope memory now =>
      exact remember_facts_alike h.rows (of_decide_eq_true hop) (h.own rfl)
  | forget scope key now =>
      simp only [applyOp]
      exact forget_facts_alike h.rows (of_decide_eq_true hop) (h.own rfl)
  | expireDue other limit now => exact h.own rfl
  | migrate now => exact h.own rfl

/-- An operation for the tenant does the same on both sides. -/
theorem alike_step (h : Alike tenantId s s') (hs : KeepsApart tenantId s op)
    (hs' : KeepsApart tenantId s' op) (hop : op.reaches tenantId = true)
    (hstep : tenantStep env s op = some u) (hstep' : tenantStep env s' op = some u') :
    Alike tenantId u u' := by
  cases hstep
  cases hstep'
  refine ⟨applyOp_constrained h.left op, applyOp_constrained h.right op,
    rows_alike h hs hs' hop, ?_⟩
  rintro rfl
  rw [hop]
  exact own_alike h hop

/-! ## What the tenant reads -/

/-- An item without the numbers of the sequence. -/
def MemoryItem.erase (item : MemoryItem) : MemoryItem :=
  { item with
    memoryId := ""
    metadata := item.metadata.filter fun entry => decide (entry.1 ≠ "supersedes_id") }

theorem rowToItem_erase (row : MemoryRow) :
    (rowToItem env row.erase).erase = (rowToItem env row).erase := by
  unfold MemoryItem.erase rowToItem
  simp only [MemoryRow.erase, MemoryItem.mk.injEq, true_and]
  rw [List.filter_filter, List.filter_filter]
  refine ⟨rfl, ?_⟩
  cases row.supersedesId <;> rfl

theorem recallRows_alike (h : Alike tenantId s s') (hscope : scope.tenant = tenantId)
    (now : Time) (limit : Int) :
    (recallRows scope limit now s.tables).map MemoryRow.erase
      = (recallRows scope limit now s'.tables).map MemoryRow.erase := by
  obtain ⟨z, hleft, hright, herase, hids⟩ := tenantPairs h.left h.right h.rows
  have hrecallable : ∀ x ∈ z, recallable scope now x.1 = recallable scope now x.2 := by
    intro x hx
    change recallable scope now x.1.erase = recallable scope now x.2.erase
    rw [herase x hx]
  have hbefore : ∀ x ∈ z, ∀ y ∈ z,
      recallBefore x.1 y.1 = true ↔ recallBefore x.2 y.2 = true := by
    intro x hx y hy
    have hcolumns : ∀ x ∈ z, x.1.importance = x.2.importance ∧ x.1.updatedAt = x.2.updatedAt :=
      fun x hx => ⟨(congrArg MemoryRow.importance (herase x hx) :),
        (congrArg MemoryRow.updatedAt (herase x hx) :)⟩
    simp only [recallBefore, hcolumns x hx, hcolumns y hy, hids y hy x hx]
  obtain ⟨w, hw, hfst, hsnd⟩ := OrderedQuery.exists_query_pairs (r := (recallBefore · ·))
    (s := (recallBefore · ·)) hrecallable hbefore (max limit 1).toNat
  have hrows : ∀ t : MemoryTables, t.rows.filter (recallable scope now)
      = (ofTenant tenantId t.rows).filter (recallable scope now) := by
    refine fun t => (filter_ofTenant fun row hrow => ?_).symm
    simp only [recallable, Bool.and_eq_true, decide_eq_true_eq] at hrow
    rw [← hscope]
    exact hrow.1.1.1.1
  unfold recallRows
  rw [hrows, hrows, hleft, hright, hfst, hsnd]
  exact OrderedQuery.map_eq_of_pairs fun x hx => herase x (hw hx)

theorem getCurrent_alike (h : Alike tenantId s s') (hscope : scope.tenant = tenantId)
    (now : Time) (key : String) :
    (getCurrent scope key now s.tables).map MemoryRow.erase
      = (getCurrent scope key now s'.tables).map MemoryRow.erase := by
  rw [getCurrent_eq h.left, getCurrent_eq h.right]
  split
  · rfl
  · have hunexpired : ∀ found : Option MemoryRow,
        (found.filter (MemoryRow.unexpired now)).map MemoryRow.erase
          = (found.map MemoryRow.erase).filter (MemoryRow.unexpired now) := by
      intro found
      cases found with
      | none => rfl
      | some row =>
          have herase : row.erase.unexpired now = row.unexpired now := rfl
          rw [Option.map_some, Option.filter_some, Option.filter_some, herase]
          split <;> rfl
    rw [hunexpired, hunexpired,
      current_alike h.rows (scope.identity (strip key)) hscope]

end Slices

/-- In two runs that keep the tenants apart and perform the same operations for a tenant, this
tenant reads the same, whatever is performed for the others. The two runs are compared state by
state, up to the numbers that the tables hand out. -/
theorem tenants_kept_apart (env : FloatEnv) (tenantId : String) (store : MemoryStore)
    {ops ops' : List MemoryOp}
    (hsame : ops.filter (MemoryOp.reaches tenantId) = ops'.filter (MemoryOp.reaches tenantId))
    (hops : Meets (tenantStep env) (KeepsApart tenantId) store.shared ops)
    (hops' : Meets (tenantStep env) (KeepsApart tenantId) store.shared ops')
    {s s' : TenantState} (hrun : run (tenantStep env) store.shared ops = some s)
    (hrun' : run (tenantStep env) store.shared ops' = some s') {scope : MemoryScope}
    (hscope : scope.tenant = tenantId) (now : Time) :
    (∀ limit, (recallRows scope limit now s.tables).map (MemoryItem.erase ∘ rowToItem env)
        = (recallRows scope limit now s'.tables).map (MemoryItem.erase ∘ rowToItem env))
      ∧ ∀ key, (getCurrent scope key now s.tables).map (MemoryItem.erase ∘ rowToItem env)
        = (getCurrent scope key now s'.tables).map (MemoryItem.erase ∘ rowToItem env) := by
  have halike : Alike tenantId s s' := by
    refine run_pair (R := Alike tenantId) ?_ ?_ ?_
      ⟨store.constrained, store.constrained, rfl, fun _ => rfl⟩ hsame hops hops' hrun hrun'
    · exact fun _ _ _ _ _ hR hC hC' hkeep hu hu' => alike_step hR hC hC' hkeep hu hu'
    · exact fun _ _ _ _ hR _ hkeep hu => alike_foreign hR hkeep hu
    · exact fun _ _ _ _ hR _ hkeep hu => (alike_foreign hR.symm hkeep hu).symm
  have hitem : (MemoryItem.erase ∘ rowToItem env) ∘ MemoryRow.erase
      = MemoryItem.erase ∘ rowToItem env := funext rowToItem_erase
  refine ⟨fun limit => ?_, fun key => ?_⟩
  · have hrows := congrArg (List.map (MemoryItem.erase ∘ rowToItem env))
      (recallRows_alike halike hscope now limit)
    rwa [List.map_map, List.map_map, hitem] at hrows
  · have hrow := congrArg (Option.map (MemoryItem.erase ∘ rowToItem env))
      (getCurrent_alike halike hscope now key)
    rwa [Option.map_map, Option.map_map, hitem] at hrow

/-! ### Runs -/

/-- The preference of two tenants, the second one's swept before the backfill. -/
def twoCities : List MemoryOp :=
  [.remember (preferences "acme") (cityMemory (some 2)) 1,
   .remember (preferences "default") (cityMemory none) 2, .expireDue none 500 3, .migrate 4]

def oneCity : List MemoryOp :=
  [.remember (preferences "default") (cityMemory none) 2, .expireDue none 500 3,
   .forget (preferences "acme") "city" 3, .migrate 4]

theorem tenants_kept_apart_twoCities :
    ∃ s s', run (tenantStep exactFloats) emptyStore.shared twoCities = some s
      ∧ run (tenantStep exactFloats) emptyStore.shared oneCity = some s'
      ∧ ∀ key, (getCurrent (preferences "default") key 5 s.tables).map
          (MemoryItem.erase ∘ rowToItem exactFloats)
        = (getCurrent (preferences "default") key 5 s'.tables).map
          (MemoryItem.erase ∘ rowToItem exactFloats) := by
  have hmeets : Meets (tenantStep exactFloats) (KeepsApart "default") emptyStore.shared twoCities
      ∧ Meets (tenantStep exactFloats) (KeepsApart "default") emptyStore.shared oneCity := by
    decide
  have hsame : twoCities.filter (MemoryOp.reaches "default")
      = oneCity.filter (MemoryOp.reaches "default") := rfl
  have hscope : (preferences "default").tenant = "default" := rfl
  exact ⟨_, _, rfl, rfl, (tenants_kept_apart exactFloats "default" emptyStore hsame hmeets.1
    hmeets.2 rfl rfl hscope 5).2⟩

/-- The backfill gives the default tenant what another one has written, and
the due rows of another tenant keep a sweep from those of this one. -/
theorem tenants_not_apart :
    (∃ ops ops' s s', ops.filter (MemoryOp.reaches "default")
          = ops'.filter (MemoryOp.reaches "default")
        ∧ run (tenantStep exactFloats) emptyStore.shared ops = some s
        ∧ run (tenantStep exactFloats) emptyStore.shared ops' = some s'
        ∧ (getCurrent (preferences "default") "city" 3 s.tables).map MemoryRow.content
          = some "Lyon"
        ∧ getCurrent (preferences "default") "city" 3 s'.tables = none)
      ∧ ∃ ops ops' s s', ops.filter (MemoryOp.reaches "beta")
          = ops'.filter (MemoryOp.reaches "beta")
        ∧ run (tenantStep exactFloats) emptyStore.shared ops = some s
        ∧ run (tenantStep exactFloats) emptyStore.shared ops' = some s'
        ∧ (getCurrent (preferences "beta") "city" 22 s.tables).map MemoryRow.version = some 2
        ∧ (getCurrent (preferences "beta") "city" 22 s'.tables).map MemoryRow.version = some 1 :=
  ⟨⟨[.remember (preferences "acme") (cityMemory none) 1, .migrate 2], [.migrate 2], _, _, rfl,
      rfl, rfl, by decide, by decide⟩,
    [.remember (preferences "acme") (cityMemory (some 5)) 1,
      .remember (preferences "beta") (cityMemory (some 10)) 2, .expireDue none 1 20,
      .remember (preferences "beta") (cityMemory none) 21],
    [.remember (preferences "beta") (cityMemory (some 10)) 2, .expireDue none 1 20,
      .remember (preferences "beta") (cityMemory none) 21], _, _, rfl, rfl, rfl, by decide,
    by decide⟩

end Aegora
