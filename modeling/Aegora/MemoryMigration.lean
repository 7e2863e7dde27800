import Aegora.NativePgLaws
import Aegora.Runs

/-!
# Memories that were dropped stay dropped

A memory is dropped when it is forgotten or its time is over. What could bring
it back without a `remember` is the backfill, from a fact that outlived the
row. A store is in step (`InStep`) when every fact of a known preference has
its active row; two things break that: a sweep, which leaves the fact of the
row it expires, and a `remember` of another tenant, which writes the fact that
all tenants of a user share.
-/

namespace Aegora

open Py Runs

/-! ## Dropped memories -/

/-- Some version of the memory was written. -/
def Known (t : MemoryTables) (identity : MemoryIdentity) : Prop :=
  ∃ row ∈ t.rows, row.identity = identity

/-- The memory has an active row whose time is not over. -/
def Live (t : MemoryTables) (now : Time) (identity : MemoryIdentity) : Prop :=
  ∃ row ∈ t.rows, row.identity = identity ∧ row.active = true ∧ row.unexpired now = true

instance (t : MemoryTables) (identity : MemoryIdentity) : Decidable (Known t identity) := by
  unfold Known
  infer_instance

instance (t : MemoryTables) (now : Time) (identity : MemoryIdentity) :
    Decidable (Live t now identity) := by
  unfold Live
  infer_instance

/-- The operation writes the memory. -/
def MemoryOp.Remembers (identity : MemoryIdentity) : MemoryOp → Prop
  | .remember scope memory _ => scope.identity memory.key = identity
  | _ => False

/-- The tables when `memory_items` is created: the facts of the older store,
each user and each key of a user once. -/
structure LegacyFacts where
  facts : List (String × Facts)
  users : (facts.map Prod.fst).Nodup
  keys : ∀ entry ∈ facts, (entry.2.map Prod.fst).Nodup

def LegacyFacts.tables (legacy : LegacyFacts) : MemoryTables where
  facts := legacy.facts

/-- A fact of a known memory has its active row. -/
def InStep (t : MemoryTables) : Prop :=
  ∀ user key, t.fact user key ≠ none → Known t (legacyIdentity user key) →
    t.current (legacyIdentity user key) ≠ none

/-- The step does not leave a fact behind the rows: a sweep takes no row whose
fact is still there, and no other tenant writes a fact for a memory of the
default tenant that was dropped. -/
def KeepsInStep (t : MemoryTables) : MemoryOp → Prop
  | .expireDue tenantId limit now =>
      ∀ row ∈ dueRows tenantId limit now t, ∀ user key,
        row.identity = legacyIdentity user key → t.fact user key = none
  | .remember scope memory _ =>
      scope.legacy = true → scope.tenant ≠ "default" → ¬ Duplicate t scope memory →
        Known t (legacyIdentity scope.userId memory.key) →
          t.current (legacyIdentity scope.userId memory.key) ≠ none
  | _ => True

section Steps

variable {env : FloatEnv} {t : MemoryTables} {identity : MemoryIdentity} {op : MemoryOp}

theorem current_of_active {row : MemoryRow} (hrow : row ∈ t.rows) (hactive : row.active = true) :
    t.current row.identity ≠ none := by
  intro hnone
  rw [current_eq_none.mp hnone row hrow rfl] at hactive
  cases hactive

theorem known_of_current {row : MemoryRow} (h : t.current identity = some row) :
    Known t identity :=
  ⟨row, (current_spec h).1, (current_spec h).2.1⟩

/-- The rows of an identity stay, whatever becomes of them. -/
theorem known_retire {p : MemoryRow → Bool} {out : MemoryRow → MemoryRow} (hout : Retires out) :
    Known { t with rows := VersionedTable.retire p out t.rows } identity ↔ Known t identity := by
  have hmap : (VersionedTable.retire p out t.rows).map MemoryRow.identity
      = t.rows.map MemoryRow.identity := VersionedTable.map_retire hout.identity
  have hiff : ∀ rows : List MemoryRow, (∃ row ∈ rows, row.identity = identity)
      ↔ identity ∈ rows.map MemoryRow.identity := fun rows => by rw [List.mem_map]
  unfold Known
  rw [hiff, hiff, hmap]

theorem known_append {new : List MemoryRow} {nextId : Nat} :
    Known { t with rows := t.rows ++ new, nextId := nextId } identity
      ↔ Known t identity ∨ ∃ row ∈ new, row.identity = identity := by
  unfold Known
  simp only [List.mem_append, or_and_right, exists_or]

/-- A version more, of the identity that was remembered. -/
theorem known_remember {scope : MemoryScope} {memory : MemoryWrite} {now : Time} :
    Known (remember env scope memory now t).1 identity
      ↔ Known t identity ∨ identity = scope.identity memory.key := by
  rcases remember_cases env scope memory now t with ⟨current, hcurrent, -, heq⟩ | ⟨-, heq⟩
  · rw [heq]
    refine ⟨Or.inl, fun h => h.elim id ?_⟩
    rintro rfl
    exact known_of_current hcurrent
  · rw [heq]
    change Known { supersedeCurrent now t (scope.identity memory.key) with
      rows := (supersedeCurrent now t (scope.identity memory.key)).rows ++ [_],
      nextId := t.nextId + 1 } identity ↔ _
    rw [known_append]
    refine or_congr (known_retire (retires_supersede now)) ?_
    simp only [List.mem_singleton, exists_eq_left]
    exact eq_comm

theorem known_applyOp (h : Known t identity) : Known (applyOp env t op) identity := by
  cases op with
  | remember scope memory now => exact known_remember.mpr (Or.inl h)
  | forget scope key now =>
      simp only [applyOp, forget]
      split
      · exact h
      · exact (known_retire (retires_delete now)).mpr h
  | expireDue tenantId limit now => exact (known_retire (retires_expire now)).mpr h
  | migrate now => exact known_append.mpr (Or.inl h)

/-! ## The facts stay in step -/

theorem legacy_identity {scope : MemoryScope} {user key : String} (hlegacy : scope.legacy = true)
    (htenant : scope.tenant = "default") (huser : user = scope.userId) :
    scope.identity key = legacyIdentity user key := by
  simp only [MemoryScope.legacy, Bool.and_eq_true, decide_eq_true_eq] at hlegacy
  obtain ⟨hscope, hspace⟩ := hlegacy
  simp [MemoryScope.identity, legacyIdentity, MemoryScope.rowAgent, hscope, hspace, htenant,
    huser]

theorem identity_legacy {scope : MemoryScope} {user key other : String}
    (h : legacyIdentity user other = scope.identity key) :
    scope.legacy = true ∧ scope.tenant = "default" ∧ user = scope.userId ∧ other = key := by
  simp only [legacyIdentity, MemoryScope.identity, MemoryIdentity.mk.injEq] at h
  obtain ⟨htenant, huser, hscope, hspace, -, hkey⟩ := h
  simp [MemoryScope.legacy, ← hscope, ← hspace, htenant.symm, huser, hkey]

theorem remember_inStep {scope : MemoryScope} {memory : MemoryWrite} {now : Time}
    (h : Constrained t) (hstep : InStep t) (hkeeps : KeepsInStep t (.remember scope memory now)) :
    InStep (remember env scope memory now t).1 := by
  intro user key hfact hknown
  rw [remember_current h]
  split
  · exact Option.some_ne_none _
  · rename_i hother
    have hknown' : Known t (legacyIdentity user key) :=
      (known_remember.mp hknown).resolve_right hother
    rcases remember_fact user key with hsame | ⟨hlegacy, huser, hkey, hnew, -⟩
    · rw [hsame] at hfact
      exact hstep user key hfact hknown'
    · subst huser hkey
      have htenant : scope.tenant ≠ "default" := fun htenant =>
        hother (legacy_identity hlegacy htenant rfl).symm
      exact hkeeps hlegacy htenant hnew hknown'

theorem forget_inStep {scope : MemoryScope} {key : String} {now : Time} (h : Constrained t)
    (hstep : InStep t) : InStep (forget scope key now t).1 := by
  by_cases hblank : strip key = ""
  · rw [forget_blank hblank]
    exact hstep
  · intro user other hfact hknown
    have hknown' : Known t (legacyIdentity user other) := by
      unfold forget at hknown
      rw [if_neg hblank] at hknown
      exact (known_retire (retires_delete now)).mp hknown
    rw [forget_fact hblank] at hfact
    split at hfact
    · exact absurd rfl hfact
    · rename_i hkept
      have hcurrent := hstep user other hfact hknown'
      rw [forget_current h hblank]
      split
      · rename_i hid
        obtain ⟨hlegacy, -, huser, hkey⟩ := identity_legacy hid
        rw [hid] at hcurrent
        exact absurd ⟨Option.isSome_iff_ne_none.mpr hcurrent, hlegacy, huser, hkey⟩ hkept
      · exact hcurrent

theorem expireDue_inStep {tenantId : Option String} {limit : Int} {now : Time}
    (h : Constrained t) (hstep : InStep t)
    (hkeeps : KeepsInStep t (.expireDue tenantId limit now)) :
    InStep (expireDue tenantId limit now t).1 := by
  intro user key hfact hknown
  have hcurrent := hstep user key hfact ((known_retire (retires_expire now)).mp hknown)
  obtain ⟨row, hrow⟩ := Option.ne_none_iff_exists'.mp hcurrent
  rw [expireDue_current h, hrow, Option.filter_some, if_pos]
  · exact Option.some_ne_none row
  · refine decide_eq_true fun hdue => hfact ?_
    exact hkeeps row hdue user key (current_spec hrow).2.1

theorem migrate_inStep {now : Time} (h : Constrained t) (hstep : InStep t) :
    InStep (migrate now t) := by
  intro user key hfact hknown
  rcases known_append.mp hknown with hknown | ⟨row, hrow, hidentity⟩
  · rw [migrate_current_eq]
    obtain ⟨row, hrow⟩ := Option.ne_none_iff_exists'.mp (hstep user key hfact hknown)
    rw [hrow, Option.some_or]
    exact Option.some_ne_none row
  · rw [← hidentity]
    obtain ⟨_, _, _, hrow', -, -⟩ := mem_backfilledRows h hrow
    exact current_of_active (List.mem_append_right _ hrow) (by rw [hrow']; rfl)

theorem applyOp_inStep (h : Constrained t) (hstep : InStep t) (hkeeps : KeepsInStep t op) :
    InStep (applyOp env t op) := by
  cases op with
  | remember scope memory now => exact remember_inStep h hstep hkeeps
  | forget scope key now => exact forget_inStep h hstep
  | expireDue tenantId limit now => exact expireDue_inStep h hstep hkeeps
  | migrate now => exact migrate_inStep h hstep

/-! ## A dropped memory stays dropped -/

theorem live_iff {now : Time} (h : Constrained t) :
    Live t now identity
      ↔ ∃ row, t.current identity = some row ∧ row.unexpired now = true := by
  unfold Live
  refine exists_congr fun row => ?_
  rw [h.current_iff]
  tauto

theorem applyOp_dropped {now : Time} (h : Constrained t) (hstep : InStep t)
    (hknown : Known t identity) (hdropped : ¬ Live t now identity)
    (hop : ¬ op.Remembers identity) : ¬ Live (applyOp env t op) now identity := by
  rw [live_iff h] at hdropped
  rw [live_iff (applyOp_constrained h op)]
  rintro ⟨row, hrow, hlive⟩
  suffices t.current identity = some row from hdropped ⟨row, this, hlive⟩
  cases op with
  | remember scope memory now =>
      simp only [applyOp] at hrow
      rw [remember_current h, if_neg fun hid => hop hid.symm] at hrow
      exact hrow
  | forget scope key now =>
      simp only [applyOp] at hrow
      by_cases hblank : strip key = ""
      · rwa [forget_blank hblank] at hrow
      · rw [forget_current h hblank] at hrow
        split at hrow
        · cases hrow
        · exact hrow
  | expireDue tenantId limit now =>
      simp only [applyOp] at hrow
      rw [expireDue_current h, Option.filter_eq_some_iff] at hrow
      exact hrow.1
  | migrate now =>
      rcases migrate_current h hrow with hrow | ⟨user, key, value, rfl, hfact, hnone, -⟩
      · exact hrow
      · exact absurd hnone (hstep user key (by rw [hfact]; exact Option.some_ne_none _) hknown)

end Steps

theorem LegacyFacts.constrained (legacy : LegacyFacts) : Constrained legacy.tables :=
  ⟨List.Pairwise.nil, fun _ hrow => absurd hrow List.not_mem_nil, List.nodup_nil,
    fun _ hrow => absurd hrow List.not_mem_nil, legacy.users, legacy.keys⟩

theorem LegacyFacts.inStep (legacy : LegacyFacts) : InStep legacy.tables := by
  rintro user key - ⟨row, hrow, -⟩
  exact absurd hrow List.not_mem_nil

theorem Live.earlier {t : MemoryTables} {identity : MemoryIdentity} {now later : Time}
    (h : Live t later identity) (hle : now ≤ later) : Live t now identity := by
  obtain ⟨row, hrow, hidentity, hactive, hlater⟩ := h
  refine ⟨row, hrow, hidentity, hactive, ?_⟩
  unfold MemoryRow.unexpired at hlater ⊢
  cases hvalid : row.validUntil with
  | none => rfl
  | some validUntil =>
      rw [hvalid] at hlater
      exact decide_eq_true (lt_of_le_of_lt hle (of_decide_eq_true hlater))

/-- In a run that keeps facts and rows in step, a known memory that is not live at some moment
is not live at any later one unless it was remembered again. The backfill writes only what a
fact says, and while the two are in step a fact says nothing that was dropped. -/
theorem dropped_stays_dropped {env : FloatEnv} (legacy : LegacyFacts)
    {before after : List MemoryOp} {t t' : MemoryTables} {identity : MemoryIdentity}
    {dropped later : Time}
    (hkeeps : Meets (memoryStep env) KeepsInStep legacy.tables (before ++ after))
    (hbefore : run (memoryStep env) legacy.tables before = some t)
    (hafter : run (memoryStep env) t after = some t')
    (hknown : Known t identity) (hdropped : ¬ Live t dropped identity)
    (hle : dropped ≤ later) (hremember : ∀ op ∈ after, ¬ op.Remembers identity) :
    ¬ Live t' later identity := by
  obtain ⟨hkeepsBefore, hkeepsAfter⟩ := meets_append hkeeps
  have hinStep : Constrained t ∧ InStep t := by
    refine run_invariant (I := fun t => Constrained t ∧ InStep t) ?_
      ⟨legacy.constrained, legacy.inStep⟩ hkeepsBefore hbefore
    rintro s op _ ⟨hs, hstep⟩ hop heq
    cases heq
    exact ⟨applyOp_constrained hs op, applyOp_inStep hs hstep hop⟩
  have hend : Constrained t' ∧ InStep t' ∧ Known t' identity ∧ ¬ Live t' dropped identity := by
    refine run_invariant
      (I := fun t => Constrained t ∧ InStep t ∧ Known t identity ∧ ¬ Live t dropped identity)
      ?_ ⟨hinStep.1, hinStep.2, hknown, hdropped⟩
      (meets_and (hkeepsAfter t hbefore) hremember) hafter
    rintro s op _ ⟨hs, hstep, hk, hd⟩ ⟨hop, hforeign⟩ heq
    cases heq
    exact ⟨applyOp_constrained hs op, applyOp_inStep hs hstep hop, known_applyOp hk,
      applyOp_dropped hs hstep hk hd hforeign⟩
  exact fun hlive => hend.2.2.2 (hlive.earlier hle)

/-! ### Runs -/

def exactFloats : FloatEnv where
  real := id
  repr := fun _ => "1.0"

/-- A preference of user `u1`, for every agent. -/
def preferences (tenantId : String) : MemoryScope where
  userId := "u1"
  tenantId := some tenantId
  userStripped := by decide
  user := by decide
  agent := by decide

theorem city_stripped : strip "city" = "city" := by
  decide

theorem city_nonblank : "city" ≠ "" := by
  decide

def cityMemory (expiresAt : Option Time) : MemoryWrite where
  key := "city"
  value := "Lyon"
  expiresAt := expiresAt
  keyStripped := city_stripped
  keyNonblank := city_nonblank
  valueNonblank := by decide
  confidenceUnit := defaultConfidence_unit
  importanceUnit := defaultImportance_unit

def noFacts : LegacyFacts := ⟨[], List.nodup_nil, fun _ h => absurd h List.not_mem_nil⟩

def emptyStore : MemoryStore := ⟨noFacts.tables, noFacts.constrained⟩

theorem dropped_stays_dropped_forgottenCity :
    ∃ t, run (memoryStep exactFloats) noFacts.tables
        [.remember (preferences "default") (cityMemory none) 1,
         .forget (preferences "default") " city " 2, .migrate 3] = some t
      ∧ Known t (legacyIdentity "u1" "city") ∧ ¬ Live t 3 (legacyIdentity "u1" "city") := by
  refine ⟨_, rfl, by decide, ?_⟩
  have hkeeps : Meets (memoryStep exactFloats) KeepsInStep noFacts.tables
      ([.remember (preferences "default") (cityMemory none) 1,
        .forget (preferences "default") " city " 2] ++ [.migrate 3]) :=
    ⟨fun _ h => absurd rfl h, fun _ _ => ⟨trivial, fun _ _ => ⟨trivial, fun _ _ => trivial⟩⟩⟩
  refine dropped_stays_dropped noFacts hkeeps rfl rfl (by decide)
    (show ¬ Live _ 2 _ by decide) (by decide) fun op hop => ?_
  rw [List.mem_singleton.mp hop]
  exact id

/-- The backfill brings back a memory whose time was over and that was swept,
and a forgotten one whose fact another tenant has written since. -/
theorem dropped_comes_back :
    (∃ t t', run (memoryStep exactFloats) noFacts.tables
          [.remember (preferences "default") (cityMemory (some 10)) 1,
           .expireDue none 500 20] = some t
        ∧ run (memoryStep exactFloats) t [.migrate 30] = some t'
        ∧ Known t (legacyIdentity "u1" "city") ∧ ¬ Live t 20 (legacyIdentity "u1" "city")
        ∧ Live t' 30 (legacyIdentity "u1" "city"))
    ∧ ∃ t t', run (memoryStep exactFloats) noFacts.tables
          [.remember (preferences "default") (cityMemory none) 1,
           .forget (preferences "default") "city" 2] = some t
        ∧ run (memoryStep exactFloats) t
          [.remember (preferences "acme") (cityMemory none) 3, .migrate 4] = some t'
        ∧ Known t (legacyIdentity "u1" "city") ∧ ¬ Live t 2 (legacyIdentity "u1" "city")
        ∧ (preferences "acme").identity "city" ≠ legacyIdentity "u1" "city"
        ∧ Live t' 4 (legacyIdentity "u1" "city") :=
  ⟨⟨_, _, rfl, rfl, by decide, by decide, by decide⟩,
    _, _, rfl, rfl, by decide, by decide, by decide, by decide⟩

end Aegora
