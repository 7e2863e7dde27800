import Aegora.NativePg

/-!
# What the operations do to the active rows and the facts

The active rows form a map from identities to rows, the facts one from users
and keys to texts. One lemma for each operation says how it changes either,
and one that it keeps the constraints of the schema.
-/

namespace Aegora

open Py

theorem nonEmpty_ne_blank (text : Option String) : nonEmpty text ≠ some "" := by
  cases text with
  | none => exact nofun
  | some text => by_cases htext : text = "" <;> simp [nonEmpty, htext]

/-! ## The constraints of the schema -/

/-- The table keeps its keys and its index, and only a row private to an agent
names one. -/
structure Constrained (t : MemoryTables) : Prop where
  ids : (t.rows.map MemoryRow.id).Pairwise (· < ·)
  sequence : ∀ row ∈ t.rows, row.id < t.nextId
  unique : VersionedTable.UniqueLive MemoryRow.identity MemoryRow.active t.rows
  agent : ∀ row ∈ t.rows, row.scope ≠ .userAgent → row.agentId = none
  users : (t.facts.map Prod.fst).Nodup
  keys : ∀ entry ∈ t.facts, (entry.2.map Prod.fst).Nodup

section Rows

variable {t : MemoryTables} {identity : MemoryIdentity} {row : MemoryRow}

theorem current_spec (h : t.current identity = some row) :
    row ∈ t.rows ∧ row.identity = identity ∧ row.active = true :=
  VersionedTable.current_spec h

theorem current_eq_none :
    t.current identity = none ↔ ∀ row ∈ t.rows, row.identity = identity → row.active = false :=
  VersionedTable.current_eq_none

theorem Constrained.current_iff (h : Constrained t) :
    t.current identity = some row
      ↔ row ∈ t.rows ∧ row.identity = identity ∧ row.active = true :=
  VersionedTable.current_eq_some h.unique

/-- The id of a row is its primary key. -/
theorem Constrained.same_id (h : Constrained t) {a b : MemoryRow} (ha : a ∈ t.rows)
    (hb : b ∈ t.rows) (hid : a.id = b.id) : a = b :=
  List.inj_on_of_nodup_map (h.ids.imp Nat.ne_of_lt) ha hb hid

/-- `get_current` returns the active row unless its time is over. -/
theorem getCurrent_eq (h : Constrained t) (scope : MemoryScope) (key : String) (now : Time) :
    getCurrent scope key now t
      = if strip key = "" then none
        else (t.current (scope.identity (strip key))).filter (MemoryRow.unexpired now) := by
  unfold getCurrent
  split
  · rfl
  · set found := t.rows.filter fun row =>
      row.identity = scope.identity (strip key) && row.active && row.unexpired now with hfound
    have hmem : ∀ row, row ∈ found.insertionSort (fun a b => b.id ≤ a.id)
        ↔ t.current (scope.identity (strip key)) = some row ∧ row.unexpired now = true := by
      intro row
      rw [List.mem_insertionSort, hfound, List.mem_filter, h.current_iff]
      simp only [Bool.and_eq_true, decide_eq_true_eq, and_assoc]
    refine Option.ext fun row => ?_
    rw [Option.filter_eq_some_iff, ← hmem]
    refine ⟨List.mem_of_mem_head?, fun hrow => ?_⟩
    cases hhead : (found.insertionSort fun a b => b.id ≤ a.id).head? with
    | none =>
        rw [List.head?_eq_none_iff.mp hhead] at hrow
        cases hrow
    | some other =>
        have hother := ((hmem other).mp (List.mem_of_mem_head? hhead)).1
        rw [((hmem row).mp hrow).1] at hother
        exact hother.symm

/-! ## Retiring and appending rows -/

/-- `out` keeps the identity of a row and makes it inactive. -/
structure Retires (out : MemoryRow → MemoryRow) : Prop where
  id : ∀ row, (out row).id = row.id
  identity : ∀ row, (out row).identity = row.identity
  scope : ∀ row, (out row).scope = row.scope
  agentId : ∀ row, (out row).agentId = row.agentId
  inactive : ∀ row, (out row).active = false

theorem retires_supersede (now : Time) : Retires (MemoryRow.supersede now) :=
  ⟨fun _ => rfl, fun _ => rfl, fun _ => rfl, fun _ => rfl, fun _ => rfl⟩

theorem retires_delete (now : Time) : Retires (MemoryRow.delete now) :=
  ⟨fun _ => rfl, fun _ => rfl, fun _ => rfl, fun _ => rfl, fun _ => rfl⟩

theorem retires_expire (now : Time) : Retires (MemoryRow.expire now) :=
  ⟨fun _ => rfl, fun _ => rfl, fun _ => rfl, fun _ => rfl, fun _ => rfl⟩

theorem Constrained.retire (h : Constrained t) {out : MemoryRow → MemoryRow}
    (hout : Retires out) (p : MemoryRow → Bool) :
    Constrained { t with rows := VersionedTable.retire p out t.rows } := by
  constructor
  case ids =>
    rw [VersionedTable.map_retire hout.id]
    exact h.ids
  case sequence =>
    intro row hrow
    rcases VersionedTable.mem_retire.mp hrow with ⟨hrow, -⟩ | ⟨old, hold, -, rfl⟩
    · exact h.sequence row hrow
    · rw [hout.id]
      exact h.sequence old hold
  case unique => exact VersionedTable.uniqueLive_retire hout.inactive h.unique
  case agent =>
    intro row hrow
    rcases VersionedTable.mem_retire.mp hrow with ⟨hrow, -⟩ | ⟨old, hold, -, rfl⟩
    · exact h.agent row hrow
    · rw [hout.scope, hout.agentId]
      exact h.agent old hold
  case users => exact h.users
  case keys => exact h.keys

theorem Constrained.append (h : Constrained t) {new : List MemoryRow} {nextId : Nat}
    (hids : new.map MemoryRow.id = List.range' t.nextId new.length)
    (hnext : nextId = t.nextId + new.length)
    (hunique : VersionedTable.UniqueLive MemoryRow.identity MemoryRow.active new)
    (hfree : ∀ row ∈ new, row.active = true → t.current row.identity = none)
    (hagent : ∀ row ∈ new, row.scope ≠ .userAgent → row.agentId = none) :
    Constrained { t with rows := t.rows ++ new, nextId := nextId } := by
  have hrange : ∀ row ∈ new, t.nextId ≤ row.id ∧ row.id < nextId := by
    intro row hrow
    have hmem : row.id ∈ List.range' t.nextId new.length := hids ▸ List.mem_map_of_mem hrow
    rw [List.mem_range'_1] at hmem
    omega
  constructor
  case ids =>
    rw [List.map_append, List.pairwise_append]
    refine ⟨h.ids, ?_, fun a ha b hb => ?_⟩
    · rw [hids]
      exact List.pairwise_lt_range'
    · obtain ⟨old, hold, rfl⟩ := List.mem_map.mp ha
      obtain ⟨row, hrow, rfl⟩ := List.mem_map.mp hb
      exact Nat.lt_of_lt_of_le (h.sequence old hold) (hrange row hrow).1
  case sequence =>
    intro row hrow
    rcases List.mem_append.mp hrow with hrow | hrow
    · have := h.sequence row hrow
      change row.id < nextId
      omega
    · exact (hrange row hrow).2
  case unique => exact VersionedTable.uniqueLive_append h.unique hunique hfree
  case agent =>
    intro row hrow
    rcases List.mem_append.mp hrow with hrow | hrow
    · exact h.agent row hrow
    · exact hagent row hrow
  case users => exact h.users
  case keys => exact h.keys

theorem Constrained.withFacts (h : Constrained t) {facts : List (String × Facts)}
    (husers : (facts.map Prod.fst).Nodup)
    (hkeys : ∀ entry ∈ facts, (entry.2.map Prod.fst).Nodup) :
    Constrained { t with facts := facts } :=
  ⟨h.ids, h.sequence, h.unique, h.agent, husers, hkeys⟩

end Rows

/-! ## The facts -/

section FactLaws

variable {facts : List (String × Facts)} {userId key value : String}

theorem factIn_setFact (user other : String) :
    factIn (setFact facts userId key value) user other
      = if user = userId ∧ other = key then some value else factIn facts user other := by
  unfold factIn setFact
  rw [Dict.get?_set]
  by_cases huser : user = userId
  · subst huser
    rw [if_pos rfl, Option.bind_some, Dict.get?_set]
    by_cases hkey : other = key
    · simp [hkey]
    · cases Dict.get? facts user <;> simp [hkey]
  · simp [huser]

theorem get?_removeFact (user : String) :
    Dict.get? (removeFact facts userId key) user
      = if user = userId then (Dict.get? facts user).map
          fun entries => entries.filter fun kv => decide (kv.1 ≠ key)
        else Dict.get? facts user := by
  unfold removeFact
  induction facts with
  | nil => simp
  | cons entry rest ih =>
      obtain ⟨owner, entries⟩ := entry
      by_cases howner : owner = userId
      · subst howner
        rw [List.map_cons, if_pos rfl, Dict.get?_cons, Dict.get?_cons, ih]
        by_cases huser : user = owner <;> simp [huser]
      · rw [List.map_cons, if_neg howner, Dict.get?_cons, Dict.get?_cons, ih]
        by_cases huser : user = owner
        · subst huser
          simp [howner]
        · simp [huser]

theorem factIn_removeFact (user other : String) :
    factIn (removeFact facts userId key) user other
      = if user = userId ∧ other = key then none else factIn facts user other := by
  unfold factIn
  rw [get?_removeFact]
  by_cases huser : user = userId
  · subst huser
    rw [if_pos rfl]
    cases Dict.get? facts user with
    | none => simp
    | some entries =>
        rw [Option.map_some, Option.bind_some, Option.bind_some, Dict.get?_filter_ne]
        by_cases hkey : other = key <;> simp [hkey]
  · simp [huser]

theorem nodup_users_setFact (h : (facts.map Prod.fst).Nodup) :
    ((setFact facts userId key value).map Prod.fst).Nodup :=
  Dict.nodup_keys_set h _ _

theorem nodup_keys_setFact (h : ∀ entry ∈ facts, (entry.2.map Prod.fst).Nodup) :
    ∀ entry ∈ setFact facts userId key value, (entry.2.map Prod.fst).Nodup := by
  intro entry hentry
  rcases Dict.mem_set hentry with rfl | hentry
  · refine Dict.nodup_keys_set ?_ _ _
    cases hold : Dict.get? facts userId with
    | none => exact List.nodup_nil
    | some entries => exact h _ (Dict.mem_of_get? hold)
  · exact h entry hentry

theorem users_removeFact :
    (removeFact facts userId key).map Prod.fst = facts.map Prod.fst := by
  unfold removeFact
  rw [List.map_map]
  refine List.map_congr_left fun entry _ => ?_
  simp only [Function.comp_apply]
  split <;> rfl

theorem nodup_keys_removeFact (h : ∀ entry ∈ facts, (entry.2.map Prod.fst).Nodup) :
    ∀ entry ∈ removeFact facts userId key, (entry.2.map Prod.fst).Nodup := by
  intro entry hentry
  obtain ⟨old, hold, rfl⟩ := List.mem_map.mp hentry
  split
  · exact (h old hold).sublist (List.filter_sublist.map Prod.fst)
  · exact h old hold

end FactLaws

/-! ## The operations -/

section Operations

variable {env : FloatEnv} {scope : MemoryScope} {memory : MemoryWrite} {now : Time}
  {t : MemoryTables} {identity : MemoryIdentity} {row : MemoryRow}

theorem uniqueLive_singleton (row : MemoryRow) :
    VersionedTable.UniqueLive MemoryRow.identity MemoryRow.active [row] := by
  unfold VersionedTable.UniqueLive
  rw [List.filter_cons]
  split <;> simp

theorem current_singleton :
    VersionedTable.current MemoryRow.identity MemoryRow.active [row] identity
      = if row.identity = identity ∧ row.active = true then some row else none := by
  unfold VersionedTable.current
  rw [List.find?_singleton]
  simp

/-! ### `remember` -/

/-- The tables once the current row of `identity` is superseded. -/
def supersedeCurrent (now : Time) (t : MemoryTables) (identity : MemoryIdentity) :
    MemoryTables :=
  { t with
      rows := VersionedTable.retire
        (fun row => (t.current identity).any fun old => row.id = old.id)
        (MemoryRow.supersede now) t.rows }

theorem supersedeCurrent_current (h : Constrained t) (other : MemoryIdentity) :
    (supersedeCurrent now t identity).current other
      = if other = identity then none else t.current other := by
  unfold supersedeCurrent MemoryTables.current
  rw [VersionedTable.current_retire (retires_supersede now).inactive h.unique]
  change (t.current other).filter (fun row =>
    !((t.current identity).any fun old => row.id = old.id))
      = if other = identity then none else t.current other
  by_cases hid : other = identity
  · subst hid
    cases t.current other <;> simp
  · rw [if_neg hid]
    cases hcurrent : t.current other with
    | none => rfl
    | some row =>
        obtain ⟨hrow, hidentity, -⟩ := current_spec hcurrent
        rw [Option.filter_some, if_pos]
        simp only [Bool.not_eq_true', Option.any_eq_false, decide_eq_false_iff_not]
        intro old hold hsame
        obtain ⟨hold', hidentity', -⟩ := current_spec hold
        rw [h.same_id hrow hold' hsame, hidentity'] at hidentity
        exact hid hidentity.symm

/-- `insertVersion`, when it replaces the current row of its identity. -/
theorem insertVersion_rows :
    (insertVersion env scope memory now (t.current (scope.identity memory.key)) t).1.rows
      = (supersedeCurrent now t (scope.identity memory.key)).rows
        ++ [(insertVersion env scope memory now (t.current (scope.identity memory.key)) t).2] :=
  rfl

/-- A new version takes the place of the current row of its identity. -/
theorem insertVersion_current (h : Constrained t) (identity : MemoryIdentity) :
    (insertVersion env scope memory now (t.current (scope.identity memory.key)) t).1.current
        identity
      = if identity = scope.identity memory.key then
          some (insertVersion env scope memory now (t.current (scope.identity memory.key)) t).2
        else t.current identity := by
  unfold MemoryTables.current
  rw [show (insertVersion env scope memory now
      (VersionedTable.current MemoryRow.identity MemoryRow.active t.rows
        (scope.identity memory.key)) t).1.rows = _ from insertVersion_rows,
    VersionedTable.current_append, current_singleton]
  change ((supersedeCurrent now t (scope.identity memory.key)).current identity).or _ = _
  rw [supersedeCurrent_current h]
  by_cases hid : identity = scope.identity memory.key
  · subst hid
    rw [if_pos rfl, if_pos rfl, Option.none_or]
    exact if_pos ⟨rfl, rfl⟩
  · rw [if_neg hid, if_neg hid, if_neg (fun hsame => hid hsame.1.symm), Option.or_none]
    rfl

theorem insertVersion_constrained (h : Constrained t) :
    Constrained
      (insertVersion env scope memory now (t.current (scope.identity memory.key)) t).1 := by
  have hretired : Constrained (supersedeCurrent now t (scope.identity memory.key)) :=
    h.retire (retires_supersede now) _
  have happended : Constrained { supersedeCurrent now t (scope.identity memory.key) with
      rows := (supersedeCurrent now t (scope.identity memory.key)).rows
        ++ [(insertVersion env scope memory now (t.current (scope.identity memory.key)) t).2]
      nextId := t.nextId + 1 } :=
    hretired.append rfl rfl (uniqueLive_singleton _)
      (fun row hrow _ => by
        rw [List.mem_singleton.mp hrow, supersedeCurrent_current h]
        exact if_pos rfl)
      (fun row hrow hscope => by
        rw [List.mem_singleton.mp hrow] at hscope ⊢
        exact if_neg hscope)
  unfold insertVersion
  split
  · exact happended.withFacts (nodup_users_setFact h.users) (nodup_keys_setFact h.keys)
  · exact happended

/-- `remember` saw a current row that says the same. -/
def Duplicate (t : MemoryTables) (scope : MemoryScope) (memory : MemoryWrite) : Prop :=
  ∃ current, t.current (scope.identity memory.key) = some current
    ∧ sameMemory memory current = true

/-- `remember` returns the current row of a duplicate and otherwise inserts. -/
theorem remember_cases (env : FloatEnv) (scope : MemoryScope) (memory : MemoryWrite)
    (now : Time) (t : MemoryTables) :
    (∃ current, t.current (scope.identity memory.key) = some current
        ∧ sameMemory memory current = true
        ∧ remember env scope memory now t = (t, current))
      ∨ (¬ Duplicate t scope memory
        ∧ remember env scope memory now t
          = insertVersion env scope memory now (t.current (scope.identity memory.key)) t) := by
  unfold remember Duplicate
  cases hcurrent : t.current (scope.identity memory.key) with
  | none => exact Or.inr ⟨by simp, rfl⟩
  | some current =>
      cases hsame : sameMemory memory current with
      | true => exact Or.inl ⟨current, rfl, hsame, by simp [hsame]⟩
      | false => exact Or.inr ⟨by simp [hsame], by simp [hsame]⟩

theorem remember_constrained (h : Constrained t) :
    Constrained (remember env scope memory now t).1 := by
  rcases remember_cases env scope memory now t with ⟨_, -, -, heq⟩ | ⟨-, heq⟩
  · rw [heq]
    exact h
  · rw [heq]
    exact insertVersion_constrained h

/-- After `remember` the row it returns is the current one; no other identity
is touched. -/
theorem remember_current (h : Constrained t) (identity : MemoryIdentity) :
    (remember env scope memory now t).1.current identity
      = if identity = scope.identity memory.key then some (remember env scope memory now t).2
        else t.current identity := by
  rcases remember_cases env scope memory now t with ⟨current, hcurrent, -, heq⟩ | ⟨-, heq⟩
  · rw [heq]
    by_cases hid : identity = scope.identity memory.key
    · rw [if_pos hid, hid, hcurrent]
    · rw [if_neg hid]
  · rw [heq]
    exact insertVersion_current h identity

/-- What the returned row says. -/
theorem remember_row :
    (remember env scope memory now t).2.content = memory.value
      ∧ (remember env scope memory now t).2.validUntil = memory.expiresAt
      ∧ (remember env scope memory now t).2.identity = scope.identity memory.key
      ∧ (remember env scope memory now t).2.active = true := by
  rcases remember_cases env scope memory now t with ⟨current, hcurrent, hsame, heq⟩ | ⟨-, heq⟩
  · rw [heq]
    obtain ⟨-, hidentity, hactive⟩ := current_spec hcurrent
    simp only [sameMemory, Bool.and_eq_true, decide_eq_true_eq] at hsame
    exact ⟨hsame.1, hsame.2, hidentity, hactive⟩
  · rw [heq]
    exact ⟨rfl, rfl, rfl, rfl⟩

/-- A fact changes when a preference for every agent gets a new version. -/
theorem remember_fact (user key : String) :
    (remember env scope memory now t).1.fact user key = t.fact user key
      ∨ (scope.legacy = true ∧ user = scope.userId ∧ key = memory.key
        ∧ ¬ Duplicate t scope memory
        ∧ (remember env scope memory now t).1.fact user key = some memory.value) := by
  rcases remember_cases env scope memory now t with ⟨_, -, -, heq⟩ | ⟨hnew, heq⟩
  · rw [heq]
    exact Or.inl rfl
  · rw [heq]
    unfold insertVersion MemoryTables.fact
    dsimp only
    split
    · rename_i hlegacy
      rw [factIn_setFact]
      by_cases hkey : user = scope.userId ∧ key = memory.key
      · exact Or.inr ⟨hlegacy, hkey.1, hkey.2, hnew, if_pos hkey⟩
      · exact Or.inl (if_neg hkey)
    · exact Or.inl rfl

/-! ### `forget` -/

theorem forget_blank {key : String} (h : strip key = "") : forget scope key now t = (t, false) := by
  unfold forget
  rw [if_pos h]

theorem forget_constrained (h : Constrained t) (key : String) :
    Constrained (forget scope key now t).1 := by
  unfold forget
  split
  · exact h
  · have hretired := h.retire (retires_delete now) fun row =>
      decide (row.identity = scope.identity (strip key)) && row.active
    dsimp only
    split
    · exact hretired.withFacts (by rw [users_removeFact]; exact h.users)
        (nodup_keys_removeFact h.keys)
    · exact hretired

/-- `forget` leaves no current row of its identity. -/
theorem forget_current (h : Constrained t) {key : String} (hkey : strip key ≠ "")
    (identity : MemoryIdentity) :
    (forget scope key now t).1.current identity
      = if identity = scope.identity (strip key) then none else t.current identity := by
  unfold forget
  rw [if_neg hkey]
  unfold MemoryTables.current
  dsimp only
  rw [VersionedTable.current_retire (retires_delete now).inactive h.unique]
  change (t.current identity).filter _
    = if identity = scope.identity (strip key) then none else t.current identity
  cases hcurrent : t.current identity with
  | none => simp
  | some row =>
      obtain ⟨-, hidentity, hactive⟩ := current_spec hcurrent
      rw [Option.filter_some, hidentity, hactive]
      by_cases hid : identity = scope.identity (strip key)
      · simp [hid]
      · simp only [hid, decide_false, Bool.false_and, Bool.not_false, if_true, if_false]

/-- Forgetting a preference for every agent that was there removes its fact. -/
theorem forget_fact {key : String} (hkey : strip key ≠ "") (user other : String) :
    (forget scope key now t).1.fact user other
      = if (t.current (scope.identity (strip key))).isSome = true ∧ scope.legacy = true
            ∧ user = scope.userId ∧ other = strip key then none
        else t.fact user other := by
  unfold forget
  rw [if_neg hkey]
  unfold MemoryTables.fact
  dsimp only
  cases (t.current (scope.identity (strip key))).isSome <;> cases scope.legacy <;>
    simp [factIn_removeFact]

/-! ### `expire_due` -/

theorem expireDue_constrained (h : Constrained t) (tenantId : Option String) (limit : Int) :
    Constrained (expireDue tenantId limit now t).1 :=
  h.retire (retires_expire now) _

theorem mem_dueRows {tenantId : Option String} {limit : Int}
    (h : row ∈ dueRows tenantId limit now t) : row ∈ t.rows ∧ row.due tenantId now = true := by
  have hmem := List.mem_of_mem_take h
  rw [(List.perm_insertionSort _ _).mem_iff, List.mem_filter] at hmem
  exact hmem

/-- A sweep takes away the current rows it has selected. -/
theorem expireDue_current (h : Constrained t) (tenantId : Option String) (limit : Int)
    (identity : MemoryIdentity) :
    (expireDue tenantId limit now t).1.current identity
      = (t.current identity).filter fun row => decide (row ∉ dueRows tenantId limit now t) := by
  unfold expireDue MemoryTables.current
  dsimp only
  rw [VersionedTable.current_retire (retires_expire now).inactive h.unique]
  change (t.current identity).filter _ = (t.current identity).filter _
  cases hcurrent : t.current identity with
  | none => rfl
  | some row =>
      obtain ⟨hrow, -, -⟩ := current_spec hcurrent
      have hiff : row.id ∈ (dueRows tenantId limit now t).map MemoryRow.id
          ↔ row ∈ dueRows tenantId limit now t := by
        constructor
        · intro hid
          obtain ⟨due, hdue, hsame⟩ := List.mem_map.mp hid
          rw [h.same_id hrow (mem_dueRows hdue).1 hsame.symm]
          exact hdue
        · exact List.mem_map_of_mem
      rw [Option.filter_some, Option.filter_some]
      simp only [hiff, decide_not]

/-! ### The backfill -/

theorem mem_allFacts (h : Constrained t) {user key value : String} :
    (user, key, value) ∈ allFacts t ↔ t.fact user key = some value := by
  unfold allFacts MemoryTables.fact factIn
  rw [List.mem_flatMap]
  constructor
  · rintro ⟨⟨owner, entries⟩, hentry, hmem⟩
    obtain ⟨kv, hkv, heq⟩ := List.mem_map.mp hmem
    cases heq
    have hfound : Dict.get? t.facts owner = some entries :=
      (lookup_eq_some_iff_mem h.users).mpr hentry
    rw [hfound, Option.bind_some]
    exact (lookup_eq_some_iff_mem (h.keys _ hentry)).mpr hkv
  · intro hfact
    obtain ⟨entries, hentries, hvalue⟩ := Option.bind_eq_some_iff.mp hfact
    exact ⟨(user, entries), Dict.mem_of_get? hentries,
      List.mem_map.mpr ⟨(key, value), Dict.mem_of_get? hvalue, rfl⟩⟩

theorem nodup_allFacts (h : Constrained t) :
    ((allFacts t).map fun fact => (fact.1, fact.2.1)).Nodup := by
  unfold allFacts
  rw [List.map_flatMap, List.nodup_flatMap]
  constructor
  · intro entry hentry
    rw [List.map_map]
    have hkeys := h.keys entry hentry
    rw [show (fun fact : String × String × String => (fact.1, fact.2.1))
        ∘ (fun kv : String × String => (entry.1, kv.1, kv.2))
      = Prod.mk entry.1 ∘ Prod.fst from rfl, ← List.map_map]
    exact hkeys.map (Prod.mk_right_injective entry.1)
  · refine (List.pairwise_map.mp h.users).imp fun hne => ?_
    intro pair hleft hright
    obtain ⟨fact, hfact, rfl⟩ := List.mem_map.mp hleft
    obtain ⟨_, -, rfl⟩ := List.mem_map.mp hfact
    obtain ⟨other, hother, heq⟩ := List.mem_map.mp hright
    obtain ⟨_, -, rfl⟩ := List.mem_map.mp hother
    exact hne (congrArg Prod.fst heq).symm

/-- The backfill looks for the active row of the identity. -/
theorem lacksRow_iff (h : Constrained t) {user key : String} :
    lacksRow t user key = true ↔ t.current (legacyIdentity user key) = none := by
  rw [current_eq_none]
  unfold lacksRow
  rw [Bool.not_eq_true', List.any_eq_false]
  refine forall₂_congr fun row hrow => ?_
  have hagent := h.agent row hrow
  simp only [Bool.and_eq_true, decide_eq_true_eq, not_and, Bool.not_eq_true, and_imp,
    MemoryRow.identity, legacyIdentity, MemoryIdentity.mk.injEq]
  constructor
  · intro hall htenant huser hscope hspace _ hkey
    exact hall htenant huser hscope hspace (hagent (by rw [hscope]; decide)) hkey
  · intro hall htenant huser hscope hspace hnone hkey
    exact hall htenant huser hscope hspace (by rw [hnone]; rfl) hkey

theorem backfilledRow_identity (user key value : String) (id : Nat) :
    (backfilledRow now user key value id).identity = legacyIdentity user key := rfl

theorem mem_backfilledRows (h : Constrained t) (hrow : row ∈ backfilledRows now t) :
    ∃ user key value, row = backfilledRow now user key value row.id
      ∧ t.fact user key = some value ∧ t.current (legacyIdentity user key) = none := by
  obtain ⟨⟨⟨user, key, value⟩, id⟩, hentry, rfl⟩ := List.mem_map.mp hrow
  have hmem := List.fst_mem_of_mem_zipIdx hentry
  obtain ⟨hfact, hlacks⟩ := List.mem_filter.mp hmem
  exact ⟨user, key, value, rfl, (mem_allFacts h).mp hfact, (lacksRow_iff h).mp hlacks⟩

theorem backfilledRows_ids :
    (backfilledRows now t).map MemoryRow.id
      = List.range' t.nextId (backfilledRows now t).length := by
  unfold backfilledRows
  rw [List.map_map, List.length_map, List.length_zipIdx]
  exact List.zipIdx_map_snd _ _

theorem backfilledRows_unique (h : Constrained t) :
    VersionedTable.UniqueLive MemoryRow.identity MemoryRow.active (backfilledRows now t) := by
  have hnodup : (((allFacts t).filter fun fact => lacksRow t fact.1 fact.2.1).map
      fun fact => legacyIdentity fact.1 fact.2.1).Nodup := by
    have hpairs := (nodup_allFacts h).sublist ((List.filter_sublist
      (p := fun fact : String × String × String => lacksRow t fact.1 fact.2.1)).map
      fun fact => (fact.1, fact.2.1))
    have hinjective : Function.Injective fun pair : String × String =>
        legacyIdentity pair.1 pair.2 := by
      rintro ⟨user, key⟩ ⟨user', key'⟩ heq
      simp only [legacyIdentity, MemoryIdentity.mk.injEq] at heq
      obtain ⟨-, rfl, -, -, -, rfl⟩ := heq
      rfl
    simpa [List.map_map, Function.comp_def] using hpairs.map hinjective
  unfold VersionedTable.UniqueLive
  have hall : (backfilledRows now t).filter MemoryRow.active = backfilledRows now t := by
    refine List.filter_eq_self.mpr fun row hrow => ?_
    obtain ⟨user, key, value, hrow', -, -⟩ := mem_backfilledRows h hrow
    rw [hrow']
    rfl
  rw [hall]
  unfold backfilledRows
  rw [List.map_map]
  have hmap : (fun entry : (String × String × String) × Nat => (backfilledRow now entry.1.1
      entry.1.2.1 entry.1.2.2 entry.2).identity)
      = (fun fact => legacyIdentity fact.1 fact.2.1) ∘ Prod.fst := rfl
  rw [show MemoryRow.identity ∘ _ = _ from hmap, ← List.map_map, List.zipIdx_map_fst]
  exact hnodup

theorem migrate_constrained (h : Constrained t) : Constrained (migrate now t) := by
  refine h.append backfilledRows_ids rfl (backfilledRows_unique h) ?_ ?_
  · intro row hrow _
    obtain ⟨user, key, value, hrow', -, hnone⟩ := mem_backfilledRows h hrow
    rw [hrow', backfilledRow_identity]
    exact hnone
  · intro row hrow _
    obtain ⟨user, key, value, hrow', -, -⟩ := mem_backfilledRows h hrow
    rw [hrow']
    rfl

theorem migrate_current_eq (identity : MemoryIdentity) :
    (migrate now t).current identity = (t.current identity).or
      (VersionedTable.current MemoryRow.identity MemoryRow.active (backfilledRows now t)
        identity) :=
  VersionedTable.current_append _

/-- The backfill adds a current row for a fact whose identity has none, and
nothing else. -/
theorem migrate_current (h : Constrained t) (hrow : (migrate now t).current identity = some row) :
    t.current identity = some row
      ∨ ∃ user key value, identity = legacyIdentity user key ∧ t.fact user key = some value
        ∧ t.current identity = none ∧ row = backfilledRow now user key value row.id := by
  rw [migrate_current_eq] at hrow
  cases hcurrent : t.current identity with
  | some old =>
      rw [hcurrent, Option.some_or] at hrow
      exact Or.inl hrow
  | none =>
      rw [hcurrent, Option.none_or] at hrow
      obtain ⟨hmem, hidentity, -⟩ := VersionedTable.current_spec hrow
      obtain ⟨user, key, value, hrow', hfact, -⟩ := mem_backfilledRows h hmem
      refine Or.inr ⟨user, key, value, ?_, hfact, rfl, hrow'⟩
      rw [← hidentity, hrow', backfilledRow_identity]

end Operations

/-! ## Runs of the provider -/

/-- Tables within the constraints of the schema. -/
structure MemoryStore where
  tables : MemoryTables
  constrained : Constrained tables

/-- The operations that reach the tables. One that fails is rolled back and is
no step. -/
inductive MemoryOp where
  | remember (scope : MemoryScope) (memory : MemoryWrite) (now : Time)
  | forget (scope : MemoryScope) (key : String) (now : Time)
  | expireDue (tenantId : Option String) (limit : Int) (now : Time)
  | migrate (now : Time)

def applyOp (env : FloatEnv) (t : MemoryTables) : MemoryOp → MemoryTables
  | .remember scope memory now => (remember env scope memory now t).1
  | .forget scope key now => (forget scope key now t).1
  | .expireDue tenantId limit now => (expireDue tenantId limit now t).1
  | .migrate now => migrate now t

def memoryStep (env : FloatEnv) (t : MemoryTables) (op : MemoryOp) : Option MemoryTables :=
  some (applyOp env t op)

theorem applyOp_constrained {env : FloatEnv} {t : MemoryTables} (h : Constrained t)
    (op : MemoryOp) : Constrained (applyOp env t op) := by
  cases op with
  | remember scope memory now => exact remember_constrained h
  | forget scope key now => exact forget_constrained h key
  | expireDue tenantId limit now => exact expireDue_constrained h tenantId limit
  | migrate now => exact migrate_constrained h

end Aegora
