import Aegora.ReleaseRequests

/-!
# Versions without gaps, revocations that somebody hears of

Reading the next version and inserting it are two transactions, so two
publications may read the same number. The unique constraint lets one of them
in. A number that was read is at most one more than there are versions
(`VersionRead`), and a smaller one is taken; so what gets in is the next one.

A revocation is one guarded `UPDATE`. The request whose `UPDATE` has changed the
row will be answered so, whatever happens to the event; `countP` keeps the
books.
-/

namespace Aegora

open Py

/-! ## What is kept -/

/-- Exactly the numbers from 1 to the number of them. -/
def Consecutive (versions : List Nat) : Prop :=
  versions.Nodup ∧ ∀ v, v ∈ versions ↔ 1 ≤ v ∧ v ≤ versions.length

/-- The row of a release later on. -/
structure StoredRelease.Later (row row' : StoredRelease) : Prop where
  id : row'.id = row.id
  agentId : row'.agentId = row.agentId
  version : row'.version = row.version
  configJson : row'.configJson = row.configJson
  status : row'.status = row.status ∨ (row.status = .published ∧ row'.status = .revoked)

/-- Every release is still there; it may have been revoked since. -/
def LaterRows (rows rows' : List StoredRelease) : Prop :=
  ∀ row ∈ rows, ∃ row' ∈ rows', row.Later row'

def StoredRelease.key (row : StoredRelease) : String × String := (row.id, row.agentId)

/-- The release that the request has been answered to have revoked. -/
def ReleaseRequest.reported : ReleaseRequest → Option (String × String)
  | .answered (.revoked releaseId agentId _) => some (releaseId, agentId)
  | _ => none

/-- The release that the request has revoked: it is answered so, or about to be. -/
def ReleaseRequest.revoked : ReleaseRequest → Option (String × String)
  | .revoke agentId releaseId _ (.updated _) => some (releaseId, agentId)
  | request => request.reported

def ReleaseRequest.isAnswered : ReleaseRequest → Bool
  | .answered _ => true
  | _ => false

/-- Rows within the constraints of the table, numbered from 1 for each agent. -/
structure ReleaseStore where
  rows : List StoredRelease
  ids : (rows.map StoredRelease.id).Nodup
  numbered : ∀ agentId, Consecutive (versionsOf rows agentId)

/-- The release was revoked from the start. -/
def ReleaseStore.revoked (start : ReleaseStore) (row : StoredRelease) : Prop :=
  ∃ old ∈ start.rows, old.id = row.id ∧ old.status = .revoked

/-! ## Numbers -/

section Numbers

variable {versions : List Nat} {v : Nat}

theorem Consecutive.max (h : Consecutive versions) : versions.max?.getD 0 = versions.length := by
  cases hmax : versions.max? with
  | none =>
      rw [List.max?_eq_none_iff.mp hmax]
      rfl
  | some m =>
      obtain ⟨hm, hle⟩ := List.max?_eq_some_iff.mp hmax
      obtain ⟨hpos, hlength⟩ := (h.2 m).mp hm
      exact Nat.le_antisymm hlength (hle _ ((h.2 _).mpr ⟨hpos.trans hlength, Nat.le_refl _⟩))

theorem Consecutive.snoc (h : Consecutive versions) :
    Consecutive (versions ++ [versions.length + 1]) := by
  refine ⟨?_, fun v => ?_⟩
  · refine List.nodup_append.mpr ⟨h.1, List.nodup_singleton _, fun a ha b hb hab => ?_⟩
    rw [List.mem_singleton] at hb
    have hle := ((h.2 a).mp ha).2
    omega
  · rw [List.mem_append, List.mem_singleton, h.2, List.length_append, List.length_singleton]
    omega

/-- A number that is not taken is the next one. -/
theorem Consecutive.next (h : Consecutive versions) (hpos : 1 ≤ v)
    (hle : v ≤ versions.length + 1) (hfree : v ∉ versions) : v = versions.length + 1 := by
  by_contra hne
  exact hfree ((h.2 v).mpr ⟨hpos, by omega⟩)

end Numbers

/-! ## Rows -/

section Rows

variable {rows rows' : List StoredRelease} {row row' : StoredRelease}
  {releaseId agentId actorId : String} {version : Nat} {config : Json}

theorem StoredRelease.Later.refl (row : StoredRelease) : row.Later row :=
  ⟨rfl, rfl, rfl, rfl, Or.inl rfl⟩

theorem StoredRelease.Later.trans {row'' : StoredRelease} (h : row.Later row')
    (h' : row'.Later row'') : row.Later row'' := by
  refine ⟨h'.id.trans h.id, h'.agentId.trans h.agentId, h'.version.trans h.version,
    h'.configJson.trans h.configJson, ?_⟩
  rcases h'.status with hsame | ⟨hpublished, hrevoked⟩
  · rw [hsame]
    exact h.status
  · rcases h.status with hsame | ⟨-, hbefore⟩
    · exact Or.inr ⟨hsame ▸ hpublished, hrevoked⟩
    · rw [hbefore] at hpublished
      cases hpublished

theorem LaterRows.refl (rows : List StoredRelease) : LaterRows rows rows :=
  fun row hrow => ⟨row, hrow, .refl row⟩

theorem LaterRows.trans {rows'' : List StoredRelease} (h : LaterRows rows rows')
    (h' : LaterRows rows' rows'') : LaterRows rows rows'' := by
  intro row hrow
  obtain ⟨row', hrow', hlater⟩ := h row hrow
  obtain ⟨row'', hrow'', hlater'⟩ := h' row' hrow'
  exact ⟨row'', hrow'', hlater.trans hlater'⟩

/-- The row that a publication adds. -/
theorem saveAgentRelease_cases
    (h : saveAgentRelease rows releaseId agentId version config actorId = some rows') :
    ∃ row, rows' = rows ++ [row] ∧ row.id = releaseId ∧ row.agentId = agentId
      ∧ row.version = version ∧ row.status = .published
      ∧ (∀ old ∈ rows, old.id ≠ releaseId) ∧ version ∉ versionsOf rows agentId := by
  unfold saveAgentRelease at h
  split at h
  · cases h
  · rename_i hfree
    cases h
    rw [Bool.not_eq_true, List.any_eq_false] at hfree
    refine ⟨_, rfl, rfl, rfl, rfl, rfl, fun old hold hid => hfree old hold (by simp [hid]),
      fun hmem => ?_⟩
    obtain ⟨old, hold, hversion⟩ := List.mem_map.mp hmem
    obtain ⟨hold, hagent⟩ := List.mem_filter.mp hold
    rw [decide_eq_true_eq] at hagent
    exact hfree old hold (by simp [hagent, hversion])

theorem versionsOf_append (new : StoredRelease) (agentId : String) :
    versionsOf (rows ++ [new]) agentId
      = versionsOf rows agentId ++ if new.agentId = agentId then [new.version] else [] := by
  unfold versionsOf
  rw [List.filter_append, List.map_append, List.filter_singleton]
  split <;> simp_all

/-- A revocation changes statuses only. -/
theorem versionsOf_revoke (agentId releaseId other : String) :
    versionsOf (revokeAgentRelease rows agentId releaseId).1 other = versionsOf rows other := by
  unfold versionsOf revokeAgentRelease
  induction rows with
  | nil => rfl
  | cons row rest ih =>
      simp only [List.map_cons, List.filter_cons] at ih ⊢
      split <;> split <;> simp_all

theorem ids_revoke (agentId releaseId : String) :
    (revokeAgentRelease rows agentId releaseId).1.map StoredRelease.id
      = rows.map StoredRelease.id := by
  unfold revokeAgentRelease
  rw [List.map_map]
  refine List.map_congr_left fun row _ => ?_
  simp only [Function.comp_apply]
  split <;> rfl

theorem mem_revoke : row' ∈ (revokeAgentRelease rows agentId releaseId).1
    ↔ ∃ row ∈ rows, row' = if row.revocable agentId releaseId
      then { row with status := .revoked } else row := by
  unfold revokeAgentRelease
  rw [List.mem_map]
  exact exists_congr fun row => and_congr_right fun _ => eq_comm

theorem revocable_iff : row.revocable agentId releaseId = true
    ↔ row.key = (releaseId, agentId) ∧ row.status = .published := by
  simp [StoredRelease.revocable, StoredRelease.key]

/-- The `UPDATE` finds one published row of the release, or changes nothing. -/
theorem revokeAgentRelease_cases (agentId releaseId : String)
    (hids : (rows.map StoredRelease.id).Nodup) :
    (∃ row ∈ rows, row.key = (releaseId, agentId) ∧ row.status = .published
        ∧ (revokeAgentRelease rows agentId releaseId).2 = true)
      ∨ revokeAgentRelease rows agentId releaseId = (rows, false) := by
  by_cases hrow : ∃ row ∈ rows, row.revocable agentId releaseId = true
  · obtain ⟨row, hrow, hrevocable⟩ := hrow
    obtain ⟨hkey, hstatus⟩ := revocable_iff.mp hrevocable
    refine Or.inl ⟨row, hrow, hkey, hstatus, ?_⟩
    have hone : rows.filter (StoredRelease.revocable agentId releaseId) = [row] := by
      refine List.perm_singleton.mp ((List.perm_ext_iff_of_nodup
        (hids.of_map.filter _) (List.nodup_singleton _)).mpr fun other => ?_)
      rw [List.mem_filter, List.mem_singleton]
      constructor
      · rintro ⟨hother, hrevocable'⟩
        refine List.inj_on_of_nodup_map hids hother hrow ?_
        have hsame := (revocable_iff.mp hrevocable').1.trans hkey.symm
        exact (Prod.mk.inj hsame).1
      · rintro rfl
        exact ⟨hrow, hrevocable⟩
    unfold revokeAgentRelease
    rw [hone]
    rfl
  · refine Or.inr ?_
    have hnone : ∀ row ∈ rows, ¬ row.revocable agentId releaseId = true :=
      fun row hmem hrevocable => hrow ⟨row, hmem, hrevocable⟩
    unfold revokeAgentRelease
    rw [List.filter_eq_nil_iff.mpr hnone,
      List.map_congr_left fun row hmem => if_neg (hnone row hmem), List.map_id']
    rfl

theorem later_revoke (agentId releaseId : String) :
    LaterRows rows (revokeAgentRelease rows agentId releaseId).1 := by
  intro row hrow
  refine ⟨_, mem_revoke.mpr ⟨row, hrow, rfl⟩, ?_⟩
  split
  · rename_i hrevocable
    exact ⟨rfl, rfl, rfl, rfl, Or.inr ⟨(revocable_iff.mp hrevocable).2, rfl⟩⟩
  · exact .refl row

/-- A new release of the next version keeps the ids and the numbers. -/
theorem add_release {row : StoredRelease} (hids : (rows.map StoredRelease.id).Nodup)
    (hnumbered : ∀ agentId, Consecutive (versionsOf rows agentId))
    (hid : ∀ old ∈ rows, old.id ≠ row.id)
    (hversion : row.version = (versionsOf rows row.agentId).length + 1) :
    ((rows ++ [row]).map StoredRelease.id).Nodup
      ∧ ∀ agentId, Consecutive (versionsOf (rows ++ [row]) agentId) := by
  refine ⟨?_, fun agentId => ?_⟩
  · rw [List.map_append, List.map_singleton]
    refine List.nodup_append.mpr ⟨hids, List.nodup_singleton _, fun a ha b hb hab => ?_⟩
    obtain ⟨old, hold, rfl⟩ := List.mem_map.mp ha
    exact hid old hold (hab.trans (List.mem_singleton.mp hb))
  · rw [versionsOf_append]
    split
    · rename_i hagent
      rw [hversion, hagent]
      exact (hnumbered agentId).snoc
    · rw [List.append_nil]
      exact hnumbered agentId

end Rows

/-! ## Steps -/

/-- A number that a publication has read is at most the next one. -/
def VersionRead (rows : List StoredRelease) : ReleaseRequest → Prop
  | .publish agentId _ _ _ _ (.versioned version)
  | .publish agentId _ _ _ _ (.built version _) =>
      1 ≤ version ∧ version ≤ (versionsOf rows agentId).length + 1
  | _ => True

/-- What one step of a request does: nothing to the rows, the next release of an agent, or
a revocation. -/
inductive ReleaseEffect (rows : List StoredRelease) (request : ReleaseRequest) :
    List StoredRelease → ReleaseRequest → Prop where
  | none {request' : ReleaseRequest} (h : request'.revoked = request.revoked)
      (hread : VersionRead rows request') : ReleaseEffect rows request rows request'
  | published {request' : ReleaseRequest} {row : StoredRelease}
      (h : request'.revoked = request.revoked) (hread : ∀ rows, VersionRead rows request')
      (hstatus : row.status = .published) (hid : ∀ old ∈ rows, old.id ≠ row.id)
      (hversion : row.version = (versionsOf rows row.agentId).length + 1) :
      ReleaseEffect rows request (rows ++ [row]) request'
  | revoked {request' : ReleaseRequest} {row : StoredRelease} {agentId releaseId : String}
      (hread : ∀ rows, VersionRead rows request') (hrow : row ∈ rows)
      (hkey : row.key = (releaseId, agentId)) (hstatus : row.status = .published)
      (hbefore : request.revoked = Option.none)
      (hafter : request'.revoked = some (releaseId, agentId)) :
      ReleaseEffect rows request (revokeAgentRelease rows agentId releaseId).1 request'

section Steps

variable {rows rows' : List StoredRelease} {request request' : ReleaseRequest}

theorem publish_effect {agentId releaseId actorId : String} {admission : Option HttpFailure}
    {snapshot : Except HttpFailure Json} {step : PublishStep}
    (hnumbered : Consecutive (versionsOf rows agentId))
    (hread : VersionRead rows (.publish agentId releaseId actorId admission snapshot step))
    (h : publishStep rows agentId releaseId actorId admission snapshot step = (rows', request')) :
    ReleaseEffect rows (.publish agentId releaseId actorId admission snapshot step) rows'
      request' := by
  cases step with
  | begun =>
      cases admission with
      | some failure =>
          cases h
          exact .none rfl trivial
      | none =>
          cases h
          exact .none rfl trivial
  | admitted =>
      cases h
      refine .none rfl ⟨Nat.le_add_left _ _, ?_⟩
      unfold nextReleaseVersion
      rw [hnumbered.max]
  | versioned version =>
      cases snapshot with
      | error failure =>
          cases h
          exact .none rfl trivial
      | ok config =>
          cases h
          exact .none rfl hread
  | built version config =>
      rw [publishStep] at h
      split at h
      · cases h
        exact .none rfl trivial
      · rename_i hsaved
        cases h
        obtain ⟨row, rfl, rfl, rfl, rfl, hstatus, hid, hfree⟩ := saveAgentRelease_cases hsaved
        exact .published rfl (fun _ => trivial) hstatus hid
          (hnumbered.next hread.1 hread.2 hfree)
  | saved version =>
      cases h
      exact .none rfl trivial

theorem revoke_effect {agentId releaseId : String} {admission : Option HttpFailure}
    {step : RevokeStep} (hids : (rows.map StoredRelease.id).Nodup)
    (h : revokeStep rows agentId releaseId admission step = (rows', request')) :
    ReleaseEffect rows (.revoke agentId releaseId admission step) rows' request' := by
  cases step with
  | begun =>
      cases admission with
      | some failure =>
          cases h
          exact .none rfl trivial
      | none =>
          cases h
          exact .none rfl trivial
  | admitted =>
      rw [revokeStep] at h
      split at h
      · cases h
        exact .none rfl trivial
      · cases h
        exact .none rfl trivial
  | fetched version =>
      rw [revokeStep] at h
      rcases revokeAgentRelease_cases agentId releaseId hids with
        ⟨row, hrow, hkey, hstatus, hchanged⟩ | hsame
      · split at h
        · rename_i hcases
          rw [hcases] at hchanged
          cases hchanged
        · rename_i hcases
          cases h
          have hrows : (revokeAgentRelease rows agentId releaseId).1 = rows' := by rw [hcases]
          rw [← hrows]
          exact .revoked (fun _ => trivial) hrow hkey hstatus rfl rfl
      · rw [hsame] at h
        cases h
        exact .none rfl trivial
  | updated version =>
      cases h
      exact .none rfl trivial

/-- One step of a request. -/
theorem next_effect (hids : (rows.map StoredRelease.id).Nodup)
    (hnumbered : ∀ agentId, Consecutive (versionsOf rows agentId))
    (hread : VersionRead rows request) (h : request.next rows = some (rows', request')) :
    ReleaseEffect rows request rows' request' := by
  cases request with
  | publish agentId releaseId actorId admission snapshot step =>
      exact publish_effect (hnumbered agentId) hread (Option.some.inj h)
  | revoke agentId releaseId admission step => exact revoke_effect hids (Option.some.inj h)
  | answered answer => cases h

/-- A number that was read stays possible while versions are only added. -/
theorem VersionRead.later (h : VersionRead rows request)
    (hmore : ∀ agentId, (versionsOf rows agentId).length ≤ (versionsOf rows' agentId).length) :
    VersionRead rows' request := by
  cases request with
  | publish agentId releaseId actorId admission snapshot step =>
      cases step with
      | versioned version => exact ⟨h.1, h.2.trans (Nat.succ_le_succ (hmore agentId))⟩
      | built version config => exact ⟨h.1, h.2.trans (Nat.succ_le_succ (hmore agentId))⟩
      | begun => trivial
      | admitted => trivial
      | saved version => trivial
  | revoke agentId releaseId admission step => trivial
  | answered answer => trivial

end Steps

/-! ## Runs -/

/-- How many requests have revoked the release of a row. -/
def revocations (requests : List ReleaseRequest) (row : StoredRelease) : Nat :=
  requests.countP fun request => request.revoked = some row.key

structure ReleaseInv (start : ReleaseStore) (s : ReleaseState) : Prop where
  ids : (s.rows.map StoredRelease.id).Nodup
  numbered : ∀ agentId, Consecutive (versionsOf s.rows agentId)
  later : LaterRows start.rows s.rows
  read : ∀ request ∈ s.requests, VersionRead s.rows request
  known : ∀ request ∈ s.requests, ∀ key, request.revoked = some key →
    ∃ row ∈ s.rows, row.key = key
  once : ∀ row ∈ s.rows, row.status = .revoked → ¬ start.revoked row →
    revocations s.requests row = 1
  never : ∀ row ∈ s.rows, row.status = .published ∨ start.revoked row →
    revocations s.requests row = 0

section Invariant

variable {start : ReleaseStore} {s s' : ReleaseState} {i : Nat} {request request' : ReleaseRequest}
  {rows' : List StoredRelease}

/-- A step that revokes nothing leaves the books. -/
theorem revocations_set (hi : s.requests[i]? = some request)
    (h : request'.revoked = request.revoked) (row : StoredRelease) :
    revocations (s.requests.set i request') row = revocations s.requests row := by
  have hcount := Runs.countP_set_add (y := request') hi
    fun request => decide (request.revoked = some row.key)
  rw [h] at hcount
  exact Nat.add_right_cancel hcount

theorem ReleaseInv.none (h : ReleaseInv start s) (hi : s.requests[i]? = some request)
    (hrevoked : request'.revoked = request.revoked) (hread : VersionRead s.rows request') :
    ReleaseInv start ⟨s.rows, s.requests.set i request'⟩ := by
  have hrequest := List.mem_of_getElem? hi
  refine { h with
    read := fun other hother => ?_
    known := fun other hother key hkey => ?_
    once := fun row hrow hstatus hstart => ?_
    never := fun row hrow hstatus => ?_ }
  · rcases List.mem_or_eq_of_mem_set hother with hother | rfl
    · exact h.read other hother
    · exact hread
  · rcases List.mem_or_eq_of_mem_set hother with hother | rfl
    · exact h.known other hother key hkey
    · exact h.known request hrequest key (hrevoked ▸ hkey)
  · rw [revocations_set hi hrevoked]
    exact h.once row hrow hstatus hstart
  · rw [revocations_set hi hrevoked]
    exact h.never row hrow hstatus

theorem ReleaseInv.published (h : ReleaseInv start s) (hi : s.requests[i]? = some request)
    (hrevoked : request'.revoked = request.revoked) (hread : ∀ rows, VersionRead rows request')
    {row : StoredRelease} (hstatus : row.status = .published)
    (hid : ∀ old ∈ s.rows, old.id ≠ row.id)
    (hversion : row.version = (versionsOf s.rows row.agentId).length + 1) :
    ReleaseInv start ⟨s.rows ++ [row], s.requests.set i request'⟩ := by
  have hrequest := List.mem_of_getElem? hi
  have hnew : revocations s.requests row = 0 := by
    refine List.countP_eq_zero.mpr fun other hother hsame => ?_
    obtain ⟨old, hold, hkey⟩ := h.known other hother row.key (of_decide_eq_true hsame)
    exact hid old hold (Prod.mk.inj hkey).1
  have hcases : ∀ other, other ∈ s.rows ++ [row] → other ∈ s.rows ∨ other = row := fun other hmem =>
    (List.mem_append.mp hmem).imp_right List.mem_singleton.mp
  obtain ⟨hids, hnumbered⟩ := add_release h.ids h.numbered hid hversion
  refine {
    ids := hids
    numbered := hnumbered
    later := h.later.trans fun old hold => ⟨old, List.mem_append_left _ hold, .refl old⟩
    read := fun other hother => ?_
    known := fun other hother key hkey => ?_
    once := fun other hother hother' hstart => ?_
    never := fun other hother hother' => ?_ }
  · rcases List.mem_or_eq_of_mem_set hother with hother | rfl
    · refine (h.read other hother).later fun agentId => ?_
      rw [versionsOf_append, List.length_append]
      exact Nat.le_add_right _ _
    · exact hread _
  · have hbefore : ∃ old ∈ s.rows, old.key = key := by
      rcases List.mem_or_eq_of_mem_set hother with hother | rfl
      · exact h.known other hother key hkey
      · exact h.known request hrequest key (hrevoked ▸ hkey)
    obtain ⟨old, hold, holdKey⟩ := hbefore
    exact ⟨old, List.mem_append_left _ hold, holdKey⟩
  · rw [revocations_set hi hrevoked]
    rcases hcases other hother with hother | rfl
    · exact h.once other hother hother' hstart
    · rw [hstatus] at hother'
      cases hother'
  · rw [revocations_set hi hrevoked]
    rcases hcases other hother with hother | rfl
    · exact h.never other hother hother'
    · exact hnew

/-- What was revoked from the start is not published later. -/
theorem ReleaseInv.not_published (h : ReleaseInv start s) {row : StoredRelease}
    (hrow : row ∈ s.rows) (hstart : start.revoked row) : row.status ≠ .published := by
  obtain ⟨old, hold, hid, hstatus⟩ := hstart
  obtain ⟨row', hrow', hlater⟩ := h.later old hold
  have hsame : row' = row := List.inj_on_of_nodup_map h.ids hrow' hrow (hlater.id.trans hid)
  rw [← hsame]
  rcases hlater.status with hkept | ⟨hpublished, -⟩
  · rw [hkept, hstatus]
    exact fun heq => nomatch heq
  · rw [hstatus] at hpublished
    cases hpublished

/-- A row is the published one of the key, or unchanged and of another key. -/
theorem ReleaseInv.revoked (h : ReleaseInv start s) (hi : s.requests[i]? = some request)
    {agentId releaseId : String} (hread : ∀ rows, VersionRead rows request')
    {row : StoredRelease} (hrow : row ∈ s.rows) (hkey : row.key = (releaseId, agentId))
    (hstatus : row.status = .published)
    (hbefore : request.revoked = Option.none)
    (hafter : request'.revoked = some (releaseId, agentId)) :
    ReleaseInv start
      ⟨(revokeAgentRelease s.rows agentId releaseId).1, s.requests.set i request'⟩ := by
  have hcount : ∀ other : StoredRelease, revocations (s.requests.set i request') other
      = revocations s.requests other + if (releaseId, agentId) = other.key then 1 else 0 := by
    intro other
    have hset := Runs.countP_set_add (y := request') hi
      fun request => decide (request.revoked = some other.key)
    rw [hbefore, hafter] at hset
    simpa [revocations] using hset
  have hcases : ∀ row' ∈ (revokeAgentRelease s.rows agentId releaseId).1, ∃ old ∈ s.rows,
      row'.key = old.key ∧ ((old.status = .published ∧ row'.status = .revoked
        ∧ (releaseId, agentId) = old.key) ∨ (row' = old ∧ (releaseId, agentId) ≠ old.key)) := by
    intro row' hrow'
    obtain ⟨old, hold, rfl⟩ := mem_revoke.mp hrow'
    refine ⟨old, hold, ?_⟩
    split
    · rename_i hrevocable
      obtain ⟨holdKey, holdStatus⟩ := revocable_iff.mp hrevocable
      exact ⟨rfl, Or.inl ⟨holdStatus, rfl, holdKey.symm⟩⟩
    · rename_i hrevocable
      refine ⟨rfl, Or.inr ⟨rfl, fun hsame => hrevocable ?_⟩⟩
      have hid : old.id = row.id := (Prod.mk.inj (hsame.symm.trans hkey.symm)).1
      rw [List.inj_on_of_nodup_map h.ids hold hrow hid]
      exact revocable_iff.mpr ⟨hkey, hstatus⟩
  have hstart : ∀ row' old : StoredRelease, row'.key = old.key →
      (start.revoked row' ↔ start.revoked old) := by
    intro row' old hsame
    unfold ReleaseStore.revoked
    rw [(Prod.mk.inj hsame).1]
  refine {
    ids := by rw [ids_revoke]; exact h.ids
    numbered := fun other => by rw [versionsOf_revoke]; exact h.numbered other
    later := h.later.trans (later_revoke agentId releaseId)
    read := fun other hother => ?_
    known := fun other hother key hkey => ?_
    once := fun row' hrow' hstatus' hnew => ?_
    never := fun row' hrow' hstatus' => ?_ }
  · rcases List.mem_or_eq_of_mem_set hother with hother | rfl
    · exact (h.read other hother).later fun agent => by rw [versionsOf_revoke]
    · exact hread _
  · have hold : ∃ old ∈ s.rows, old.key = key := by
      rcases List.mem_or_eq_of_mem_set hother with hother | rfl
      · exact h.known other hother key hkey
      · rw [hafter] at hkey
        cases hkey
        exact ⟨row, hrow, by assumption⟩
    obtain ⟨old, hold, rfl⟩ := hold
    refine ⟨_, mem_revoke.mpr ⟨old, hold, rfl⟩, ?_⟩
    split <;> rfl
  · obtain ⟨old, hold, hsame, ⟨holdStatus, -, holdKey⟩ | ⟨rfl, hother⟩⟩ := hcases row' hrow'
    · rw [hcount, hsame, if_pos holdKey]
      have hzero := h.never old hold (Or.inl holdStatus)
      unfold revocations at hzero ⊢
      rw [hsame, hzero]
    · rw [hcount, if_neg hother]
      exact h.once row' hold hstatus' hnew
  · obtain ⟨old, hold, hsame, ⟨holdStatus, hrevoked, -⟩ | ⟨rfl, hother⟩⟩ := hcases row' hrow'
    · rcases hstatus' with hpublished | hold'
      · rw [hrevoked] at hpublished
        cases hpublished
      · exact absurd holdStatus (h.not_published hold ((hstart row' old hsame).mp hold'))
    · rw [hcount, if_neg hother]
      exact h.never row' hold hstatus'

theorem ReleaseInv.arrive (h : ReleaseInv start s) (hrevoked : request.revoked = Option.none)
    (hread : VersionRead s.rows request) :
    ReleaseInv start { s with requests := s.requests ++ [request] } := by
  have hcount : ∀ row : StoredRelease,
      revocations (s.requests ++ [request]) row = revocations s.requests row := by
    intro row
    simp [revocations, List.countP_append, hrevoked]
  refine { h with
    read := fun other hother => ?_
    known := fun other hother key hkey => ?_
    once := fun row hrow hstatus hstart => ?_
    never := fun row hrow hstatus => ?_ }
  · rcases List.mem_append.mp hother with hother | hother
    · exact h.read other hother
    · rw [List.mem_singleton.mp hother]
      exact hread
  · rcases List.mem_append.mp hother with hother | hother
    · exact h.known other hother key hkey
    · rw [List.mem_singleton.mp hother, hrevoked] at hkey
      cases hkey
  · rw [hcount]
    exact h.once row hrow hstatus hstart
  · rw [hcount]
    exact h.never row hrow hstatus

theorem releaseStep_inv (h : ReleaseInv start s) {action : ReleaseAction}
    (hstep : releaseStep s action = some s') :
    ReleaseInv start s' ∧ LaterRows s.rows s'.rows := by
  cases action with
  | publish agentId releaseId actorId admission snapshot =>
      cases hstep
      exact ⟨h.arrive rfl trivial, .refl _⟩
  | revoke agentId releaseId admission =>
      cases hstep
      exact ⟨h.arrive rfl trivial, .refl _⟩
  | next i =>
      obtain ⟨request, hi, hstep⟩ := Option.bind_eq_some_iff.mp hstep
      obtain ⟨⟨rows', request'⟩, hnext, hstep⟩ := Option.bind_eq_some_iff.mp hstep
      cases hstep
      rcases next_effect h.ids h.numbered (h.read request (List.mem_of_getElem? hi)) hnext with
        ⟨hrevoked, hread⟩ | ⟨hrevoked, hread, hstatus, hid, hversion⟩ |
          ⟨hread, hrow, hkey, hstatus, hbefore, hafter⟩
      · exact ⟨h.none hi hrevoked hread, .refl _⟩
      · exact ⟨h.published hi hrevoked hread hstatus hid hversion,
          fun old hold => ⟨old, List.mem_append_left _ hold, .refl old⟩⟩
      · exact ⟨h.revoked hi hread hrow hkey hstatus hbefore hafter, later_revoke _ _⟩
  | fail i =>
      obtain ⟨request, hi, hstep⟩ := Option.bind_eq_some_iff.mp hstep
      split at hstep
      · rename_i hdatabase
        cases hstep
        refine ⟨h.none hi ?_ trivial, .refl _⟩
        unfold ReleaseRequest.atDatabase at hdatabase
        split at hdatabase
        · cases hdatabase
        · cases hdatabase
        · cases hdatabase
        · rename_i hsaved hupdated hanswered
          cases request with
          | publish agentId releaseId actorId admission snapshot step => rfl
          | revoke agentId releaseId admission step =>
              cases step with
              | updated version => exact absurd rfl (hupdated _ _ _ _)
              | _ => rfl
          | answered answer => exact absurd rfl (hanswered _)
      · cases hstep

theorem ReleaseStore.inv (start : ReleaseStore) : ReleaseInv start ⟨start.rows, []⟩ where
  ids := start.ids
  numbered := start.numbered
  later := .refl _
  read _ hrequest := nomatch hrequest
  known _ hrequest := nomatch hrequest
  once row hrow hstatus hnew := absurd ⟨row, hrow, rfl, hstatus⟩ hnew
  never _ _ _ := rfl

/-- Once every request is answered, what has revoked a release has reported it. -/
theorem revocations_answered {requests : List ReleaseRequest}
    (h : ∀ request ∈ requests, request.isAnswered = true) (row : StoredRelease) :
    requests.countP (fun request => request.reported = some row.key)
      = revocations requests row := by
  unfold revocations
  refine List.countP_congr fun request hrequest => ?_
  cases request with
  | answered answer => exact Iff.rfl
  | publish agentId releaseId actorId admission snapshot step => cases h _ hrequest
  | revoke agentId releaseId admission step => cases h _ hrequest

end Invariant

/-- In every run the releases of an agent are numbered from 1 without gaps, a stored release
changes in its status at most, from published to revoked, and each revocation is that of one
request, which reports it once it is answered. -/
theorem releases_kept (start : ReleaseStore) (before after : List ReleaseAction)
    (u s : ReleaseState) (hbefore : Runs.run releaseStep ⟨start.rows, []⟩ before = some u)
    (hafter : Runs.run releaseStep u after = some s) :
    ((s.rows.map StoredRelease.id).Nodup ∧ ∀ agentId, Consecutive (versionsOf s.rows agentId))
      ∧ LaterRows u.rows s.rows
      ∧ (∀ row ∈ s.rows,
        (row.status = .revoked → ¬ start.revoked row → revocations s.requests row = 1)
          ∧ (row.status = .published → revocations s.requests row = 0))
      ∧ ((∀ request ∈ s.requests, request.isAnswered = true) →
        ∀ row ∈ s.rows, row.status = .revoked → ¬ start.revoked row →
          s.requests.countP (fun request => request.reported = some row.key) = 1) := by
  have hstep : ∀ t action t', ReleaseInv start t → releaseStep t action = some t' →
      ReleaseInv start t' := fun _ _ _ ht hstep => (releaseStep_inv ht hstep).1
  have hinv : ReleaseInv start u := Runs.run_invariant' hstep start.inv hbefore
  have hkept : ReleaseInv start s ∧ LaterRows u.rows s.rows :=
    Runs.run_invariant' (I := fun t => ReleaseInv start t ∧ LaterRows u.rows t.rows)
      (fun _ _ _ ht hstep => ⟨(releaseStep_inv ht.1 hstep).1,
        ht.2.trans (releaseStep_inv ht.1 hstep).2⟩) ⟨hinv, .refl _⟩ hafter
  obtain ⟨hs, hlater⟩ := hkept
  refine ⟨⟨hs.ids, hs.numbered⟩, hlater, fun row hrow => ⟨hs.once row hrow,
    fun hstatus => hs.never row hrow (Or.inl hstatus)⟩, fun hanswered row hrow hstatus hnew => ?_⟩
  rw [revocations_answered hanswered]
  exact hs.once row hrow hstatus hnew

def noReleases : ReleaseStore where
  rows := []
  ids := List.nodup_nil
  numbered _ := ⟨List.nodup_nil, fun v => by simp [versionsOf]; omega⟩

/-- Two publications that read the same number, and two requests that revoke the release
one of them has stored. -/
def racingReleases : List ReleaseAction :=
  .publish "a1" "r1" "u1" none (.ok (.obj []))
    :: .publish "a1" "r2" "u2" none (.ok (.obj []))
    :: [0, 1, 0, 1, 0, 1, 0, 1, 0].map .next
    ++ .revoke "a1" "r1" none :: .revoke "a1" "r1" none
    :: [2, 3, 2, 3, 2, 3, 2].map .next

theorem releases_kept_twice :
    ∃ s, Runs.run releaseStep ⟨noReleases.rows, []⟩ racingReleases = some s
      ∧ Consecutive (versionsOf s.rows "a1")
      ∧ ∀ row ∈ s.rows, row.status = .revoked → revocations s.requests row = 1 := by
  have hsome : (Runs.run releaseStep ⟨noReleases.rows, []⟩ racingReleases).isSome := by
    decide +kernel
  obtain ⟨s, hs⟩ := Option.isSome_iff_exists.mp hsome
  obtain ⟨⟨-, hnumbered⟩, -, hrevocations, -⟩ := releases_kept noReleases [] _ _ s rfl hs
  exact ⟨s, hs, hnumbered "a1", fun row hrow hstatus => (hrevocations row hrow).1 hstatus
    fun hstart => nomatch hstart.choose_spec.1⟩

end Aegora
