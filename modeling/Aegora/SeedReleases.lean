import Aegora.JsonText
import Aegora.ReleaseVersions

/-!
# The release of the seed

`ensure_release` of the platform seed, among the publications and revocations of
the Control Plane. The seed counts from the newest published version; the Control
Plane counts from the newest of all. A revoked release keeps its id and its
version, so a seed that comes after the revocation of the newest release computes
a version, and maybe an id, that is taken.

A configuration is read back as it was written, up to the order of the keys, which
`stable_json` forgets. The column `visibility` is left out; what computing it may
raise is not.
-/

namespace Aegora

open Py

/-! ## The seed -/

/-- The character of a UUID that tells its version. -/
def uuidVersion (id : String) : Option Char := id.toList[14]?

/-- `uuid5(NAMESPACE_URL, name)` and `sha256(text).hexdigest()`. -/
structure SeedIds where
  uuid5 : String → String
  sha256 : String → String
  uuid5_injective : Function.Injective uuid5
  uuid5_version : ∀ name, uuidVersion (uuid5 name) = some '5'
  sha256_hex : ∀ text, ':' ∉ (sha256 text).toList

inductive SeedFailure where
  | attributeError
  | uniqueViolation
deriving DecidableEq, Repr

/-- What `ensure_release` returns. -/
structure SeedRelease where
  releaseId : String
  version : Nat
  reused : Bool
deriving DecidableEq, Repr

def stableJson (value : Json) : String := value.dumps "," ":"

/-- The rows that `ensure_release` reads, the newest first. -/
def publishedReleases (rows : List StoredRelease) (agentId : String) : List StoredRelease :=
  (rows.filter fun row => row.agentId = agentId && row.status = .published).insertionSort
    fun a b => b.version ≤ a.version

def nextSeedVersion : List StoredRelease → Nat
  | [] => 1
  | row :: _ => row.version + 1

def seedName (agentId : String) (version : Nat) (digest : String) : String :=
  "agent-platform:aicoin:" ++ agentId ++ ":" ++ toString version ++ ":" ++ digest

/-- `str((config.get("agent") or {}).get("visibility") or "private")`. -/
def seedVisibility (config : Dict) : Except SeedFailure String :=
  match ((Dict.get config "agent").orElse (.obj [])).asDict? with
  | none => .error .attributeError
  | some agent => .ok ((Dict.get agent "visibility").orElse (.str "private")).pyStr

/-- `INSERT ... ON CONFLICT (id) DO NOTHING`; `none` when it violates
`UNIQUE(agent_id, version)`. A row of the same id leaves nothing to insert. -/
def insertSeedRelease (rows : List StoredRelease) (new : StoredRelease) :
    Option (List StoredRelease) :=
  if rows.any fun row => row.id = new.id then some rows
  else if rows.any fun row => row.agentId = new.agentId && row.version = new.version then none
  else some (rows ++ [new])

def seedReleaseId (ids : SeedIds) (agentId : String) (version : Nat) (config : Dict) : String :=
  ids.uuid5 (seedName agentId version (ids.sha256 (stableJson (.obj config))))

/-- `ensure_release`; what raises is rolled back. -/
def ensureRelease (ids : SeedIds) (rows : List StoredRelease) (agentId userId : String)
    (config : Dict) : List StoredRelease × Except SeedFailure SeedRelease :=
  let configText := stableJson (.obj config)
  let releases := publishedReleases rows agentId
  match releases.find? fun row => stableJson row.configJson = configText with
  | some row => (rows, .ok ⟨row.id, row.version, true⟩)
  | none =>
      let version := nextSeedVersion releases
      let releaseId := seedReleaseId ids agentId version config
      match seedVisibility config with
      | .error failure => (rows, .error failure)
      | .ok _ =>
          match insertSeedRelease rows {
              id := releaseId
              agentId := agentId
              version := version
              status := .published
              configJson := .obj config
              publishedBy := userId } with
          | none => (rows, .error .uniqueViolation)
          | some rows => (rows, .ok ⟨releaseId, version, false⟩)

/-! ## Runs -/

/-- A step of the Control Plane, or a run of the seed. -/
inductive ReleaseMove where
  | control (action : ReleaseAction)
  | seed (agentId userId : String) (config : Dict)

/-- `publish_agent` takes its id from `uuid4()`. -/
def ReleaseAction.drawn : ReleaseAction → Bool
  | .publish _ releaseId _ _ _ => uuidVersion releaseId = some '4'
  | _ => true

def releaseMove (ids : SeedIds) (s : ReleaseState) : ReleaseMove → Option ReleaseState
  | .control action => if action.drawn then releaseStep s action else none
  | .seed agentId userId config =>
      some { s with rows := (ensureRelease ids s.rows agentId userId config).1 }

/-! ## What is asked of the seed -/

/-- A published release of the agent with the configuration. -/
structure StoredRelease.Serves (agentId : String) (config : Dict) (row : StoredRelease) : Prop where
  agentId : row.agentId = agentId
  status : row.status = .published
  config : stableJson row.configJson = stableJson (.obj config)

/-- The seed succeeds, changes no row, and returns a release that serves the configuration. -/
def SeedKept (rows : List StoredRelease) (agentId : String) (config : Dict)
    (outcome : List StoredRelease × Except SeedFailure SeedRelease) : Prop :=
  ∃ release, outcome.2 = .ok release ∧ rows <+: outcome.1
    ∧ ∃ row ∈ outcome.1, row.Serves agentId config ∧ row.id = release.releaseId
      ∧ row.version = release.version

/-- Every revoked release of the agent has a later one that is published. -/
def NewestPublished (rows : List StoredRelease) (agentId : String) : Prop :=
  ∀ row ∈ rows, row.agentId = agentId → row.status = .revoked →
    ∃ later ∈ rows, later.agentId = agentId ∧ later.status = .published
      ∧ row.version < later.version

/-- `config["agent"]` is a dictionary if it is anything. -/
def AgentReadable (config : Dict) : Prop :=
  (Dict.get config "agent").truthy → (Dict.get config "agent").asDict?.isSome

/-- The configuration is in service; or the newest release of the agent is not revoked. -/
def Seedable (rows : List StoredRelease) (agentId : String) (config : Dict) : Prop :=
  (∃ row ∈ rows, row.Serves agentId config)
    ∨ NewestPublished rows agentId
      ∧ AgentReadable config

/-! ## One seed -/

section Seed

variable {ids : SeedIds} {rows : List StoredRelease} {agentId userId : String} {config : Dict}
  {row : StoredRelease}

theorem mem_publishedReleases : row ∈ publishedReleases rows agentId
    ↔ row ∈ rows ∧ row.agentId = agentId ∧ row.status = .published := by
  simp [publishedReleases]

theorem mem_versionsOf {v : Nat} : v ∈ versionsOf rows agentId
    ↔ ∃ row ∈ rows, row.agentId = agentId ∧ row.version = v := by
  simp [versionsOf, and_assoc]

/-- The version after those of the published releases. -/
theorem nextSeedVersion_cases (rows : List StoredRelease) (agentId : String) :
    (nextSeedVersion (publishedReleases rows agentId) = 1
        ∧ ∀ row ∈ rows, row.agentId = agentId → row.status ≠ .published)
      ∨ ∃ newest ∈ rows, newest.agentId = agentId ∧ newest.status = .published
        ∧ nextSeedVersion (publishedReleases rows agentId) = newest.version + 1
        ∧ ∀ row ∈ rows, row.agentId = agentId → row.status = .published →
          row.version ≤ newest.version := by
  have hsorted : (publishedReleases rows agentId).Pairwise fun a b => b.version ≤ a.version :=
    List.pairwise_insertionSort (fun a b : StoredRelease => b.version ≤ a.version) _
  cases hreleases : publishedReleases rows agentId with
  | nil =>
      refine Or.inl ⟨rfl, fun row hrow hagent hstatus => ?_⟩
      have hmem := mem_publishedReleases.mpr ⟨hrow, hagent, hstatus⟩
      rw [hreleases] at hmem
      cases hmem
  | cons newest rest =>
      have hnewest : newest ∈ publishedReleases rows agentId := by simp [hreleases]
      obtain ⟨hmem, hagent, hstatus⟩ := mem_publishedReleases.mp hnewest
      refine Or.inr ⟨newest, hmem, hagent, hstatus, rfl, fun row hrow hagent hstatus => ?_⟩
      have hrow' := mem_publishedReleases.mpr ⟨hrow, hagent, hstatus⟩
      rw [hreleases] at hrow' hsorted
      rcases List.mem_cons.mp hrow' with rfl | hrow'
      · exact Nat.le_refl _
      · exact List.rel_of_pairwise_cons hsorted hrow'

theorem seedVisibility_ok_iff : (∃ visibility, seedVisibility config = .ok visibility)
    ↔ AgentReadable config := by
  unfold AgentReadable seedVisibility Json.orElse
  by_cases hagent : (Dict.get config "agent").truthy
  · rw [if_pos hagent]
    cases (Dict.get config "agent").asDict? <;> simp [hagent]
  · rw [if_neg hagent]
    simp [hagent, Json.asDict?]

/-- What `ensure_release` does. -/
inductive SeedEffect (ids : SeedIds) (rows : List StoredRelease) (agentId : String)
    (config : Dict) : List StoredRelease × Except SeedFailure SeedRelease → Prop where
  | reused {row : StoredRelease} (hrow : row ∈ rows) (hserves : row.Serves agentId config) :
      SeedEffect ids rows agentId config (rows, .ok ⟨row.id, row.version, true⟩)
  | unreadable (hnone : ∀ row ∈ rows, ¬ row.Serves agentId config)
      (hagent : ¬ AgentReadable config) (failure : SeedFailure) :
      SeedEffect ids rows agentId config (rows, .error failure)
  | idTaken {version : Nat} (hnone : ∀ row ∈ rows, ¬ row.Serves agentId config)
      (hversion : version = nextSeedVersion (publishedReleases rows agentId))
      (hid : ∃ row ∈ rows, row.id = seedReleaseId ids agentId version config) :
      SeedEffect ids rows agentId config
        (rows, .ok ⟨seedReleaseId ids agentId version config, version, false⟩)
  | versionTaken {version : Nat} (hnone : ∀ row ∈ rows, ¬ row.Serves agentId config)
      (hversion : version = nextSeedVersion (publishedReleases rows agentId))
      (htaken : version ∈ versionsOf rows agentId) :
      SeedEffect ids rows agentId config (rows, .error .uniqueViolation)
  | inserted {version : Nat} {row : StoredRelease}
      (hagent : AgentReadable config)
      (hversion : version = nextSeedVersion (publishedReleases rows agentId))
      (hserves : row.Serves agentId config) (hrowVersion : row.version = version)
      (hrowId : row.id = seedReleaseId ids agentId version config)
      (hid : ∀ old ∈ rows, old.id ≠ seedReleaseId ids agentId version config)
      (hfree : version ∉ versionsOf rows agentId) :
      SeedEffect ids rows agentId config
        (rows ++ [row], .ok ⟨seedReleaseId ids agentId version config, version, false⟩)

theorem ensureRelease_effect (ids : SeedIds) (rows : List StoredRelease)
    (agentId userId : String) (config : Dict) :
    SeedEffect ids rows agentId config (ensureRelease ids rows agentId userId config) := by
  unfold ensureRelease
  dsimp only
  split
  · rename_i row hfound
    obtain ⟨hrow, hagent, hstatus⟩ := mem_publishedReleases.mp (List.mem_of_find?_eq_some hfound)
    exact .reused hrow ⟨hagent, hstatus, by simpa using List.find?_some hfound⟩
  · rename_i hfound
    have hnone : ∀ row ∈ rows, ¬ row.Serves agentId config := by
      intro row hrow hserves
      have hpublished := mem_publishedReleases.mpr ⟨hrow, hserves.agentId, hserves.status⟩
      exact List.find?_eq_none.mp hfound row hpublished (by simpa using hserves.config)
    split
    · rename_i failure hfailure
      refine .unreadable hnone (fun hagent => ?_) failure
      obtain ⟨visibility, hvisibility⟩ := seedVisibility_ok_iff.mpr hagent
      rw [hvisibility] at hfailure
      cases hfailure
    · rename_i visibility hvisibility
      unfold insertSeedRelease
      dsimp only
      by_cases hid : ∃ row ∈ rows, row.id
          = seedReleaseId ids agentId (nextSeedVersion (publishedReleases rows agentId)) config
      · rw [if_pos (by simpa using hid)]
        exact .idTaken hnone rfl hid
      · rw [if_neg (by simpa using hid)]
        by_cases htaken : nextSeedVersion (publishedReleases rows agentId)
            ∈ versionsOf rows agentId
        · rw [if_pos (by simpa [mem_versionsOf] using htaken)]
          exact .versionTaken hnone rfl htaken
        · rw [if_neg (by simpa [mem_versionsOf] using htaken)]
          exact .inserted (seedVisibility_ok_iff.mp ⟨visibility, hvisibility⟩) rfl
            ⟨rfl, rfl, rfl⟩ rfl rfl (fun old hold heq => hid ⟨old, hold, heq⟩) htaken

end Seed

/-! ## Ids -/

theorem seedName_toList (agentId : String) (version : Nat) (digest : String) :
    (seedName agentId version digest).toList
      = (("agent-platform:aicoin:".toList ++ agentId.toList) ++ ':' :: (toString version).toList)
        ++ ':' :: digest.toList := by
  have hcolon : ":".toList = [':'] := by decide
  unfold seedName
  simp only [String.toList_append, hcolon, List.append_assoc, List.singleton_append]

/-- The name that an id is made from tells the agent and the version. -/
theorem seedName_inj {agentId agentId' digest digest' : String} {version version' : Nat}
    (hdigest : ':' ∉ digest.toList) (hdigest' : ':' ∉ digest'.toList)
    (h : seedName agentId version digest = seedName agentId' version' digest') :
    agentId = agentId' ∧ version = version' := by
  have hlist := congrArg String.toList h
  rw [seedName_toList, seedName_toList] at hlist
  obtain ⟨hlist, -⟩ := append_cons_inj_last hdigest hdigest' hlist
  obtain ⟨hagent, hversion⟩ := append_cons_inj_last (colon_not_mem_digits version)
    (colon_not_mem_digits version') hlist
  have hread := congrArg intOfText (String.toList_injective hversion)
  rw [intOfText_toString, intOfText_toString] at hread
  exact ⟨String.toList_injective (List.append_cancel_left hagent),
    Int.ofNat_inj.mp (Option.some.inj hread)⟩

theorem seedReleaseId_inj {ids : SeedIds} {agentId agentId' : String} {version version' : Nat}
    {config config' : Dict}
    (h : seedReleaseId ids agentId version config = seedReleaseId ids agentId' version' config') :
    agentId = agentId' ∧ version = version' :=
  seedName_inj (ids.sha256_hex _) (ids.sha256_hex _) (ids.uuid5_injective h)

/-! ## Steps -/

/-- A publication that is under way has drawn its id. -/
def ReleaseRequest.drawn : ReleaseRequest → Prop
  | .publish _ releaseId _ _ _ _ => uuidVersion releaseId = some '4'
  | _ => True

/-- An id was drawn, or made by a seed from the agent and the version of its row. -/
def StoredRelease.Identified (ids : SeedIds) (row : StoredRelease) : Prop :=
  uuidVersion row.id = some '4'
    ∨ ∃ config, row.id = seedReleaseId ids row.agentId row.version config

structure SeedInv (ids : SeedIds) (s : ReleaseState) : Prop where
  unique : (s.rows.map StoredRelease.id).Nodup
  numbered : ∀ agentId, Consecutive (versionsOf s.rows agentId)
  read : ∀ request ∈ s.requests, VersionRead s.rows request
  drawn : ∀ request ∈ s.requests, request.drawn
  identified : ∀ row ∈ s.rows, row.Identified ids

section Steps

variable {ids : SeedIds} {s s' : ReleaseState} {rows rows' : List StoredRelease}
  {request request' : ReleaseRequest} {agentId userId : String} {config : Dict} {i : Nat}

theorem nextSeedVersion_le (hnumbered : Consecutive (versionsOf rows agentId)) :
    1 ≤ nextSeedVersion (publishedReleases rows agentId)
      ∧ nextSeedVersion (publishedReleases rows agentId)
        ≤ (versionsOf rows agentId).length + 1 := by
  rcases nextSeedVersion_cases rows agentId with ⟨hone, -⟩ | ⟨newest, hrow, hagent, -, hnext, -⟩
  · omega
  · have hmem : newest.version ∈ versionsOf rows agentId :=
      mem_versionsOf.mpr ⟨newest, hrow, hagent, rfl⟩
    have hle := ((hnumbered.2 _).mp hmem).2
    omega

/-- What a step of a request leaves of the rows, and of what is known of ids. -/
theorem next_identified (hdrawn : request.drawn) (hrows : ∀ row ∈ rows, row.Identified ids)
    (h : request.next rows = some (rows', request')) :
    request'.drawn ∧ ∀ row ∈ rows', row.Identified ids := by
  cases request with
  | publish agentId releaseId actorId admission snapshot step =>
      have hstep := Option.some.inj h
      cases step with
      | begun =>
          cases admission <;> cases hstep
          · exact ⟨hdrawn, hrows⟩
          · exact ⟨trivial, hrows⟩
      | admitted =>
          cases hstep
          exact ⟨hdrawn, hrows⟩
      | versioned version =>
          cases snapshot <;> cases hstep
          · exact ⟨trivial, hrows⟩
          · exact ⟨hdrawn, hrows⟩
      | built version config =>
          rw [publishStep] at hstep
          split at hstep
          · cases hstep
            exact ⟨trivial, hrows⟩
          · rename_i hsaved
            cases hstep
            obtain ⟨row, rfl, hid, -⟩ := saveAgentRelease_cases hsaved
            refine ⟨hdrawn, fun other hother => ?_⟩
            rcases List.mem_append.mp hother with hother | hother
            · exact hrows other hother
            · rw [List.mem_singleton.mp hother]
              exact Or.inl (hid ▸ hdrawn)
      | saved version =>
          cases hstep
          exact ⟨trivial, hrows⟩
  | revoke agentId releaseId admission step =>
      have hstep := Option.some.inj h
      cases step with
      | begun =>
          cases admission <;> cases hstep
          · exact ⟨trivial, hrows⟩
          · exact ⟨trivial, hrows⟩
      | admitted =>
          rw [revokeStep] at hstep
          split at hstep <;> cases hstep
          · exact ⟨trivial, hrows⟩
          · exact ⟨trivial, hrows⟩
      | fetched version =>
          have hrevoked : ∀ row ∈ (revokeAgentRelease rows agentId releaseId).1,
              row.Identified ids := by
            intro row hrow
            obtain ⟨old, hold, rfl⟩ := mem_revoke.mp hrow
            have hidentified := hrows old hold
            split
            · exact hidentified
            · exact hidentified
          rw [revokeStep] at hstep
          split at hstep
          · rename_i hcases
            cases hstep
            rw [hcases] at hrevoked
            exact ⟨trivial, hrevoked⟩
          · rename_i hcases
            cases hstep
            rw [hcases] at hrevoked
            exact ⟨trivial, hrevoked⟩
      | updated version =>
          cases hstep
          exact ⟨trivial, hrows⟩
  | answered answer => cases h

theorem SeedInv.arrive (h : SeedInv ids s) (hread : VersionRead s.rows request)
    (hdrawn : request.drawn) :
    SeedInv ids { s with requests := s.requests ++ [request] } := by
  refine { h with
    read := fun other hother => ?_
    drawn := fun other hother => ?_ }
  · rcases List.mem_append.mp hother with hother | hother
    · exact h.read other hother
    · exact List.mem_singleton.mp hother ▸ hread
  · rcases List.mem_append.mp hother with hother | hother
    · exact h.drawn other hother
    · exact List.mem_singleton.mp hother ▸ hdrawn

theorem SeedInv.set (h : SeedInv ids s) (hread : VersionRead s.rows request')
    (hdrawn : request'.drawn) : SeedInv ids { s with requests := s.requests.set i request' } := by
  refine { h with
    read := fun other hother => ?_
    drawn := fun other hother => ?_ }
  · rcases List.mem_or_eq_of_mem_set hother with hother | rfl
    · exact h.read other hother
    · exact hread
  · rcases List.mem_or_eq_of_mem_set hother with hother | rfl
    · exact h.drawn other hother
    · exact hdrawn

/-- Other rows of the same ids and versions, or more of them. -/
theorem SeedInv.replace (h : SeedInv ids s) (hids : (rows.map StoredRelease.id).Nodup)
    (hnumbered : ∀ agentId, Consecutive (versionsOf rows agentId))
    (hmore : ∀ agentId, (versionsOf s.rows agentId).length ≤ (versionsOf rows agentId).length)
    (hidentified : ∀ row ∈ rows, row.Identified ids) : SeedInv ids { s with rows := rows } where
  unique := hids
  numbered := hnumbered
  read request hrequest := (h.read request hrequest).later hmore
  drawn := h.drawn
  identified := hidentified

theorem length_versionsOf_append_le (row : StoredRelease) (agentId : String) :
    (versionsOf rows agentId).length ≤ (versionsOf (rows ++ [row]) agentId).length := by
  rw [versionsOf_append, List.length_append]
  exact Nat.le_add_right _ _

theorem SeedInv.next (h : SeedInv ids s) (hi : s.requests[i]? = some request)
    (hnext : request.next s.rows = some (rows, request')) :
    SeedInv ids ⟨rows, s.requests.set i request'⟩ := by
  have hrequest := List.mem_of_getElem? hi
  obtain ⟨hdrawn, hidentified⟩ := next_identified (h.drawn request hrequest) h.identified hnext
  rcases next_effect h.unique h.numbered (h.read request hrequest) hnext with
    ⟨-, hread⟩ | ⟨-, hread, -, hid, hversion⟩ | ⟨hread, -, -, -, -, -⟩
  · exact h.set hread hdrawn
  · obtain ⟨hids, hnumbered⟩ := add_release h.unique h.numbered hid hversion
    exact (h.replace hids hnumbered (length_versionsOf_append_le _) hidentified).set
      (hread _) hdrawn
  · refine (h.replace ?_ (fun agentId => ?_) (fun agentId => ?_) hidentified).set (hread _) hdrawn
    · rw [ids_revoke]
      exact h.unique
    · rw [versionsOf_revoke]
      exact h.numbered agentId
    · rw [versionsOf_revoke]

theorem SeedInv.control (h : SeedInv ids s) {action : ReleaseAction} (hdrawn : action.drawn = true)
    (hstep : releaseStep s action = some s') : SeedInv ids s' := by
  cases action with
  | publish agentId releaseId actorId admission snapshot =>
      cases hstep
      exact h.arrive trivial (by
        simpa [ReleaseAction.drawn, ReleaseRequest.drawn] using hdrawn)
  | revoke agentId releaseId admission =>
      cases hstep
      exact h.arrive trivial trivial
  | next i =>
      obtain ⟨request, hi, hstep⟩ := Option.bind_eq_some_iff.mp hstep
      obtain ⟨⟨rows', request'⟩, hnext, hstep⟩ := Option.bind_eq_some_iff.mp hstep
      cases hstep
      exact h.next hi hnext
  | fail i =>
      obtain ⟨request, -, hstep⟩ := Option.bind_eq_some_iff.mp hstep
      split at hstep
      · cases hstep
        exact h.set trivial trivial
      · cases hstep

/-- The seed adds the next release of the agent, or leaves the rows. -/
theorem SeedInv.seed (h : SeedInv ids s) (agentId userId : String) (config : Dict) :
    SeedInv ids { s with rows := (ensureRelease ids s.rows agentId userId config).1 } := by
  have heffect := ensureRelease_effect ids s.rows agentId userId config
  generalize ensureRelease ids s.rows agentId userId config = outcome at heffect ⊢
  rcases heffect with
    ⟨-, -⟩ | ⟨-, -, failure⟩ | ⟨-, -, -⟩ | ⟨-, -, -⟩ |
      ⟨-, hversion, hserves, hrowVersion, hrowId, hid, hfree⟩
  · exact h
  · exact h
  · exact h
  · exact h
  · rename_i version row
    obtain ⟨hpos, hle⟩ := nextSeedVersion_le (h.numbered agentId)
    have hlength := (h.numbered agentId).next (hversion ▸ hpos) (hversion ▸ hle) hfree
    obtain ⟨hids, hnumbered⟩ := add_release h.unique h.numbered
      (fun old hold => hrowId ▸ hid old hold) (by rw [hrowVersion, hserves.agentId, hlength])
    refine h.replace hids hnumbered (length_versionsOf_append_le _) fun other hother => ?_
    rcases List.mem_append.mp hother with hother | hother
    · exact h.identified other hother
    · rw [List.mem_singleton.mp hother]
      exact Or.inr ⟨config, by rw [hrowId, hserves.agentId, hrowVersion]⟩

theorem releaseMove_inv (h : SeedInv ids s) {move : ReleaseMove}
    (hstep : releaseMove ids s move = some s') : SeedInv ids s' := by
  cases move with
  | control action =>
      rw [releaseMove] at hstep
      split at hstep
      · rename_i hdrawn
        exact h.control hdrawn hstep
      · cases hstep
  | seed agentId userId config =>
      cases hstep
      exact h.seed agentId userId config

theorem seedInv_empty (ids : SeedIds) : SeedInv ids ⟨[], []⟩ where
  unique := noReleases.ids
  numbered := noReleases.numbered
  read _ hrequest := absurd hrequest List.not_mem_nil
  drawn _ hrequest := absurd hrequest List.not_mem_nil
  identified _ hrow := absurd hrow List.not_mem_nil

/-! ## When the seed keeps its word -/

/-- Where the newest release is published, the next version is free. A published release of
that version would be a newer one. -/
theorem NewestPublished.free (h : NewestPublished rows agentId) :
    nextSeedVersion (publishedReleases rows agentId) ∉ versionsOf rows agentId := by
  intro hmem
  obtain ⟨row, hrow, hagent, hversion⟩ := mem_versionsOf.mp hmem
  have hpublished : ∀ later ∈ rows, later.agentId = agentId → later.status = .published →
      row.version ≤ later.version → False := by
    intro later hlater hlaterAgent hstatus hle
    rcases nextSeedVersion_cases rows agentId with ⟨-, hnone⟩ | ⟨newest, -, -, -, hnext, hmax⟩
    · exact hnone later hlater hlaterAgent hstatus
    · have hlaterLe := hmax later hlater hlaterAgent hstatus
      omega
  cases hstatus : row.status with
  | published => exact hpublished row hrow hagent hstatus (Nat.le_refl _)
  | revoked =>
      obtain ⟨later, hlater, hlaterAgent, hlaterStatus, hlt⟩ := h row hrow hagent hstatus
      exact hpublished later hlater hlaterAgent hlaterStatus (Nat.le_of_lt hlt)

/-- Where the next version is free, it comes after every release. -/
theorem SeedInv.newestPublished (h : SeedInv ids s)
    (hfree : nextSeedVersion (publishedReleases s.rows agentId) ∉ versionsOf s.rows agentId) :
    NewestPublished s.rows agentId := by
  intro row hrow hagent hstatus
  obtain ⟨hpos, hle⟩ := nextSeedVersion_le (h.numbered agentId)
  have hnext := (h.numbered agentId).next hpos hle hfree
  have hmem : row.version ∈ versionsOf s.rows agentId := mem_versionsOf.mpr ⟨row, hrow, hagent, rfl⟩
  obtain ⟨hrowPos, hrowLe⟩ := ((h.numbered agentId).2 _).mp hmem
  rcases nextSeedVersion_cases s.rows agentId with
    ⟨hone, -⟩ | ⟨newest, hnewest, hnewestAgent, hpublished, hversion, -⟩
  · omega
  · refine ⟨newest, hnewest, hnewestAgent, hpublished, ?_⟩
    have hne : row.version ≠ newest.version := by
      intro heq
      have hnodup : ((s.rows.filter fun row => row.agentId = agentId).map
        StoredRelease.version).Nodup := (h.numbered agentId).1
      have hsame : row = newest := List.inj_on_of_nodup_map hnodup
        (List.mem_filter.mpr ⟨hrow, decide_eq_true hagent⟩)
        (List.mem_filter.mpr ⟨hnewest, decide_eq_true hnewestAgent⟩) heq
      rw [← hsame, hstatus] at hpublished
      cases hpublished
    omega

/-- An id that a seed would make is taken by a release of the same version only. -/
theorem SeedInv.id_free (h : SeedInv ids s) {version : Nat}
    (hfree : version ∉ versionsOf s.rows agentId) :
    ∀ row ∈ s.rows, row.id ≠ seedReleaseId ids agentId version config := by
  intro row hrow hid
  rcases h.identified row hrow with hdrawn | ⟨config', hid'⟩
  · rw [hid, seedReleaseId, ids.uuid5_version] at hdrawn
    exact absurd hdrawn (by decide)
  · obtain ⟨hagent, hversion⟩ := seedReleaseId_inj (hid'.symm.trans hid)
    exact hfree (mem_versionsOf.mpr ⟨row, hrow, hagent, hversion⟩)

theorem SeedInv.seedKept_iff (h : SeedInv ids s) (agentId userId : String) (config : Dict) :
    SeedKept s.rows agentId config (ensureRelease ids s.rows agentId userId config)
      ↔ Seedable s.rows agentId config := by
  have hseedable : ∀ hnone : ∀ row ∈ s.rows, ¬ row.Serves agentId config,
      Seedable s.rows agentId config → NewestPublished s.rows agentId ∧ AgentReadable config := by
    rintro hnone (⟨row, hrow, hserves⟩ | hnewest)
    · exact absurd hserves (hnone row hrow)
    · exact hnewest
  have heffect := ensureRelease_effect ids s.rows agentId userId config
  generalize ensureRelease ids s.rows agentId userId config = outcome at heffect ⊢
  rcases heffect with
    ⟨hrow, hserves⟩ | ⟨hnone, hagent, failure⟩ | ⟨hnone, rfl, htaken⟩ | ⟨hnone, rfl, htaken⟩ |
      ⟨hagent, rfl, hserves, hrowVersion, hrowId, hid, hfree⟩
  · rename_i row
    exact iff_of_true ⟨_, rfl, List.prefix_refl _, row, hrow, hserves, rfl, rfl⟩
      (Or.inl ⟨row, hrow, hserves⟩)
  · refine iff_of_false ?_ fun hseed => hagent (hseedable hnone hseed).2
    rintro ⟨release, hok, -⟩
    cases hok
  · refine iff_of_false ?_ fun hseed => ?_
    · rintro ⟨release, -, -, row, hrow, hserves, -⟩
      exact hnone row hrow hserves
    · obtain ⟨row, hrow, hid⟩ := htaken
      exact h.id_free (hseedable hnone hseed).1.free row hrow hid
  · refine iff_of_false ?_ fun hseed => (hseedable hnone hseed).1.free htaken
    rintro ⟨release, hok, -⟩
    cases hok
  · rename_i row
    exact iff_of_true ⟨_, rfl, List.prefix_append _ _, row, by simp, hserves, hrowId, hrowVersion⟩
      (Or.inr ⟨h.newestPublished hfree, hagent⟩)

end Steps

/-- In every table that publications, revocations and seeds lead to, the versions of an agent
stay unique after a seed, and the seed keeps its word exactly when the configuration is in
service or the newest release of the agent is not revoked. -/
theorem ensure_release_iff (ids : SeedIds) (moves : List ReleaseMove) (s : ReleaseState)
    (hrun : Runs.run (releaseMove ids) ⟨[], []⟩ moves = some s) (agentId userId : String)
    (config : Dict) :
    (∀ agent, (versionsOf (ensureRelease ids s.rows agentId userId config).1 agent).Nodup)
      ∧ (SeedKept s.rows agentId config (ensureRelease ids s.rows agentId userId config)
        ↔ Seedable s.rows agentId config) := by
  have hinv : SeedInv ids s :=
    Runs.run_invariant' (fun _ _ _ ht hstep => releaseMove_inv ht hstep) (seedInv_empty ids) hrun
  exact ⟨fun agent => ((hinv.seed agentId userId config).numbered agent).1,
    hinv.seedKept_iff agentId userId config⟩

/-! ## A seed, its revocation, and the seed again -/

def aicoinAgent : String := "e1d0efa6-3ee2-553e-9213-0d5c22eb7a99"

def emptyDigest : String := "44136fa355b3678a1146ad16f7e8649e94fb4fc21fe77e8310c060f61caaff8a"

def firstRelease : String := "4649d19b-45fb-5974-bf0f-87c2b1d1778d"

def aicoinUuid5 (name : String) : String :=
  if name = seedName aicoinAgent 1 emptyDigest then firstRelease else "00000000-0000-5" ++ name

def aicoinSha256 (text : String) : String := if text = "\x7b\x7d" then emptyDigest else ""

theorem aicoinUuid5_injective : Function.Injective aicoinUuid5 := by
  have hapart : ∀ name, firstRelease ≠ "00000000-0000-5" ++ name := by
    intro name heq
    have hhead := congrArg (fun id : String => id.toList.head?) heq
    rw [String.toList_append] at hhead
    exact absurd hhead (by simp [firstRelease])
  intro a b h
  unfold aicoinUuid5 at h
  split at h <;> split at h
  · rename_i ha hb
    exact ha.trans hb.symm
  · exact absurd h (hapart b)
  · exact absurd h.symm (hapart a)
  · exact String.append_right_inj _ |>.mp h

def aicoinIds : SeedIds where
  uuid5 := aicoinUuid5
  sha256 := aicoinSha256
  uuid5_injective := aicoinUuid5_injective
  uuid5_version name := by
    unfold aicoinUuid5
    split
    · decide
    · simp [uuidVersion]
  sha256_hex text := by
    unfold aicoinSha256
    split <;> decide

def seedThenRevoke : List ReleaseMove :=
  .seed aicoinAgent "u_console" []
    :: .control (.revoke aicoinAgent firstRelease none)
    :: [0, 0, 0, 0].map fun i => .control (.next i)

def revokedRelease : StoredRelease where
  id := firstRelease
  agentId := aicoinAgent
  version := 1
  status := .revoked
  configJson := .obj []
  publishedBy := "u_console"

theorem seedThenRevoke_rows : ∃ s, Runs.run (releaseMove aicoinIds) ⟨[], []⟩ seedThenRevoke = some s
    ∧ s.rows = [revokedRelease] := by
  have hrows : (Runs.run (releaseMove aicoinIds) ⟨[], []⟩ seedThenRevoke).map ReleaseState.rows
      = some [revokedRelease] := by decide +kernel
  exact Option.map_eq_some_iff.mp hrows

theorem revoked_release_returned :
    ∃ s, Runs.run (releaseMove aicoinIds) ⟨[], []⟩ seedThenRevoke = some s
      ∧ (ensureRelease aicoinIds s.rows aicoinAgent "u_console" []).2 = .ok ⟨firstRelease, 1, false⟩
      ∧ ¬ SeedKept s.rows aicoinAgent []
        (ensureRelease aicoinIds s.rows aicoinAgent "u_console" []) := by
  obtain ⟨s, hrun, hrows⟩ := seedThenRevoke_rows
  have houtcome : ensureRelease aicoinIds [revokedRelease] aicoinAgent "u_console" []
      = ([revokedRelease], .ok ⟨firstRelease, 1, false⟩) := by decide +kernel
  refine ⟨s, hrun, ?_, ?_⟩
  · rw [hrows, houtcome]
  · rw [hrows, houtcome]
    rintro ⟨release, -, -, row, hrow, hserves, -⟩
    have hstatus := hserves.status
    rw [List.mem_singleton.mp hrow] at hstatus
    exact absurd hstatus (by decide)

theorem ensure_release_iff_revoked :
    ∃ s, Runs.run (releaseMove aicoinIds) ⟨[], []⟩ seedThenRevoke = some s
      ∧ ∀ config, SeedKept s.rows aicoinAgent config
          (ensureRelease aicoinIds s.rows aicoinAgent "u_console" config)
        ↔ Seedable s.rows aicoinAgent config := by
  obtain ⟨s, hrun, -⟩ := seedThenRevoke_rows
  exact ⟨s, hrun, fun config =>
    (ensure_release_iff aicoinIds seedThenRevoke s hrun aicoinAgent "u_console" config).2⟩

end Aegora
