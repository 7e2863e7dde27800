import Aegora.WorkflowVersions

/-!
# One active version, frozen manifests, and a projection that follows

Any interleaving of publications, retirements and status changes leaves at most
one active version of a workflow and never changes a manifest. The tools row is
another matter: `update_tool_status` does not look at the versions, so the row
follows them in the runs in which no workflow tool is made active while the
version it names is not (`TogglesActive`).

What carries the proof is what a transaction knows from its locks (`TxnOk`). A
publication holds the advisory lock of its workflow, so nobody else adds or
activates a version of it; a row it has written is locked, so it still is what
it was read as. A retirement that finds the version active also holds the tools
row, unless the row names another version.
-/

namespace Aegora

open Py Transactions

/-! ## What is kept -/

def WorkflowDb.IsActive (db : WorkflowDb) (key : String × String) : Prop :=
  ∃ row ∈ db.versions, row.key = key ∧ row.lifecycleStatus = .active

/-- At most one version of a workflow is active. -/
def OneActive (db : WorkflowDb) : Prop :=
  ∀ a ∈ db.versions, ∀ b ∈ db.versions, a.lifecycleStatus = .active →
    b.lifecycleStatus = .active → a.workflowId = b.workflowId → a.version = b.version

/-- A workflow tool that is active names an active version. -/
def Projected (db : WorkflowDb) : Prop :=
  ∀ tool ∈ db.tools, tool.source = "workflow" → tool.status = "active" →
    db.IsActive (tool.toolId, tool.version)

/-- The same version with the same manifest. -/
def WorkflowVersion.SameManifest (row row' : WorkflowVersion) : Prop :=
  row'.key = row.key ∧ row'.manifestHash = row.manifestHash ∧ row'.manifestJson = row.manifestJson

/-- Every version is still there, with its manifest. -/
def Frozen (db db' : WorkflowDb) : Prop :=
  ∀ row ∈ db.versions, ∃ row' ∈ db'.versions, row.SameManifest row'

/-- Tables within the keys of the schema, with at most one active version and a
projection that follows. -/
structure WorkflowStore where
  db : WorkflowDb
  versionKeys : (db.versions.map WorkflowVersion.key).Nodup
  toolIds : (db.tools.map ToolDefinition.toolId).Nodup
  oneActive : OneActive db
  projected : Projected db

instance (db : WorkflowDb) (key : String × String) : Decidable (db.IsActive key) :=
  inferInstanceAs (Decidable (∃ row ∈ db.versions, row.key = key ∧ row.lifecycleStatus = .active))

/-- The tool that `update_tool_status` is about to make active. -/
def WorkflowState.activated (s : WorkflowState) : WorkflowAction → Option String
  | .next i =>
      match s.txns[i]? with
      | some (.toggle toolId status .begun) => if status = "active" then some toolId else none
      | _ => none
  | _ => none

/-- No workflow tool is made active while the version that its row names is not. -/
def TogglesActive (s : WorkflowState) (action : WorkflowAction) : Prop :=
  ∀ toolId ∈ s.activated action, ∀ tool ∈ s.db.tool? toolId, tool.source = "workflow" →
    s.db.IsActive (toolId, tool.version)

instance (s : WorkflowState) (action : WorkflowAction) : Decidable (TogglesActive s action) :=
  inferInstanceAs (Decidable (∀ toolId ∈ s.activated action, ∀ tool ∈ s.db.tool? toolId,
    tool.source = "workflow" → s.db.IsActive (toolId, tool.version)))

/-! ## What a transaction knows -/

/-- Whether the version is there. -/
def WorkflowDb.Has (db : WorkflowDb) (key : String × String) : Prop :=
  ∃ row ∈ db.versions, row.key = key

/-- A row to be written keeps the manifest of the row it replaces. -/
def KeepsManifest (db : WorkflowDb) (rows : List WorkflowVersion) : Prop :=
  ∀ new ∈ rows, ∀ row ∈ db.versions, row.key = new.key → row.SameManifest new

/-- The superseded rows of a publication. -/
structure Supersedes (db : WorkflowDb) (tool : ToolDefinition) (rows : List WorkflowVersion) :
    Prop where
  workflow : ∀ new ∈ rows, new.workflowId = tool.toolId
  others : ∀ new ∈ rows, new.version ≠ tool.version
  retired : ∀ new ∈ rows, new.lifecycleStatus = .retired
  keys : (rows.map WorkflowVersion.key).Nodup
  keeps : KeepsManifest db rows
  covers : ∀ row ∈ db.versions, row.workflowId = tool.toolId → row.lifecycleStatus = .active →
    row.version ≠ tool.version → row.key ∈ rows.map WorkflowVersion.key

/-- All rows of a publication, the activated one among them. -/
structure Publishes (db : WorkflowDb) (tool : ToolDefinition) (rows : List WorkflowVersion) :
    Prop where
  workflow : ∀ new ∈ rows, new.workflowId = tool.toolId
  active : ∀ new ∈ rows, new.lifecycleStatus = .active → new.version = tool.version
  keys : (rows.map WorkflowVersion.key).Nodup
  keeps : KeepsManifest db rows
  covers : ∀ row ∈ db.versions, row.workflowId = tool.toolId → row.lifecycleStatus = .active →
    row.key ∈ rows.map WorkflowVersion.key
  published : ∃ new ∈ rows, new.key = (tool.toolId, tool.version) ∧ new.lifecycleStatus = .active

/-- The version that a retirement has locked. -/
def Retiring (db : WorkflowDb) (key : String × String) (status : LifecycleStatus) : Prop :=
  ∃ row ∈ db.versions, row.key = key ∧ row.lifecycleStatus = status

/-- The row that a retirement writes. -/
structure RetiredRow (db : WorkflowDb) (key : String × String) (new : WorkflowVersion) : Prop where
  key : new.key = key
  retired : new.lifecycleStatus = .retired
  keeps : KeepsManifest db [new]

/-- The tools row differs from the committed one in its status only. -/
def SameTool (db : WorkflowDb) (tool : ToolDefinition) : Prop :=
  ∃ old ∈ db.tools, old.toolId = tool.toolId ∧ old.source = tool.source
    ∧ old.version = tool.version

/-- What is known of a transaction at each point. With `guarded`, status changes are
known to respect the versions. -/
def TxnOk (guarded : Prop) (db : WorkflowDb) : WorkflowTxn → Prop
  | .publish tool _ point =>
      match point with
      | .begun | .locked => True
      | .selected existing => existing = true ↔ db.Has (tool.toolId, tool.version)
      | .superseded existing rows =>
          (existing = true ↔ db.Has (tool.toolId, tool.version)) ∧ Supersedes db tool rows
      | .activated rows | .projected rows => Publishes db tool rows
  | .retire workflowId version _ point =>
      match point with
      | .begun => True
      | .selected status => Retiring db (workflowId, version) status
      | .retired status new =>
          Retiring db (workflowId, version) status ∧ RetiredRow db (workflowId, version) new
      | .projected new tool =>
          RetiredRow db (workflowId, version) new
            ∧ match tool with
              | some tool => Retiring db (workflowId, version) .active
                  ∧ tool.toolId = workflowId ∧ tool.status = "disabled" ∧ SameTool db tool
              | none => ∃ status, Retiring db (workflowId, version) status
                  ∧ (status = .active → ∀ tool ∈ db.tools, tool.toolId = workflowId →
                    tool.source = "workflow" → tool.version ≠ version)
  | .toggle _ _ (.updated (some tool)) =>
      SameTool db tool ∧ (guarded → tool.source = "workflow" → tool.status = "active" →
        db.IsActive (tool.toolId, tool.version))
  | .toggle _ _ _ => True
  | .finished _ => True

/-! ## Rows that a commit leaves alone -/

section Commits

variable {db db' : WorkflowDb} {rows : List WorkflowVersion} {tool : ToolDefinition}
  {key : String × String} {row : WorkflowVersion}

theorem mem_versions_commit (hkeys : (rows.map WorkflowVersion.key).Nodup)
    (tool : Option ToolDefinition) : row ∈ (db.commit rows tool).versions
      ↔ row ∈ rows ∨ (row ∈ db.versions ∧ row.key ∉ rows.map WorkflowVersion.key) :=
  mem_putAll hkeys

theorem mem_tools_commit {new : Option ToolDefinition} : tool ∈ (db.commit rows new).tools
    ↔ new = some tool ∨ (tool ∈ db.tools ∧ ∀ other ∈ new, tool.toolId ≠ other.toolId) := by
  unfold WorkflowDb.commit
  dsimp only
  cases new with
  | none => simp [putAll]
  | some other =>
      rw [Option.toList_some, mem_putAll (by simp)]
      simp [eq_comm]

/-- The row of a key is the same in both. -/
def SameAt (db db' : WorkflowDb) (key : String × String) : Prop :=
  ∀ row : WorkflowVersion, row.key = key → (row ∈ db'.versions ↔ row ∈ db.versions)

namespace SameAt

theorem has (h : SameAt db db' key) : db'.Has key ↔ db.Has key :=
  exists_congr fun row => and_congr_left fun hrow => h row hrow

theorem isActive (h : SameAt db db' key) : db'.IsActive key ↔ db.IsActive key :=
  exists_congr fun row => and_congr_left fun hrow => h row hrow.1

theorem retiring {status : LifecycleStatus} (h : SameAt db db' key) :
    Retiring db' key status ↔ Retiring db key status :=
  exists_congr fun row => and_congr_left fun hrow => h row hrow.1

theorem keeps (h : KeepsManifest db rows) (hsame : ∀ new ∈ rows, SameAt db db' new.key) :
    KeepsManifest db' rows := fun new hnew row hrow hkey =>
  h new hnew row ((hsame new hnew row hkey).mp hrow) hkey

end SameAt

theorem sameAt_commit (hkeys : (rows.map WorkflowVersion.key).Nodup)
    (tool : Option ToolDefinition) (hkey : key ∉ rows.map WorkflowVersion.key) :
    SameAt db (db.commit rows tool) key := by
  rintro row rfl
  rw [mem_versions_commit hkeys]
  constructor
  · rintro (hrow | ⟨hrow, -⟩)
    · exact absurd (List.mem_map.mpr ⟨row, hrow, rfl⟩) hkey
    · exact hrow
  · exact fun hrow => Or.inr ⟨hrow, hkey⟩

/-- Nothing is added to the versions of a workflow, and none of them is activated. -/
structure Steady (db db' : WorkflowDb) (workflowId : String) : Prop where
  has : ∀ version, db'.Has (workflowId, version) ↔ db.Has (workflowId, version)
  active : ∀ row ∈ db'.versions, row.workflowId = workflowId → row.lifecycleStatus = .active →
    row ∈ db.versions

theorem steady_of_sameAt {workflowId : String}
    (h : ∀ version, SameAt db db' (workflowId, version)) : Steady db db' workflowId where
  has version := (h version).has
  active row hrow hworkflow _ :=
    (h row.version row (by rw [WorkflowVersion.key, hworkflow])).mp hrow

/-- A retirement adds and activates nothing. -/
theorem steady_retire {new : WorkflowVersion} {status : LifecycleStatus}
    (tool : Option ToolDefinition) (hretiring : Retiring db key status)
    (hnew : RetiredRow db key new) (workflowId : String) :
    Steady db (db.commit [new] tool) workflowId := by
  have hmem : ∀ row, row ∈ (db.commit [new] tool).versions
      ↔ row = new ∨ (row ∈ db.versions ∧ row.key ≠ key) := by
    intro row
    rw [mem_versions_commit (by simp), List.mem_singleton, List.map_singleton,
      List.mem_singleton, hnew.key]
  refine ⟨fun version => ?_, fun row hrow _ hactive => ?_⟩
  · constructor
    · rintro ⟨row, hrow, hkey⟩
      rcases (hmem row).mp hrow with rfl | ⟨hrow, -⟩
      · obtain ⟨old, hold, holdKey, -⟩ := hretiring
        exact ⟨old, hold, by rw [holdKey, ← hnew.key, hkey]⟩
      · exact ⟨row, hrow, hkey⟩
    · rintro ⟨row, hrow, hkey⟩
      by_cases hrowKey : row.key = key
      · exact ⟨new, (hmem new).mpr (Or.inl rfl), by rw [hnew.key, ← hrowKey, hkey]⟩
      · exact ⟨row, (hmem row).mpr (Or.inr ⟨hrow, hrowKey⟩), hkey⟩
  · rcases (hmem row).mp hrow with rfl | ⟨hrow, -⟩
    · rw [hnew.retired] at hactive
      cases hactive
    · exact hrow

end Commits

/-! ## What other transactions may do to a transaction's knowledge -/

section Stable

variable {env : WorkflowEnv} {guarded : Prop} {db db' : WorkflowDb} {actorId : String}

/-- The advisory lock and the row locks of a publication keep what it knows. -/
theorem publish_stable {tool : ToolDefinition} {point : PublishPoint}
    (h : TxnOk guarded db (.publish tool actorId point))
    (hsteady : .advisory (env.hashtext tool.toolId)
        ∈ (WorkflowTxn.publish tool actorId point).holds env →
      Steady db db' tool.toolId)
    (hrows : ∀ key, .version key ∈ (WorkflowTxn.publish tool actorId point).holds env →
      SameAt db db' key) : TxnOk guarded db' (.publish tool actorId point) := by
  have hpublishes : ∀ rows, Publishes db tool rows → Steady db db' tool.toolId →
      (∀ new ∈ rows, SameAt db db' new.key) → Publishes db' tool rows :=
    fun rows hpub hst hsame => {
      workflow := hpub.workflow
      active := hpub.active
      keys := hpub.keys
      keeps := SameAt.keeps hpub.keeps hsame
      covers := fun row hrow hworkflow hactive =>
        hpub.covers row (hst.active row hrow hworkflow hactive) hworkflow hactive
      published := hpub.published }
  cases point with
  | begun => trivial
  | locked => trivial
  | selected existing =>
      exact h.trans ((hsteady (by simp [WorkflowTxn.holds])).has tool.version).symm
  | superseded existing rows =>
      have hst := hsteady (by simp [WorkflowTxn.holds])
      obtain ⟨hhas, hsup⟩ := h
      refine ⟨hhas.trans (hst.has tool.version).symm, hsup.workflow, hsup.others, hsup.retired,
        hsup.keys, SameAt.keeps hsup.keeps fun new hnew => hrows _ ?_, ?_⟩
      · simp only [WorkflowTxn.holds, List.mem_cons, List.mem_append, List.mem_map]
        exact Or.inr ⟨new, hnew, rfl⟩
      · exact fun row hrow hworkflow hactive =>
          hsup.covers row (hst.active row hrow hworkflow hactive) hworkflow hactive
  | activated rows =>
      refine hpublishes rows h (hsteady (by simp [WorkflowTxn.holds])) fun new hnew => hrows _ ?_
      simp only [WorkflowTxn.holds, List.mem_cons, List.mem_map]
      exact Or.inr ⟨new, hnew, rfl⟩
  | projected rows =>
      refine hpublishes rows h (hsteady (by simp [WorkflowTxn.holds])) fun new hnew => hrows _ ?_
      simp only [WorkflowTxn.holds, List.mem_cons, List.mem_map]
      exact Or.inr (Or.inr ⟨new, hnew, rfl⟩)

/-- The row lock of a retirement, and its lock on the tools row where the row names the
version, keep what it knows. -/
theorem retire_stable {workflowId version : String} {point : RetirePoint}
    (h : TxnOk guarded db (.retire workflowId version actorId point))
    (hrow : .version (workflowId, version)
        ∈ (WorkflowTxn.retire workflowId version actorId point).holds env →
      SameAt db db' (workflowId, version))
    (hlocked : ∀ tool : ToolDefinition,
      .tool tool.toolId ∈ (WorkflowTxn.retire workflowId version actorId point).holds env →
        SameTool db tool → SameTool db' tool)
    (hother : .version (workflowId, version)
        ∈ (WorkflowTxn.retire workflowId version actorId point).holds env →
      (∀ tool ∈ db.tools, tool.toolId = workflowId → tool.source = "workflow" →
        tool.version ≠ version) →
      ∀ tool ∈ db'.tools, tool.toolId = workflowId → tool.source = "workflow" →
        tool.version ≠ version) :
    TxnOk guarded db' (.retire workflowId version actorId point) := by
  have hnew : ∀ new, SameAt db db' (workflowId, version) →
      RetiredRow db (workflowId, version) new → RetiredRow db' (workflowId, version) new := by
    intro new hsame hretired
    refine ⟨hretired.key, hretired.retired, SameAt.keeps hretired.keeps fun other hother => ?_⟩
    rw [List.mem_singleton.mp hother, hretired.key]
    exact hsame
  cases point with
  | begun => trivial
  | selected status => exact (hrow (by simp [WorkflowTxn.holds])).retiring.mpr h
  | retired status new =>
      have hsame := hrow (by simp [WorkflowTxn.holds])
      exact ⟨hsame.retiring.mpr h.1, hnew new hsame h.2⟩
  | projected new tool =>
      have hsame := hrow (by simp [WorkflowTxn.holds])
      refine ⟨hnew new hsame h.1, ?_⟩
      cases tool with
      | some tool =>
          obtain ⟨-, hactive, hid, hstatus, htool⟩ := h
          exact ⟨hsame.retiring.mpr hactive, hid, hstatus,
            hlocked tool (by simp [WorkflowTxn.holds]) htool⟩
      | none =>
          obtain ⟨-, status, hretiring, hnone⟩ := h
          exact ⟨status, hsame.retiring.mpr hretiring, fun hactive =>
            hother (by simp [WorkflowTxn.holds]) (hnone hactive)⟩

end Stable

/-! ## What a commit does -/

/-- The writes that a transaction is about to commit. -/
def WorkflowTxn.writes (env : WorkflowEnv) :
    WorkflowTxn → Option (List WorkflowVersion × Option ToolDefinition)
  | .publish tool _ (.projected rows) => some (rows, some (immutableTool env tool))
  | .retire _ _ _ (.projected row tool) => some ([row], tool)
  | .toggle _ _ (.updated tool) => some ([], tool)
  | _ => none

/-- What is to be known of the commit of a transaction that writes `rows` and `new`. -/
structure Commits (env : WorkflowEnv) (guarded : Prop) (db : WorkflowDb) (txn : WorkflowTxn)
    (rows : List WorkflowVersion) (new : Option ToolDefinition) : Prop where
  keys : (rows.map WorkflowVersion.key).Nodup
  keeps : KeepsManifest db rows
  rowLocks : ∀ key ∈ rows.map WorkflowVersion.key, .version key ∈ txn.holds env
  toolLock : ∀ tool, new = some tool → .tool tool.toolId ∈ txn.holds env
  steady : ∀ workflowId, .advisory (env.hashtext workflowId) ∉ txn.holds env →
    Steady db (db.commit rows new) workflowId
  newTool : ∀ tool, new = some tool →
    SameTool db tool ∨ .version (tool.toolId, tool.version) ∈ txn.holds env
  kills : ∀ key, db.IsActive key → ¬ (db.commit rows new).IsActive key →
    (∃ tool, new = some tool ∧ tool.toolId = key.1)
      ∨ ∀ tool ∈ db.tools, tool.toolId = key.1 → tool.source = "workflow" → tool.version ≠ key.2
  projects : ∀ tool, new = some tool → tool.source = "workflow" → tool.status = "active" →
    guarded → (db.commit rows new).IsActive (tool.toolId, tool.version)
  one : OneActive db → OneActive (db.commit rows new)

section Kinds

variable {env : WorkflowEnv} {guarded : Prop} {db : WorkflowDb} {actorId : String}

theorem publish_commits {tool : ToolDefinition} {rows : List WorkflowVersion}
    (h : TxnOk guarded db (.publish tool actorId (.projected rows))) :
    Commits env guarded db (.publish tool actorId (.projected rows)) rows
      (some (immutableTool env tool)) := by
  have hpub : Publishes db tool rows := h
  obtain ⟨new, hnew, hkey, hactive⟩ := hpub.published
  have hother : ∀ key : String × String, key.1 ≠ tool.toolId →
      SameAt db (db.commit rows (some (immutableTool env tool))) key := by
    refine fun key hworkflow => sameAt_commit hpub.keys _ fun hmem => hworkflow ?_
    obtain ⟨row, hrow, rfl⟩ := List.mem_map.mp hmem
    exact hpub.workflow row hrow
  refine {
    keys := hpub.keys
    keeps := hpub.keeps
    rowLocks := ?_
    toolLock := ?_
    steady := ?_
    newTool := ?_
    kills := ?_
    projects := ?_
    one := ?_ }
  · intro key hmem
    obtain ⟨row, hrow, rfl⟩ := List.mem_map.mp hmem
    simp only [WorkflowTxn.holds, List.mem_cons, List.mem_map]
    exact Or.inr (Or.inr ⟨row, hrow, rfl⟩)
  · intro other hother
    cases hother
    simp [WorkflowTxn.holds, immutableTool]
  · intro workflowId hadvisory
    refine steady_of_sameAt fun version => hother _ ?_
    rintro rfl
    exact hadvisory (by simp [WorkflowTxn.holds])
  · intro other hother
    cases hother
    refine Or.inr ?_
    simp only [WorkflowTxn.holds, List.mem_cons, List.mem_map]
    exact Or.inr (Or.inr ⟨new, hnew, by rw [hkey]; rfl⟩)
  · intro key hbefore hafter
    by_cases hworkflow : key.1 = tool.toolId
    · exact Or.inl ⟨_, rfl, hworkflow.symm⟩
    · exact absurd ((hother key hworkflow).isActive.mpr hbefore) hafter
  · intro other hother _ _ _
    cases hother
    exact ⟨new, (mem_versions_commit hpub.keys _).mpr (Or.inl hnew), hkey, hactive⟩
  · intro hone a ha b hb hactiveA hactiveB hsame
    rcases (mem_versions_commit hpub.keys _).mp ha with ha | ⟨ha, hmissA⟩ <;>
      rcases (mem_versions_commit hpub.keys _).mp hb with hb | ⟨hb, hmissB⟩
    · rw [hpub.active a ha hactiveA, hpub.active b hb hactiveB]
    · exact absurd (hpub.covers b hb (by rw [← hsame, hpub.workflow a ha]) hactiveB) hmissB
    · exact absurd (hpub.covers a ha (by rw [hsame, hpub.workflow b hb]) hactiveA) hmissA
    · exact hone a ha b hb hactiveA hactiveB hsame

theorem retire_commits (hkeys : (db.versions.map WorkflowVersion.key).Nodup)
    {workflowId version : String} {row : WorkflowVersion} {tool : Option ToolDefinition}
    (h : TxnOk guarded db (.retire workflowId version actorId (.projected row tool))) :
    Commits env guarded db (.retire workflowId version actorId (.projected row tool)) [row]
      tool := by
  obtain ⟨hrow, htool⟩ := h
  have hmem : ∀ other, other ∈ (db.commit [row] tool).versions
      ↔ other = row ∨ (other ∈ db.versions ∧ other.key ≠ (workflowId, version)) := by
    intro other
    rw [mem_versions_commit (by simp), List.mem_singleton, List.map_singleton,
      List.mem_singleton, hrow.key]
  have hretiring : ∃ status, Retiring db (workflowId, version) status := by
    cases tool with
    | some tool => exact ⟨_, htool.1⟩
    | none => exact ⟨_, htool.choose_spec.1⟩
  obtain ⟨status, hretiring⟩ := hretiring
  refine {
    keys := by simp
    keeps := hrow.keeps
    rowLocks := ?_
    toolLock := ?_
    steady := fun other _ => steady_retire tool hretiring hrow other
    newTool := ?_
    kills := ?_
    projects := ?_
    one := ?_ }
  · intro key hkey
    rw [List.map_singleton, List.mem_singleton, hrow.key] at hkey
    rw [hkey]
    simp [WorkflowTxn.holds]
  · rintro tool rfl
    simp [WorkflowTxn.holds]
  · rintro tool rfl
    exact Or.inl htool.2.2.2
  · intro key hbefore hafter
    obtain ⟨old, hold, hkey, hactive⟩ := hbefore
    by_cases hsame : key = (workflowId, version)
    · subst hsame
      cases tool with
      | some tool => exact Or.inl ⟨tool, rfl, htool.2.1⟩
      | none =>
          obtain ⟨found, ⟨other, hother, hotherKey, hstatus⟩, hnone⟩ := htool
          have heq : other = old := List.inj_on_of_nodup_map hkeys hother hold
            (hotherKey.trans hkey.symm)
          rw [heq, hactive] at hstatus
          exact Or.inr (hnone hstatus.symm)
    · exact absurd ⟨old, (hmem old).mpr (Or.inr ⟨hold, by rw [hkey]; exact hsame⟩), hkey, hactive⟩
        hafter
  · rintro tool rfl - hstatus
    rw [htool.2.2.1] at hstatus
    exact absurd hstatus (by decide)
  · intro hone a ha b hb hactiveA hactiveB hsame
    have hold : ∀ other, other ∈ (db.commit [row] tool).versions →
        other.lifecycleStatus = .active → other ∈ db.versions := by
      intro other hother hactive
      rcases (hmem other).mp hother with rfl | ⟨hother, -⟩
      · rw [hrow.retired] at hactive
        cases hactive
      · exact hother
    exact hone a (hold a ha hactiveA) b (hold b hb hactiveB) hactiveA hactiveB hsame

theorem toggle_commits {toolId status : String} {tool : Option ToolDefinition}
    (h : TxnOk guarded db (.toggle toolId status (.updated tool))) :
    Commits env guarded db (.toggle toolId status (.updated tool)) [] tool := by
  have hsame : ∀ key, SameAt db (db.commit [] tool) key :=
    fun key => sameAt_commit (by simp) tool (by simp)
  refine {
    keys := List.nodup_nil
    keeps := fun _ hnew => absurd hnew List.not_mem_nil
    rowLocks := fun _ hkey => absurd hkey List.not_mem_nil
    toolLock := ?_
    steady := fun workflowId _ => steady_of_sameAt fun version => hsame _
    newTool := ?_
    kills := fun key hbefore hafter => absurd ((hsame key).isActive.mpr hbefore) hafter
    projects := ?_
    one := fun hone => hone }
  · rintro tool rfl
    simp [WorkflowTxn.holds]
  · rintro tool rfl
    exact Or.inl h.1
  · rintro tool rfl hsource hstatus hguarded
    exact (hsame _).isActive.mpr (h.2 hguarded hsource hstatus)

end Kinds

namespace Commits

variable {env : WorkflowEnv} {guarded : Prop} {db : WorkflowDb} {txn other : WorkflowTxn}
  {rows : List WorkflowVersion} {new : Option ToolDefinition}

theorem sameAt (h : Commits env guarded db txn rows new) {key : String × String}
    (hkey : .version key ∉ txn.holds env) : SameAt db (db.commit rows new) key :=
  sameAt_commit h.keys new fun hmem => hkey (h.rowLocks key hmem)

/-- A tools row that is not locked by the transaction stays. -/
theorem sameTool (h : Commits env guarded db txn rows new) {tool : ToolDefinition}
    (hlock : .tool tool.toolId ∉ txn.holds env) (htool : SameTool db tool) :
    SameTool (db.commit rows new) tool := by
  obtain ⟨old, hold, hid, hsource, hversion⟩ := htool
  refine ⟨old, mem_tools_commit.mpr (Or.inr ⟨hold, fun written hwritten hsame => hlock ?_⟩), hid,
    hsource, hversion⟩
  rw [← hid, hsame]
  exact h.toolLock written hwritten

/-- A commit leaves what the other transactions know. -/
theorem others (h : Commits env guarded db txn rows new)
    (hapart : ∀ lock ∈ other.holds env, lock ∉ txn.holds env) (hother : TxnOk guarded db other) :
    TxnOk guarded (db.commit rows new) other := by
  cases other with
  | publish tool actorId point =>
      exact publish_stable hother (fun hlock => h.steady _ (hapart _ hlock))
        fun key hlock => h.sameAt (hapart _ hlock)
  | retire workflowId version actorId point =>
      refine retire_stable hother (fun hlock => h.sameAt (hapart _ hlock))
        (fun tool hlock => h.sameTool (hapart _ hlock)) fun hlock hnone tool htool hid hsource => ?_
      rcases mem_tools_commit.mp htool with hnew | ⟨htool, -⟩
      · rcases h.newTool tool hnew with ⟨old, hold, holdId, holdSource, holdVersion⟩ | hlocked
        · rw [← holdVersion]
          exact hnone old hold (holdId.trans hid) (holdSource.trans hsource)
        · rintro rfl
          rw [hid] at hlocked
          exact hapart _ hlock hlocked
      · exact hnone tool htool hid hsource
  | toggle toolId status point =>
      cases point with
      | begun => trivial
      | updated tool =>
          cases tool with
          | none => trivial
          | some tool =>
              obtain ⟨hsame, hactive⟩ := hother
              have hfree := hapart (.tool tool.toolId) (by simp [WorkflowTxn.holds])
              refine ⟨h.sameTool hfree hsame, fun hguarded hsource hstatus => ?_⟩
              by_contra hafter
              rcases h.kills _ (hactive hguarded hsource hstatus) hafter with
                ⟨written, hwritten, hid⟩ | hnone
              · have hlock := h.toolLock written hwritten
                rw [hid] at hlock
                exact hfree hlock
              · obtain ⟨old, hold, hid, holdSource, hversion⟩ := hsame
                exact hnone old hold hid (holdSource.trans hsource) hversion
  | finished result => trivial

theorem projected (h : Commits env guarded db txn rows new) (hguarded : guarded)
    (hbefore : Projected db) : Projected (db.commit rows new) := by
  intro tool htool hsource hstatus
  rcases mem_tools_commit.mp htool with hnew | ⟨htool, hother⟩
  · exact h.projects tool hnew hsource hstatus hguarded
  · by_contra hafter
    rcases h.kills _ (hbefore tool htool hsource hstatus) hafter with
      ⟨written, hwritten, hid⟩ | hnone
    · exact hother written hwritten hid.symm
    · exact hnone tool htool rfl hsource rfl

theorem frozen (h : Commits env guarded db txn rows new) : Frozen db (db.commit rows new) := by
  intro row hrow
  by_cases hkey : row.key ∈ rows.map WorkflowVersion.key
  · obtain ⟨written, hwritten, hsame⟩ := List.mem_map.mp hkey
    exact ⟨written, (mem_versions_commit h.keys new).mpr (Or.inl hwritten),
      h.keeps written hwritten row hrow hsame.symm⟩
  · exact ⟨row, (mem_versions_commit h.keys new).mpr (Or.inr ⟨hrow, hkey⟩), rfl, rfl, rfl⟩

end Commits

/-! ## Statements -/

section Statements

variable {env : WorkflowEnv} {guarded : Prop} {db db' : WorkflowDb} {actorId : String}
  {free : WorkflowLock → Bool} {txn txn' : WorkflowTxn}

/-- A statement before the commit: it changes no table, takes only free locks and knows
what it needs. -/
structure Proceeds (env : WorkflowEnv) (guarded : Prop) (free : WorkflowLock → Bool)
    (db : WorkflowDb) (txn txn' : WorkflowTxn) : Prop where
  locks : ∀ lock ∈ txn'.holds env, lock ∈ txn.holds env ∨ free lock = true
  ok : TxnOk guarded db txn'

theorem proceeds_finished {result : WorkflowResult} :
    Proceeds env guarded free db txn (.finished result) :=
  ⟨fun _ hlock => absurd hlock List.not_mem_nil, trivial⟩

theorem activated_publishes {tool : ToolDefinition} {rows : List WorkflowVersion}
    {row : WorkflowVersion} (hsup : Supersedes db tool rows)
    (hkey : row.key = (tool.toolId, tool.version)) (hactive : row.lifecycleStatus = .active)
    (hkeeps : KeepsManifest db [row]) : Publishes db tool (rows ++ [row]) := by
  obtain ⟨hworkflow, hversion⟩ := Prod.mk.inj hkey
  have hnew : ∀ new ∈ rows ++ [row], new ∈ rows ∨ new = row := fun new hmem =>
    (List.mem_append.mp hmem).imp_right List.mem_singleton.mp
  refine {
    workflow := ?_
    active := ?_
    keys := ?_
    keeps := ?_
    covers := ?_
    published := ⟨row, by simp, hkey, hactive⟩ }
  · intro new hmem
    rcases hnew new hmem with hmem | rfl
    · exact hsup.workflow new hmem
    · exact hworkflow
  · intro new hmem hstatus
    rcases hnew new hmem with hmem | rfl
    · rw [hsup.retired new hmem] at hstatus
      cases hstatus
    · exact hversion
  · rw [List.map_append, List.map_singleton]
    refine List.nodup_append.mpr ⟨hsup.keys, List.nodup_singleton _, fun a ha b hb hab => ?_⟩
    obtain ⟨new, hmem, rfl⟩ := List.mem_map.mp ha
    rw [List.mem_singleton.mp hb, hkey] at hab
    exact hsup.others new hmem (Prod.mk.inj hab).2
  · intro new hmem old hold holdKey
    rcases hnew new hmem with hmem | rfl
    · exact hsup.keeps new hmem old hold holdKey
    · exact hkeeps new List.mem_cons_self old hold holdKey
  · intro old hold holdWorkflow holdActive
    by_cases hsame : old.version = tool.version
    · have hkeys : old.key = row.key := by
        rw [hkey, ← hsame, ← holdWorkflow]
        rfl
      rw [hkeys]
      exact List.mem_map.mpr ⟨row, by simp, rfl⟩
    · rw [List.map_append]
      exact List.mem_append_left _ (hsup.covers old hold holdWorkflow holdActive hsame)

/-- A transaction either proceeds or commits what it has written. -/
inductive Advances (env : WorkflowEnv) (guarded : Prop) (free : WorkflowLock → Bool)
    (db : WorkflowDb) (txn : WorkflowTxn) : WorkflowDb → WorkflowTxn → Prop where
  | proceeds {txn' : WorkflowTxn} (h : Proceeds env guarded free db txn txn') :
      Advances env guarded free db txn db txn'
  | commits {rows : List WorkflowVersion} {new : Option ToolDefinition} (result : WorkflowResult)
      (h : txn.writes env = some (rows, new)) :
      Advances env guarded free db txn (db.commit rows new) (.finished result)

theorem mem_supersededVersions {tool : ToolDefinition} {row : WorkflowVersion} :
    row ∈ supersededVersions db tool ↔ row ∈ db.versions ∧ row.workflowId = tool.toolId
      ∧ row.lifecycleStatus = .active ∧ row.version ≠ tool.version := by
  simp [supersededVersions, and_assoc]

theorem supersede_key (row : WorkflowVersion) : (row.supersede actorId).key = row.key := rfl

/-- The rows that `SET lifecycle_status='retired'` of a publication writes. -/
theorem supersededVersions_supersedes (hkeys : (db.versions.map WorkflowVersion.key).Nodup)
    (tool : ToolDefinition) :
    Supersedes db tool ((supersededVersions db tool).map (·.supersede actorId)) := by
  have hmap : ((supersededVersions db tool).map (·.supersede actorId)).map WorkflowVersion.key
      = (supersededVersions db tool).map WorkflowVersion.key := by
    rw [List.map_map]
    rfl
  have hnew : ∀ new ∈ (supersededVersions db tool).map (·.supersede actorId),
      ∃ row ∈ supersededVersions db tool, row.supersede actorId = new :=
    fun new hmem => List.mem_map.mp hmem
  refine {
    workflow := ?_
    others := ?_
    retired := ?_
    keys := ?_
    keeps := ?_
    covers := ?_ }
  · intro new hmem
    obtain ⟨row, hrow, rfl⟩ := hnew new hmem
    exact (mem_supersededVersions.mp hrow).2.1
  · intro new hmem
    obtain ⟨row, hrow, rfl⟩ := hnew new hmem
    exact (mem_supersededVersions.mp hrow).2.2.2
  · intro new hmem
    obtain ⟨row, -, rfl⟩ := hnew new hmem
    rfl
  · rw [hmap]
    exact hkeys.sublist (List.filter_sublist.map _)
  · intro new hmem old hold hkey
    obtain ⟨row, hrow, rfl⟩ := hnew new hmem
    rw [supersede_key] at hkey
    rw [List.inj_on_of_nodup_map hkeys hold (mem_supersededVersions.mp hrow).1 hkey]
    exact ⟨rfl, rfl, rfl⟩
  · intro row hrow hworkflow hactive hversion
    rw [hmap]
    exact List.mem_map.mpr
      ⟨row, mem_supersededVersions.mpr ⟨hrow, hworkflow, hactive, hversion⟩, rfl⟩

theorem version?_eq_none {workflowId version : String} :
    db.version? workflowId version = none ↔ ¬ db.Has (workflowId, version) := by
  rw [WorkflowDb.version?, find_eq_none]
  exact ⟨fun h ⟨row, hrow, hkey⟩ => h row hrow hkey, fun h row hrow hkey => h ⟨row, hrow, hkey⟩⟩

/-- The lock of the activated version is the one that its statement takes. -/
theorem activated_locks {tool : ToolDefinition} {existing : Bool} {rows : List WorkflowVersion}
    {row : WorkflowVersion} {lock : WorkflowLock}
    (hlock : lock ∈ (WorkflowTxn.publish tool actorId (.activated (rows ++ [row]))).holds env) :
    lock ∈ (WorkflowTxn.publish tool actorId (.superseded existing rows)).holds env
      ∨ lock = .version row.key := by
  rw [WorkflowTxn.holds, List.mem_cons, List.map_append, List.mem_append, List.map_singleton,
    List.mem_singleton] at hlock
  rw [WorkflowTxn.holds, List.mem_append, List.mem_cons]
  rcases hlock with hlock | hlock | hlock
  · exact Or.inl (Or.inl (Or.inl hlock))
  · exact Or.inl (Or.inr hlock)
  · exact Or.inr hlock

/-- The definition is locked, if it may be published at all. -/
theorem publish_begun_advances {tool : ToolDefinition}
    (hnext : publishNext env db free tool actorId .begun = some (db', txn')) :
    Advances env guarded free db (.publish tool actorId .begun) db' txn' := by
  rw [publishNext] at hnext
  split at hnext
  · cases hnext
    exact .proceeds proceeds_finished
  · split at hnext
    · rename_i hfree
      cases hnext
      refine .proceeds ⟨fun lock hlock => Or.inr ?_, trivial⟩
      rw [List.mem_singleton.mp hlock]
      exact hfree
    · cases hnext

/-- Whether the version is there is seen under the lock of its row. -/
theorem publish_locked_advances {tool : ToolDefinition}
    (hnext : publishNext env db free tool actorId .locked = some (db', txn')) :
    Advances env guarded free db (.publish tool actorId .locked) db' txn' := by
  rw [publishNext] at hnext
  split at hnext
  · rename_i hnone
    cases hnext
    refine .proceeds ⟨fun lock hlock => Or.inl hlock, ?_⟩
    exact iff_of_false Bool.false_ne_true (version?_eq_none.mp hnone)
  · rename_i existing hfound
    obtain ⟨hmem, hkey⟩ := find_spec hfound
    split at hnext
    · cases hnext
    · rename_i hfree
      split at hnext
      · cases hnext
        exact .proceeds proceeds_finished
      · cases hnext
        refine .proceeds ⟨fun lock hlock => ?_, iff_of_true rfl ⟨existing, hmem, hkey⟩⟩
        rcases List.mem_cons.mp hlock with rfl | hlock
        · exact Or.inl List.mem_cons_self
        · rw [List.mem_singleton.mp hlock, ← hkey]
          exact Or.inr (by simpa using hfree)

/-- The rows of the other versions are locked and superseded. -/
theorem publish_selected_advances (hkeys : (db.versions.map WorkflowVersion.key).Nodup)
    {tool : ToolDefinition} {existing : Bool}
    (h : TxnOk guarded db (.publish tool actorId (.selected existing)))
    (hnext : publishNext env db free tool actorId (.selected existing) = some (db', txn')) :
    Advances env guarded free db (.publish tool actorId (.selected existing)) db' txn' := by
  rw [publishNext] at hnext
  split at hnext
  · rename_i hfree
    cases hnext
    refine .proceeds ⟨fun lock hlock => ?_, h, supersededVersions_supersedes hkeys tool⟩
    rw [WorkflowTxn.holds, List.mem_append, List.mem_map] at hlock
    rcases hlock with hlock | ⟨new, hnew, rfl⟩
    · exact Or.inl hlock
    · obtain ⟨row, hrow, rfl⟩ := List.mem_map.mp hnew
      exact Or.inr (List.all_eq_true.mp hfree row hrow)
  · cases hnext

/-- The version is activated, as it stands or as a new row. -/
theorem publish_superseded_advances (hkeys : (db.versions.map WorkflowVersion.key).Nodup)
    {tool : ToolDefinition} {existing : Bool} {rows : List WorkflowVersion}
    (h : TxnOk guarded db (.publish tool actorId (.superseded existing rows)))
    (hnext : publishNext env db free tool actorId (.superseded existing rows) = some (db', txn')) :
    Advances env guarded free db (.publish tool actorId (.superseded existing rows)) db' txn' := by
  obtain ⟨hhas, hsup⟩ := h
  rw [publishNext] at hnext
  split at hnext
  · rename_i hexisting
    subst hexisting
    cases hfound : db.version? tool.toolId tool.version with
    | none => exact absurd (hhas.mp rfl) (version?_eq_none.mp hfound)
    | some row =>
        rw [hfound] at hnext
        cases hnext
        obtain ⟨hrow, hkey⟩ := find_spec hfound
        have hactivated : (row.activate actorId).key = (tool.toolId, tool.version) := hkey
        refine .proceeds ⟨fun lock hlock => Or.inl ?_,
          activated_publishes hsup hactivated rfl ?_⟩
        · rcases activated_locks hlock with hlock | rfl
          · exact hlock
          · rw [hactivated]
            simp [WorkflowTxn.holds]
        · intro new hnew old hold holdKey
          rw [List.mem_singleton.mp hnew] at holdKey ⊢
          rw [List.inj_on_of_nodup_map hkeys hold hrow holdKey]
          exact ⟨rfl, rfl, rfl⟩
  · rename_i hexisting
    have hnot : ¬ db.Has (tool.toolId, tool.version) := fun hthere =>
      hexisting (hhas.mpr hthere)
    split at hnext
    · cases hnext
    · rename_i hfree
      split at hnext
      · cases hnext
        exact .proceeds proceeds_finished
      · cases hnext
        refine .proceeds ⟨fun lock hlock => ?_, activated_publishes hsup rfl rfl ?_⟩
        · have hkeyFree : free (.version (tool.toolId, tool.version)) = true := by
            simpa using hfree
          refine (activated_locks hlock).imp_right ?_
          rintro rfl
          exact hkeyFree
        · intro new hnew old hold holdKey
          rw [List.mem_singleton.mp hnew] at holdKey
          exact absurd ⟨old, hold, holdKey⟩ hnot

theorem publish_activated_advances {tool : ToolDefinition} {rows : List WorkflowVersion}
    (h : TxnOk guarded db (.publish tool actorId (.activated rows)))
    (hnext : publishNext env db free tool actorId (.activated rows) = some (db', txn')) :
    Advances env guarded free db (.publish tool actorId (.activated rows)) db' txn' := by
  rw [publishNext] at hnext
  split at hnext
  · rename_i hfree
    cases hnext
    refine .proceeds ⟨fun lock hlock => ?_, h⟩
    simp only [WorkflowTxn.holds, List.mem_cons] at hlock ⊢
    rcases hlock with rfl | rfl | hlock
    · exact Or.inl (Or.inl rfl)
    · exact Or.inr hfree
    · exact Or.inl (Or.inr hlock)
  · cases hnext

theorem publish_projected_advances {tool : ToolDefinition} {rows : List WorkflowVersion}
    (hnext : publishNext env db free tool actorId (.projected rows) = some (db', txn')) :
    Advances env guarded free db (.publish tool actorId (.projected rows)) db' txn' := by
  cases hnext
  exact .commits _ rfl

theorem publish_advances (hkeys : (db.versions.map WorkflowVersion.key).Nodup)
    {tool : ToolDefinition} {point : PublishPoint}
    (h : TxnOk guarded db (.publish tool actorId point))
    (hnext : publishNext env db free tool actorId point = some (db', txn')) :
    Advances env guarded free db (.publish tool actorId point) db' txn' := by
  cases point with
  | begun => exact publish_begun_advances hnext
  | locked => exact publish_locked_advances hnext
  | selected _ => exact publish_selected_advances hkeys h hnext
  | superseded _ _ => exact publish_superseded_advances hkeys h hnext
  | activated _ => exact publish_activated_advances h hnext
  | projected _ => exact publish_projected_advances hnext

theorem retire_advances (hkeys : (db.versions.map WorkflowVersion.key).Nodup)
    (hids : (db.tools.map ToolDefinition.toolId).Nodup) {workflowId version : String}
    {point : RetirePoint} (h : TxnOk guarded db (.retire workflowId version actorId point))
    (hnext : retireNext db free workflowId version actorId point = some (db', txn')) :
    Advances env guarded free db (.retire workflowId version actorId point) db' txn' := by
  cases point with
  | begun =>
      rw [retireNext] at hnext
      split at hnext
      · cases hnext
        exact .proceeds proceeds_finished
      · rename_i row hfound
        obtain ⟨hrow, hkey⟩ := find_spec hfound
        split at hnext
        · rename_i hfree
          cases hnext
          refine .proceeds ⟨fun lock hlock => Or.inr ?_, row, hrow, hkey, rfl⟩
          rw [List.mem_singleton.mp hlock, ← hkey]
          exact hfree
        · cases hnext
  | selected status =>
      rw [retireNext] at hnext
      split at hnext
      · cases hnext
        exact .proceeds proceeds_finished
      · rename_i row hfound
        obtain ⟨hrow, hkey⟩ := find_spec hfound
        cases hnext
        refine .proceeds ⟨fun lock hlock => Or.inl hlock, h, hkey, rfl, ?_⟩
        intro new hnew old hold holdKey
        rw [List.mem_singleton.mp hnew] at holdKey ⊢
        rw [List.inj_on_of_nodup_map hkeys hold hrow holdKey]
        exact ⟨rfl, rfl, rfl⟩
  | retired status row =>
      obtain ⟨hretiring, hrow⟩ := h
      rw [retireNext] at hnext
      split at hnext
      · rename_i hnone
        cases hnext
        refine .proceeds ⟨fun lock hlock => Or.inl hlock, hrow, status, hretiring, ?_⟩
        exact fun _ tool htool hid => absurd hid (find_eq_none.mp hnone tool htool)
      · rename_i tool hfound
        obtain ⟨htool, hid⟩ := find_spec hfound
        split at hnext
        · rename_i hnames
          obtain ⟨rfl, hsource, hversion⟩ := hnames
          split at hnext
          · rename_i hfree
            cases hnext
            refine .proceeds ⟨fun lock hlock => ?_, hrow, hretiring, hid, rfl, tool, htool, rfl,
              rfl, rfl⟩
            rcases List.mem_cons.mp hlock with rfl | hlock
            · exact Or.inl (List.mem_singleton.mpr rfl)
            · rw [List.mem_singleton.mp hlock, hid]
              exact Or.inr hfree
          · cases hnext
        · rename_i hnames
          cases hnext
          refine .proceeds ⟨fun lock hlock => Or.inl hlock, hrow, status, hretiring, ?_⟩
          intro hactive other hother hotherId hsource hversion
          rw [List.inj_on_of_nodup_map hids hother htool (hotherId.trans hid.symm)]
            at hsource hversion
          exact hnames ⟨hactive, hsource, hversion⟩
  | projected row tool =>
      cases hnext
      exact .commits _ rfl

theorem toggle_advances {toolId status : String} {point : TogglePoint}
    (h : TxnOk guarded db (.toggle toolId status point))
    (hactive : guarded → point = .begun → status = "active" → ∀ tool ∈ db.tool? toolId,
      tool.source = "workflow" → db.IsActive (toolId, tool.version))
    (hnext : toggleNext db free toolId status point = some (db', txn')) :
    Advances env guarded free db (.toggle toolId status point) db' txn' := by
  cases point with
  | begun =>
      rw [toggleNext] at hnext
      split at hnext
      · cases hnext
        exact .proceeds proceeds_finished
      · split at hnext
        · cases hnext
          exact .proceeds ⟨fun lock hlock => Or.inl hlock, trivial⟩
        · rename_i tool hfound
          obtain ⟨htool, hid⟩ := find_spec hfound
          split at hnext
          · rename_i hfree
            cases hnext
            refine .proceeds ⟨fun lock hlock => Or.inr ?_, ⟨tool, htool, rfl, rfl, rfl⟩, ?_⟩
            · rw [List.mem_singleton.mp hlock, hid]
              exact hfree
            · intro hguarded hsource hstatus
              rw [hid]
              exact hactive hguarded rfl hstatus tool hfound hsource
          · cases hnext
  | updated tool =>
      cases hnext
      exact .commits _ rfl

end Statements

/-! ## Runs -/

/-- What holds of the tables and of every transaction. -/
structure WorkflowInv (env : WorkflowEnv) (guarded : Prop) (s : WorkflowState) : Prop where
  versionKeys : (s.db.versions.map WorkflowVersion.key).Nodup
  toolIds : (s.db.tools.map ToolDefinition.toolId).Nodup
  one : OneActive s.db
  projected : guarded → Projected s.db
  exclusive : Transactions.Exclusive (WorkflowTxn.holds env) s.txns
  ok : ∀ (i : Nat) (txn : WorkflowTxn), s.txns[i]? = some txn → TxnOk guarded s.db txn

section Steps

variable {env : WorkflowEnv} {guarded : Prop} {s s' : WorkflowState}

theorem WorkflowInv.commits (h : WorkflowInv env guarded s) {i : Nat} {txn : WorkflowTxn}
    {rows : List WorkflowVersion} {new : Option ToolDefinition} (htxn : s.txns[i]? = some txn)
    (hwrites : txn.writes env = some (rows, new)) : Commits env guarded s.db txn rows new := by
  have hok := h.ok i txn htxn
  unfold WorkflowTxn.writes at hwrites
  split at hwrites <;> cases hwrites
  · exact publish_commits hok
  · exact retire_commits h.versionKeys hok
  · exact toggle_commits hok

/-- The other transactions do not hold what the committing one does. -/
theorem WorkflowInv.commit (h : WorkflowInv env guarded s) {i : Nat} {txn : WorkflowTxn}
    {rows : List WorkflowVersion} {new : Option ToolDefinition} (htxn : s.txns[i]? = some txn)
    (hwrites : txn.writes env = some (rows, new)) (result : WorkflowResult) :
    WorkflowInv env guarded ⟨s.db.commit rows new, s.txns.set i (.finished result)⟩ := by
  have hcommits := h.commits htxn hwrites
  refine {
    versionKeys := nodup_putAll h.versionKeys
    toolIds := nodup_putAll h.toolIds
    one := hcommits.one h.one
    projected := fun hguarded => hcommits.projected hguarded (h.projected hguarded)
    exclusive := h.exclusive.set htxn fun _ hlock => absurd hlock List.not_mem_nil
    ok := fun j other hother => ?_ }
  rcases (Runs.getElem?_set_iff htxn).mp hother with ⟨-, rfl⟩ | ⟨hj, hother⟩
  · trivial
  · exact hcommits.others (fun lock hlock => h.exclusive j i other txn lock hj hother htxn hlock)
      (h.ok j other hother)

theorem WorkflowInv.proceed (h : WorkflowInv env guarded s) {i : Nat} {txn txn' : WorkflowTxn}
    (htxn : s.txns[i]? = some txn)
    (hproceeds : Proceeds env guarded (Transactions.free (WorkflowTxn.holds env) s.txns i) s.db txn
      txn') : WorkflowInv env guarded ⟨s.db, s.txns.set i txn'⟩ := by
  refine { h with
    exclusive := h.exclusive.set htxn hproceeds.locks
    ok := fun j other hother => ?_ }
  rcases (Runs.getElem?_set_iff htxn).mp hother with ⟨-, rfl⟩ | ⟨-, hother⟩
  · exact hproceeds.ok
  · exact h.ok j other hother

/-- One statement of one transaction. -/
theorem next_advances (h : WorkflowInv env guarded s) {i : Nat} {txn txn' : WorkflowTxn}
    {db' : WorkflowDb} (htxn : s.txns[i]? = some txn)
    (hactive : guarded → TogglesActive s (.next i))
    (hnext : txn.next env s.db (Transactions.free (WorkflowTxn.holds env) s.txns i)
      = some (db', txn')) :
    Advances env guarded (Transactions.free (WorkflowTxn.holds env) s.txns i) s.db txn db'
      txn' := by
  have hok := h.ok i txn htxn
  cases txn with
  | publish tool actorId point => exact publish_advances h.versionKeys hok hnext
  | retire workflowId version actorId point =>
      exact retire_advances h.versionKeys h.toolIds hok hnext
  | toggle toolId status point =>
      refine toggle_advances hok (fun hguarded hbegun hstatus => hactive hguarded toolId ?_) hnext
      rw [hbegun, hstatus] at htxn
      simp [WorkflowState.activated, htxn]
  | finished result => cases hnext

theorem workflowStep_inv (h : WorkflowInv env guarded s) {action : WorkflowAction}
    (hactive : guarded → TogglesActive s action)
    (hstep : workflowStep env s action = some s') : WorkflowInv env guarded s' := by
  cases action with
  | call request =>
      cases hstep
      have hnothing : request.txn.holds env = [] := by cases request <;> rfl
      refine { h with exclusive := h.exclusive.snoc hnothing, ok := fun j other hother => ?_ }
      rcases Runs.getElem?_snoc_iff.mp hother with ⟨-, rfl⟩ | hother
      · cases request <;> trivial
      · exact h.ok j other hother
  | next i =>
      obtain ⟨txn, htxn, hstep⟩ := Option.bind_eq_some_iff.mp hstep
      obtain ⟨⟨db', txn'⟩, hnext, hstep⟩ := Option.bind_eq_some_iff.mp hstep
      cases hstep
      rcases next_advances h htxn hactive hnext with hproceeds | ⟨result, hwrites⟩
      · exact h.proceed htxn hproceeds
      · exact h.commit htxn hwrites result
  | lose i =>
      obtain ⟨txn, htxn, hstep⟩ := Option.bind_eq_some_iff.mp hstep
      cases hstep
      exact h.proceed htxn proceeds_finished

theorem Frozen.refl (db : WorkflowDb) : Frozen db db := fun row hrow => ⟨row, hrow, rfl, rfl, rfl⟩

theorem Frozen.trans {a b c : WorkflowDb} (hab : Frozen a b) (hbc : Frozen b c) : Frozen a c := by
  intro row hrow
  obtain ⟨row', hrow', hkey, hhash, hjson⟩ := hab row hrow
  obtain ⟨row'', hrow'', hkey', hhash', hjson'⟩ := hbc row' hrow'
  exact ⟨row'', hrow'', hkey'.trans hkey, hhash'.trans hhash, hjson'.trans hjson⟩

theorem workflowStep_frozen (h : WorkflowInv env False s) {action : WorkflowAction}
    (hstep : workflowStep env s action = some s') : Frozen s.db s'.db := by
  cases action with
  | call request =>
      cases hstep
      exact Frozen.refl _
  | next i =>
      obtain ⟨txn, htxn, hstep⟩ := Option.bind_eq_some_iff.mp hstep
      obtain ⟨⟨db', txn'⟩, hnext, hstep⟩ := Option.bind_eq_some_iff.mp hstep
      cases hstep
      rcases next_advances h htxn False.elim hnext with hproceeds | ⟨result, hwrites⟩
      · exact Frozen.refl _
      · exact (h.commits htxn hwrites).frozen
  | lose i =>
      obtain ⟨txn, htxn, hstep⟩ := Option.bind_eq_some_iff.mp hstep
      cases hstep
      exact Frozen.refl _

theorem WorkflowStore.inv (start : WorkflowStore) (guarded : Prop) :
    WorkflowInv env guarded ⟨start.db, []⟩ where
  versionKeys := start.versionKeys
  toolIds := start.toolIds
  one := start.oneActive
  projected _ := start.projected
  exclusive := exclusive_nil
  ok _ _ htxn := nomatch htxn

/-- The manifests between two points of a run. -/
theorem workflow_run_frozen (h : WorkflowInv env False s) {actions : List WorkflowAction}
    (hrun : Runs.run (workflowStep env) s actions = some s') : Frozen s.db s'.db := by
  have hkept : WorkflowInv env False s' ∧ Frozen s.db s'.db := by
    refine Runs.run_invariant' (I := fun t => WorkflowInv env False t ∧ Frozen s.db t.db)
      (fun t action t' ht hstep => ?_) ⟨h, Frozen.refl _⟩ hrun
    exact ⟨workflowStep_inv ht.1 False.elim hstep, ht.2.trans (workflowStep_frozen ht.1 hstep)⟩
  exact hkept.2

end Steps

/-- In every run at most one version of a workflow is active, and a version keeps its
manifest. In the runs whose status changes respect the versions, an active workflow tool
names an active version. -/
theorem workflow_versions_kept (env : WorkflowEnv) (start : WorkflowStore)
    (before after : List WorkflowAction) (u s : WorkflowState)
    (hbefore : Runs.run (workflowStep env) ⟨start.db, []⟩ before = some u)
    (hafter : Runs.run (workflowStep env) u after = some s) :
    OneActive s.db
      ∧ (Frozen u.db s.db ∧ (s.db.versions.map WorkflowVersion.key).Nodup)
      ∧ (Runs.Meets (workflowStep env) TogglesActive ⟨start.db, []⟩ (before ++ after) →
        Projected s.db) := by
  have hinv : WorkflowInv env False u :=
    Runs.run_invariant' (fun _ _ _ ht hstep => workflowStep_inv ht False.elim hstep)
      (start.inv False) hbefore
  have hkept : WorkflowInv env False s :=
    Runs.run_invariant' (fun _ _ _ ht hstep => workflowStep_inv ht False.elim hstep) hinv hafter
  refine ⟨hkept.one, ⟨workflow_run_frozen hinv hafter, hkept.versionKeys⟩, fun hmeets => ?_⟩
  have hguarded : WorkflowInv env True s :=
    Runs.run_invariant (C := TogglesActive)
      (fun _ _ _ ht hactive hstep => workflowStep_inv ht (fun _ => hactive) hstep)
      (start.inv True) hmeets (Runs.run_append.mpr ⟨u, hbefore, hafter⟩)
  exact hguarded.projected trivial

/-- An environment for concrete runs. -/
def sampleWorkflowEnv : WorkflowEnv where
  computeToolManifestHash tool := "sha256:" ++ tool.version
  hashtext _ := 0

def expenseTool (version : String) : ToolDefinition where
  toolId := "expense.submit"
  source := "workflow"
  version := version
  status := "active"
  manifestHash := ""

def emptyWorkflowStore : WorkflowStore where
  db := {}
  versionKeys := List.nodup_nil
  toolIds := List.nodup_nil
  oneActive := fun _ ha => nomatch ha
  projected := fun _ ha => nomatch ha

/-- Publish a version, statement by statement. -/
def publishing (version : String) (i : Nat) : List WorkflowAction :=
  .call (.publish (expenseTool version) "u_admin") :: List.replicate 6 (.next i)

/-- v2 supersedes v1, and then the tools row, which names v2, is made active. -/
theorem workflow_versions_kept_superseded :
    ∃ u s, Runs.run (workflowStep sampleWorkflowEnv) ⟨emptyWorkflowStore.db, []⟩
        (publishing "v1" 0) = some u
      ∧ Runs.run (workflowStep sampleWorkflowEnv) u (publishing "v2" 1
        ++ [.call (.toggle "expense.submit" "active"), .next 2, .next 2]) = some s
      ∧ OneActive s.db ∧ Frozen u.db s.db ∧ Projected s.db := by
  have hmeets : Runs.Meets (workflowStep sampleWorkflowEnv) TogglesActive
      ⟨emptyWorkflowStore.db, []⟩ (publishing "v1" 0 ++ (publishing "v2" 1
        ++ [.call (.toggle "expense.submit" "active"), .next 2, .next 2])) := by
    decide +kernel
  have hsome : (Runs.run (workflowStep sampleWorkflowEnv) ⟨emptyWorkflowStore.db, []⟩
      (publishing "v1" 0 ++ (publishing "v2" 1
        ++ [.call (.toggle "expense.submit" "active"), .next 2, .next 2]))).isSome := by
    decide +kernel
  obtain ⟨s, hs⟩ := Option.isSome_iff_exists.mp hsome
  obtain ⟨u, hu, hs⟩ := Runs.run_append.mp hs
  obtain ⟨hone, hfrozen, hprojected⟩ :=
    workflow_versions_kept sampleWorkflowEnv emptyWorkflowStore _ _ u s hu hs
  exact ⟨u, s, hu, hs, hone, hfrozen.1, hprojected hmeets⟩

/-- v1 is retired and the tools row disabled, and then the row is made active again. -/
theorem retired_workflow_reactivated :
    ∃ s, Runs.run (workflowStep sampleWorkflowEnv) ⟨emptyWorkflowStore.db, []⟩
        (publishing "v1" 0
          ++ .call (.retire "expense.submit" "v1" "u_admin") :: List.replicate 4 (.next 1)
          ++ .call (.toggle "expense.submit" "active") :: List.replicate 2 (.next 2)) = some s
      ∧ ¬ Projected s.db := by
  refine ⟨_, rfl, fun h => ?_⟩
  exact absurd (h { expenseTool "v1" with manifestHash := "sha256:v1" } (by decide) rfl rfl)
    (by decide)

end Aegora
