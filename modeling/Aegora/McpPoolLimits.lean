import Aegora.McpCalls

/-!
# The size of the session pool, and what is closed

Only the holder of the pool lock changes the entries, so what it finds when it
has made room for a session still holds when the client has connected. A step
of the holder closes a session, goes on to connect or gives the lock back
(`HolderStep`); `PoolKept` is the invariant that each of them keeps.

`__aexit__` is called where a step begins to wait for a client to close. The
log of these calls (`loggedStep`) has every session once that has left the
pool, and no other one.
-/

namespace Aegora

variable {maxSessions : Nat} {p q : SessionPool} {i : Nat} {now : Time} {closed : List Nat}

/-! ## The log -/

/-- The session whose client the step begins to close. -/
def startsClosing (op : PoolOp) (q : SessionPool) : List Nat :=
  match op with
  | .resume i _ _ =>
      match q.tasks[i]? with
      | some (.closing s _ _) => [s]
      | _ => []
  | _ => []

/-- A step, and the calls of `__aexit__` so far. -/
def loggedStep (maxSessions : Nat) (logged : SessionPool × List Nat) (op : PoolOp) :
    Option (SessionPool × List Nat) :=
  (poolStep maxSessions logged.1 op).map fun q => (q, logged.2 ++ startsClosing op q)

/-! ## The invariant -/

/-- The task neither waits for a client to close nor for one to connect. -/
def TaskPc.Quiet : TaskPc → Prop
  | .closing .. | .connecting .. => False
  | _ => True

namespace SessionPool

def keys (p : SessionPool) : List String := p.entries.map Prod.fst

/-- The sessions as far as the entries depend on them. -/
def brief (p : SessionPool) : List (String × ClientStatus) :=
  p.sessions.map fun x => (x.cacheKey, x.status)

end SessionPool

structure PoolKept (maxSessions : Nat) (p : SessionPool) (closed : List Nat) : Prop where
  bound : p.entries.length ≤ maxSessions
  keys : p.keys.Nodup
  pooled : ∀ entry ∈ p.entries, p.brief[entry.2]? = some (entry.1, .connected)
  left : ∀ (s : Nat) key status, p.brief[s]? = some (key, status) →
    s ∉ p.entries.map Prod.snd → status ≠ .connected
  once : closed.Nodup
  log : ∀ s, s ∈ closed ↔ ∃ key status, p.brief[s]? = some (key, status) ∧ status ≠ .connected
  closing : ∀ i s rest after, p.tasks[i]? = some (.closing s rest after) →
    p.lockedBy = some i ∧ s ∈ closed
      ∧ ∀ use tool, after = .enforceLimit use tool → tool.cacheKey ∉ p.keys
  connecting : ∀ i use tool, p.tasks[i]? = some (.connecting use tool) →
    p.lockedBy = some i ∧ p.entries.length < maxSessions ∧ tool.cacheKey ∉ p.keys

/-- What the holder of the pool lock does up to its next await. -/
inductive HolderStep (maxSessions : Nat) (p : SessionPool) (i : Nat) : SessionPool → Prop
  | closes (key : String) (s : Nat) (rest : List String) (after : AfterClosing)
      (hmem : (key, s) ∈ p.entries)
      (hafter : ∀ use tool, after = .enforceLimit use tool → tool.cacheKey ∉ p.keys) :
      HolderStep maxSessions p i ((p.pop key s).goto i (.closing s rest after))
  | connects (use : SessionUse) (tool : McpTool) (hroom : p.entries.length < maxSessions)
      (hnew : tool.cacheKey ∉ p.keys) : HolderStep maxSessions p i (p.goto i (.connecting use tool))
  | leaves (r : SessionPool) (pc : TaskPc) (hpc : pc.Quiet) (hbrief : r.brief = p.brief)
      (hentries : r.entries = p.entries) (htasks : r.tasks = p.tasks) :
      HolderStep maxSessions p i (r.leave i pc)

namespace SessionPool

theorem getElem?_brief {s : Nat} :
    p.brief[s]? = (p.sessions[s]?).map fun x => (x.cacheKey, x.status) := List.getElem?_map

theorem brief_modify {s : Nat} {f : McpSession → McpSession}
    (hf : ∀ x, ((f x).cacheKey, (f x).status) = (x.cacheKey, x.status)) :
    (p.modifySession s f).brief = p.brief := by
  refine List.ext_getElem? fun j => ?_
  rw [getElem?_brief, getElem?_brief, modifySession, List.getElem?_modify]
  by_cases hj : s = j
  · simp [hj, Function.comp_def, hf]
  · simp [hj]

/-- A change of the status of one session. -/
theorem brief_setStatus (p : SessionPool) (s : Nat) {f : McpSession → McpSession}
    {status : ClientStatus} (hf : ∀ x, ((f x).cacheKey, (f x).status) = (x.cacheKey, status))
    (j : Nat) :
    (p.modifySession s f).brief[j]? =
      if s = j then (p.brief[j]?).map fun x => (x.1, status) else p.brief[j]? := by
  rw [getElem?_brief, getElem?_brief, modifySession, List.getElem?_modify]
  by_cases hj : s = j
  · simp [hj, Function.comp_def, hf]
  · simp [hj]

/-! ## What the holder does -/

theorem find_eq_none {key : String} (h : p.find key = none) : key ∉ p.keys := by
  intro hmem
  obtain ⟨entry, hentry, rfl⟩ := List.mem_map.mp hmem
  have hnone := List.find?_eq_none.mp (Option.map_eq_none_iff.mp h) entry hentry
  simp at hnone

theorem closeFirst_holder {after : AfterClosing} {keys : List String}
    (hafter : ∀ use tool, after = .enforceLimit use tool → tool.cacheKey ∉ p.keys)
    (h : p.closeFirst i after keys = some q) : HolderStep maxSessions p i q := by
  induction keys with
  | nil => cases h
  | cons key rest ih =>
      rw [closeFirst] at h
      split at h
      · exact ih h
      · rename_i s hfind
        obtain rfl := Option.some.inj h
        exact .closes key s rest after (mem_of_find hfind) hafter

theorem mem_of_leastRecent {xs : List McpSession} {x : McpSession}
    (h : leastRecent xs = some x) : x ∈ xs := by
  induction xs generalizing x with
  | nil => cases h
  | cons first rest ih =>
      rw [leastRecent] at h
      split at h
      · obtain rfl := Option.some.inj h
        exact List.mem_cons_self
      · rename_i y hy
        split at h
        · obtain rfl := Option.some.inj h
          exact List.mem_cons_of_mem _ (ih hy)
        · obtain rfl := Option.some.inj h
          exact List.mem_cons_self

theorem mem_of_unlocked {key : String} {x : McpSession} (h : (key, x) ∈ p.unlocked) :
    ∃ s, (key, s) ∈ p.entries ∧ p.sessions[s]? = some x := by
  obtain ⟨⟨key', s⟩, hentry, hx⟩ := List.mem_filterMap.mp h
  obtain ⟨y, hy, heq⟩ := Option.map_eq_some_iff.mp hx
  obtain ⟨rfl, rfl⟩ := Prod.mk.injEq .. ▸ heq
  exact ⟨s, hentry, (Option.filter_eq_some_iff.mp hy).1⟩

/-- A pooled session is found under its own key. -/
theorem closeFirst_oldest (h : PoolKept maxSessions p closed) (i : Nat) (after : AfterClosing)
    {x : McpSession} (hx : leastRecent (p.unlocked.map Prod.snd) = some x) :
    ∃ q, p.closeFirst i after [x.cacheKey] = some q := by
  obtain ⟨⟨key, x⟩, hmem, rfl⟩ := List.mem_map.mp (mem_of_leastRecent hx)
  obtain ⟨s, hentry, hsession⟩ := mem_of_unlocked hmem
  have hkey := h.pooled _ hentry
  rw [getElem?_brief, hsession] at hkey
  have hown : x.cacheKey = key := congrArg Prod.fst (Option.some.inj hkey)
  rw [closeFirst]
  split
  · rename_i hnone
    rw [hown] at hnone
    exact absurd (List.mem_map_of_mem hentry) (find_eq_none hnone)
  · exact ⟨_, rfl⟩

theorem enforceLimit_holder (h : PoolKept maxSessions p closed) {use : SessionUse} {tool : McpTool}
    (hnew : tool.cacheKey ∉ p.keys) :
    HolderStep maxSessions p i (p.enforceLimit maxSessions i use tool) := by
  unfold enforceLimit
  split
  · rename_i hroom
    exact .connects use tool hroom hnew
  · split
    · exact .leaves p _ trivial rfl rfl rfl
    · rename_i oldest holdest
      obtain ⟨q, hq⟩ := closeFirst_oldest h i (.enforceLimit use tool) holdest
      rw [hq]
      refine closeFirst_holder ?_ hq
      rintro use' tool' heq
      cases heq
      exact hnew

/-- Close one of the keys, or go on otherwise. -/
theorem closeFirst_getD_holder {after : AfterClosing} {keys : List String} {other : SessionPool}
    (hafter : ∀ use tool, after = .enforceLimit use tool → tool.cacheKey ∉ p.keys)
    (hother : HolderStep maxSessions p i other) :
    HolderStep maxSessions p i ((p.closeFirst i after keys).getD other) := by
  cases hclose : p.closeFirst i after keys with
  | none => exact hother
  | some r => exact closeFirst_holder hafter hclose

theorem lookUp_holder (h : PoolKept maxSessions p closed) {use : SessionUse} {tool : McpTool} :
    HolderStep maxSessions p i (p.lookUp maxSessions i now use tool) := by
  unfold lookUp
  split
  · rename_i s hfind
    exact .leaves _ _ trivial (brief_modify fun _ => rfl) rfl rfl
  · rename_i hnone
    have hnew := find_eq_none hnone
    refine closeFirst_getD_holder ?_ (enforceLimit_holder h hnew)
    rintro use' tool' heq
    cases heq
    exact hnew

theorem closeKeys_holder (h : PoolKept maxSessions p closed) {after : AfterClosing}
    (hafter : ∀ use tool, after = .enforceLimit use tool → tool.cacheKey ∉ p.keys)
    (keys : List String) :
    HolderStep maxSessions p i (p.closeKeys maxSessions i now after keys) := by
  refine closeFirst_getD_holder hafter ?_
  cases after with
  | lookUp use tool => exact lookUp_holder h
  | enforceLimit use tool => exact enforceLimit_holder h (hafter use tool rfl)
  | release error => exact .leaves p _ trivial rfl rfl rfl

theorem enter_holder (h : PoolKept maxSessions p closed) (use : PoolUse) :
    HolderStep maxSessions p i (p.enter maxSessions i now use) := by
  cases use with
  | getSession use tool => exact closeKeys_holder h (fun _ _ heq => by cases heq) _
  | cleanupIdle => exact closeKeys_holder h (fun _ _ heq => by cases heq) _
  | evict cacheKey expected error => exact closeKeys_holder h (fun _ _ heq => by cases heq) _
  | closeAll => exact closeKeys_holder h (fun _ _ heq => by cases heq) _

/-! ## What a step preserves -/

/-- Whoever closes or connects a client holds the pool lock. -/
theorem holds_of_not_quiet (h : PoolKept maxSessions p closed) {pc : TaskPc}
    (hpc : p.tasks[i]? = some pc) (hquiet : ¬ pc.Quiet) : p.lockedBy = some i := by
  cases pc with
  | closing s rest after => exact (h.closing i s rest after hpc).1
  | connecting use tool => exact (h.connecting i use tool hpc).1
  | atPool => exact absurd trivial hquiet
  | handed => exact absurd trivial hquiet
  | atSession => exact absurd trivial hquiet
  | calling => exact absurd trivial hquiet
  | ended => exact absurd trivial hquiet

/-- The tasks that close or connect are the same, and hold the lock. -/
theorem kept_frame (h : PoolKept maxSessions p closed) (hbrief : q.brief = p.brief)
    (hentries : q.entries = p.entries)
    (htasks : ∀ (j : Nat) pc, q.tasks[j]? = some pc → ¬ pc.Quiet →
      p.tasks[j]? = some pc ∧ q.lockedBy = p.lockedBy) : PoolKept maxSessions q closed where
  bound := hentries ▸ h.bound
  keys := by rw [keys, hentries]; exact h.keys
  pooled := by rw [hbrief, hentries]; exact h.pooled
  left := by rw [hbrief, hentries]; exact h.left
  once := h.once
  log := by rw [hbrief]; exact h.log
  closing := fun j s rest after hj => by
    obtain ⟨hj, hlock⟩ := htasks j _ hj id
    rw [hlock, keys, hentries]
    exact h.closing j s rest after hj
  connecting := fun j use tool hj => by
    obtain ⟨hj, hlock⟩ := htasks j _ hj id
    rw [hlock, keys, hentries]
    exact h.connecting j use tool hj

/-- A task that neither closes nor connects, with the lock as it was. -/
theorem kept_goto (h : PoolKept maxSessions p closed) {pc : TaskPc} (hpc : pc.Quiet) :
    PoolKept maxSessions (p.goto i pc) closed := by
  refine kept_frame h rfl rfl fun j pc' hj hquiet => ⟨?_, rfl⟩
  rw [goto, List.getElem?_set] at hj
  split at hj
  · split at hj
    · exact absurd (Option.some.inj hj ▸ hpc) hquiet
    · cases hj
  · exact hj

theorem kept_modify (h : PoolKept maxSessions p closed) {s : Nat} {f : McpSession → McpSession}
    (hf : ∀ x, ((f x).cacheKey, (f x).status) = (x.cacheKey, x.status)) :
    PoolKept maxSessions (p.modifySession s f) closed :=
  kept_frame h (brief_modify hf) rfl fun _ _ hj _ => ⟨hj, rfl⟩

/-- While the lock is free nobody closes or connects. -/
theorem kept_locked (h : PoolKept maxSessions p closed) (hfree : p.lockedBy = none) :
    PoolKept maxSessions { p with lockedBy := some i } closed := by
  refine kept_frame h rfl rfl fun j pc hj hquiet => ?_
  have hheld := holds_of_not_quiet h hj hquiet
  rw [hfree] at hheld
  cases hheld

/-- The client of a session that has left the pool is closed. -/
theorem kept_closed (h : PoolKept maxSessions p closed) {s : Nat} (hs : s ∈ closed) :
    PoolKept maxSessions (p.modifySession s .close) closed := by
  have hbrief := brief_setStatus p s (f := .close) fun _ => rfl
  obtain ⟨key, status, hleft, hstatus⟩ := (h.log s).mp hs
  refine ⟨h.bound, h.keys, fun entry hentry => ?_, fun t key' status' ht hout => ?_, h.once,
    fun t => ?_, h.closing, h.connecting⟩
  · have hpooled := h.pooled entry hentry
    rw [hbrief, if_neg, hpooled]
    rintro rfl
    rw [hpooled] at hleft
    obtain ⟨-, rfl⟩ := Prod.mk.injEq .. ▸ Option.some.inj hleft
    exact hstatus rfl
  · rw [hbrief] at ht
    split at ht
    · obtain ⟨x, -, hx⟩ := Option.map_eq_some_iff.mp ht
      obtain ⟨-, rfl⟩ := Prod.mk.injEq .. ▸ hx
      decide
    · exact h.left t key' status' ht hout
  · rw [h.log t, hbrief]
    by_cases hst : s = t
    · subst hst
      simp only [if_pos, hleft]
      exact ⟨fun _ => ⟨key, .closed, rfl, by decide⟩, fun _ => ⟨key, status, rfl, hstatus⟩⟩
    · rw [if_neg hst]

theorem eq_of_set {j : Nat} {pc pc' : TaskPc} (h : (p.tasks.set i pc)[j]? = some pc') :
    j = i ∧ pc' = pc ∨ j ≠ i ∧ p.tasks[j]? = some pc' := by
  rw [List.getElem?_set] at h
  split at h
  · rename_i hij
    split at h
    · exact Or.inl ⟨hij.symm, (Option.some.inj h).symm⟩
    · cases h
  · rename_i hij
    exact Or.inr ⟨Ne.symm hij, h⟩

/-- While a task holds the lock it is the only one to close or connect. -/
theorem eq_of_holds (h : PoolKept maxSessions p closed) (hlock : p.lockedBy = some i) {j : Nat}
    {pc pc' : TaskPc} (hj : (p.tasks.set i pc)[j]? = some pc') (hquiet : ¬ pc'.Quiet) :
    j = i ∧ pc' = pc := by
  rcases eq_of_set hj with hself | ⟨hne, hj⟩
  · exact hself
  · have hheld := holds_of_not_quiet h hj hquiet
    rw [hlock] at hheld
    exact absurd (Option.some.inj hheld).symm hne

theorem kept_connecting (h : PoolKept maxSessions p closed) (hlock : p.lockedBy = some i)
    {use : SessionUse} {tool : McpTool} (hroom : p.entries.length < maxSessions)
    (hnew : tool.cacheKey ∉ p.keys) :
    PoolKept maxSessions (p.goto i (.connecting use tool)) closed := by
  refine ⟨h.bound, h.keys, h.pooled, h.left, h.once, h.log, fun j s rest after hj => ?_,
    fun j use' tool' hj => ?_⟩
  · obtain ⟨-, heq⟩ := eq_of_holds h hlock hj id
    cases heq
  · obtain ⟨rfl, heq⟩ := eq_of_holds h hlock hj id
    cases heq
    exact ⟨hlock, hroom, hnew⟩

theorem kept_leave (h : PoolKept maxSessions p closed) (hlock : p.lockedBy = some i)
    {r : SessionPool} {pc : TaskPc} (hpc : pc.Quiet) (hbrief : r.brief = p.brief)
    (hentries : r.entries = p.entries) (htasks : r.tasks = p.tasks) :
    PoolKept maxSessions (r.leave i pc) closed := by
  refine kept_frame h hbrief hentries fun j pc' hj hquiet => ?_
  rw [leave, htasks] at hj
  obtain ⟨-, rfl⟩ := eq_of_holds h hlock hj hquiet
  exact absurd hpc hquiet

/-- The entry is the only one of its key and of its session. -/
theorem kept_pop (h : PoolKept maxSessions p closed) (hlock : p.lockedBy = some i) {key : String}
    {s : Nat} (hmem : (key, s) ∈ p.entries) {rest : List String} {after : AfterClosing}
    (hafter : ∀ use tool, after = .enforceLimit use tool → tool.cacheKey ∉ p.keys) :
    PoolKept maxSessions ((p.pop key s).goto i (.closing s rest after)) (closed ++ [s]) := by
  have hpooled := h.pooled _ hmem
  have hother : ∀ entry ∈ p.entries, (entry.1 = key ↔ entry.2 = s) := by
    intro entry hentry
    constructor
    · intro hkey
      have hsame := List.inj_on_of_nodup_map h.keys hentry hmem hkey
      exact congrArg Prod.snd hsame
    · intro hs
      have hentry' := h.pooled entry hentry
      rw [hs, hpooled] at hentry'
      exact (congrArg Prod.fst (Option.some.inj hentry')).symm
  have hbrief : ∀ t, ((p.pop key s).goto i (.closing s rest after)).brief[t]? =
      if s = t then some (key, .closing) else p.brief[t]? := by
    intro t
    refine (brief_setStatus p s (fun _ => rfl) t).trans ?_
    by_cases hst : s = t
    · rw [if_pos hst, if_pos hst, ← hst, hpooled]
      rfl
    · rw [if_neg hst, if_neg hst]
  have hsub : ((p.pop key s).goto i (.closing s rest after)).keys.Sublist p.keys :=
    List.filter_sublist.map _
  refine ⟨?_, h.keys.sublist hsub, ?_, ?_, ?_, ?_, ?_, ?_⟩
  · exact Nat.le_trans (List.length_filter_le ..) h.bound
  · intro entry hentry
    obtain ⟨hentry, hkey⟩ := List.mem_filter.mp hentry
    rw [decide_eq_true_eq] at hkey
    rw [hbrief, if_neg fun hs => hkey ((hother entry hentry).mpr hs.symm)]
    exact h.pooled entry hentry
  · intro t key' status ht hout
    rw [hbrief] at ht
    split at ht
    · cases ht
      decide
    · rename_i hst
      refine h.left t key' status ht fun hmem' => hout ?_
      obtain ⟨entry, hentry, rfl⟩ := List.mem_map.mp hmem'
      refine List.mem_map_of_mem (List.mem_filter.mpr ⟨hentry, ?_⟩)
      rw [decide_eq_true_eq]
      exact fun hkey => hst ((hother entry hentry).mp hkey).symm
  · refine List.nodup_append.mpr ⟨h.once, List.nodup_singleton s, fun t ht s' hs' => ?_⟩
    rw [List.mem_singleton] at hs'
    rintro rfl
    obtain ⟨key', status, hleft, hstatus⟩ := (h.log t).mp ht
    rw [hs', hpooled] at hleft
    cases hleft
    exact hstatus rfl
  · intro t
    rw [List.mem_append, List.mem_singleton, h.log t, hbrief]
    by_cases hst : s = t
    · simp [hst]
    · simp [hst, Ne.symm hst]
  · intro j s' rest' after' hj
    obtain ⟨rfl, heq⟩ := eq_of_holds h hlock hj id
    cases heq
    refine ⟨hlock, by simp, fun use tool heq hin => hafter use tool heq (hsub.subset hin)⟩
  · intro j use tool hj
    obtain ⟨-, heq⟩ := eq_of_holds h hlock hj id
    cases heq

/-- Nothing has changed since there was room and the key was new. -/
theorem kept_connect (h : PoolKept maxSessions p closed) {use : SessionUse} {tool : McpTool}
    (hpc : p.tasks[i]? = some (.connecting use tool)) :
    PoolKept maxSessions (p.connect i now use tool) closed := by
  obtain ⟨hlock, hroom, hnew⟩ := h.connecting i use tool hpc
  unfold connect
  extract_lets session pooled
  have hlast : pooled.brief[p.sessions.length]? = some (tool.cacheKey, .connected) := by
    simp [getElem?_brief, pooled, session]
  have hold : ∀ t, t ≠ p.sessions.length → pooled.brief[t]? = p.brief[t]? := by
    intro t ht
    rw [getElem?_brief, getElem?_brief]
    rcases Nat.lt_or_gt_of_ne ht with hlt | hgt
    · rw [List.getElem?_append_left hlt]
    · rw [List.getElem?_eq_none (Nat.le_of_lt hgt), List.getElem?_eq_none]
      simp only [pooled, List.length_append, List.length_singleton]
      omega
  have hlt : ∀ {t x}, p.brief[t]? = some x → t ≠ p.sessions.length := by
    rintro t x ht rfl
    rw [getElem?_brief, List.getElem?_eq_none (Nat.le_refl _)] at ht
    cases ht
  have hkept : PoolKept maxSessions (pooled.goto i (.handed use p.sessions.length)) closed := by
    refine ⟨?_, ?_, ?_, ?_, h.once, ?_, ?_, ?_⟩
    · simp only [goto, pooled, List.length_append, List.length_singleton]
      omega
    · simp only [goto, pooled, keys, List.map_append, List.nodup_append]
      refine ⟨h.keys, List.nodup_singleton _, fun key hkey key' hkey' heq => ?_⟩
      rw [heq, List.mem_singleton.mp hkey'] at hkey
      exact hnew hkey
    · intro entry hentry
      rcases List.mem_append.mp hentry with hentry | hentry
      · have hpooled := h.pooled entry hentry
        exact (hold _ (hlt hpooled)).trans hpooled
      · rw [List.mem_singleton.mp hentry]
        exact hlast
    · intro t key status ht hout
      have hne : t ≠ p.sessions.length := by
        rintro rfl
        exact hout (by simp [goto, pooled])
      refine h.left t key status ((hold t hne).symm.trans ht) fun hin => hout ?_
      simp only [goto, pooled, List.map_append]
      exact List.mem_append_left _ hin
    · intro t
      rw [h.log t]
      constructor
      · rintro ⟨key, status, ht, hstatus⟩
        exact ⟨key, status, (hold t (hlt ht)).trans ht, hstatus⟩
      · rintro ⟨key, status, ht, hstatus⟩
        have hne : t ≠ p.sessions.length := by
          rintro rfl
          cases hlast.symm.trans ht
          exact hstatus rfl
        exact ⟨key, status, (hold t hne).symm.trans ht, hstatus⟩
    · intro j s rest after hj
      obtain ⟨-, heq⟩ := eq_of_holds h hlock hj id
      cases heq
    · intro j use' tool' hj
      obtain ⟨-, heq⟩ := eq_of_holds h hlock hj id
      cases heq
  refine kept_frame hkept rfl rfl fun j pc hj hquiet => ?_
  obtain ⟨-, rfl⟩ := eq_of_holds h hlock hj hquiet
  exact absurd trivial hquiet

theorem startsClosing_quiet {reply : McpReply} {tasks : List TaskPc} {pc : TaskPc}
    (htasks : q.tasks = tasks.set i pc) (hpc : pc.Quiet) :
    startsClosing (.resume i now reply) q = [] := by
  simp only [startsClosing]
  split
  · rename_i s rest after hat
    rw [htasks, List.getElem?_set] at hat
    simp only [if_pos] at hat
    split at hat
    · obtain rfl := Option.some.inj hat
      exact absurd hpc id
    · cases hat
  · rfl

theorem kept_quiet {reply : McpReply} {tasks : List TaskPc} {pc : TaskPc}
    (h : PoolKept maxSessions q closed) (htasks : q.tasks = tasks.set i pc) (hpc : pc.Quiet) :
    PoolKept maxSessions q (closed ++ startsClosing (.resume i now reply) q) := by
  rw [startsClosing_quiet htasks hpc, List.append_nil]
  exact h

/-- What the holder does is kept, and the log grows by the session it closes. -/
theorem kept_holder (h : PoolKept maxSessions p closed) (hlock : p.lockedBy = some i)
    (hi : i < p.tasks.length) {reply : McpReply} (hstep : HolderStep maxSessions p i q) :
    PoolKept maxSessions q (closed ++ startsClosing (.resume i now reply) q) := by
  cases hstep with
  | closes key s rest after hmem hafter =>
      have hat : (p.tasks.set i (.closing s rest after))[i]? = some (.closing s rest after) :=
        List.getElem?_set_self hi
      simp only [startsClosing, goto, pop, hat]
      exact kept_pop h hlock hmem hafter
  | connects use tool hroom hnew =>
      have hat : (p.tasks.set i (.connecting use tool))[i]? = some (.connecting use tool) :=
        List.getElem?_set_self hi
      simp only [startsClosing, goto, hat, List.append_nil]
      exact kept_connecting h hlock hroom hnew
  | leaves r pc hpc hbrief hentries htasks =>
      exact kept_quiet (kept_leave h hlock hpc hbrief hentries htasks) rfl hpc

/-! ## Steps -/

theorem kept_begin (h : PoolKept maxSessions p closed) {use : SessionUse} {s : Nat}
    {x : McpSession} {reply : McpReply} :
    PoolKept maxSessions (p.begin i now use s x)
      (closed ++ startsClosing (.resume i now reply) (p.begin i now use s x)) := by
  unfold begin
  split
  · have htouched := kept_modify (s := s) (f := .touch now) h fun _ => rfl
    exact kept_quiet (kept_goto htouched trivial) rfl trivial
  · exact kept_quiet (kept_goto h trivial) rfl trivial

theorem kept_finish (h : PoolKept maxSessions p closed) {use : SessionUse} {s : Nat}
    {x : McpSession} {reply : McpReply} :
    PoolKept maxSessions (p.finish i now use s x reply)
      (closed ++ startsClosing (.resume i now reply) (p.finish i now use s x reply)) := by
  cases reply with
  | ok tools =>
      refine kept_quiet (kept_goto (kept_modify h fun x => ?_) trivial) rfl trivial
      cases use with
      | warmup => rfl
      | callTool => rfl
  | error message =>
      have hunlocked := kept_modify (s := s) (f := .unlock) h fun _ => rfl
      exact kept_quiet (kept_goto hunlocked trivial) rfl trivial

theorem kept_resume (h : PoolKept maxSessions p closed) {pc : TaskPc}
    (hpc : p.tasks[i]? = some pc) {reply : McpReply}
    (hresume : p.resume maxSessions i now reply pc = some q) :
    PoolKept maxSessions q (closed ++ startsClosing (.resume i now reply) q) := by
  have hi := (List.getElem?_eq_some_iff.mp hpc).1
  cases pc with
  | atPool use =>
      rw [resume] at hresume
      split at hresume
      · rename_i hfree
        obtain rfl := Option.some.inj hresume
        have hlocked := kept_locked (i := i) h hfree
        exact kept_holder hlocked rfl hi (enter_holder hlocked use)
      · cases hresume
  | closing s rest after =>
      obtain ⟨hlock, hs, hafter⟩ := h.closing i s rest after hpc
      obtain rfl := Option.some.inj hresume
      have hclosed := kept_closed h hs
      exact kept_holder hclosed hlock hi (closeKeys_holder hclosed hafter rest)
  | connecting use tool =>
      cases reply with
      | ok tools =>
          obtain rfl := Option.some.inj hresume
          exact kept_quiet (kept_connect h hpc) rfl trivial
      | error message =>
          obtain rfl := Option.some.inj hresume
          have hlock := (h.connecting i use tool hpc).1
          exact kept_quiet (kept_leave h hlock trivial rfl rfl rfl) rfl trivial
  | handed use s =>
      obtain ⟨x, -, rfl⟩ := Option.map_eq_some_iff.mp hresume
      exact kept_begin h
  | atSession use s =>
      obtain ⟨x, -, rfl⟩ := Option.map_eq_some_iff.mp hresume
      have hcalled : PoolKept maxSessions { p with calls := p.calls ++ [⟨s, x.status⟩] } closed :=
        kept_frame h rfl rfl fun _ _ hj _ => ⟨hj, rfl⟩
      have hissued := kept_modify (s := s) (f := .lock i) hcalled fun _ => rfl
      exact kept_quiet (kept_goto hissued trivial) rfl trivial
  | calling use s =>
      obtain ⟨x, -, rfl⟩ := Option.map_eq_some_iff.mp hresume
      exact kept_finish h
  | ended error => cases hresume

/-- A task that is cancelled holds no lock afterwards, every other one as before. -/
theorem kept_cancel (h : PoolKept maxSessions p closed) :
    PoolKept maxSessions (p.cancel i) closed := by
  refine kept_frame h ?_ rfl fun j pc hj hquiet => ?_
  · have hfreed : ∀ x : McpSession,
        ((x.freedBy i).cacheKey, (x.freedBy i).status) = (x.cacheKey, x.status) := by
      intro x
      unfold McpSession.freedBy
      split
      · rfl
      · rfl
    simp [brief, cancel, goto, Function.comp_def, hfreed]
  · rcases eq_of_set hj with ⟨rfl, rfl⟩ | ⟨hne, hj⟩
    · exact absurd trivial hquiet
    · refine ⟨hj, if_neg fun hlock => hne ?_⟩
      have hheld := holds_of_not_quiet h hj hquiet
      rw [hlock] at hheld
      exact (Option.some.inj hheld).symm

end SessionPool

theorem poolKept_empty : PoolKept maxSessions {} [] where
  bound := Nat.zero_le _
  keys := List.nodup_nil
  pooled := fun _ h => absurd h List.not_mem_nil
  left := fun _ _ _ h => by cases h
  once := List.nodup_nil
  log := fun s => ⟨fun h => absurd h List.not_mem_nil, fun ⟨_, _, h, _⟩ => by cases h⟩
  closing := fun _ _ _ _ h => by cases h
  connecting := fun _ _ _ h => by cases h

theorem kept_step {op : PoolOp} (h : PoolKept maxSessions p closed)
    (hstep : poolStep maxSessions p op = some q) :
    PoolKept maxSessions q (closed ++ startsClosing op q) := by
  cases op with
  | spawn use =>
      obtain rfl := Option.some.inj hstep
      show PoolKept maxSessions _ (closed ++ [])
      rw [List.append_nil]
      refine SessionPool.kept_frame h rfl rfl fun j pc hj hquiet => ?_
      rcases Runs.getElem?_snoc_iff.mp hj with ⟨-, rfl⟩ | hj
      · exact absurd trivial hquiet
      · exact ⟨hj, rfl⟩
  | resume i now reply =>
      obtain ⟨pc, hpc, hresume⟩ := Option.bind_eq_some_iff.mp hstep
      exact SessionPool.kept_resume h hpc hresume
  | cancel i =>
      obtain ⟨pc, -, rfl⟩ := Option.map_eq_some_iff.mp hstep
      show PoolKept maxSessions _ (closed ++ [])
      rw [List.append_nil]
      exact SessionPool.kept_cancel h

/-! ## Runs -/

/-- There are at most `maxSessions` entries, one for a key and each under the key of its session;
of the sessions ever connected those without an entry were closed once, the others never. -/
structure PoolOrderly (maxSessions : Nat) (p : SessionPool) (closed : List Nat) : Prop where
  bound : p.entries.length ≤ maxSessions
  keys : p.keys.Nodup
  own : ∀ entry ∈ p.entries, (p.sessions[entry.2]?).map McpSession.cacheKey = some entry.1
  once : ∀ s < p.sessions.length,
    closed.count s = if s ∈ p.entries.map Prod.snd then 0 else 1

theorem PoolKept.orderly (h : PoolKept maxSessions p closed) :
    PoolOrderly maxSessions p closed where
  bound := h.bound
  keys := h.keys
  own := fun entry hentry => by
    have hpooled := h.pooled entry hentry
    rw [SessionPool.getElem?_brief] at hpooled
    obtain ⟨x, hx, heq⟩ := Option.map_eq_some_iff.mp hpooled
    rw [hx]
    exact congrArg some (congrArg Prod.fst heq)
  once := fun s hs => by
    have hat : p.brief[s]? = some (p.sessions[s].cacheKey, p.sessions[s].status) := by
      rw [SessionPool.getElem?_brief, List.getElem?_eq_getElem hs]
      rfl
    split
    · rename_i hin
      obtain ⟨entry, hentry, rfl⟩ := List.mem_map.mp hin
      refine List.count_eq_zero.mpr fun hclosed => ?_
      obtain ⟨key, status, hleft, hstatus⟩ := (h.log _).mp hclosed
      rw [h.pooled entry hentry] at hleft
      cases hleft
      exact hstatus rfl
    · rename_i hout
      have hclosed := (h.log s).mpr ⟨_, _, hat, h.left s _ _ hat hout⟩
      exact List.count_eq_one_of_mem h.once hclosed

/-- The log takes no part in a run. -/
theorem run_logged {s : SessionPool × List Nat} {ops : List PoolOp}
    (hrun : Runs.run (poolStep maxSessions) s.1 ops = some p) :
    ∃ closed, Runs.run (loggedStep maxSessions) s ops = some (p, closed) := by
  induction ops generalizing s with
  | nil =>
      obtain rfl := Option.some.inj hrun
      exact ⟨s.2, rfl⟩
  | cons op ops ih =>
      obtain ⟨q, hstep, hrun⟩ := Runs.run_cons_eq.mp hrun
      obtain ⟨closed, hlogged⟩ := ih (s := (q, s.2 ++ startsClosing op q)) hrun
      refine ⟨closed, Runs.run_cons_eq.mpr ⟨_, ?_, hlogged⟩⟩
      rw [loggedStep, hstep]
      rfl

/-- In every run the pool keeps its limit, and a client that has left it was closed once. Only
the holder of the pool lock changes the entries: it makes room before it connects, and it
closes what it takes out. -/
theorem sessions_pooled (maxSessions : Nat) (ops : List PoolOp) (p : SessionPool)
    (hrun : Runs.run (poolStep maxSessions) {} ops = some p) :
    ∃ closed, Runs.run (loggedStep maxSessions) ({}, []) ops = some (p, closed)
      ∧ PoolOrderly maxSessions p closed := by
  obtain ⟨closed, hlogged⟩ := run_logged (s := ({}, [])) hrun
  refine ⟨closed, hlogged, PoolKept.orderly ?_⟩
  refine Runs.run_invariant' (I := fun s => PoolKept maxSessions s.1 s.2) (t := (p, closed)) ?_
    poolKept_empty hlogged
  intro s op t hs hstep
  obtain ⟨q, hq, rfl⟩ := Option.map_eq_some_iff.mp hstep
  exact kept_step hs hq

/-- Two connections in a pool of one: the second closes the first, then its call fails. -/
def limitedCalls : List PoolOp :=
  [startCall, goOn 0, goOn 0, .spawn (.getSession .callTool { searchTool with cacheKey := "l" }),
    goOn 1, goOn 1, goOn 1, goOn 1, goOn 1, failCall 1, goOn 1, goOn 1]

theorem sessions_pooled_limited :
    ∃ p, Runs.run (poolStep 1) {} limitedCalls = some p
      ∧ ∃ closed, Runs.run (loggedStep 1) ({}, []) limitedCalls = some (p, closed)
        ∧ PoolOrderly 1 p closed :=
  ⟨(Runs.run (poolStep 1) {} limitedCalls).get (by decide +kernel), (Option.some_get _).symm,
    sessions_pooled 1 limitedCalls _ (Option.some_get _).symm⟩

end Aegora
