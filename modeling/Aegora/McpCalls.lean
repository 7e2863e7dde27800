import Aegora.McpSessions

/-!
# Calls on closed clients

A session is closed when its key is popped, and the checks before a pop only
look at whether the session's lock is locked: `locked()` is false between a
release and the moment the next waiter goes on, and `_evict_session` does not
ask at all. A task that was handed the session and waits for its lock is
noticed by none of them.

`PoolSound` is the invariant: what is pooled, and what a task has been handed
and not called yet, is connected. Only a pop can break it, and only for a
session that is awaited, so that `no_late_calls` holds of every run without
such a pop.
-/

namespace Aegora

variable {maxSessions : Nat} {p q : SessionPool} {i : Nat} {now : Time}

/-! ## The invariant -/

/-- The task was handed the session and has not called its client. -/
def TaskPc.Awaits (s : Nat) : TaskPc → Prop
  | .handed _ s' => s' = s
  | .atSession _ s' => s' = s
  | _ => False

/-- The task waits for the session's client to close. -/
def TaskPc.Closes (s : Nat) : TaskPc → Prop
  | .closing s' _ _ => s' = s
  | _ => False

namespace SessionPool

def statusOf (p : SessionPool) (s : Nat) : Option ClientStatus :=
  (p.sessions[s]?).map McpSession.status

def Gone (p : SessionPool) (s : Nat) : Prop :=
  p.statusOf s = some .closing ∨ p.statusOf s = some .closed

end SessionPool

structure PoolSound (p : SessionPool) : Prop where
  pooled : ∀ entry ∈ p.entries, p.statusOf entry.2 = some .connected
  distinct : (p.entries.map Prod.snd).Nodup
  awaited : ∀ pc ∈ p.tasks, ∀ s, pc.Awaits s → p.statusOf s = some .connected
  closing : ∀ pc ∈ p.tasks, ∀ s, pc.Closes s → p.Gone s
  calls : ∀ call ∈ p.calls, call.status = .connected

instance (s : Nat) : ∀ pc : TaskPc, Decidable (pc.Awaits s)
  | .handed _ s' => inferInstanceAs (Decidable (s' = s))
  | .atSession _ s' => inferInstanceAs (Decidable (s' = s))
  | .atPool _ | .closing .. | .connecting .. | .calling .. | .ended _ =>
      inferInstanceAs (Decidable False)

/-- No session leaves the pool while a task that was handed it still waits for its lock. -/
def PopsUnawaited (p q : SessionPool) : Prop :=
  ∀ entry ∈ p.entries, entry ∉ q.entries → ∀ pc ∈ p.tasks, ¬ pc.Awaits entry.2

instance (p q : SessionPool) : Decidable (PopsUnawaited p q) :=
  inferInstanceAs (Decidable (∀ entry ∈ p.entries, _))

theorem poolSound_empty : PoolSound {} where
  pooled := fun _ h => absurd h List.not_mem_nil
  distinct := List.nodup_nil
  awaited := fun _ h => absurd h List.not_mem_nil
  closing := fun _ h => absurd h List.not_mem_nil
  calls := fun _ h => absurd h List.not_mem_nil

namespace SessionPool

/-! ## Statuses -/

theorem statusOf_modify_self (s : Nat) (f : McpSession → McpSession) :
    (p.modifySession s f).statusOf s = (p.sessions[s]?).map fun x => (f x).status := by
  simp [statusOf, modifySession, Function.comp_def]

theorem statusOf_modify_ne {s s' : Nat} (f : McpSession → McpSession) (h : s ≠ s') :
    (p.modifySession s f).statusOf s' = p.statusOf s' := by
  simp [statusOf, modifySession, h]

/-- A change that leaves the status of the session leaves all of them. -/
theorem statusOf_modify {s : Nat} {f : McpSession → McpSession}
    (hf : ∀ x, (f x).status = x.status) (s' : Nat) :
    (p.modifySession s f).statusOf s' = p.statusOf s' := by
  by_cases h : s = s'
  · subst h
    rw [statusOf_modify_self, statusOf]
    simp only [hf]
  · exact statusOf_modify_ne f h

theorem connected_not_gone {s : Nat} (h : p.statusOf s = some .connected) : ¬ p.Gone s := by
  rintro (hclosing | hclosed)
  · rw [h] at hclosing
    cases hclosing
  · rw [h] at hclosed
    cases hclosed

theorem mem_of_find {key : String} {s : Nat} (h : p.find key = some s) : (key, s) ∈ p.entries := by
  obtain ⟨entry, hentry, rfl⟩ := Option.map_eq_some_iff.mp h
  have hkey := List.find?_some hentry
  rw [decide_eq_true_eq] at hkey
  rw [← hkey]
  exact List.mem_of_find?_eq_some hentry

/-! ## Frames -/

/-- Statuses, entries, tasks and calls are all there is to it. -/
theorem sound_frame (h : PoolSound p) (hstatus : ∀ s, q.statusOf s = p.statusOf s)
    (hentries : q.entries = p.entries) (htasks : q.tasks = p.tasks) (hcalls : q.calls = p.calls) :
    PoolSound q where
  pooled := fun entry hentry => by
    rw [hstatus]
    exact h.pooled entry (hentries ▸ hentry)
  distinct := hentries ▸ h.distinct
  awaited := fun pc hpc s hs => by
    rw [hstatus]
    exact h.awaited pc (htasks ▸ hpc) s hs
  closing := fun pc hpc s hs => by
    rw [Gone, hstatus]
    exact h.closing pc (htasks ▸ hpc) s hs
  calls := hcalls ▸ h.calls

theorem sound_modify (h : PoolSound p) {s : Nat} {f : McpSession → McpSession}
    (hf : ∀ x, (f x).status = x.status) : PoolSound (p.modifySession s f) :=
  sound_frame h (statusOf_modify hf) rfl rfl rfl

theorem sound_goto (h : PoolSound p) {pc : TaskPc}
    (hawaits : ∀ s, pc.Awaits s → p.statusOf s = some .connected)
    (hcloses : ∀ s, pc.Closes s → p.Gone s) : PoolSound (p.goto i pc) where
  pooled := h.pooled
  distinct := h.distinct
  awaited := fun pc' hpc' s hs => by
    rcases List.mem_or_eq_of_mem_set hpc' with hold | rfl
    · exact h.awaited pc' hold s hs
    · exact hawaits s hs
  closing := fun pc' hpc' s hs => by
    rcases List.mem_or_eq_of_mem_set hpc' with hold | rfl
    · exact h.closing pc' hold s hs
    · exact hcloses s hs
  calls := h.calls

theorem sound_leave (h : PoolSound p) {pc : TaskPc}
    (hawaits : ∀ s, pc.Awaits s → p.statusOf s = some .connected)
    (hcloses : ∀ s, pc.Closes s → p.Gone s) : PoolSound (p.leave i pc) :=
  sound_frame (sound_goto (i := i) h hawaits hcloses) (fun _ => rfl) rfl rfl rfl

theorem sound_end (h : PoolSound p) (error : Option String) :
    PoolSound (p.leave i (.ended error)) :=
  sound_leave h (fun _ hs => absurd hs id) (fun _ hs => absurd hs id)

/-! ## Pops -/

theorem statusOf_pop_self {key : String} {s : Nat} (h : p.statusOf s = some .connected) :
    (p.pop key s).statusOf s = some .closing := by
  obtain ⟨x, hx, -⟩ := Option.map_eq_some_iff.mp h
  simp [statusOf, pop, hx]

theorem statusOf_pop_ne {key : String} {s s' : Nat} (h : s ≠ s') :
    (p.pop key s).statusOf s' = p.statusOf s' := by
  simp [statusOf, pop, h]

/-- The session that is popped is closing, every other one is as it was. -/
theorem sound_pop (h : PoolSound p) {key : String} {s : Nat} (hfind : p.find key = some s)
    (hpop : ∀ pc ∈ p.tasks, ¬ pc.Awaits s) {rest : List String} {after : AfterClosing} :
    PoolSound ((p.pop key s).goto i (.closing s rest after)) := by
  have hmem := mem_of_find hfind
  have hconnected := h.pooled (key, s) hmem
  have hother : ∀ entry ∈ p.entries, entry.1 ≠ key → s ≠ entry.2 := by
    rintro entry hentry hkey rfl
    have hsame := List.inj_on_of_nodup_map h.distinct hentry hmem rfl
    exact hkey (congrArg Prod.fst hsame)
  refine sound_goto (p := p.pop key s) ⟨?_, ?_, ?_, ?_, h.calls⟩ ?_ ?_
  · intro entry hentry
    obtain ⟨hold, hkey⟩ := List.mem_filter.mp hentry
    rw [decide_eq_true_eq] at hkey
    rw [statusOf_pop_ne (hother entry hold hkey)]
    exact h.pooled entry hold
  · exact h.distinct.sublist ((List.filter_sublist).map _)
  · intro pc hpc s' hs'
    have hne : s ≠ s' := fun heq => hpop pc hpc (heq ▸ hs')
    rw [statusOf_pop_ne hne]
    exact h.awaited pc hpc s' hs'
  · intro pc hpc s' hs'
    have hgone := h.closing pc hpc s' hs'
    have hne : s ≠ s' := fun heq => connected_not_gone hconnected (heq ▸ hgone)
    rw [Gone, statusOf_pop_ne hne]
    exact hgone
  · exact fun _ hs' => absurd hs' id
  · rintro s' rfl
    exact Or.inl (statusOf_pop_self hconnected)

theorem sound_closeFirst (h : PoolSound p) {after : AfterClosing} {keys : List String}
    (hclose : p.closeFirst i after keys = some q) (hpop : PopsUnawaited p q) : PoolSound q := by
  induction keys with
  | nil => cases hclose
  | cons key rest ih =>
      rw [closeFirst] at hclose
      split at hclose
      · exact ih hclose
      · rename_i s hfind
        obtain rfl := Option.some.inj hclose
        refine sound_pop h hfind (hpop (key, s) (mem_of_find hfind) fun hstill => ?_)
        have hne := (List.mem_filter.mp hstill).2
        rw [decide_eq_true_eq] at hne
        exact hne rfl

/-- Close one of the keys, or go on otherwise. -/
theorem sound_closeFirst_getD (h : PoolSound p) {after : AfterClosing} {keys : List String}
    {other : SessionPool} (hother : PopsUnawaited p other → PoolSound other)
    (hpop : PopsUnawaited p ((p.closeFirst i after keys).getD other)) :
    PoolSound ((p.closeFirst i after keys).getD other) := by
  cases hclose : p.closeFirst i after keys with
  | none =>
      rw [hclose] at hpop
      exact hother hpop
  | some r =>
      rw [hclose] at hpop
      exact sound_closeFirst h hclose hpop

theorem sound_enforceLimit (h : PoolSound p) {use : SessionUse} {tool : McpTool}
    (hpop : PopsUnawaited p (p.enforceLimit maxSessions i use tool)) :
    PoolSound (p.enforceLimit maxSessions i use tool) := by
  unfold enforceLimit at hpop ⊢
  split
  · exact sound_goto h (fun _ hs => absurd hs id) (fun _ hs => absurd hs id)
  · rename_i hfull
    rw [if_neg hfull] at hpop
    split
    · exact sound_end h _
    · rename_i oldest holdest
      rw [holdest] at hpop
      exact sound_closeFirst_getD h (fun _ => h) hpop

theorem sound_lookUp (h : PoolSound p) {use : SessionUse} {tool : McpTool}
    (hpop : PopsUnawaited p (p.lookUp maxSessions i now use tool)) :
    PoolSound (p.lookUp maxSessions i now use tool) := by
  unfold lookUp at hpop ⊢
  split
  · rename_i s hfind
    refine sound_leave (sound_modify (f := .touch now) h fun _ => rfl) ?_ ?_
    · rintro s' rfl
      rw [statusOf_modify (f := .touch now) fun _ => rfl]
      exact h.pooled _ (mem_of_find hfind)
    · exact fun _ hs => absurd hs id
  · rename_i hnone
    rw [hnone] at hpop
    exact sound_closeFirst_getD h (sound_enforceLimit h) hpop

theorem sound_closeKeys (h : PoolSound p) {after : AfterClosing} {keys : List String}
    (hpop : PopsUnawaited p (p.closeKeys maxSessions i now after keys)) :
    PoolSound (p.closeKeys maxSessions i now after keys) := by
  refine sound_closeFirst_getD h (fun hother => ?_) hpop
  cases after with
  | lookUp use tool => exact sound_lookUp h hother
  | enforceLimit use tool => exact sound_enforceLimit h hother
  | release error => exact sound_end h error

/-! ## Steps -/

theorem sound_enter (h : PoolSound p) {use : PoolUse}
    (hpop : PopsUnawaited p (p.enter maxSessions i now use)) :
    PoolSound (p.enter maxSessions i now use) := by
  cases use with
  | getSession use tool => exact sound_closeKeys h hpop
  | cleanupIdle => exact sound_closeKeys h hpop
  | evict cacheKey expected error => exact sound_closeKeys h hpop
  | closeAll => exact sound_closeKeys h hpop

/-- A client that has been closing is closed. -/
theorem sound_closed (h : PoolSound p) {s : Nat} (hgone : p.Gone s) :
    PoolSound (p.modifySession s .close) := by
  have hne : ∀ s', p.statusOf s' = some .connected → s ≠ s' := by
    rintro s' hs' rfl
    exact connected_not_gone hs' hgone
  have hkept : ∀ s', p.statusOf s' = some .connected →
      (p.modifySession s .close).statusOf s' = some .connected := fun s' hs' =>
    (statusOf_modify_ne _ (hne s' hs')).trans hs'
  refine ⟨fun entry hentry => hkept _ (h.pooled entry hentry), h.distinct,
    fun pc hpc s' hs' => hkept _ (h.awaited pc hpc s' hs'), fun pc hpc s' hs' => ?_, h.calls⟩
  by_cases heq : s = s'
  · subst heq
    right
    rw [statusOf_modify_self]
    rcases hgone with hclosing | hclosed
    · obtain ⟨x, hx, -⟩ := Option.map_eq_some_iff.mp hclosing
      exact Option.map_eq_some_iff.mpr ⟨x, hx, rfl⟩
    · obtain ⟨x, hx, -⟩ := Option.map_eq_some_iff.mp hclosed
      exact Option.map_eq_some_iff.mpr ⟨x, hx, rfl⟩
  · rw [Gone, statusOf_modify_ne _ heq]
    exact h.closing pc hpc s' hs'

/-- The new session is connected, and no task or entry knew its number. -/
theorem sound_connect (h : PoolSound p) {use : SessionUse} {tool : McpTool} :
    PoolSound (p.connect i now use tool) := by
  unfold connect
  extract_lets session pooled
  have hnew : pooled.statusOf p.sessions.length = some .connected := by
    simp [statusOf, pooled, session]
  have hlt : ∀ {s status}, p.statusOf s = some status → s < p.sessions.length := by
    intro s status hs
    obtain ⟨x, hx, -⟩ := Option.map_eq_some_iff.mp hs
    exact (List.getElem?_eq_some_iff.mp hx).1
  have hold : ∀ {s status}, p.statusOf s = some status → pooled.statusOf s = some status := by
    intro s status hs
    rw [← hs, statusOf, statusOf, List.getElem?_append_left (hlt hs)]
  have hsound : PoolSound pooled := by
    refine ⟨?_, ?_, fun pc hpc s hs => hold (h.awaited pc hpc s hs), ?_, h.calls⟩
    · intro entry hentry
      rcases List.mem_append.mp hentry with hentry | hentry
      · exact hold (h.pooled entry hentry)
      · rw [List.mem_singleton.mp hentry]
        exact hnew
    · rw [List.map_append, List.nodup_append]
      refine ⟨h.distinct, List.nodup_singleton _, ?_⟩
      rintro s hs s' hs' rfl
      obtain ⟨entry, hentry, rfl⟩ := List.mem_map.mp hs
      have heq : entry.2 = p.sessions.length := List.mem_singleton.mp hs'
      have hbelow := hlt (h.pooled entry hentry)
      omega
    · intro pc hpc s hs
      rcases h.closing pc hpc s hs with hclosing | hclosed
      · exact Or.inl (hold hclosing)
      · exact Or.inr (hold hclosed)
  refine sound_leave hsound ?_ ?_
  · rintro s rfl
    exact hnew
  · exact fun _ hs => absurd hs id

theorem sound_begin (h : PoolSound p) {use : SessionUse} {s : Nat} {x : McpSession}
    (hconnected : p.statusOf s = some .connected) : PoolSound (p.begin i now use s x) := by
  unfold begin
  split
  · exact sound_goto (sound_modify (f := .touch now) h fun _ => rfl)
      (fun _ hs => absurd hs id) (fun _ hs => absurd hs id)
  · refine sound_goto h ?_ ?_
    · rintro s' rfl
      exact hconnected
    · exact fun _ hs => absurd hs id

theorem sound_issue (h : PoolSound p) {use : SessionUse} {s : Nat} {x : McpSession}
    (hx : x.status = .connected) : PoolSound (p.issue i use s x) := by
  unfold issue
  extract_lets called
  have hcalled : PoolSound called := by
    refine ⟨h.pooled, h.distinct, h.awaited, h.closing, fun call hcall => ?_⟩
    rcases List.mem_append.mp hcall with hcall | hcall
    · exact h.calls call hcall
    · rw [List.mem_singleton.mp hcall]
      exact hx
  exact sound_goto (sound_modify (f := .lock i) hcalled fun _ => rfl)
    (fun _ hs => absurd hs id) (fun _ hs => absurd hs id)

theorem sound_finish (h : PoolSound p) {use : SessionUse} {s : Nat} {x : McpSession}
    {reply : McpReply} : PoolSound (p.finish i now use s x reply) := by
  cases reply with
  | ok tools =>
      refine sound_goto (sound_modify (f := .answered use now tools) h fun x => ?_)
        (fun _ hs => absurd hs id) (fun _ hs => absurd hs id)
      cases use with
      | warmup => rfl
      | callTool => rfl
  | error message =>
      exact sound_goto (sound_modify (f := .unlock) h fun _ => rfl)
        (fun _ hs => absurd hs id) (fun _ hs => absurd hs id)

theorem sound_cancel (h : PoolSound p) : PoolSound (p.cancel i) := by
  unfold cancel
  extract_lets freed
  have hfreed : PoolSound freed := by
    refine sound_frame h (fun s => ?_) rfl rfl rfl
    have hstatus : ∀ x : McpSession, (x.freedBy i).status = x.status := by
      intro x
      unfold McpSession.freedBy
      split
      · rfl
      · rfl
    rw [statusOf, statusOf, List.getElem?_map, Option.map_map]
    exact congrArg (Option.map · _) (funext hstatus)
  exact sound_goto hfreed (fun _ hs => absurd hs id) (fun _ hs => absurd hs id)

theorem sound_resume (h : PoolSound p) {pc : TaskPc} (hpc : pc ∈ p.tasks) {reply : McpReply}
    (hresume : p.resume maxSessions i now reply pc = some q) (hpop : PopsUnawaited p q) :
    PoolSound q := by
  cases pc with
  | atPool use =>
      rw [resume] at hresume
      split at hresume
      · obtain rfl := Option.some.inj hresume
        exact sound_enter (p := { p with lockedBy := some i })
          (sound_frame h (fun _ => rfl) rfl rfl rfl) hpop
      · cases hresume
  | closing s rest after =>
      obtain rfl := Option.some.inj hresume
      exact sound_closeKeys (sound_closed h (h.closing _ hpc s rfl)) hpop
  | connecting use tool =>
      cases reply with
      | ok tools =>
          obtain rfl := Option.some.inj hresume
          exact sound_connect h
      | error message =>
          obtain rfl := Option.some.inj hresume
          exact sound_end h _
  | handed use s =>
      obtain ⟨x, -, rfl⟩ := Option.map_eq_some_iff.mp hresume
      exact sound_begin h (h.awaited _ hpc s rfl)
  | atSession use s =>
      obtain ⟨x, hx, rfl⟩ := Option.map_eq_some_iff.mp hresume
      have hsession := (Option.filter_eq_some_iff.mp hx).1
      have hconnected := h.awaited _ hpc s rfl
      rw [statusOf, hsession] at hconnected
      exact sound_issue h (Option.some.inj hconnected)
  | calling use s =>
      obtain ⟨x, -, rfl⟩ := Option.map_eq_some_iff.mp hresume
      exact sound_finish h
  | ended error => cases hresume

end SessionPool

/-- What a step preserves that pops no awaited session. -/
theorem sound_step {op : PoolOp} (h : PoolSound p) (hstep : poolStep maxSessions p op = some q)
    (hpop : PopsUnawaited p q) : PoolSound q := by
  cases op with
  | spawn use =>
      obtain rfl := Option.some.inj hstep
      refine ⟨h.pooled, h.distinct, fun pc hpc s hs => ?_, fun pc hpc s hs => ?_, h.calls⟩
      · rcases List.mem_append.mp hpc with hpc | hpc
        · exact h.awaited pc hpc s hs
        · rw [List.mem_singleton.mp hpc] at hs
          cases hs
      · rcases List.mem_append.mp hpc with hpc | hpc
        · exact h.closing pc hpc s hs
        · rw [List.mem_singleton.mp hpc] at hs
          cases hs
  | resume i now reply =>
      obtain ⟨pc, hpc, hresume⟩ := Option.bind_eq_some_iff.mp hstep
      exact SessionPool.sound_resume h (List.mem_of_getElem? hpc) hresume hpop
  | cancel i =>
      obtain ⟨pc, -, rfl⟩ := Option.map_eq_some_iff.mp hstep
      exact SessionPool.sound_cancel h

/-! ## Runs -/

/-- No call was issued on a client that the pool had closed or begun to close. -/
def NoLateCall (p : SessionPool) : Prop := ∀ call ∈ p.calls, call.status = .connected

/-- The step pops no awaited session. -/
def PoolStepOk (maxSessions : Nat) (p : SessionPool) (op : PoolOp) : Prop :=
  ∀ q, poolStep maxSessions p op = some q → PopsUnawaited p q

instance (maxSessions : Nat) (p : SessionPool) (op : PoolOp) :
    Decidable (PoolStepOk maxSessions p op) :=
  inferInstanceAs (Decidable (∀ q ∈ poolStep maxSessions p op, PopsUnawaited p q))

/-- A run in which no session leaves the pool while a task that was handed it waits for its
lock issues no late call. Every other step keeps what is pooled or handed out connected, and a
call is issued on what a task was handed. -/
theorem no_late_calls (maxSessions : Nat) (ops : List PoolOp) (p : SessionPool)
    (hok : Runs.Meets (poolStep maxSessions) (PoolStepOk maxSessions) {} ops)
    (hrun : Runs.run (poolStep maxSessions) {} ops = some p) : NoLateCall p :=
  (Runs.run_invariant (fun _ _ q hp hop hstep => sound_step hp hstep (hop q hstep))
    poolSound_empty hok hrun).calls

/-! ## Three calls on one session -/

def searchTool : McpTool := ⟨"k", "c", 900, 300⟩

def startCall : PoolOp := .spawn (.getSession .callTool searchTool)

def goOn (i : Nat) : PoolOp := .resume i 0 (.ok [])

def failCall (i : Nat) : PoolOp := .resume i 0 (.error "e")

/-- Task 0 calls; tasks 1 and 2 are handed the session and wait for its lock. -/
def waitingCalls : List PoolOp :=
  [startCall, goOn 0, goOn 0, goOn 0, goOn 0, startCall, goOn 1, goOn 1, startCall, goOn 2, goOn 2]

/-- They call the client in their turn; later the session is idle and closed. -/
def servedCalls : List PoolOp :=
  waitingCalls ++ [goOn 0, goOn 1, goOn 1, goOn 2, goOn 2, .spawn .cleanupIdle,
    .resume 3 1000 (.ok []), .resume 3 1000 (.ok [])]

theorem no_late_calls_served :
    ∃ p, Runs.run (poolStep 100) {} servedCalls = some p ∧ NoLateCall p :=
  ⟨(Runs.run (poolStep 100) {} servedCalls).get (by decide +kernel), (Option.some_get _).symm,
    no_late_calls 100 servedCalls _ (by decide +kernel) (Option.some_get _).symm⟩

/-- The call of task 0 fails and the session is evicted. Task 1 calls the client that is
closing, task 2 one that is closed. -/
theorem calls_closed_client :
    ¬ ∀ maxSessions ops p, Runs.run (poolStep maxSessions) {} ops = some p →
      ∀ call ∈ p.calls, call.status ≠ .closed := by
  intro h
  have hrun : (Runs.run (poolStep 100) {}
      (waitingCalls ++ [failCall 0, goOn 0, goOn 1, goOn 0, failCall 1, goOn 2])).map
        SessionPool.calls = some [⟨0, .connected⟩, ⟨0, .closing⟩, ⟨0, .closed⟩] := by
    decide +kernel
  obtain ⟨p, hp, hcalls⟩ := Option.map_eq_some_iff.mp hrun
  exact h 100 _ p hp ⟨0, .closed⟩ (by rw [hcalls]; decide) rfl

end Aegora
