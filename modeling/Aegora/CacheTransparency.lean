import Aegora.ReleaseCache

/-!
# The cache cannot be told from the database

Whatever is stored under the key of a release, in Redis or in a first level, is
the config of that release: the key determines the ids, the ids determine the
config, and no object that a caller holds is one that a first level refers to.
So a read returns what it would return without the cache.

What an operation can do to a first level is said once (`L1Step`); the bound
and the order of eviction follow from it.
-/

namespace Aegora

open Py

/-! ## Keys -/

/-- A version has no colon. -/
theorem colon_not_mem_version (version : Int) : ':' ∉ (toString version).toList := by
  cases version with
  | ofNat n => exact colon_not_mem_digits n
  | negSucc n =>
      intro hmem
      have htext : toString (Int.negSucc n) = "-" ++ toString (n + 1) := rfl
      rw [htext, String.toList_append, List.mem_append] at hmem
      rcases hmem with hmem | hmem
      · exact absurd hmem (by decide)
      · exact colon_not_mem_digits _ hmem

theorem releaseKey_toList (keyPrefix agentId releaseId : String) (version : Int) :
    (releaseKey keyPrefix agentId releaseId version).toList
      = (((keyPrefix.toList ++ ":agent".toList) ++ ':' :: agentId.toList) ++ ":release".toList
          ++ ':' :: releaseId.toList) ++ ":version".toList ++ ':' :: (toString version).toList := by
  have hagent : ":agent:".toList = ":agent".toList ++ [':'] := by decide
  have hrelease : ":release:".toList = ":release".toList ++ [':'] := by decide
  have hversion : ":version:".toList = ":version".toList ++ [':'] := by decide
  unfold releaseKey
  simp only [String.toList_append, hagent, hrelease, hversion, List.append_assoc,
    List.singleton_append]

/-- The key determines the ids. -/
theorem releaseKey_inj {p p' a a' r r' : String} {v v' : Int} (ha : ':' ∉ a.toList)
    (ha' : ':' ∉ a'.toList) (hr : ':' ∉ r.toList) (hr' : ':' ∉ r'.toList)
    (h : releaseKey p a r v = releaseKey p' a' r' v') :
    a = a' ∧ r = r' ∧ toString v = toString v' := by
  have hlist := congrArg String.toList h
  rw [releaseKey_toList, releaseKey_toList] at hlist
  obtain ⟨hlist, hversion⟩ := append_cons_inj_last (colon_not_mem_version v)
    (colon_not_mem_version v') hlist
  obtain ⟨hlist, hrelease⟩ := append_cons_inj_last hr hr' (List.append_cancel_right hlist)
  obtain ⟨-, hagent⟩ := append_cons_inj_last ha ha' (List.append_cancel_right hlist)
  exact ⟨String.toList_injective hagent, String.toList_injective hrelease,
    String.toList_injective hversion⟩

/-! ## The first level -/

/-- What an operation can do to a first level: nothing, read the key, or write it. -/
inductive L1Step (cache : ReleaseConfigCache) (key : String) (P : Ref → Prop) :
    ReleaseConfigCache → Prop where
  | same : L1Step cache key P cache
  | hit {ref : Ref} (h : LruCache.find cache.l1 key = some ref) :
      L1Step cache key P { cache with
        l1 := LruCache.touch cache.l1 key ref, uses := cache.uses ++ [key] }
  | write {ref : Ref} (h : P ref) :
      L1Step cache key P { cache with
        l1 := LruCache.set cache.settings.l1MaxEntries cache.l1 key ref
        uses := cache.uses ++ [key] }

section L1

variable {cache cache' : ReleaseConfigCache} {key : String} {P : Ref → Prop}

theorem L1Step.settings (h : L1Step cache key P cache') : cache'.settings = cache.settings := by
  cases h <;> rfl

theorem L1Step.mem (h : L1Step cache key P cache') {entry : String × Ref}
    (hentry : entry ∈ cache'.l1) : entry ∈ cache.l1 ∨ (entry.1 = key ∧ P entry.2) := by
  cases h with
  | same => exact Or.inl hentry
  | hit hfind =>
      rcases LruCache.mem_touch.mp hentry with rfl | hold
      · exact Or.inl (LruCache.find_spec hfind)
      · exact Or.inl hold.1
  | write hP =>
      rcases LruCache.mem_set hentry with rfl | hold
      · exact Or.inr ⟨rfl, hP⟩
      · exact Or.inl hold.1

/-- A first level within its bound, in the order of use. -/
structure Bounded (cache : ReleaseConfigCache) : Prop where
  length : cache.l1.length ≤ cache.settings.l1MaxEntries
  ordered : LruCache.Ordered cache.uses cache.l1

/-- What has gone has been used less recently than what stays, and had to. -/
def EvictsLeastRecent (cache cache' : ReleaseConfigCache) (key : String) : Prop :=
  key ∈ cache.l1.map Prod.fst → key ∉ cache'.l1.map Prod.fst →
    cache'.l1.length = cache'.settings.l1MaxEntries
      ∧ ∀ kept ∈ cache'.l1.map Prod.fst, LruCache.Since cache'.uses key kept

theorem L1Step.bounded (h : L1Step cache key P cache') (hcache : Bounded cache) :
    Bounded cache' := by
  cases h with
  | same => exact hcache
  | hit hfind =>
      exact ⟨(LruCache.length_touch hfind).trans hcache.length, hcache.ordered.touch _ _⟩
  | write hP => exact ⟨LruCache.length_set, hcache.ordered.set _ _ _⟩

theorem L1Step.evicts (h : L1Step cache key P cache') (hcache : Bounded cache) (gone : String) :
    EvictsLeastRecent cache cache' gone := by
  intro hbefore hafter
  cases h with
  | same => exact absurd hbefore hafter
  | hit hfind =>
      refine absurd ?_ hafter
      obtain ⟨entry, hentry, rfl⟩ := List.mem_map.mp hbefore
      by_cases hkey : entry.1 = key
      · rw [hkey]
        exact List.mem_map_of_mem (LruCache.mem_touch.mpr (Or.inl rfl))
      · exact List.mem_map_of_mem (LruCache.mem_touch.mpr (Or.inr ⟨hentry, hkey⟩))
  | write hP => exact hcache.ordered.evicted hcache.length hbefore hafter

end L1

/-! ## Objects -/

namespace CacheStore

variable {store store' : CacheStore} {value : Dict} {ref : Ref}

/-- An object keeps its value when others are created. -/
theorem object_of_prefix (h : store.heap <+: store'.heap) (href : ref < store.heap.length) :
    store'.object ref = store.object ref := by
  obtain ⟨new, hnew⟩ := h
  unfold object
  rw [List.getD_eq_getElem?_getD, List.getD_eq_getElem?_getD, ← hnew,
    List.getElem?_append_left href]

end CacheStore

/-- A read of `key` has handed out `ref`, an object of its own with this value; Redis and
the first level have at most been given the value. -/
structure Served (cache : ReleaseConfigCache) (store : CacheStore) (key : String) (value : Dict)
    (cache' : ReleaseConfigCache) (store' : CacheStore) (ref : Ref) : Prop where
  heap : store.heap <+: store'.heap
  fresh : store.heap.length ≤ ref
  there : ref < store'.heap.length
  object : store'.object ref = value
  redis : ∀ entry ∈ store'.redis, entry ∈ store.redis ∨ entry = (key, .obj value)
  l1 : L1Step cache key (fun new => store.heap.length ≤ new ∧ new < store'.heap.length
    ∧ new ≠ ref ∧ store'.object new = value) cache'

/-- What is stored under `key`. -/
def Stored (cache : ReleaseConfigCache) (store : CacheStore) (key : String) (value : Dict) : Prop :=
  cache.settings.enabled = true
    ∧ ((∃ ref, LruCache.find cache.l1 key = some ref ∧ store.object ref = value)
      ∨ Dict.get? store.redis key = some (.obj value))

section Operations

variable {cache : ReleaseConfigCache} {store : CacheStore} {key : String} {value : Dict}

theorem get_hit (henabled : cache.settings.enabled = true) {ref : Ref}
    (hfind : LruCache.find cache.l1 key = some ref) (answers : Bool) :
    cache.get store answers key
      = ({ cache with l1 := LruCache.touch cache.l1 key ref, uses := cache.uses ++ [key] },
        { store with heap := store.heap ++ [store.object ref] }, some store.heap.length) := by
  simp [ReleaseConfigCache.get, ReleaseConfigCache.l1Get, henabled, hfind, CacheStore.deepcopy,
    CacheStore.alloc]

/-- The loaded object, the copy in the first level and the copy that is returned. -/
theorem get_load (henabled : cache.settings.enabled = true)
    (hfind : LruCache.find cache.l1 key = none)
    (hredis : Dict.get? store.redis key = some (.obj value)) :
    cache.get store true key
      = ({ cache with
            l1 := LruCache.set cache.settings.l1MaxEntries cache.l1 key (store.heap.length + 1)
            uses := cache.uses ++ [key] },
        { store with heap := store.heap ++ [value, value, value] },
        some (store.heap.length + 2)) := by
  simp [ReleaseConfigCache.get, ReleaseConfigCache.l1Get, ReleaseConfigCache.l1Set, henabled, hfind,
    hredis, CacheStore.deepcopy, CacheStore.alloc, CacheStore.object]

/-- `get` finds nothing and changes nothing, or serves what is stored. -/
theorem get_cases (cache : ReleaseConfigCache) (store : CacheStore) (answers : Bool)
    (key : String) :
    cache.get store answers key = (cache, store, none)
      ∨ ∃ cache' store' ref value, cache.get store answers key = (cache', store', some ref)
        ∧ Served cache store key value cache' store' ref ∧ Stored cache store key value := by
  cases henabled : cache.settings.enabled with
  | false => exact Or.inl (by simp [ReleaseConfigCache.get, henabled])
  | true =>
      cases hfind : LruCache.find cache.l1 key with
      | some ref =>
          refine Or.inr ⟨_, _, _, store.object ref, get_hit henabled hfind answers, ?_, henabled,
            Or.inl ⟨ref, hfind, rfl⟩⟩
          exact {
            heap := List.prefix_append _ _
            fresh := Nat.le_refl _
            there := by simp
            object := by simp [CacheStore.object]
            redis := fun entry hentry => Or.inl hentry
            l1 := .hit hfind }
      | none =>
          by_cases hanswer : answers = true ∧ ∃ value, Dict.get? store.redis key = some (.obj value)
          · obtain ⟨rfl, value, hredis⟩ := hanswer
            refine Or.inr ⟨_, _, _, value, get_load henabled hfind hredis, ?_, henabled,
              Or.inr hredis⟩
            exact {
              heap := List.prefix_append _ _
              fresh := Nat.le_add_right _ _
              there := by simp
              object := by simp [CacheStore.object]
              redis := fun entry hentry => Or.inl hentry
              l1 := .write ⟨Nat.le_succ _, by simp, Nat.ne_of_lt (Nat.lt_succ_self _),
                by simp [CacheStore.object]⟩ }
          · refine Or.inl ?_
            unfold ReleaseConfigCache.get ReleaseConfigCache.l1Get
            simp only [henabled, hfind, Bool.not_true, Bool.false_eq_true, if_false]
            cases answers with
            | false => rfl
            | true =>
                simp only [Bool.not_true, Bool.false_eq_true, if_false]
                split
                · rename_i value hredis
                  exact absurd ⟨rfl, value, hredis⟩ hanswer
                · rfl

/-- An object that is set has been created for it and stays with the caller. -/
theorem set_served (cache : ReleaseConfigCache) (store : CacheStore) (value : Dict) (key : String)
    (stores : Bool) :
    ∃ cache' store', cache.set (store.alloc value).1 stores key (store.alloc value).2
        = (cache', store')
      ∧ Served cache store key value cache' store' (store.alloc value).2 := by
  cases henabled : cache.settings.enabled with
  | false =>
      refine ⟨cache, (store.alloc value).1, by simp [ReleaseConfigCache.set, henabled], ?_⟩
      exact {
        heap := List.prefix_append _ _
        fresh := Nat.le_refl _
        there := by simp [CacheStore.alloc]
        object := by simp [CacheStore.alloc, CacheStore.object]
        redis := fun entry hentry => Or.inl hentry
        l1 := .same }
  | true =>
      refine ⟨{ cache with
          l1 := LruCache.set cache.settings.l1MaxEntries cache.l1 key (store.heap.length + 1)
          uses := cache.uses ++ [key] },
        { redis := if stores then Dict.set store.redis key (.obj value) else store.redis
          heap := store.heap ++ [value, value] }, ?_, ?_⟩
      · cases stores <;> simp [ReleaseConfigCache.set, ReleaseConfigCache.l1Set, henabled,
          CacheStore.deepcopy, CacheStore.alloc, CacheStore.object]
      · exact {
          heap := List.prefix_append _ _
          fresh := Nat.le_refl _
          there := by simp [CacheStore.alloc]
          object := by simp [CacheStore.alloc, CacheStore.object]
          redis := fun entry hentry => by
            cases stores with
            | false => exact Or.inl hentry
            | true => exact (Dict.mem_set hentry).symm
          l1 := .write ⟨Nat.le_succ _, by simp, by simp [CacheStore.alloc],
            by simp [CacheStore.object]⟩ }

end Operations

/-! ## Reads -/

section Reads

variable {config : String → String → Json} {releases : Releases config}

/-- The row that is selected has the ids of the query. -/
theorem selectRelease_spec {rows : List ReleaseRecord} {query : ReleaseQuery} {row : ReleaseRecord}
    (h : selectRelease rows query = some row) :
    row ∈ rows ∧ row.agentId = query.agentId ∧ row.id = query.releaseId row := by
  cases query with
  | byId agentId releaseId =>
      have hrow := List.find?_some h
      rw [Bool.and_eq_true, decide_eq_true_eq, decide_eq_true_eq] at hrow
      exact ⟨List.mem_of_find?_eq_some h, hrow.1, hrow.2⟩
  | byVersion agentId version =>
      have hmem := List.mem_of_mem_head? h
      rw [(List.perm_insertionSort _ _).mem_iff, List.mem_filter, Bool.and_eq_true,
        decide_eq_true_eq, decide_eq_true_eq] at hmem
      exact ⟨hmem.1, hmem.2.1, rfl⟩

/-- The config of a release that is there. -/
theorem find_config {row : ReleaseRecord} (hrow : row ∈ releases.rows) :
    (releases.rows.find? fun other => other.agentId = row.agentId && other.id = row.id).map
        ReleaseRecord.configJson
      = some (config row.agentId row.id) := by
  cases hfind : releases.rows.find? fun other =>
      other.agentId = row.agentId && other.id = row.id with
  | none =>
      have hmiss := List.find?_eq_none.mp hfind row hrow
      simp at hmiss
  | some other =>
      have hother := List.find?_some hfind
      rw [Bool.and_eq_true, decide_eq_true_eq, decide_eq_true_eq] at hother
      rw [Option.map_some, releases.immutable other (List.mem_of_find?_eq_some hfind), hother.1,
        hother.2]

/-- The release of a row with this config object. -/
def ReleaseRecord.fetched (row : ReleaseRecord) (ref : Ref) : FetchedRelease where
  releaseId := row.id
  agentId := row.agentId
  version := row.version
  status := row.status
  visibility := row.visibility
  configJson := ref

/-- A read finds no row, serves a config that is stored or that of the row, or finds that
the config is no dictionary. -/
theorem fetchRelease_cases (releases : Releases config) (redis : RedisOutcome)
    (cache : ReleaseConfigCache) (store : CacheStore) (query : ReleaseQuery) :
    (selectRelease releases.rows query = none
        ∧ fetchRelease releases.rows redis cache store query = (cache, store, .ok none))
      ∨ ∃ row ∈ releases.rows, selectRelease releases.rows query = some row
        ∧ ((∃ cache' store' ref value,
            fetchRelease releases.rows redis cache store query
              = (cache', store', .ok (some (row.fetched ref)))
            ∧ Served cache store (releaseKey cache.settings.keyPrefix row.agentId row.id
                row.version) value cache' store' ref
            ∧ (config row.agentId row.id = .obj value
              ∨ Stored cache store (releaseKey cache.settings.keyPrefix row.agentId row.id
                row.version) value))
          ∨ (fetchRelease releases.rows redis cache store query
              = (cache, store, .error "release config_json 不合法")
            ∧ ∀ value, config row.agentId row.id ≠ .obj value)) := by
  cases hselect : selectRelease releases.rows query with
  | none => exact Or.inl ⟨rfl, by simp [fetchRelease, hselect]⟩
  | some row =>
      obtain ⟨hrow, hagent, hid⟩ := selectRelease_spec hselect
      refine Or.inr ⟨row, hrow, rfl, ?_⟩
      unfold fetchRelease releaseConfigJson
      simp only [hselect, ← hagent, ← hid, find_config hrow]
      rcases get_cases cache store redis.answers
          (releaseKey cache.settings.keyPrefix row.agentId row.id row.version) with
        hmiss | ⟨cache', store', ref, value, hhit, hserved, hstored⟩
      · simp only [hmiss]
        cases hconfig : config row.agentId row.id with
        | obj value =>
            obtain ⟨cache', store', hset, hserved⟩ := set_served cache store value
              (releaseKey cache.settings.keyPrefix row.agentId row.id row.version) redis.stores
            refine Or.inl ⟨cache', store', (store.alloc value).2, value, ?_, hserved, Or.inl rfl⟩
            simp only [hset]
            rfl
        | _ => exact Or.inr ⟨rfl, fun value h => nomatch h⟩
      · simp only [hhit]
        exact Or.inl ⟨cache', store', ref, value, rfl, hserved, Or.inr hstored⟩

end Reads

/-! ## What is stored -/

/-- What holds of the caches: everything stored is `Good` under its key, and no caller holds
an object of a first level. -/
structure CachesHold {config : String → String → Json} (Good : String → Json → Prop)
    (prefixes : List String) (s : CacheState config) : Prop where
  known : ∀ cache ∈ s.runtimes, cache.settings.keyPrefix ∈ prefixes
  bounded : ∀ cache ∈ s.runtimes, Bounded cache
  redis : ∀ entry ∈ s.store.redis, Good entry.1 entry.2
  l1 : ∀ cache ∈ s.runtimes, ∀ entry ∈ cache.l1, entry.2 < s.store.heap.length
    ∧ entry.2 ∉ s.handed ∧ Good entry.1 (.obj (s.store.object entry.2))
  handed : ∀ ref ∈ s.handed, ref < s.store.heap.length

/-- What an action may newly store is `Good`. -/
def CacheAction.Writes {config : String → String → Json} (Good : String → Json → Prop)
    (s : CacheState config) : CacheAction config → Prop
  | .fetch i _ _ => ∀ cache, s.runtimes[i]? = some cache → ∀ row ∈ s.releases.rows, ∀ value,
      config row.agentId row.id = .obj value →
        Good (releaseKey cache.settings.keyPrefix row.agentId row.id row.version) (.obj value)
  | .setArtifact i artifact artifactType artifactVersion agentId releaseId version _ =>
      ∀ cache, s.runtimes[i]? = some cache → Good (artifactKey cache.settings.keyPrefix
        artifactType artifactVersion agentId releaseId version) (.obj artifact)
  | _ => True

section Holding

variable {config : String → String → Json} {Good : String → Json → Prop}
  {prefixes : List String} {s s' : CacheState config} {i : Nat}
  {cache cache' : ReleaseConfigCache} {store' : CacheStore} {key : String} {value : Dict}
  {ref : Ref}

theorem Stored.good (h : CachesHold Good prefixes s) (hcache : cache ∈ s.runtimes)
    (hstored : Stored cache s.store key value) : Good key (.obj value) := by
  rcases hstored.2 with ⟨ref, hfind, rfl⟩ | hredis
  · exact (h.l1 cache hcache (key, ref) (LruCache.find_spec hfind)).2.2
  · exact h.redis (key, .obj value) (Dict.mem_of_get? hredis)

/-- Runtimes other than `i` keep their first level. -/
theorem mem_set_runtimes {other : ReleaseConfigCache} (hother : other ∈ s.runtimes.set i cache') :
    other = cache' ∨ other ∈ s.runtimes := (List.mem_or_eq_of_mem_set hother).symm

/-- The entries that were there are older than what is served, and their objects are unchanged. -/
theorem CachesHold.served (h : CachesHold Good prefixes s) (hi : s.runtimes[i]? = some cache)
    (hserved : Served cache s.store key value cache' store' ref)
    (hgood : Good key (.obj value)) :
    CachesHold Good prefixes (s.after i cache' store' [ref]) := by
  have hcache : cache ∈ s.runtimes := List.mem_of_getElem? hi
  have hlength : s.store.heap.length ≤ store'.heap.length := hserved.heap.length_le
  have hold : ∀ entry : String × Ref, entry.2 < s.store.heap.length ∧ entry.2 ∉ s.handed
      ∧ Good entry.1 (.obj (s.store.object entry.2)) →
      entry.2 < store'.heap.length ∧ entry.2 ∉ s.handed ++ [ref]
        ∧ Good entry.1 (.obj (store'.object entry.2)) := by
    rintro entry ⟨hlt, hhanded, hvalue⟩
    refine ⟨Nat.lt_of_lt_of_le hlt hlength, ?_, ?_⟩
    · rw [List.mem_append, List.mem_singleton, not_or]
      exact ⟨hhanded, Nat.ne_of_lt (Nat.lt_of_lt_of_le hlt hserved.fresh)⟩
    · rw [CacheStore.object_of_prefix hserved.heap hlt]
      exact hvalue
  refine {
    known := fun other hother => ?_
    bounded := fun other hother => ?_
    redis := fun entry hentry => ?_
    l1 := fun other hother entry hentry => ?_
    handed := fun other hother => ?_ }
  · rcases mem_set_runtimes hother with rfl | hother
    · rw [hserved.l1.settings]
      exact h.known cache hcache
    · exact h.known other hother
  · rcases mem_set_runtimes hother with rfl | hother
    · exact hserved.l1.bounded (h.bounded cache hcache)
    · exact h.bounded other hother
  · rcases hserved.redis entry hentry with hentry | rfl
    · exact h.redis entry hentry
    · exact hgood
  · rcases mem_set_runtimes hother with rfl | hother
    · rcases hserved.l1.mem hentry with hentry | ⟨hkey, hfresh, hthere, hne, hobject⟩
      · exact hold entry (h.l1 cache hcache entry hentry)
      · refine ⟨hthere, ?_, ?_⟩
        · rw [CacheState.after, List.mem_append, List.mem_singleton, not_or]
          exact ⟨fun hmem => Nat.not_lt_of_le hfresh (h.handed _ hmem), hne⟩
        · rw [hkey, CacheState.after, hobject]
          exact hgood
    · exact hold entry (h.l1 other hother entry hentry)
  · rcases List.mem_append.mp hother with hother | hother
    · exact Nat.lt_of_lt_of_le (h.handed other hother) hlength
    · rw [List.mem_singleton.mp hother]
      exact hserved.there

/-- A first level that loses entries, and Redis as well. -/
theorem CachesHold.dropped (h : CachesHold Good prefixes s) (hi : s.runtimes[i]? = some cache)
    (hsettings : cache'.settings = cache.settings) (hl1 : cache'.l1.Sublist cache.l1)
    (hordered : LruCache.Ordered cache'.uses cache'.l1)
    (hheap : store'.heap = s.store.heap) (hredis : store'.redis ⊆ s.store.redis) :
    CachesHold Good prefixes (s.after i cache' store' []) := by
  have hcache : cache ∈ s.runtimes := List.mem_of_getElem? hi
  have hobject : ∀ ref, store'.object ref = s.store.object ref := fun ref => by
    rw [CacheStore.object, CacheStore.object, hheap]
  have hold : ∀ other ∈ s.runtimes, ∀ entry ∈ other.l1, entry.2 < store'.heap.length
      ∧ entry.2 ∉ s.handed ++ []
      ∧ Good entry.1 (.obj (store'.object entry.2)) := by
    intro other hother entry hentry
    rw [hheap, List.append_nil, hobject]
    exact h.l1 other hother entry hentry
  refine {
    known := fun other hother => ?_
    bounded := fun other hother => ?_
    redis := fun entry hentry => h.redis entry (hredis hentry)
    l1 := fun other hother entry hentry => ?_
    handed := fun other hother => ?_ }
  · rcases mem_set_runtimes hother with rfl | hother
    · rw [hsettings]
      exact h.known cache hcache
    · exact h.known other hother
  · rcases mem_set_runtimes hother with rfl | hother
    · refine ⟨?_, hordered⟩
      rw [hsettings]
      exact hl1.length_le.trans (h.bounded cache hcache).length
    · exact h.bounded other hother
  · rcases mem_set_runtimes hother with rfl | hother
    · exact hold cache hcache entry (hl1.subset hentry)
    · exact hold other hother entry hentry
  · rw [CacheState.after, List.append_nil] at hother
    rw [CacheState.after, hheap]
    exact h.handed other hother

/-- An operation that changes nothing. -/
theorem CacheState.after_same (hi : s.runtimes[i]? = some cache) :
    s.after i cache s.store [] = s := by
  obtain ⟨hlt, rfl⟩ := List.getElem?_eq_some_iff.mp hi
  unfold CacheState.after
  rw [List.append_nil, List.set_getElem_self]

/-- A fetch serves what was stored or what it has loaded and stored, or nothing. -/
theorem holds_fetch {query : ReleaseQuery} {redis : RedisOutcome} (h : CachesHold Good prefixes s)
    (hwrites : (CacheAction.fetch i query redis : CacheAction config).Writes Good s)
    (hstep : cacheStep s (.fetch i query redis) = some s') : CachesHold Good prefixes s' := by
  obtain ⟨cache, hi, hstep⟩ := Option.bind_eq_some_iff.mp hstep
  have hcache : cache ∈ s.runtimes := List.mem_of_getElem? hi
  rcases fetchRelease_cases s.releases redis cache s.store query with
    ⟨-, hfetch⟩ | ⟨row, hrow, -, ⟨cache', store', ref, value, hfetch, hserved, hvalue⟩ |
      ⟨hfetch, -⟩⟩
  · rw [hfetch] at hstep
    cases hstep
    change CachesHold Good prefixes (s.after i cache s.store [])
    rw [CacheState.after_same hi]
    exact h
  · rw [hfetch] at hstep
    cases hstep
    refine h.served hi hserved ?_
    rcases hvalue with hvalue | hstored
    · exact hwrites cache hi row hrow value hvalue
    · exact hstored.good h hcache
  · rw [hfetch] at hstep
    cases hstep
    change CachesHold Good prefixes (s.after i cache s.store [])
    rw [CacheState.after_same hi]
    exact h

theorem holds_get_artifact {artifactType artifactVersion agentId releaseId : String} {version : Int}
    {answers : Bool} (h : CachesHold Good prefixes s)
    (hstep : cacheStep s (.getArtifact i artifactType artifactVersion agentId releaseId version
      answers) = some s') :
    CachesHold Good prefixes s' := by
  obtain ⟨cache, hi, hstep⟩ := Option.bind_eq_some_iff.mp hstep
  have hcache : cache ∈ s.runtimes := List.mem_of_getElem? hi
  rcases get_cases cache s.store answers (artifactKey cache.settings.keyPrefix artifactType
    artifactVersion agentId releaseId version) with
    hmiss | ⟨cache', store', ref, value, hhit, hserved, hstored⟩
  · rw [hmiss] at hstep
    cases hstep
    rw [Option.toList_none, CacheState.after_same hi]
    exact h
  · rw [hhit] at hstep
    cases hstep
    exact h.served hi hserved (hstored.good h hcache)

theorem holds_set_artifact {artifact : Dict}
    {artifactType artifactVersion agentId releaseId : String} {version : Int} {stores : Bool}
    (h : CachesHold Good prefixes s)
    (hwrites : (CacheAction.setArtifact i artifact artifactType artifactVersion agentId releaseId
      version stores : CacheAction config).Writes Good s)
    (hstep : cacheStep s (.setArtifact i artifact artifactType artifactVersion agentId releaseId
      version stores) = some s') :
    CachesHold Good prefixes s' := by
  obtain ⟨cache, hi, hstep⟩ := Option.bind_eq_some_iff.mp hstep
  have hcache : cache ∈ s.runtimes := List.mem_of_getElem? hi
  obtain ⟨cache', store', hset, hserved⟩ := set_served cache s.store artifact
    (artifactKey cache.settings.keyPrefix artifactType artifactVersion agentId releaseId
      version) stores
  dsimp only at hstep
  rw [hset] at hstep
  cases hstep
  exact h.served hi hserved (hwrites cache hi)

theorem holds_delete {agentId releaseId : String} {version : Int} {deletes : Bool}
    (h : CachesHold Good prefixes s)
    (hstep : cacheStep s (.delete i agentId releaseId version deletes) = some s') :
    CachesHold Good prefixes s' := by
  obtain ⟨cache, hi, hstep⟩ := Option.bind_eq_some_iff.mp hstep
  have hordered := (h.bounded cache (List.mem_of_getElem? hi)).ordered
  have hafter : s' = s.after i
      (cache.delete s.store deletes (releaseKey cache.settings.keyPrefix agentId releaseId
        version)).1
      (cache.delete s.store deletes (releaseKey cache.settings.keyPrefix agentId releaseId
        version)).2 [] := (Option.some.inj hstep).symm
  rw [hafter]
  unfold ReleaseConfigCache.delete
  cases cache.settings.enabled with
  | false =>
      exact h.dropped hi rfl (List.Sublist.refl _) hordered rfl (List.Subset.refl _)
  | true =>
      refine h.dropped hi rfl List.filter_sublist (hordered.erase _) ?_ ?_
      · cases deletes <;> rfl
      · cases deletes with
        | false => exact List.Subset.refl _
        | true => exact List.filter_subset_self _

/-- A caller changes an object that was handed to it, and no first level refers to one. -/
theorem holds_mutate {value : Dict} (h : CachesHold Good prefixes s)
    (hstep : cacheStep s (.mutate ref value) = some s') : CachesHold Good prefixes s' := by
  rw [cacheStep] at hstep
  split at hstep
  · rename_i hhanded
    cases hstep
    refine { h with
      l1 := fun cache hcache entry hentry => ?_
      handed := fun other hother => ?_ }
    · obtain ⟨hlt, hnot, hvalue⟩ := h.l1 cache hcache entry hentry
      have hne : ref ≠ entry.2 := fun heq => hnot (heq ▸ hhanded)
      refine ⟨by rw [List.length_set]; exact hlt, hnot, ?_⟩
      rw [CacheStore.object, List.getD_eq_getElem?_getD, List.getElem?_set_ne hne,
        ← List.getD_eq_getElem?_getD]
      exact hvalue
    · rw [List.length_set]
      exact h.handed other hother
  · cases hstep

theorem cacheStep_holds (h : CachesHold Good prefixes s) {action : CacheAction config}
    (hwrites : action.Writes Good s) (hstep : cacheStep s action = some s') :
    CachesHold Good prefixes s' := by
  cases action with
  | fetch _ _ _ => exact holds_fetch h hwrites hstep
  | getArtifact _ _ _ _ _ _ _ => exact holds_get_artifact h hstep
  | setArtifact _ _ _ _ _ _ _ _ => exact holds_set_artifact h hwrites hstep
  | delete _ _ _ _ _ => exact holds_delete h hstep
  | restart i =>
      obtain ⟨cache, hi, hstep⟩ := Option.bind_eq_some_iff.mp hstep
      cases hstep
      exact h.dropped hi rfl (List.nil_sublist _) LruCache.Ordered.nil rfl (List.Subset.refl _)
  | mutate _ _ => exact holds_mutate h hstep
  | lose key =>
      cases hstep
      exact { h with redis := fun entry hentry => h.redis entry (List.mem_filter.mp hentry).1 }
  | change releases =>
      cases hstep
      exact { h with }

end Holding

/-! ## Configs that are stored -/

/-- If `key` is that of a release, for a prefix in use, the release has this config. -/
def Faithful (prefixes : List String) (config : String → String → Json) (key : String)
    (value : Json) : Prop :=
  ∀ p ∈ prefixes, ∀ (agentId releaseId : String) (version : Int), ':' ∉ agentId.toList →
    ':' ∉ releaseId.toList → key = releaseKey p agentId releaseId version →
      config agentId releaseId = value

/-- What holds of the caches: everything stored is faithful, and no caller holds an object
of a first level. -/
structure CacheInv {config : String → String → Json} (prefixes : List String)
    (s : CacheState config) : Prop where
  known : ∀ cache ∈ s.runtimes, cache.settings.keyPrefix ∈ prefixes
  bounded : ∀ cache ∈ s.runtimes, Bounded cache
  redis : ∀ entry ∈ s.store.redis, Faithful prefixes config entry.1 entry.2
  l1 : ∀ cache ∈ s.runtimes, ∀ entry ∈ cache.l1, entry.2 < s.store.heap.length
    ∧ entry.2 ∉ s.handed ∧ Faithful prefixes config entry.1 (.obj (s.store.object entry.2))
  handed : ∀ ref ∈ s.handed, ref < s.store.heap.length

/-- An artifact is stored under a key that is no key of a release, whatever prefixes the
runtimes have. -/
def CacheAction.Apart {config : String → String → Json} (prefixes : List String) :
    CacheAction config → Prop
  | .setArtifact _ _ artifactType artifactVersion agentId releaseId version _ =>
      ∀ p ∈ prefixes, ∀ q ∈ prefixes, ∀ (agentId' releaseId' : String) (version' : Int),
        artifactKey p artifactType artifactVersion agentId releaseId version
          ≠ releaseKey q agentId' releaseId' version'
  | _ => True

/-- Under one prefix no key of an artifact is that of a release. -/
theorem artifactKey_ne_releaseKey (keyPrefix artifactType artifactVersion agentId : String)
    (releaseId : String) (version : Int) (agentId' releaseId' : String) (version' : Int) :
    artifactKey keyPrefix artifactType artifactVersion agentId releaseId version
      ≠ releaseKey keyPrefix agentId' releaseId' version' := by
  intro hkey
  have hlist := congrArg String.toList hkey
  unfold artifactKey releaseKey at hlist
  simp only [String.toList_append, List.append_assoc] at hlist
  have hartifact : ":artifact:".toList
      = [':', 'a', 'r', 't', 'i', 'f', 'a', 'c', 't', ':'] := by decide
  have hagent : ":agent:".toList = [':', 'a', 'g', 'e', 'n', 't', ':'] := by decide
  rw [hartifact, hagent] at hlist
  have hthird := congrArg (fun text => text[2]?) (List.append_cancel_left hlist)
  exact absurd hthird (by simp)

/-- Runtimes with one prefix keep releases and artifacts apart. -/
theorem apart_of_one_prefix {config : String → String → Json} {prefixes : List String}
    {keyPrefix : String} (h : ∀ p ∈ prefixes, p = keyPrefix) (action : CacheAction config) :
    action.Apart prefixes := by
  cases action with
  | setArtifact i artifact artifactType artifactVersion agentId releaseId version stores =>
      intro p hp q hq agentId' releaseId' version'
      rw [h p hp, h q hq]
      exact artifactKey_ne_releaseKey _ _ _ _ _ _ _ _ _
  | _ => trivial

section Invariant

variable {config : String → String → Json} {prefixes : List String} {s s' : CacheState config}
  {cache : ReleaseConfigCache} {key : String} {value : Dict}

theorem faithful_release {p agentId releaseId : String} {version : Int}
    (hagent : ':' ∉ agentId.toList) (hrelease : ':' ∉ releaseId.toList)
    (hconfig : config agentId releaseId = .obj value) :
    Faithful prefixes config (releaseKey p agentId releaseId version) (.obj value) := by
  intro q _ agentId' releaseId' version' hagent' hrelease' hkey
  obtain ⟨rfl, rfl, -⟩ := releaseKey_inj hagent hagent' hrelease hrelease' hkey
  exact hconfig

theorem cacheInv_iff : CacheInv prefixes s ↔ CachesHold (Faithful prefixes config) prefixes s :=
  ⟨fun h => ⟨h.known, h.bounded, h.redis, h.l1, h.handed⟩,
    fun h => ⟨h.known, h.bounded, h.redis, h.l1, h.handed⟩⟩

theorem Stored.faithful (h : CacheInv prefixes s) (hcache : cache ∈ s.runtimes)
    (hstored : Stored cache s.store key value) : Faithful prefixes config key (.obj value) :=
  hstored.good (cacheInv_iff.mp h) hcache

theorem cacheStep_inv (h : CacheInv prefixes s) {action : CacheAction config}
    (hapart : action.Apart prefixes) (hstep : cacheStep s action = some s') :
    CacheInv prefixes s' := by
  refine cacheInv_iff.mpr (cacheStep_holds (cacheInv_iff.mp h) ?_ hstep)
  cases action with
  | fetch i query redis =>
      intro cache _ row hrow value hvalue
      exact faithful_release (s.releases.agentIds row hrow) (s.releases.ids row hrow) hvalue
  | setArtifact i artifact artifactType artifactVersion agentId releaseId version stores =>
      intro cache hi q hq agentId' releaseId' version' _ _ hkey
      exact absurd hkey (hapart _ (h.known cache (List.mem_of_getElem? hi)) q hq agentId'
        releaseId' version')
  | _ => trivial

end Invariant

/-! ## What the database says -/

def ReleaseRecord.value (row : ReleaseRecord) (configJson : Dict) : ReleaseValue where
  releaseId := row.id
  agentId := row.agentId
  version := row.version
  status := row.status
  visibility := row.visibility
  configJson := configJson

/-- The release that a query names, by value. -/
def databaseRelease {config : String → String → Json} (releases : Releases config)
    (query : ReleaseQuery) : Except String (Option ReleaseValue) :=
  match selectRelease releases.rows query with
  | none => .ok none
  | some row =>
      match config row.agentId row.id with
      | .obj value => .ok (some (row.value value))
      | _ => .error "release config_json 不合法"

section Transparency

variable {config : String → String → Json} {prefixes : List String} {s s' : CacheState config}
  {i : Nat} {cache cache' : ReleaseConfigCache} {key : String}

/-- A cache that stores only the configs of the releases reads like the database. -/
theorem fetchedValue_eq {releases : Releases config} {store : CacheStore}
    (h : ∀ row ∈ releases.rows, ∀ value, Stored cache store (releaseKey cache.settings.keyPrefix
      row.agentId row.id row.version) value → config row.agentId row.id = .obj value)
    (redis : RedisOutcome) (query : ReleaseQuery) :
    fetchedValue releases.rows redis cache store query = databaseRelease releases query := by
  unfold fetchedValue databaseRelease
  rcases fetchRelease_cases releases redis cache store query with
    ⟨hselect, hfetch⟩ | ⟨row, hrow, hselect, ⟨cache', store', ref, value, hfetch, hserved, hvalue⟩ |
      ⟨hfetch, hnot⟩⟩
  · rw [hfetch, hselect]
    rfl
  · have hconfig : config row.agentId row.id = .obj value :=
      hvalue.elim id (h row hrow value)
    rw [hfetch, hselect]
    simp only [hconfig]
    have hobject := hserved.object
    simp [Except.map, FetchedRelease.value, ReleaseRecord.fetched, ReleaseRecord.value, hobject]
  · rw [hfetch, hselect]
    cases hconfig : config row.agentId row.id with
    | obj value => exact absurd hconfig (hnot value)
    | _ =>
        simp only [hconfig]
        rfl

theorem fetchedValue_on (h : CacheInv prefixes s) (hcache : cache ∈ s.runtimes)
    (redis : RedisOutcome) (query : ReleaseQuery) :
    fetchedValue s.releases.rows redis cache s.store query
      = databaseRelease s.releases query :=
  fetchedValue_eq (fun row hrow _ hstored => hstored.faithful h hcache _ (h.known cache hcache)
    row.agentId row.id row.version (s.releases.agentIds row hrow) (s.releases.ids row hrow) rfl)
    redis query

theorem fetchedValue_off (releases : Releases config) (redis : RedisOutcome) (store : CacheStore)
    (query : ReleaseQuery) :
    fetchedValue releases.rows redis cache.off store query = databaseRelease releases query :=
  fetchedValue_eq (fun _ _ _ hstored => absurd hstored.1 Bool.false_ne_true) redis query

/-- An action takes the key out of the first level of runtime `i`. -/
def CacheAction.Drops (i : Nat) (cache : ReleaseConfigCache) (key : String) :
    CacheAction config → Prop
  | .delete j agentId releaseId version _ =>
      j = i ∧ key = releaseKey cache.settings.keyPrefix agentId releaseId version
  | .restart j => j = i
  | _ => False

theorem evicts_same : EvictsLeastRecent cache cache key := fun hbefore hafter =>
  absurd hbefore hafter

/-- What the acting runtime evicts is what any runtime does. -/
theorem after_evicts {j : Nat} {acting acting' : ReleaseConfigCache} {store' : CacheStore}
    {handed : List Ref} (hj : s.runtimes[j]? = some acting) (hi : s.runtimes[i]? = some cache)
    (hi' : (s.after j acting' store' handed).runtimes[i]? = some cache')
    (hacting : j = i → EvictsLeastRecent acting acting' key) :
    EvictsLeastRecent cache cache' key := by
  rcases (Runs.getElem?_set_iff hj).mp hi' with ⟨rfl, rfl⟩ | ⟨-, hi'⟩
  · rw [hi] at hj
    cases hj
    exact hacting rfl
  · rw [hi] at hi'
    cases hi'
    exact evicts_same

theorem cacheStep_evicts (h : CacheInv prefixes s) {action : CacheAction config}
    (hstep : cacheStep s action = some s') (hi : s.runtimes[i]? = some cache)
    (hi' : s'.runtimes[i]? = some cache') (hkept : ¬ action.Drops i cache key) :
    EvictsLeastRecent cache cache' key := by
  cases action with
  | fetch j query redis =>
      obtain ⟨acting, hj, hstep⟩ := Option.bind_eq_some_iff.mp hstep
      have hbounded := h.bounded acting (List.mem_of_getElem? hj)
      rcases fetchRelease_cases s.releases redis acting s.store query with
        ⟨-, hfetch⟩ | ⟨row, -, -, ⟨acting', store', ref, value, hfetch, hserved, -⟩ | ⟨hfetch, -⟩⟩
      · rw [hfetch] at hstep
        cases hstep
        exact after_evicts hj hi hi' fun _ => evicts_same
      · rw [hfetch] at hstep
        cases hstep
        exact after_evicts hj hi hi' fun _ => hserved.l1.evicts hbounded key
      · rw [hfetch] at hstep
        cases hstep
        exact after_evicts hj hi hi' fun _ => evicts_same
  | getArtifact j artifactType artifactVersion agentId releaseId version answers =>
      obtain ⟨acting, hj, hstep⟩ := Option.bind_eq_some_iff.mp hstep
      have hbounded := h.bounded acting (List.mem_of_getElem? hj)
      rcases get_cases acting s.store answers (artifactKey acting.settings.keyPrefix artifactType
        artifactVersion agentId releaseId version) with
        hmiss | ⟨acting', store', ref, value, hhit, hserved, -⟩
      · rw [hmiss] at hstep
        cases hstep
        exact after_evicts hj hi hi' fun _ => evicts_same
      · rw [hhit] at hstep
        cases hstep
        exact after_evicts hj hi hi' fun _ => hserved.l1.evicts hbounded key
  | setArtifact j artifact artifactType artifactVersion agentId releaseId version stores =>
      obtain ⟨acting, hj, hstep⟩ := Option.bind_eq_some_iff.mp hstep
      have hbounded := h.bounded acting (List.mem_of_getElem? hj)
      obtain ⟨acting', store', hset, hserved⟩ := set_served acting s.store artifact
        (artifactKey acting.settings.keyPrefix artifactType artifactVersion agentId releaseId
          version) stores
      dsimp only at hstep
      rw [hset] at hstep
      cases hstep
      exact after_evicts hj hi hi' fun _ => hserved.l1.evicts hbounded key
  | delete j agentId releaseId version deletes =>
      obtain ⟨acting, hj, hstep⟩ := Option.bind_eq_some_iff.mp hstep
      have hafter : s' = s.after j
          (acting.delete s.store deletes (releaseKey acting.settings.keyPrefix agentId releaseId
            version)).1
          (acting.delete s.store deletes (releaseKey acting.settings.keyPrefix agentId releaseId
            version)).2 [] := (Option.some.inj hstep).symm
      rw [hafter] at hi'
      refine after_evicts hj hi hi' fun hsame => ?_
      rw [hsame, hi] at hj
      cases hj
      unfold ReleaseConfigCache.delete
      split
      · exact evicts_same
      · intro hbefore hgone
        refine absurd ?_ hgone
        obtain ⟨entry, hentry, rfl⟩ := List.mem_map.mp hbefore
        refine List.mem_map_of_mem (List.mem_filter.mpr ⟨hentry, decide_eq_true fun hkey => ?_⟩)
        exact hkept ⟨hsame, hkey⟩
  | restart j =>
      obtain ⟨acting, hj, hstep⟩ := Option.bind_eq_some_iff.mp hstep
      cases hstep
      exact after_evicts hj hi hi' fun hsame => absurd hsame hkept
  | mutate ref value =>
      rw [cacheStep] at hstep
      split at hstep
      · cases hstep
        rw [hi] at hi'
        cases hi'
        exact evicts_same
      · cases hstep
  | lose key =>
      cases hstep
      rw [hi] at hi'
      cases hi'
      exact evicts_same
  | change releases =>
      cases hstep
      rw [hi] at hi'
      cases hi'
      exact evicts_same

/-- Runtimes that have just been started. -/
def startedCaches (releases : Releases config) (settings : List RuntimeCacheSettings) :
    CacheState config where
  releases := releases
  runtimes := settings.map fun settings => { settings := settings }

theorem startedCaches_holds {Good : String → Json → Prop} {prefixes : List String}
    (releases : Releases config) {settings : List RuntimeCacheSettings}
    (h : ∀ own ∈ settings, own.keyPrefix ∈ prefixes) :
    CachesHold Good prefixes (startedCaches releases settings) where
  known cache hcache := by
    obtain ⟨own, hown, rfl⟩ := List.mem_map.mp hcache
    exact h own hown
  bounded cache hcache := by
    obtain ⟨own, -, rfl⟩ := List.mem_map.mp hcache
    exact ⟨Nat.zero_le _, LruCache.Ordered.nil⟩
  redis entry hentry := nomatch hentry
  l1 cache hcache entry hentry := by
    obtain ⟨own, -, rfl⟩ := List.mem_map.mp hcache
    cases hentry
  handed ref href := nomatch href

theorem startedCaches_inv (releases : Releases config) (settings : List RuntimeCacheSettings) :
    CacheInv (settings.map RuntimeCacheSettings.keyPrefix) (startedCaches releases settings) :=
  cacheInv_iff.mpr (startedCaches_holds releases fun _ hown => List.mem_map_of_mem hown)

end Transparency

/-- In every run a read returns what it would return without the cache, each first level stays
within its bound, and what it evicts has been used less recently than what stays. The first is
the invariant of the stored objects, the other two follow from what one operation does to a
first level. -/
theorem release_cache_transparent (config : String → String → Json) (releases : Releases config)
    (settings : List RuntimeCacheSettings) (actions : List (CacheAction config))
    (s : CacheState config)
    (hapart : ∀ action ∈ actions, action.Apart (settings.map RuntimeCacheSettings.keyPrefix))
    (hrun : Runs.run cacheStep (startedCaches releases settings) actions = some s) :
    (∀ cache ∈ s.runtimes, ∀ redis query,
        fetchedValue s.releases.rows redis cache s.store query
          = fetchedValue s.releases.rows redis cache.off s.store query)
      ∧ (∀ cache ∈ s.runtimes, cache.l1.length ≤ cache.settings.l1MaxEntries)
      ∧ ∀ (action : CacheAction config) (s' : CacheState config), cacheStep s action = some s' →
        ∀ (i : Nat) (cache cache' : ReleaseConfigCache), s.runtimes[i]? = some cache →
          s'.runtimes[i]? = some cache' →
            ∀ key, ¬ action.Drops i cache key → EvictsLeastRecent cache cache' key := by
  have hinv : CacheInv (settings.map RuntimeCacheSettings.keyPrefix) s := by
    refine Runs.run_invariant (fun _ _ _ ht hC hstep => cacheStep_inv ht hC.2 hstep)
      (startedCaches_inv releases settings) (Runs.meets_and (Runs.meets_true _ _) hapart) hrun
  refine ⟨fun cache hcache redis query => ?_, fun cache hcache => ?_,
    fun action s' hstep i cache cache' hi hi' key hkept => ?_⟩
  · rw [fetchedValue_on hinv hcache, fetchedValue_off]
  · exact (hinv.bounded cache hcache).length
  · exact cacheStep_evicts hinv hstep hi hi' hkept

/-- The releases `r1` and `r2` of an agent. -/
def twoReleases : Releases fun _ releaseId => .obj [("release", .str releaseId)] where
  rows := [
    { id := "r1", agentId := "a1", version := 1, status := "published",
      configJson := .obj [("release", .str "r1")] },
    { id := "r2", agentId := "a1", version := 2, status := "published",
      configJson := .obj [("release", .str "r2")] }]
  immutable := by decide
  agentIds := by decide
  ids := by decide

/-- Two runtimes that share Redis; the first level of one holds a single entry. -/
def twoRuntimes : List RuntimeCacheSettings :=
  [{ enabled := true, l1MaxEntries := 1 }, { enabled := true }]

/-- The second runtime reads what the first has stored, the caller changes its copy, an
artifact evicts the release from the small first level, and Redis fails. -/
theorem release_cache_transparent_shared :
    ∃ s, Runs.run cacheStep (startedCaches twoReleases twoRuntimes)
        [.fetch 0 (.byId "a1" "r1") {}, .fetch 1 (.byVersion "a1" 1) {}, .mutate 4 [],
          .setArtifact 0 [] "configured-prompt" "v1" "a1" "r1" 1 true,
          .fetch 0 (.byId "a1" "r1") { answers := false }] = some s
      ∧ ∀ cache ∈ s.runtimes, ∀ redis query,
        fetchedValue s.releases.rows redis cache s.store query
          = fetchedValue s.releases.rows redis cache.off s.store query := by
  have hsome : (Runs.run cacheStep (startedCaches twoReleases twoRuntimes)
      [.fetch 0 (.byId "a1" "r1") {}, .fetch 1 (.byVersion "a1" 1) {}, .mutate 4 [],
        .setArtifact 0 [] "configured-prompt" "v1" "a1" "r1" 1 true,
        .fetch 0 (.byId "a1" "r1") { answers := false }]).isSome := by
    decide +kernel
  obtain ⟨s, hs⟩ := Option.isSome_iff_exists.mp hsome
  have hone : ∀ p ∈ twoRuntimes.map RuntimeCacheSettings.keyPrefix,
      p = "aegora:runtime-config:v1" := by decide
  exact ⟨s, hs, (release_cache_transparent _ twoReleases twoRuntimes _ s
    (fun action _ => apart_of_one_prefix hone action) hs).1⟩

end Aegora
