import Mathlib.Data.Bool.AllAny
import Aegora.OpenViking

/-!
# URIs and documents of the OpenViking provider

Two facts carry what is said about the provider. Where no two of the texts in
use have one digest, a URI determines the namespace, the scope and the key
(`memoryUri_inj`). And a document reads back as the item that was written
(`documentToItem_newItem`).
-/

namespace Aegora

open Py

/-! ## Segments -/

theorem mem_dashed {run : Bool} {text : List Char} {c : Char} (h : c ∈ dashed run text) :
    isSafe c = true := by
  induction text generalizing run with
  | nil => cases h
  | cons d rest ih =>
      unfold dashed at h
      split at h
      · rename_i hd
        rcases List.mem_cons.mp h with rfl | h
        · exact hd
        · exact ih h
      · split at h
        · exact ih h
        · rcases List.mem_cons.mp h with rfl | h
          · decide
          · exact ih h

theorem mem_stripOf {chars text : List Char} {c : Char} (h : c ∈ stripOf chars text) :
    c ∈ text := by
  unfold stripOf at h
  have hinner := (List.dropWhile_sublist _).subset (List.mem_reverse.mp h)
  exact (List.dropWhile_sublist _).subset (List.mem_reverse.mp hinner)

theorem mem_segmentText {value : String} {c : Char} (h : c ∈ segmentText value) :
    isSafe c = true := by
  unfold segmentText at h
  dsimp only at h
  split at h
  · have hmemory : "memory".toList.all isSafe = true := by decide
    exact List.all_eq_true.mp hmemory c h
  · exact mem_dashed (mem_stripOf (List.mem_of_mem_take h))

namespace VikingEnv

variable {env : VikingEnv}

theorem mem_digest {length : Nat} {value : String} {c : Char}
    (h : c ∈ (env.digest length value).toList) : c ∈ "0123456789abcdef".toList := by
  unfold digest at h
  rw [String.toList_ofList] at h
  exact env.hex value c (List.mem_of_mem_take h)

theorem slash_not_mem_digest (length : Nat) (value : String) :
    '/' ∉ (env.digest length value).toList := fun h => absurd (mem_digest h) (by decide)

theorem dash_not_mem_digest (length : Nat) (value : String) :
    '-' ∉ (env.digest length value).toList := fun h => absurd (mem_digest h) (by decide)

theorem safeSegment_toList (value : String) :
    (env.safeSegment value).toList = segmentText value ++ '-' :: (env.digest 8 value).toList := by
  simp [safeSegment, String.toList_append]

theorem slash_not_mem_safeSegment (value : String) : '/' ∉ (env.safeSegment value).toList := by
  rw [safeSegment_toList, List.mem_append, List.mem_cons]
  rintro (h | h | h)
  · exact absurd (mem_segmentText h) (by decide)
  · exact absurd h (by decide)
  · exact slash_not_mem_digest 8 value h

/-- A segment ends with the digest of its whole value. -/
theorem safeSegment_inj {a b : String} (h : env.safeSegment a = env.safeSegment b) :
    env.digest 8 a = env.digest 8 b := by
  have hlist := congrArg String.toList h
  rw [safeSegment_toList, safeSegment_toList] at hlist
  exact String.toList_injective
    (append_cons_inj_last (dash_not_mem_digest 8 a) (dash_not_mem_digest 8 b) hlist).2

theorem slash_not_mem_scopeSegment (scope : MemoryScope) :
    '/' ∉ (env.scopeSegment scope).toList := by
  unfold scopeSegment
  split
  · rw [String.toList_append, List.mem_append]
    rintro (h | h)
    · revert h
      decide
    · exact slash_not_mem_digest 12 _ h
  · cases scope.memoryScope <;> decide

/-! ## URIs -/

theorem memoryUri_toList (scope : MemoryScope) (key : String) :
    (env.memoryUri scope key).toList
      = "viking://~/memories/".toList ++ ((categoryOf scope.nameSpace).toList ++ '/'
        :: ("aegora".toList ++ '/' :: ((env.safeSegment scope.nameSpace).toList ++ '/'
        :: ((env.scopeSegment scope).toList ++ '/'
        :: ((env.safeSegment key).toList ++ ".md".toList))))) := by
  have h : "viking://~/memories/".toList = rootUri.toList ++ "/".toList := by decide
  rw [h]
  simp [memoryUri, categoryRoot, String.toList_append]

/-- No two of these texts have the same digest. -/
def CollisionFree (env : VikingEnv) (texts : List String) : Prop :=
  ∀ a ∈ texts, ∀ b ∈ texts, env.digest 8 a = env.digest 8 b → a = b

theorem slash_not_mem_category (nameSpace : String) : '/' ∉ (categoryOf nameSpace).toList := by
  unfold categoryOf
  split <;> decide

/-- The segments of a URI. -/
theorem memoryUri_segments {scope scope' : MemoryScope} {key key' : String}
    (h : env.memoryUri scope key = env.memoryUri scope' key') :
    env.safeSegment scope.nameSpace = env.safeSegment scope'.nameSpace
      ∧ env.scopeSegment scope = env.scopeSegment scope'
      ∧ env.safeSegment key = env.safeSegment key' := by
  have hlist := congrArg String.toList h
  rw [memoryUri_toList, memoryUri_toList] at hlist
  obtain ⟨-, hlist⟩ := append_cons_inj (slash_not_mem_category _) (slash_not_mem_category _)
    (List.append_cancel_left hlist)
  obtain ⟨-, hlist⟩ := append_cons_inj (by decide) (by decide) hlist
  obtain ⟨hspace, hlist⟩ := append_cons_inj (slash_not_mem_safeSegment _)
    (slash_not_mem_safeSegment _) hlist
  obtain ⟨hscope, hlist⟩ := append_cons_inj (slash_not_mem_scopeSegment _)
    (slash_not_mem_scopeSegment _) hlist
  exact ⟨String.toList_injective hspace, String.toList_injective hscope,
    String.toList_injective (List.append_cancel_right hlist)⟩

/-- The part of the URI for the scope tells the three kinds of scope apart. -/
theorem scopeSegment_inj {scope scope' : MemoryScope}
    (h : env.scopeSegment scope = env.scopeSegment scope') :
    scope.memoryScope = scope'.memoryScope := by
  have hagent : ∀ (text other : String), other.toList.take 6 ≠ "user_a".toList →
      "user_agent-" ++ text ≠ other := by
    intro text other hother heq
    refine hother ?_
    rw [← heq, String.toList_append]
    rfl
  unfold scopeSegment at h
  cases hscope : scope.memoryScope <;> cases hscope' : scope'.memoryScope <;>
    simp only [hscope, hscope', ScopeKind.text, reduceCtorEq, if_true, if_false] at h ⊢
  · exact absurd h.symm (hagent _ _ (by decide))
  · exact absurd h (by decide)
  · exact absurd h (hagent _ _ (by decide))
  · exact absurd h (hagent _ _ (by decide))
  · exact absurd h (by decide)
  · exact absurd h.symm (hagent _ _ (by decide))

theorem memoryUri_inj {texts : List String} (hfree : env.CollisionFree texts)
    {scope scope' : MemoryScope} {key key' : String}
    (hspace : scope.nameSpace ∈ texts) (hspace' : scope'.nameSpace ∈ texts)
    (hkey : key ∈ texts) (hkey' : key' ∈ texts)
    (h : env.memoryUri scope key = env.memoryUri scope' key') :
    scope.nameSpace = scope'.nameSpace ∧ scope.memoryScope = scope'.memoryScope ∧ key = key' := by
  obtain ⟨hns, hscope, hk⟩ := memoryUri_segments h
  exact ⟨hfree _ hspace _ hspace' (safeSegment_inj hns), scopeSegment_inj hscope,
    hfree _ hkey _ hkey' (safeSegment_inj hk)⟩

/-- A URI lies under the root of its own category only. -/
theorem prefix_memoryUri {scope scope' : MemoryScope} {key : String} :
    (categoryRoot scope ++ "/").toList <+: (env.memoryUri scope' key).toList
      ↔ categoryOf scope.nameSpace = categoryOf scope'.nameSpace := by
  have hroot : (categoryRoot scope ++ "/").toList
      = "viking://~/memories/".toList ++ ((categoryOf scope.nameSpace).toList ++ ['/']) := by
    have h : "viking://~/memories/".toList = rootUri.toList ++ "/".toList := by decide
    rw [h]
    simp [categoryRoot, String.toList_append]
  rw [hroot, memoryUri_toList, List.prefix_append_right_inj]
  constructor
  · rintro ⟨rest, hrest⟩
    rw [List.append_assoc, List.singleton_append] at hrest
    exact String.toList_injective
      (append_cons_inj (slash_not_mem_category _) (slash_not_mem_category _) hrest).1
  · intro h
    rw [h]
    exact ⟨_, by rw [List.append_assoc, List.singleton_append]⟩

/-- The provider's own documents are not taken for generated ones. -/
theorem generatedUri_memoryUri (scope : MemoryScope) (key : String) :
    generatedUri (env.memoryUri scope key) = false := by
  have hlast : ∀ name : List Char, '/' ∉ name → '-' ∉ name →
      ¬ ('/' :: name) <:+ (env.memoryUri scope key).toList := by
    rintro name hslash hdash ⟨before, hbefore⟩
    rw [memoryUri_toList] at hbefore
    have hsplit : ∀ a b c d e : List Char, a ++ (b ++ '/' :: (c ++ '/' :: (d ++ '/' ::
        (e ++ '/' :: ((env.safeSegment key).toList ++ ".md".toList)))))
        = (a ++ b ++ '/' :: c ++ '/' :: d ++ '/' :: e) ++ '/'
          :: ((env.safeSegment key).toList ++ ".md".toList) := by
      intro a b c d e
      simp only [List.append_assoc, List.cons_append]
    rw [hsplit] at hbefore
    have hkey : '/' ∉ (env.safeSegment key).toList ++ ".md".toList := by
      rw [List.mem_append]
      rintro (h | h)
      · exact slash_not_mem_safeSegment key h
      · revert h
        decide
    obtain ⟨-, hname⟩ := append_cons_inj_last hslash hkey hbefore
    refine hdash ?_
    rw [hname, safeSegment_toList]
    simp
  have h1 := hlast ".overview.md".toList (by decide) (by decide)
  have h2 := hlast ".abstract.md".toList (by decide) (by decide)
  have e1 : "/.overview.md".toList = '/' :: ".overview.md".toList := by decide
  have e2 : "/.abstract.md".toList = '/' :: ".abstract.md".toList := by decide
  unfold generatedUri
  rw [e1, e2, Bool.or_eq_false_iff, Bool.eq_false_iff, Bool.eq_false_iff, Ne, Ne,
    List.isSuffixOf_iff_suffix, List.isSuffixOf_iff_suffix]
  exact ⟨h1, h2⟩

theorem memoryUri_ne_empty (scope : MemoryScope) (key : String) :
    env.memoryUri scope key ≠ "" := by
  intro h
  have hlist := congrArg String.toList h
  rw [memoryUri_toList] at hlist
  simp at hlist

/-- A hit gives the URI back as it is. -/
theorem strip_memoryUri (scope : MemoryScope) (key : String) :
    strip (env.memoryUri scope key) = env.memoryUri scope key := by
  obtain ⟨inner, hinner⟩ : ∃ inner, (env.memoryUri scope key).toList = 'v' :: (inner ++ ['d']) := by
    rw [memoryUri_toList]
    refine ⟨"iking://~/memories/".toList ++ ((categoryOf scope.nameSpace).toList ++ '/'
      :: ("aegora".toList ++ '/' :: ((env.safeSegment scope.nameSpace).toList ++ '/'
      :: ((env.scopeSegment scope).toList ++ '/'
      :: ((env.safeSegment key).toList ++ ".m".toList))))), ?_⟩
    have h1 : "viking://~/memories/".toList = 'v' :: "iking://~/memories/".toList := by decide
    have h2 : ".md".toList = ".m".toList ++ ['d'] := by decide
    rw [h1, h2]
    simp only [List.cons_append, List.append_assoc]
  exact strip_eq_self 'v' 'd' inner hinner (by decide) (by decide)

end VikingEnv

/-! ## Documents -/

/-- What an item reads back as from its document. -/
def MemoryItem.reread (item : MemoryItem) (uri : String) : MemoryItem where
  memoryId := textOr item.memoryId uri
  memoryType := textOr item.memoryType "semantic"
  key := item.key
  content := item.content
  scope := textOr item.scope "user_global"
  nameSpace := textOr item.nameSpace "preferences"
  version := if item.version = 0 then 1 else item.version
  sourceAgentId := nonEmpty item.sourceAgentId
  sourceKind := textOr item.sourceKind "legacy"
  metadata := item.metadata

theorem documentText_str {raw : Dict} {field : String} (text fallback : String)
    (h : Dict.get raw field = .str text) :
    documentText raw field fallback = textOr text fallback := by
  unfold documentText textOr Json.orElse
  rw [h, Json.truthy_str]
  by_cases htext : text = "" <;> simp [htext]

theorem textOr_empty (text : String) : textOr text "" = text := by
  unfold textOr
  split
  · rename_i h
    exact h.symm
  · rfl

theorem orElse_one_pyInt (n : Int) :
    ((Json.int n).orElse (.int 1)).pyInt = .ok (if n = 0 then 1 else n) := by
  unfold Json.orElse Json.truthy
  by_cases h : n = 0
  · rw [h]
    rfl
  · rw [if_neg h, if_pos (by simpa using h)]
    rfl

theorem optText_decoded (value : Option String) :
    (if optText value = .null ∨ optText value = .str "" then none
      else some (optText value).pyStr) = nonEmpty value := by
  unfold optText nonEmpty
  cases value with
  | none => rfl
  | some text => by_cases h : text = "" <;> simp [h]

theorem documentToItem_itemToDocument (item : MemoryItem) (uri : String) :
    documentToItem (itemToDocument item) uri = .ok (item.reread uri) := by
  unfold documentToItem itemToDocument
  simp only [Dict.get, Dict.get?_cons, String.reduceEq, if_true, if_false, Option.getD_some,
    ne_eq, not_true, orElse_one_pyInt, optText_decoded, bind, Except.bind, pure, Except.pure]
  unfold MemoryItem.reread
  refine congrArg Except.ok ?_
  simp only [MemoryItem.mk.injEq]
  refine ⟨documentText_str _ _ rfl, documentText_str _ _ rfl, ?_, ?_, documentText_str _ _ rfl,
    documentText_str _ _ rfl, ?_, trivial, documentText_str _ _ rfl, rfl⟩
  · rw [documentText_str item.key "" rfl, textOr_empty]
  · rw [documentText_str item.content "" rfl, textOr_empty]
  · by_cases h : item.version = 0 <;> simp [h]

/-! ## Operations -/

namespace OpenViking

variable {provider : OpenViking} {scope : MemoryScope} {server : VikingServer}

/-- The identity that a tenant and a user have. -/
def accountOf (provider : OpenViking) (tenant user : String) : VikingIdentity :=
  if provider.authMode = .trusted then .account tenant user else .apiKey

theorem identity_eq (scope : MemoryScope) :
    provider.identity scope = provider.accountOf scope.tenant scope.userId := by
  unfold identity accountOf identityHeaders
  split
  · rfl
  · rfl

/-- `remember` returns the current item when it says the same and else replaces it. -/
theorem remember_cases {memory : MemoryWrite} {current : Option MemoryItem} (now : Time)
    (h : provider.getCurrent scope memory.key server = .ok current) :
    (∃ item, current = some item ∧ provider.sameItem memory item = true
        ∧ provider.remember scope memory now server = .ok (server, item))
      ∨ ((∀ item, current = some item → provider.sameItem memory item = false)
        ∧ provider.remember scope memory now server
          = .ok (server.update (provider.identity scope)
              (Dict.set (server.documents (provider.identity scope))
                (provider.env.memoryUri scope memory.key)
                (itemToDocument (provider.newItem scope memory now current))),
            provider.newItem scope memory now current)) := by
  unfold remember
  rw [h]
  simp only [bind, Except.bind, pure, Except.pure]
  cases current with
  | none => exact Or.inr ⟨nofun, rfl⟩
  | some item =>
      rw [Option.filter_some]
      cases hsame : provider.sameItem memory item with
      | true => exact Or.inl ⟨item, rfl, hsame, rfl⟩
      | false => exact Or.inr ⟨fun other hother => by cases hother; exact hsame, rfl⟩

/-- `forget` deletes the document that it finds. -/
theorem forget_cases {key : String} {current : Option MemoryItem}
    (h : provider.getCurrent scope key server = .ok current) :
    provider.forget scope key server
      = .ok (if current.isSome then
          (server.update (provider.identity scope)
            ((server.documents (provider.identity scope)).filter fun entry =>
              decide (entry.1 ≠ provider.env.memoryUri scope key)), true)
        else (server, false)) := by
  unfold getCurrent at h
  unfold forget
  simp only [h, bind, Except.bind]
  cases current <;> rfl

/-- The loop of `recall` returns an item for each hit while the limit is not reached. -/
theorem collectItems_eq {item : Dict → Option MemoryItem} {limit : Int} {found : Nat}
    {hits : List Dict} (h : (found : Int) + hits.length ≤ limit) :
    collectItems item limit found hits = hits.filterMap item := by
  induction hits generalizing found with
  | nil => rfl
  | cons hit rest ih =>
      have hlength : ((hit :: rest).length : Int) = rest.length + 1 := by simp
      unfold collectItems
      rw [List.filterMap_cons]
      cases hitem : item hit with
      | none => exact ih (by omega)
      | some it =>
          dsimp only
          split
          · have hrest : rest = [] := List.eq_nil_of_length_eq_zero (by omega)
            rw [hrest]
            rfl
          · rw [ih (by push_cast; omega)]

/-- Whatever the limit, `recall` returns items of hits only. -/
theorem mem_collectItems {item : Dict → Option MemoryItem} {limit : Int} {found : Nat}
    {hits : List Dict} {it : MemoryItem} (h : it ∈ collectItems item limit found hits) :
    ∃ hit ∈ hits, item hit = some it := by
  induction hits generalizing found with
  | nil => cases h
  | cons hit rest ih =>
      have hrest : ∀ {n : Nat}, it ∈ collectItems item limit n rest →
          ∃ hit' ∈ hit :: rest, item hit' = some it := fun hmem => by
        obtain ⟨hit', hhit', hitem⟩ := ih hmem
        exact ⟨hit', List.mem_cons_of_mem _ hhit', hitem⟩
      unfold collectItems at h
      cases hitem : item hit with
      | none =>
          rw [hitem] at h
          exact hrest h
      | some found =>
          rw [hitem] at h
          dsimp only at h
          split at h
          · exact ⟨hit, List.mem_cons_self, by rw [hitem, List.mem_singleton.mp h]⟩
          · rcases List.mem_cons.mp h with rfl | h
            · exact ⟨hit, List.mem_cons_self, hitem⟩
            · exact hrest h

end OpenViking

/-! ## An environment to run in

The digests and timestamps that the runs below use are the real ones; every
other timestamp is written in unary. -/

def sampleDigest (text : String) : String :=
  if text = "preferences" then
    "bca6842420dbe5146db60f6e644dd6c0559345246d3bd4d28a3894700fcc9c44"
  else if text = "city" then
    "11a62c23412b77477a71481aa2dc7323bcc61d076c8449076c4c58a8356c1bb1"
  else ""

def sampleIso (time : Int) : String :=
  if time = 0 then "1970-01-01T00:00:00+00:00"
  else if time = 1000000 then "1970-01-01T00:00:01+00:00"
  else String.ofList ((if time < 0 then '-' else '+') :: List.replicate time.natAbs '1')

def sampleTime (text : String) : Option Int :=
  if text = "1970-01-01T00:00:00+00:00" then some 0
  else if text = "1970-01-01T00:00:01+00:00" then some 1000000
  else match text.toList with
    | '-' :: ones => some (-(ones.length : Int))
    | '+' :: ones => some ones.length
    | _ => none

theorem sampleTime_sampleIso (time : Int) : sampleTime (sampleIso time) = some time := by
  unfold sampleIso
  split
  · rename_i h
    rw [h]
    decide
  · split
    · rename_i h
      rw [h]
      decide
    · have hunary : ∀ sign : Char, sign ≠ '1' → ∀ text : String,
          text.toList.head? = some '1' →
          String.ofList (sign :: List.replicate time.natAbs '1') ≠ text := by
        rintro sign hsign text htext rfl
        rw [String.toList_ofList] at htext
        exact hsign (Option.some.inj htext)
      unfold sampleTime
      by_cases hneg : time < 0
      · rw [if_pos hneg, if_neg (hunary '-' (by decide) _ (by decide)),
          if_neg (hunary '-' (by decide) _ (by decide)), String.toList_ofList]
        simp only [List.length_replicate]
        exact congrArg some (by omega)
      · rw [if_neg hneg, if_neg (hunary '+' (by decide) _ (by decide)),
          if_neg (hunary '+' (by decide) _ (by decide)), String.toList_ofList]
        simp only [List.length_replicate]
        exact congrArg some (by omega)

def sampleEnv : VikingEnv where
  real := id
  repr q := if q = 1 then "1.0" else "0.5"
  sha256 := sampleDigest
  isoformat := sampleIso
  fromisoformat := sampleTime
  hex text := by
    unfold sampleDigest
    split
    · exact List.all_iff_forall_prop.mp (by decide)
    · split
      · exact List.all_iff_forall_prop.mp (by decide)
      · exact List.all_iff_forall_prop.mp (by decide)
  fromiso_iso := sampleTime_sampleIso
  iso_offset time := by
    unfold sampleIso
    split
    · decide
    · split
      · decide
      · rw [String.toList_ofList, List.mem_cons, List.mem_replicate]
        split <;> simp
  iso_nonempty time := by
    unfold sampleIso
    split
    · decide
    · split
      · decide
      · rw [Ne, ← String.toList_inj, String.toList_ofList]
        simp

/-- Answers with every document under the target, after the overview of it. -/
def sampleSearch : VikingSearch := fun documents _ target _ =>
  .obj [("memories", .arr (.obj [("uri", .str (target ++ ".overview.md")), ("score", .float "0.99")]
    :: (documents.filter fun entry => target.toList.isPrefixOf entry.1.toList).map fun entry =>
      .obj [("uri", .str entry.1), ("score", .float "0.9")]))]

def sampleViking (authMode : AuthMode) : OpenViking := ⟨sampleEnv, authMode, sampleSearch⟩

end Aegora
