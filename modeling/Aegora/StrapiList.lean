import Aegora.ContextViews
import Aegora.UrlText

/-!
# Listing a collection

`StrapiClient.list` asks for one page of a collection after the other until it
has enough entities or the last page. What the service answers is a parameter
(`Request`). A service that honours the page size answers page `n` of the same
entities with their number of pages (`Honours`); then the list is the first
entities in the order of the service, whatever the page size
(`list_eq_take`).
-/

namespace Aegora

open Py ContextViews

namespace StrapiList

/-! ## Requests -/

/-- What ends a listing, a `StrapiError` or another exception by its name. -/
inductive ListError where
  | strapi (message : String)
  | python (name : String)
deriving DecidableEq, Repr

/-- `request("GET", path)`. -/
abbrev Request := String → Except ListError Dict

/-- `flatten_query`. -/
def flattenQuery (values : Dict) : List (String × String) :=
  values.filterMap fun (key, value) =>
    match value with
    | .bool b => some (key, if b then "true" else "false")
    | .null => none
    | value => some (key, value.pyStr)

/-- The arguments of a listing but `max_items`. -/
structure ListQuery where
  endpoint : String
  filters : Dict := []
  sort : Option String := none
  pageSize : ℕ := 100

/-- `params` of one page. -/
def ListQuery.params (query : ListQuery) (page : ℕ) : List (String × String) :=
  let params := Dict.set (Dict.set (flattenQuery query.filters) "pagination[page]" (toString page))
    "pagination[pageSize]" (toString query.pageSize)
  match nonEmpty query.sort with
  | some sort => Dict.set params "sort" sort
  | none => params

/-- `f"{endpoint}?{urllib.parse.urlencode(params)}"`. -/
def ListQuery.path (query : ListQuery) (page : ℕ) : String :=
  query.endpoint ++ "?" ++ String.ofList
    (Urls.urlencode ((query.params page).map fun (name, value) => (name.toList, value.toList)))

/-! ## The loop -/

/-- `normalize_entity`. -/
def normalizeEntity (entity : Dict) : Dict :=
  match Dict.get entity "attributes" with
  | .obj attributes => Dict.merge [("id", Dict.get entity "id")] attributes
  | _ => entity

/-- `items[:end]`. -/
def sliceTo {α : Type} (stop : Int) (items : List α) : List α :=
  if 0 ≤ stop then items.take stop.toNat else items.take (items.length - stop.natAbs)

/-- `value or {}`, of which the next step reads a key. -/
def readable (value : Json) : Except ListError Dict :=
  if value.truthy then
    match value with
    | .obj entries => .ok entries
    | _ => .error (.python "AttributeError")
  else .ok []

/-- `rows` of an answer. -/
def answeredRows (query : ListQuery) (payload : Dict) : Except ListError (List Json) :=
  match (Dict.get payload "data").orElse (.arr []) with
  | .arr rows => .ok rows
  | _ => .error (.strapi ("Strapi list response has invalid data: " ++ query.endpoint))

/-- `page_count` of an answer. -/
def answeredPageCount (payload : Dict) : Except ListError Json := do
  let info ← readable (Dict.get payload "meta")
  let pagination ← readable (Dict.get info "pagination")
  return Dict.get pagination "pageCount"

/-- The end of a turn: whether enough is read, or the page was the last one. -/
def finishPage (maxItems : Option Int) (page : ℕ) (payload : Dict) (rows : List Json)
    (result : List Dict) : Except ListError (List Dict × Bool) :=
  match maxItems.filter (· ≤ (result.length : Int)) with
  | some limit => .ok (sliceTo limit result, true)
  | none => do
      let pageCount ← answeredPageCount payload
      if rows.isEmpty ∨ pageCount = .null then return (result, true)
      let count ← pageCount.pyInt.mapError .python
      return (result, decide (count ≤ (page : Int)))

/-- One turn of the loop; `true` when it is the last one. -/
def listPage (request : Request) (query : ListQuery) (maxItems : Option Int) (page : ℕ)
    (result : List Dict) : Except ListError (List Dict × Bool) := do
  let payload ← request (query.path page)
  let rows ← answeredRows query payload
  finishPage maxItems page payload rows
    (result ++ (rows.filterMap Json.asDict?).map normalizeEntity)

/-- The loop from `page` on; `none` when the fuel runs out. -/
def listFrom (request : Request) (query : ListQuery) (maxItems : Option Int) :
    ℕ → ℕ → List Dict → Option (Except ListError (List Dict))
  | 0, _, _ => none
  | fuel + 1, page, result =>
      match listPage request query maxItems page result with
      | .error e => some (.error e)
      | .ok (result, true) => some (.ok result)
      | .ok (result, false) => listFrom request query maxItems fuel (page + 1) result

/-- `StrapiClient.list`. -/
def list (request : Request) (query : ListQuery) (maxItems : Option Int) (fuel : ℕ) :
    Option (Except ListError (List Dict)) :=
  listFrom request query maxItems fuel 1 []

/-! ## A service that honours the page size -/

/-- The answer for a page of the entities. -/
structure IsPage (entities : List Dict) (pageSize page : ℕ) (payload : Dict) : Prop where
  data : Dict.get payload "data" = .arr ((storePage entities pageSize page).map .obj)
  pages : ∃ info pagination, Dict.get payload "meta" = .obj info
    ∧ Dict.get info "pagination" = .obj pagination
    ∧ Dict.get pagination "pageCount" = .int (pageCount entities pageSize)

/-- The service answers every page of the query from the same entities. -/
def Honours (request : Request) (query : ListQuery) (entities : List Dict) : Prop :=
  ∀ page, 1 ≤ page →
    ∃ payload, request (query.path page) = .ok payload ∧ IsPage entities query.pageSize page payload

/-- The first items up to a limit, or all. -/
def firstItems {α : Type} (maxItems : Option ℕ) (items : List α) : List α :=
  match maxItems with
  | some limit => items.take limit
  | none => items

section Page

variable {entities : List Dict} {pageSize page : ℕ} {payload : Dict} {query : ListQuery}

theorem truthy_of_get {d : Dict} {key : String} {value : Json} (h : Dict.get d key = value)
    (hvalue : value ≠ .null) : (Json.obj d).truthy = true := by
  cases d with
  | nil => exact absurd h.symm hvalue
  | cons entry rest => rfl

theorem IsPage.rows (h : IsPage entities pageSize page payload) :
    answeredRows query payload = .ok ((storePage entities pageSize page).map .obj) := by
  unfold answeredRows
  rw [h.data]
  cases storePage entities pageSize page <;> rfl

theorem IsPage.pageCount (h : IsPage entities pageSize page payload) :
    answeredPageCount payload = .ok (.int (ContextViews.pageCount entities pageSize)) := by
  obtain ⟨info, pagination, hinfo, hpagination, hcount⟩ := h.pages
  have hreads : ∀ {d : Dict}, (Json.obj d).truthy = true → readable (.obj d) = .ok d :=
    fun htruthy => if_pos htruthy
  unfold answeredPageCount
  rw [hinfo, hreads (truthy_of_get hpagination fun h => (nomatch h))]
  change (readable (Dict.get info "pagination")).bind _ = _
  rw [hpagination, hreads (truthy_of_get hcount fun h => (nomatch h))]
  exact congrArg Except.ok hcount

theorem normalized_rows (rows : List Dict) :
    ((rows.map Json.obj).filterMap Json.asDict?).map normalizeEntity
      = rows.map normalizeEntity := by
  rw [List.filterMap_map]
  exact congrArg (List.map normalizeEntity) (List.filterMap_some)

/-- What a turn of the loop makes of what it has read so far. -/
def turnEnd (maxItems : Option ℕ) (read : List Dict) (last : Bool) : List Dict × Bool :=
  match maxItems.filter (· ≤ read.length) with
  | some limit => (read.take limit, true)
  | none => (read, last)

theorem turnEnd_cases (maxItems : Option ℕ) (read : List Dict) (last : Bool) :
    (∃ limit, maxItems = some limit ∧ limit ≤ read.length
        ∧ turnEnd maxItems read last = (read.take limit, true))
      ∨ ((∀ limit, maxItems = some limit → read.length < limit)
        ∧ turnEnd maxItems read last = (read, last)) := by
  cases maxItems with
  | none => exact Or.inr ⟨fun _ h => (nomatch h), rfl⟩
  | some limit =>
      by_cases hle : limit ≤ read.length
      · have henough : (some limit).filter (· ≤ read.length) = some limit :=
          if_pos (decide_eq_true hle)
        refine Or.inl ⟨limit, rfl, hle, ?_⟩
        unfold turnEnd
        rw [henough]
      · have hmore : (some limit).filter (· ≤ read.length) = none :=
          if_neg fun h => hle (of_decide_eq_true h)
        refine Or.inr ⟨fun _ h => Option.some.inj h ▸ not_le.mp hle, ?_⟩
        unfold turnEnd
        rw [hmore]

/-- A limit that is not reached takes all. -/
theorem firstItems_of_lt {α : Type} {maxItems : Option ℕ} {items : List α}
    (h : ∀ limit, maxItems = some limit → items.length < limit) :
    firstItems maxItems items = items := by
  cases maxItems with
  | none => rfl
  | some limit => exact List.take_of_length_le (h limit rfl).le

theorem IsPage.finish (h : IsPage entities pageSize page payload) (maxItems : Option ℕ)
    (read : List Dict) :
    finishPage (maxItems.map Nat.cast) page payload
        ((storePage entities pageSize page).map .obj) read
      = .ok (turnEnd maxItems read (decide (storePage entities pageSize page = []
          ∨ ContextViews.pageCount entities pageSize ≤ page))) := by
  have hlast : finishPage none page payload ((storePage entities pageSize page).map .obj) read
      = .ok (read, decide (storePage entities pageSize page = []
          ∨ ContextViews.pageCount entities pageSize ≤ page)) := by
    unfold finishPage
    rw [h.pageCount]
    cases storePage entities pageSize page with
    | nil => simp [bind, Except.bind, pure, Except.pure]
    | cons row rows => simp [bind, Except.bind, pure, Except.pure, Json.pyInt, Except.mapError]
  cases maxItems with
  | none => exact hlast
  | some limit =>
      change finishPage (some (limit : Int)) page payload _ read = _
      by_cases hle : limit ≤ read.length
      · have henough : (some (limit : Int)).filter (· ≤ (read.length : Int)) = some (limit : Int) :=
          if_pos (decide_eq_true (Int.ofNat_le.mpr hle))
        have henough' : (some limit).filter (· ≤ read.length) = some limit :=
          if_pos (decide_eq_true hle)
        unfold finishPage turnEnd
        rw [henough, henough']
        exact congrArg (fun items => Except.ok (items, true)) (if_pos (Int.natCast_nonneg limit))
      · have hmore : (some (limit : Int)).filter (· ≤ (read.length : Int)) = none :=
          if_neg fun h => hle (Int.ofNat_le.mp (of_decide_eq_true h))
        have hmore' : (some limit).filter (· ≤ read.length) = none :=
          if_neg fun h => hle (of_decide_eq_true h)
        unfold finishPage at hlast ⊢
        unfold turnEnd
        rw [hmore, hmore']
        exact hlast

/-- One turn of the loop over an honoured page. -/
theorem listPage_eq {request : Request} (hserver : Honours request query entities)
    (hpage : 1 ≤ page) (maxItems : Option ℕ) (result : List Dict) :
    listPage request query (maxItems.map Nat.cast) page result
      = .ok (turnEnd maxItems
          (result ++ (storePage entities query.pageSize page).map normalizeEntity)
          (decide (storePage entities query.pageSize page = []
            ∨ ContextViews.pageCount entities query.pageSize ≤ page))) := by
  obtain ⟨payload, hrequest, hanswer⟩ := hserver page hpage
  unfold listPage
  rw [hrequest]
  change (answeredRows query payload).bind _ = _
  rw [hanswer.rows]
  change finishPage _ page payload _ (result ++ _) = _
  rw [normalized_rows]
  exact hanswer.finish maxItems _

/-- The loop from a page on, all before it read. By induction over the fuel, one unit for each
page that is left. -/
theorem listFrom_eq {request : Request} (hserver : Honours request query entities)
    (hsize : 1 ≤ query.pageSize) (maxItems : Option ℕ) {fuel : ℕ} (page : ℕ)
    (hfuel : ContextViews.pageCount entities query.pageSize - page < fuel) :
    listFrom request query (maxItems.map Nat.cast) fuel (page + 1)
        ((entities.take (page * query.pageSize)).map normalizeEntity)
      = some (.ok (firstItems maxItems (entities.map normalizeEntity))) := by
  induction fuel generalizing page with
  | zero => exact absurd hfuel (Nat.not_lt_zero _)
  | succ fuel ih =>
      have hread : (entities.take (page * query.pageSize)).map normalizeEntity
            ++ (storePage entities query.pageSize (page + 1)).map normalizeEntity
          = (entities.take ((page + 1) * query.pageSize)).map normalizeEntity := by
        rw [← storePage_next, Nat.add_sub_cancel, List.map_append]
      unfold listFrom
      rw [listPage_eq hserver (Nat.succ_le_succ (Nat.zero_le page)), hread]
      rcases turnEnd_cases maxItems
          ((entities.take ((page + 1) * query.pageSize)).map normalizeEntity)
          (decide (storePage entities query.pageSize (page + 1) = []
            ∨ ContextViews.pageCount entities query.pageSize ≤ page + 1))
        with ⟨limit, rfl, hle, hend⟩ | ⟨hlimit, hend⟩
      · rw [hend]
        rw [List.length_map, List.length_take] at hle
        change some (Except.ok _) = some (.ok ((entities.map normalizeEntity).take limit))
        rw [← List.map_take, ← List.map_take, List.take_take,
          min_eq_left (hle.trans (min_le_left _ _))]
      · rw [hend]
        by_cases hlast : storePage entities query.pageSize (page + 1) = []
            ∨ ContextViews.pageCount entities query.pageSize ≤ page + 1
        · rw [decide_eq_true hlast, List.take_of_length_le (length_le_of_lastPage hsize hlast)]
          rw [List.take_of_length_le (length_le_of_lastPage hsize hlast)] at hlimit
          change some (Except.ok _) = _
          rw [firstItems_of_lt hlimit]
        · rw [decide_eq_false hlast]
          rw [not_or, not_le] at hlast
          exact ih (page + 1) (by omega)

theorem list_eq_first {request : Request} (hserver : Honours request query entities)
    (hsize : 1 ≤ query.pageSize) (maxItems : Option ℕ) {fuel : ℕ}
    (hfuel : ContextViews.pageCount entities query.pageSize < fuel) :
    list request query (maxItems.map Nat.cast) fuel
      = some (.ok (firstItems maxItems (entities.map normalizeEntity))) := by
  have hfrom := listFrom_eq hserver hsize maxItems 0 (Nat.sub_le _ _ |>.trans_lt hfuel)
  rwa [Nat.zero_mul, List.take_zero, List.map_nil] at hfrom

/-- What the queries of a session read is what the client lists. -/
theorem list_eq_listPages {request : Request} (hserver : Honours request query entities)
    (hsize : 1 ≤ query.pageSize) (limit : ℕ) {fuel : ℕ}
    (hfuel : ContextViews.pageCount entities query.pageSize < fuel) :
    list request query (some (limit : Int)) fuel
      = some (.ok (listPages (entities.map normalizeEntity) query.pageSize limit 1 [])) := by
  rw [listPages_eq_take hsize]
  exact list_eq_first hserver hsize (some limit) hfuel

end Page

/-! ## A concrete service -/

/-- A number among the parameters of a path. -/
def pathNumber (path name : String) : Option ℕ :=
  ((Urls.valuesOf name.toList (Urls.parseQsl (Urls.partition '?' path.toList).2)).head?).bind
    digitsValue

/-- The answer of a service that holds the entities. -/
def pagePayload (entities : List Dict) (pageSize page : ℕ) : Dict :=
  [("data", .arr ((storePage entities pageSize page).map .obj)),
    ("meta", .obj [("pagination", .obj [("page", .int page), ("pageSize", .int pageSize),
      ("pageCount", .int (ContextViews.pageCount entities pageSize)),
      ("total", .int entities.length)])])]

def serve (entities : List Dict) : Request := fun path =>
  match pathNumber path "pagination[page]", pathNumber path "pagination[pageSize]" with
  | some page, some pageSize => .ok (pagePayload entities pageSize page)
  | _, _ => .error (.strapi "Strapi HTTP 400")

theorem isPage_pagePayload (entities : List Dict) (pageSize page : ℕ) :
    IsPage entities pageSize page (pagePayload entities pageSize page) where
  data := rfl
  pages := ⟨_, _, rfl, rfl, rfl⟩

/-- Without filters and a sort order the path says the page and its size. -/
theorem pathNumber_path {endpoint : String} (hendpoint : '?' ∉ endpoint.toList)
    (pageSize page : ℕ) :
    pathNumber (ListQuery.path { endpoint := endpoint, pageSize := pageSize } page)
          "pagination[page]"
        = some page
      ∧ pathNumber (ListQuery.path { endpoint := endpoint, pageSize := pageSize } page)
          "pagination[pageSize]" = some pageSize := by
  have hdigits : ∀ n : ℕ, (toString n).toList = Nat.toDigits 10 n := fun n => String.toList_ofList
  have hquery : Urls.parseQsl (Urls.partition '?'
        (ListQuery.path { endpoint := endpoint, pageSize := pageSize } page).toList).2
      = [("pagination[page]".toList, Nat.toDigits 10 page),
          ("pagination[pageSize]".toList, Nat.toDigits 10 pageSize)] := by
    have hparams : (ListQuery.params { endpoint := endpoint, pageSize := pageSize } page).map
          (fun (name, value) => (name.toList, value.toList))
        = [("pagination[page]".toList, Nat.toDigits 10 page),
          ("pagination[pageSize]".toList, Nat.toDigits 10 pageSize)] := by
      rw [← hdigits, ← hdigits]
      rfl
    unfold ListQuery.path
    have hmark : "?".toList = ['?'] := rfl
    rw [String.toList_append, String.toList_append, hmark, String.toList_ofList,
      List.append_assoc, List.singleton_append, hparams, Urls.partition_of_not_mem hendpoint,
      Urls.parseQsl_urlencode]
    exact List.filter_eq_self.mpr (by simp [Nat.toDigits_ne_nil])
  unfold pathNumber Urls.valuesOf
  rw [hquery]
  constructor
  · rw [List.filter_cons_of_pos (by simp), List.map_cons, List.head?_cons]
    exact digitsValue_toDigits page
  · rw [List.filter_cons_of_neg (by simp), List.filter_cons_of_pos (by simp), List.map_cons,
      List.head?_cons]
    exact digitsValue_toDigits pageSize

theorem honours_serve (entities : List Dict) {endpoint : String}
    (hendpoint : '?' ∉ endpoint.toList) (pageSize : ℕ) :
    Honours (serve entities) { endpoint := endpoint, pageSize := pageSize } entities := by
  intro page _
  obtain ⟨hpage, hsize⟩ := pathNumber_path hendpoint pageSize page
  refine ⟨pagePayload entities pageSize page, ?_, isPage_pagePayload entities pageSize page⟩
  unfold serve
  rw [hpage, hsize]

end StrapiList

open StrapiList

/-- The list of a collection that does not change is its first entities, or all of them, each once
and in the order of the service, with flat attributes; there is one request for a page at most,
or one. -/
theorem strapi_list_exact {request : Request} {query : ListQuery} {entities : List Dict}
    (hsize : 1 ≤ query.pageSize) (hserver : Honours request query entities)
    (maxItems : Option ℕ) {fuel : ℕ}
    (hfuel : ContextViews.pageCount entities query.pageSize < fuel) :
    StrapiList.list request query (maxItems.map Nat.cast) fuel
      = some (.ok (match maxItems with
          | some limit => (entities.map normalizeEntity).take limit
          | none => entities.map normalizeEntity)) :=
  list_eq_first hserver hsize maxItems hfuel

/-- Three entities, two to a page. -/
def threeFaqs : List Dict :=
  [[("id", .int 1), ("attributes", .obj [("title", .str "a")])], [("id", .int 2)],
    [("id", .int 3), ("documentId", .str "c")]]

theorem strapi_list_exact_two_pages :
    1 ≤ 2 ∧ Honours (serve threeFaqs) { endpoint := "/api/faqs", pageSize := 2 } threeFaqs
      ∧ ContextViews.pageCount threeFaqs 2 < 3
      ∧ StrapiList.list (serve threeFaqs) { endpoint := "/api/faqs", pageSize := 2 }
          ((none : Option ℕ).map Nat.cast) 3 = some (.ok (threeFaqs.map normalizeEntity)) := by
  have hserver := honours_serve threeFaqs (show '?' ∉ "/api/faqs".toList by decide) 2
  exact ⟨by decide, hserver, by decide,
    strapi_list_exact (by decide) hserver none (by decide)⟩

end Aegora
