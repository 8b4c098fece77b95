import A2aAgentLayer.Common.SanitizePipe
import A2aAgentLayer.Lib.LikePattern
import A2aAgentLayer.Pricing.PricingService

/-!
# The catalog service

The listing of the catalog: filter by agent and by a search text, a page of the matching services,
and on request the tariffs of each.  The search text goes to the database as a `LIKE` pattern;
`escapeLike` protects its special characters, so that the search is one for a substring.
-/

namespace A2aAgentLayer.Catalog.CatalogService

open A2aAgentLayer.Lib.Utf16 A2aAgentLayer.Lib.JsText A2aAgentLayer.Lib.KeyedStore
open A2aAgentLayer.Lib.LikePattern A2aAgentLayer.Lib.OrderedRows
open A2aAgentLayer.Common.SanitizePipe (lower)
open A2aAgentLayer.Pricing
open A2aAgentLayer.Pricing.PricingService (Uuid Tariff TariffTable NewestFirst findByServiceIds)

/-- A row of the table `services`; times count microseconds. -/
structure Service where
  id : Uuid
  agentId : Uuid
  name : JsString
  description : JsString
  createdAt : ℤ
  deriving DecidableEq

structure ServiceWithTariffs extends Service where
  tariffs : List Tariff
  deriving DecidableEq

/-- The table `services`; `id` is its primary key. -/
structure ServiceTable where
  rows : List Service
  primaryKey : (rows.map Service.id).Nodup

/-- The query parameters; `included` is `include`. -/
structure ListServicesDto where
  agentId : Option JsString
  q : Option JsString
  included : Option JsString
  page : Option ℕ
  limit : Option ℕ
  deriving DecidableEq

/-- A unit with a special meaning in a pattern, `[\\%_]`. -/
def isLikeSpecial (u : CodeUnit) : Bool := u == unit '\\' || u == unit '%' || u == unit '_'

/-- Puts a backslash before each special unit. -/
def escapeLike (value : JsString) : JsString :=
  value.flatMap fun u => if isLikeSpecial u then [unit '\\', u] else [u]

/-- The pattern of a search, `%` on either side. -/
def searchPattern (text : JsString) : JsString := unit '%' :: (escapeLike text ++ [unit '%'])

/-- `ILIKE`: both sides in the database's lower case; an error selects nothing. -/
def ilike (fold : List Char → List Char) (text pattern : JsString) : Bool :=
  like (fold (scalars pattern)) (fold (scalars text)) == some true

/-- The `WHERE` clause of a listing; an empty filter is none. -/
def selects (fold : List Char → List Char) (query : ListServicesDto) (service : Service) : Bool :=
  (match query.agentId with
    | none => true
    | some [] => true
    | some agentId => service.agentId.text == agentId.map lower)
  && (match query.q.map trim with
    | none => true
    | some [] => true
    | some q => ilike fold service.name (searchPattern q)
        || ilike fold service.description (searchPattern q))

/-- The rows a listing is about. -/
def matching (fold : List Char → List Char) (query : ListServicesDto) (table : ServiceTable) :
    List Service :=
  table.rows.filter (selects fold query)

/-- What the query builder takes out of the database's answer. -/
def getMany (query : ListServicesDto) (rows : List Service) : List Service :=
  match query.limit with
  | none => rows
  | some 0 => rows
  | some limit => page limit (query.page.getD 1 - 1) rows

inductive Listing where
  | services (found : List Service)
  | withTariffs (found : List ServiceWithTariffs)
  deriving DecidableEq

/-- The services of a listing. -/
def Listing.plain : Listing → List Service
  | .services found => found
  | .withTariffs found => found.map (·.toService)

variable {tariffTable : TariffTable}

/-- `Object.assign(service, { tariffs: … })` for each service. -/
def attachTariffs (tariffs : NewestFirst tariffTable) (services : List Service) :
    List ServiceWithTariffs :=
  let grouped := findByServiceIds tariffs (services.map fun s => s.id.text)
  services.map fun service =>
    { toService := service, tariffs := (grouped.lookup service.id.text).getD [] }

def findAll (fold : List Char → List Char) (query : ListServicesDto) {table : ServiceTable}
    (answer : Ordered Service.createdAt (matching fold query table))
    (tariffs : NewestFirst tariffTable) : Listing :=
  let services := getMany query answer.list
  if query.included = some (js "tariffs") then .withTariffs (attachTariffs tariffs services)
  else .services services

/-! ### Searching -/

theorem isLikeSpecial_iff {u : CodeUnit} :
    isLikeSpecial u = true ↔ u = unit '\\' ∨ u = unit '%' ∨ u = unit '_' := by
  simp only [isLikeSpecial, Bool.or_eq_true, beq_iff_eq, or_assoc]

theorem escapeLike_cons (u : CodeUnit) (value : JsString) :
    escapeLike (u :: value)
      = (if isLikeSpecial u then [unit '\\', u] else [u]) ++ escapeLike value := rfl

/-- A unit outside the surrogates is a character of its own, whatever follows. -/
theorem scalars_cons {u : CodeUnit} (hh : isHighSurrogate u = false)
    (hl : isLowSurrogate u = false) (rest : JsString) :
    scalars (u :: rest) = charOf u :: scalars rest := by
  cases rest with
  | nil => simp [scalars, hh, hl]
  | cons v rest => simp [scalars, hh, hl]

/-- A lone surrogate at the front. -/
theorem scalars_cons_lone {u : CodeUnit} (h : (isHighSurrogate u || isLowSurrogate u) = true)
    {rest : JsString}
    (hrest : isHighSurrogate u = true → ∀ v ∈ rest.head?, isLowSurrogate v = false) :
    scalars (u :: rest) = Char.ofNat 0xFFFD :: scalars rest := by
  cases rest with
  | nil => simp [scalars, h]
  | cons v rest =>
      rw [Bool.or_eq_true] at h
      by_cases hh : isHighSurrogate u = true
      · have hv : isLowSurrogate v = false := hrest hh v rfl
        simp [scalars, hh, hv]
      · simp [scalars, hh, h.resolve_left hh]

theorem surrogate_of_special {u : CodeUnit} (h : isLikeSpecial u = true) :
    isHighSurrogate u = false ∧ isLowSurrogate u = false := by
  rcases isLikeSpecial_iff.mp h with rfl | rfl | rfl
  · decide
  · decide
  · decide

theorem isSpecial_charOf {u : CodeUnit} (hh : isHighSurrogate u = false)
    (hl : isLowSurrogate u = false) : isSpecial (charOf u) = isLikeSpecial u := by
  have hunits := unitsOf_charOf hh hl
  have heq : ∀ c : Char, c.toNat < 128 → (charOf u = c ↔ u = unit c) := by
    intro c hc
    constructor
    · intro h
      rw [h, unitsOf, if_pos (by omega)] at hunits
      exact (List.singleton_inj.mp hunits).symm
    · rintro rfl
      exact charOf_unit (by omega)
  rw [Bool.eq_iff_iff, isLikeSpecial_iff, isSpecial, Bool.or_eq_true, Bool.or_eq_true, beq_iff_eq,
    beq_iff_eq, beq_iff_eq, or_assoc, heq _ (by decide), heq _ (by decide), heq _ (by decide)]

theorem isSpecial_pairChar {u v : CodeUnit} (hu : isHighSurrogate u = true)
    (hv : isLowSurrogate v = true) : isSpecial (pairChar u v) = false := by
  have hunits := unitsOf_pairChar hu hv
  rw [Bool.eq_false_iff]
  intro hspecial
  simp only [isSpecial, Bool.or_eq_true, beq_iff_eq] at hspecial
  rcases hspecial with (h | h) | h <;> rw [h] at hunits <;> cases hunits

/-- The escaped text starts with a low surrogate only where the text does. -/
theorem head_escapeLike (v : CodeUnit) (value rest : JsString) (h : isLowSurrogate v = false) :
    ∀ w ∈ (escapeLike (v :: value) ++ rest).head?, isLowSurrogate w = false := by
  intro w hw
  rw [escapeLike_cons] at hw
  by_cases hv : isLikeSpecial v = true
  · rw [if_pos hv] at hw
    cases hw
    decide
  · rw [if_neg hv] at hw
    cases hw
    exact h

theorem scalars_escape_plain {u : CodeUnit} (hh : isHighSurrogate u = false)
    (hl : isLowSurrogate u = false) (value rest : JsString) :
    scalars (escapeLike (u :: value) ++ rest)
      = escapeChar (charOf u) ++ scalars (escapeLike value ++ rest) := by
  rw [escapeLike_cons, escapeChar, isSpecial_charOf hh hl, List.append_assoc]
  by_cases hu : isLikeSpecial u = true
  · rw [if_pos hu, if_pos hu]
    show scalars (unit '\\' :: u :: (escapeLike value ++ rest)) = _
    rw [scalars_cons (by decide) (by decide), scalars_cons hh hl]
    rfl
  · rw [if_neg hu, if_neg hu]
    show scalars (u :: (escapeLike value ++ rest)) = _
    rw [scalars_cons hh hl]
    rfl

theorem scalars_escape_lone {u : CodeUnit} (h : (isHighSurrogate u || isLowSurrogate u) = true)
    {value rest : JsString} (hrest : isHighSurrogate u = true →
      ∀ v ∈ (escapeLike value ++ rest).head?, isLowSurrogate v = false) :
    scalars (escapeLike (u :: value) ++ rest)
      = escapeChar (Char.ofNat 0xFFFD) ++ scalars (escapeLike value ++ rest) := by
  have hu : isLikeSpecial u = false := by
    rw [Bool.eq_false_iff]
    intro hspecial
    have hplain := surrogate_of_special hspecial
    rw [hplain.1, hplain.2] at h
    exact absurd h (by decide)
  rw [escapeLike_cons, hu]
  show scalars (u :: (escapeLike value ++ rest)) = _
  rw [scalars_cons_lone h hrest]
  rfl

/-- The database reads the escaped text as the escaped characters. -/
theorem scalars_escapeLike (value rest : JsString)
    (hrest : ∀ v ∈ rest.head?, isLowSurrogate v = false) :
    scalars (escapeLike value ++ rest) = escape (scalars value) ++ scalars rest := by
  fun_induction scalars value with
  | case1 => rfl
  | case2 u =>
      rw [escape_cons]
      by_cases hu : (isHighSurrogate u || isLowSurrogate u) = true
      · rw [if_pos hu]
        exact scalars_escape_lone hu fun _ => hrest
      · rw [if_neg hu]
        rw [Bool.or_eq_true, not_or, Bool.not_eq_true, Bool.not_eq_true] at hu
        rw [scalars_escape_plain hu.1 hu.2, escape, List.flatMap_nil, List.append_nil]
        rfl
  | case3 u v value hu hv ih =>
      have hspecial : isLikeSpecial u = false ∧ isLikeSpecial v = false := by
        rw [Bool.eq_false_iff, Bool.eq_false_iff]
        constructor
        · intro h
          rw [(surrogate_of_special h).1] at hu
          exact Bool.false_ne_true hu
        · intro h
          rw [(surrogate_of_special h).2] at hv
          exact Bool.false_ne_true hv
      have hpair : scalars (u :: v :: (escapeLike value ++ rest))
          = pairChar u v :: scalars (escapeLike value ++ rest) := by
        simp [scalars, hu, hv]
      rw [escapeLike_cons, escapeLike_cons, hspecial.1, hspecial.2, escape_cons, escapeChar,
        isSpecial_pairChar hu hv]
      show scalars (u :: v :: (escapeLike value ++ rest)) = _
      rw [hpair, ih]
      rfl
  | case4 u v value hu hv ih =>
      rw [Bool.not_eq_true] at hv
      have hnext := head_escapeLike v value rest hv
      rw [scalars_escape_lone (by rw [hu]; rfl) (fun _ => hnext), ih, escape_cons,
        List.append_assoc]
  | case5 u v value hu hl ih =>
      rw [scalars_escape_lone (by rw [hl, Bool.or_true]) (fun h => absurd h hu), ih, escape_cons,
        List.append_assoc]
  | case6 u v value hu hl ih =>
      rw [Bool.not_eq_true] at hu hl
      rw [scalars_escape_plain hu hl, ih, escape_cons, List.append_assoc]

/-- **A search is one for a substring.**  The pattern is never ill formed, and a stored text matches
it exactly when the characters searched for occur in it side by side. -/
theorem like_searchPattern (text : JsString) (stored : List Char) :
    like (scalars (searchPattern text)) stored = some (decide (scalars text <:+: stored)) := by
  have hpattern : scalars (searchPattern text) = '%' :: (escape (scalars text) ++ ['%']) := by
    have hend : ∀ v ∈ [unit '%'].head?, isLowSurrogate v = false := by
      rintro v ⟨⟩
      decide
    rw [searchPattern, scalars_cons (by decide) (by decide), scalars_escapeLike text _ hend]
    rfl
  rw [hpattern, like_escape]

/-! ### Prices of the listed services -/

theorem attachTariffs_eq (tariffs : NewestFirst tariffTable) (services : List Service) :
    attachTariffs tariffs services = services.map fun service =>
      { toService := service
        tariffs := PricingService.findAll tariffs (some service.id.text) } := by
  refine List.map_congr_left ?_
  intro service hservice
  have hlisted : service.id.text ∈ services.map fun s => s.id.text := List.mem_map_of_mem hservice
  rw [PricingService.lookup_findByServiceIds tariffs hlisted]

/-- A stored tariff stands once in the list of its service and in no other. -/
theorem count_findAll (tariffs : NewestFirst tariffTable) {tariff : Tariff}
    (h : tariff ∈ tariffTable.rows) (id : Uuid) :
    (PricingService.findAll tariffs (some id.text)).count tariff
      = if tariff.serviceId = id then 1 else 0 := by
  have hnodup := PricingService.nodup_list tariffs
  have hmem : tariff ∈ tariffs.list := tariffs.perm.mem_iff.mpr h
  rw [PricingService.findAll_uuid]
  by_cases hid : tariff.serviceId = id
  · rw [if_pos hid]
    refine List.count_eq_one_of_mem (hnodup.filter _) ?_
    rw [List.mem_filter]
    exact ⟨hmem, decide_eq_true hid⟩
  · rw [if_neg hid, List.count_eq_zero, List.mem_filter]
    rintro ⟨-, h⟩
    exact hid (of_decide_eq_true h)

/-- **The listing attaches to each service what a lookup of that service finds.**  Every stored
tariff stands once under its service, where that is listed, and under no other. -/
theorem findAll_tariffs (fold : List Char → List Char) (query : ListServicesDto)
    {table : ServiceTable} (answer : Ordered Service.createdAt
      (matching fold { query with included := some (js "tariffs") } table))
    (tariffs : NewestFirst tariffTable) (services : List Service) :
    findAll fold { query with included := some (js "tariffs") } answer tariffs
        = .withTariffs (attachTariffs tariffs
            (findAll fold { query with included := none } answer tariffs).plain)
      ∧ attachTariffs tariffs services = services.map (fun service =>
          { toService := service
            tariffs := PricingService.findAll tariffs (some service.id.text) })
      ∧ ∀ tariff ∈ tariffTable.rows, ∀ entry ∈ attachTariffs tariffs services,
          entry.tariffs.count tariff = if tariff.serviceId = entry.id then 1 else 0 := by
  refine ⟨?_, attachTariffs_eq tariffs services, ?_⟩
  · unfold findAll
    rw [if_pos rfl]
    rfl
  · intro tariff htariff entry hentry
    rw [attachTariffs_eq] at hentry
    obtain ⟨service, -, rfl⟩ := List.mem_map.mp hentry
    exact count_findAll tariffs htariff service.id

end A2aAgentLayer.Catalog.CatalogService
