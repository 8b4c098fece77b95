import A2aAgentLayer.Lib.KeyedStore
import A2aAgentLayer.Lib.OrderedRows
import A2aAgentLayer.Lib.Utf16

/-!
# The pricing service

Tariffs and the two ways to look them up: `findAll` lists those of one service, `findByServiceIds`
those of many services in one query, grouped by service.  Both order by the time of creation, newest
first; what the database makes of equal times is an arrangement of the table, from which every query
takes its rows in order.
-/

namespace A2aAgentLayer.Pricing.PricingService

open A2aAgentLayer.Lib.Utf16 A2aAgentLayer.Lib.KeyedStore A2aAgentLayer.Lib.OrderedRows

/-- The text PostgreSQL gives of a `uuid`: lower-case digits in groups of 8, 4, 4, 4 and 12. -/
def isUuidText (text : JsString) : Bool :=
  text.length == 36 && text.zipIdx.all fun (u, i) =>
    if i == 8 || i == 13 || i == 18 || i == 23 then u == unit '-'
    else isDigitUnit u || (unit 'a' ≤ u && u ≤ unit 'f')

/-- The value of a `uuid` column. -/
structure Uuid where
  text : JsString
  canonical : isUuidText text = true
  deriving DecidableEq

theorem Uuid.text_ne_nil (id : Uuid) : id.text ≠ [] := by
  intro h
  have hcanonical := id.canonical
  rw [h] at hcanonical
  exact absurd hcanonical (by decide)

theorem Uuid.text_inj {id id' : Uuid} : id.text = id'.text ↔ id = id' := by
  constructor
  · intro h
    cases id
    cases id'
    cases h
    rfl
  · intro h
    rw [h]

inductive TariffType where
  | perRequest
  | perToken
  | perSecond
  | fixedVariable
  deriving DecidableEq

/-- A row of the table `tariffs`; times count microseconds. -/
structure Tariff where
  id : Uuid
  agentId : Uuid
  serviceId : Uuid
  type : TariffType
  basePrice : JsString
  variablePrice : Option JsString
  currency : JsString
  metadataUri : Option JsString
  metadataHash : Option JsString
  createdAt : ℤ
  deriving DecidableEq

/-- The table `tariffs`; `id` is its primary key. -/
structure TariffTable where
  rows : List Tariff
  primaryKey : (rows.map Tariff.id).Nodup

/-- The table as a query reads it that orders by `createdAt`, newest first. -/
abbrev NewestFirst (table : TariffTable) := Ordered Tariff.createdAt table.rows

variable {table : TariffTable}

/-- The lookup of one service's tariffs; an empty or missing `serviceId` does not filter. -/
def findAll (rows : NewestFirst table) (serviceId : Option JsString) : List Tariff :=
  match serviceId with
  | none => rows.list
  | some [] => rows.list
  | some id => rows.list.filter fun tariff => tariff.serviceId.text = id

/-- A tariff joins the bucket of its service. -/
def group (grouped : Store JsString (List Tariff)) (tariff : Tariff) :
    Store JsString (List Tariff) :=
  match grouped.lookup tariff.serviceId.text with
  | some bucket => grouped.insert tariff.serviceId.text (bucket ++ [tariff])
  | none => grouped.insert tariff.serviceId.text [tariff]

/-- The lookup of the tariffs of many services. -/
def findByServiceIds (rows : NewestFirst table) (serviceIds : List JsString) :
    Store JsString (List Tariff) :=
  let ids := serviceIds.eraseDups
  if ids.length = 0 then ∅
  else (rows.list.filter fun tariff => ids.any (· == tariff.serviceId.text)).foldl group ∅

/-! ### What is found -/

theorem nodup_list (rows : NewestFirst table) : rows.list.Nodup :=
  rows.perm.nodup_iff.mpr table.primaryKey.of_map

theorem findAll_uuid (rows : NewestFirst table) (id : Uuid) :
    findAll rows (some id.text) = rows.list.filter fun tariff => tariff.serviceId = id := by
  cases htext : id.text with
  | nil => exact absurd htext id.text_ne_nil
  | cons u rest =>
      show (rows.list.filter fun tariff => tariff.serviceId.text = u :: rest) = _
      rw [← htext]
      simp only [Uuid.text_inj]

/-- Grouping appends the rows of a service to its bucket, in the order in which they come. -/
theorem lookup_foldl_group (key : JsString) (rows : List Tariff)
    (grouped : Store JsString (List Tariff)) :
    ((rows.foldl group grouped).lookup key).getD []
      = (grouped.lookup key).getD [] ++ rows.filter fun tariff => tariff.serviceId.text = key := by
  induction rows generalizing grouped with
  | nil => simp
  | cons tariff rows ih =>
      have hgroup : ((group grouped tariff).lookup key).getD []
          = (grouped.lookup key).getD []
            ++ [tariff].filter fun tariff => tariff.serviceId.text = key := by
        by_cases hkey : key = tariff.serviceId.text
        · subst hkey
          unfold group
          split <;> rename_i hbucket
          · rw [lookup_insert_self, hbucket]
            simp
          · rw [lookup_insert_self, hbucket]
            simp
        · have hother : ([tariff].filter fun tariff => tariff.serviceId.text = key) = [] := by
            rw [List.filter_eq_nil_iff]
            intro t ht
            rw [List.mem_singleton.mp ht, decide_eq_true_eq]
            exact fun h => hkey h.symm
          rw [hother, List.append_nil]
          unfold group
          split
          · rw [lookup_insert_of_ne _ _ hkey]
          · rw [lookup_insert_of_ne _ _ hkey]
      rw [List.foldl_cons, ih, hgroup, List.append_assoc, ← List.filter_append]
      rfl

/-- **One query for many services finds what a query for each would.** -/
theorem lookup_findByServiceIds (rows : NewestFirst table) {serviceIds : List JsString} {id : Uuid}
    (h : id.text ∈ serviceIds) :
    ((findByServiceIds rows serviceIds).lookup id.text).getD [] = findAll rows (some id.text) := by
  have hmem : id.text ∈ serviceIds.eraseDups := List.mem_eraseDups.mpr h
  have hlength : serviceIds.eraseDups.length ≠ 0 := by
    have := List.length_pos_of_mem hmem
    omega
  rw [findAll_uuid]
  unfold findByServiceIds
  simp only [if_neg hlength]
  rw [lookup_foldl_group, List.filter_filter]
  show [] ++ _ = _
  rw [List.nil_append]
  refine List.filter_congr ?_
  intro tariff _
  rw [Bool.eq_iff_iff, Bool.and_eq_true, List.any_eq_true]
  simp only [decide_eq_true_eq, beq_iff_eq, Uuid.text_inj]
  constructor
  · intro h
    exact h.1
  · intro h
    subst h
    exact ⟨rfl, _, hmem, rfl⟩

end A2aAgentLayer.Pricing.PricingService
