import A2aAgentLayer.Catalog.CatalogService

/-!
# The catalog page by page

A client asks for page 1, 2, … until one comes back empty.  The query orders by the time of creation
alone, so services created at one time come in an order that each request may choose anew; the pages
fit together exactly when no such group of services lies on two pages.
-/

namespace A2aAgentLayer.Catalog.CatalogPages

open A2aAgentLayer.Lib.Utf16 A2aAgentLayer.Lib.OrderedRows
open A2aAgentLayer.Pricing.PricingService (Uuid TariffTable NewestFirst)
open A2aAgentLayer.Catalog.CatalogService

/-- The filter of a query with another page. -/
def onPage (query : ListServicesDto) (limit number : ℕ) : ListServicesDto :=
  { query with page := some number, limit := some limit }

variable {fold : List Char → List Char} {query : ListServicesDto} {table : ServiceTable}
  {tariffTable : TariffTable} {limit : ℕ}

/-- The database answers each request for a page on its own. -/
abbrev Answers (fold : List Char → List Char) (query : ListServicesDto) (table : ServiceTable)
    (limit : ℕ) :=
  ∀ number, Ordered Service.createdAt (matching fold (onPage query limit number) table)

/-- All pages up to the first empty one; that comes at the latest after as many requests as there
are services. -/
def listPages (answers : Answers fold query table limit) (tariffs : NewestFirst tariffTable) :
    Option (List Service) :=
  readPages
    (fun number => (findAll fold (onPage query limit number) (answers number) tariffs).plain)
    ((matching fold query table).length + 1) 1

theorem plain_findAll (answer : Ordered Service.createdAt (matching fold query table))
    (tariffs : NewestFirst tariffTable) :
    (findAll fold query answer tariffs).plain = getMany query answer.list := by
  unfold findAll
  split
  · show (attachTariffs tariffs (getMany query answer.list)).map _ = _
    rw [attachTariffs_eq, List.map_map]
    exact List.map_id _
  · rfl

theorem findAll_onPage (hlimit : 0 < limit) (answers : Answers fold query table limit)
    (tariffs : NewestFirst tariffTable) (index : ℕ) :
    (findAll fold (onPage query limit (1 + index)) (answers (1 + index)) tariffs).plain
      = page limit index (answers (1 + index)).list := by
  rw [plain_findAll]
  obtain ⟨less, rfl⟩ := Nat.exists_eq_succ_of_ne_zero hlimit.ne'
  show page (less + 1) (1 + index - 1) _ = _
  rw [Nat.add_sub_cancel_left]

theorem nodup_matching (fold : List Char → List Char) (query : ListServicesDto)
    (table : ServiceTable) : (matching fold query table).Nodup :=
  table.primaryKey.of_map.filter _

/-- **Pages of the catalog hold every matching service once, whatever the database makes of equal
times, exactly when the services created at one time all lie on one page.** -/
theorem listPages_each_once_iff (fold : List Char → List Char) (query : ListServicesDto)
    (table : ServiceTable) (tariffs : NewestFirst tariffTable) (hlimit : 0 < limit) :
    (∀ answers : Answers fold query table limit, ∃ collected,
        listPages answers tariffs = some collected
          ∧ ∀ service ∈ matching fold query table, collected.count service = 1)
      ↔ OnOnePage limit Service.createdAt (matching fold query table) := by
  rw [← readPages_each_once_iff hlimit (nodup_matching fold query table)]
  have hread : ∀ answers : Answers fold query table limit, listPages answers tariffs
      = some ((List.range (pageCount limit (matching fold query table).length)).flatMap fun index =>
          page limit index (answers (1 + index)).list) := by
    intro answers
    exact readPages_page hlimit (findAll_onPage hlimit answers tariffs)
  constructor
  · intro h answers service hservice
    let renumbered : Answers fold query table limit := fun number => answers (number - 1)
    obtain ⟨collected, hcollected, honce⟩ := h renumbered
    rw [hread renumbered, Option.some.injEq] at hcollected
    have hcount := honce service hservice
    rw [← hcollected] at hcount
    have hnumber : ∀ index, renumbered (1 + index) = answers index := by
      intro index
      show answers (1 + index - 1) = answers index
      rw [Nat.add_sub_cancel_left]
    simpa only [hnumber] using hcount
  · intro h answers
    exact ⟨_, hread answers, h fun index => answers (1 + index)⟩

/-! ### Two services created in one transaction -/

def translation : Service :=
  { id := ⟨js "00000000-0000-4000-8000-000000000001", by decide⟩
    agentId := ⟨js "00000000-0000-4000-8000-00000000000a", by decide⟩
    name := js "translation"
    description := js "texts"
    createdAt := 1715000000000000 }

def summary : Service :=
  { translation with
    id := ⟨js "00000000-0000-4000-8000-000000000002", by decide⟩
    name := js "summary" }

def twoServices : ServiceTable where
  rows := [translation, summary]
  primaryKey := by decide

def noFilter : ListServicesDto :=
  { agentId := none, q := none, included := none, page := none, limit := none }

def noTariffs : TariffTable where
  rows := []
  primaryKey := List.nodup_nil

def noTariffRows : NewestFirst noTariffs where
  list := []
  perm := List.Perm.refl []
  sorted := List.Pairwise.nil

theorem two_pages_iff : (∀ answers : Answers id noFilter twoServices 1, ∃ collected,
      listPages answers noTariffRows = some collected
        ∧ ∀ service ∈ matching id noFilter twoServices, collected.count service = 1)
    ↔ OnOnePage 1 Service.createdAt (matching id noFilter twoServices) :=
  listPages_each_once_iff id noFilter twoServices noTariffRows Nat.one_pos

/-- The first page from one order, the later ones from the other. -/
def changingAnswers : Answers id noFilter twoServices 1 := fun number =>
  if number ≤ 1 then
    { list := [translation, summary]
      perm := List.Perm.refl _
      sorted := by decide }
  else
    { list := [summary, translation]
      perm := List.Perm.swap _ _ _
      sorted := by decide }

/-- With one service on a page, the second page can bring the first service again. -/
theorem same_service_twice :
    ¬ ∀ (fold : List Char → List Char) (query : ListServicesDto) (table : ServiceTable)
        (tariffTable : TariffTable) (tariffs : NewestFirst tariffTable) (limit : ℕ), 0 < limit →
      ∀ answers : Answers fold query table limit, ∃ collected,
        listPages answers tariffs = some collected
          ∧ ∀ service ∈ matching fold query table, collected.count service = 1 := by
  intro h
  obtain ⟨collected, hcollected, honce⟩ :=
    h id noFilter twoServices noTariffs noTariffRows 1 Nat.one_pos changingAnswers
  have hread : listPages changingAnswers noTariffRows = some [translation, translation] := by
    decide
  rw [hread, Option.some.injEq] at hcollected
  have hsummary := honce summary (by decide)
  rw [← hcollected] at hsummary
  exact absurd hsummary (by decide)

end A2aAgentLayer.Catalog.CatalogPages
