import Mathlib.Data.List.Induction
import A2aAgentLayer.Observability.RefreshInvariant

/-!
# What a scrape shows

A scrape calls the collector of the domain gauges, waits for the promise it returns, and then reads
the registry.  Scrapes overlap with each other, with loads and with other calls of `refresh`.  The
clock is read once for each scrape and need not be monotone.
-/

namespace A2aAgentLayer.Observability.Scrapes

open A2aAgentLayer.Lib.Run (getElem?_concat_eq_some)
open A2aAgentLayer.Observability.GaugeRefresh

/-- A scrape: when it began, which call of `refresh` is its own, and what that call returned. -/
structure Scrape where
  now : ℤ
  call : ℕ
  promise : Call

structure State where
  service : GaugeRefresh.State
  scrapes : List Scrape

inductive Event where
  | scrape (now : ℤ)
  | service (e : GaugeRefresh.Event)

def initial : State := ⟨GaugeRefresh.initial, []⟩

def step (ttlMs : ℤ) (s : State) : Event → State
  | .scrape now =>
      let service := GaugeRefresh.step ttlMs s.service (.refresh now)
      let call := s.service.calls.length
      ⟨service, s.scrapes ++ [⟨now, call, (service.calls[call]?).getD .resolved⟩]⟩
  | .service e => { s with service := GaugeRefresh.step ttlMs s.service e }

def scraped (ttlMs : ℤ) (es : List Event) : State := es.foldl (step ttlMs) initial

/-- The series of the domain gauges in the text of a scrape. -/
structure Exposition where
  gauges : Gauges
  refreshErrors : ℕ

/-- What scrape `i` shows once its promise has settled. -/
def exposition (s : State) (i : ℕ) : Option Exposition :=
  s.scrapes[i]?.bind fun scrape =>
    if s.service.calls[scrape.call]? = some .resolved then
      some ⟨s.service.gauges, s.service.refreshErrors⟩
    else none

/-- A scrape shows the rows of a load that did not start before one within the TTL, or before the
one it waited for; or that one failed, and the counter it shows has counted this failure. -/
inductive Fresh (ttlMs : ℤ) (loads : List Load) (scrape : Scrape) (shown : Exposition) : Prop
  | rows {k j : ℕ} {basis shownLoad : Load} {rows : Rows} (hbasis : loads[k]? = some basis)
      (hload : loads[j]? = some shownLoad) (hle : k ≤ j) (hrows : shownLoad.rows = some rows)
      (hgauges : shown.gauges = gaugesOf rows)
      (hwithin : scrape.now - basis.now < ttlMs ∨ scrape.promise = .awaiting k)
  | failed {k : ℕ} {awaited : Load} (hpromise : scrape.promise = .awaiting k)
      (hload : loads[k]? = some awaited) (hfailed : awaited.hasFailed = true)
      (hcounted : (loads.take (k + 1)).countP Load.hasFailed ≤ shown.refreshErrors)

/-! ### Loads that have come so far -/

theorem stage_of_noted {l : Load} (h : l.noted = true) : l.stage ≠ .pending := by
  intro hstage
  simp [Load.noted, hstage] at h

theorem noted_advance {l : Load} (h : l.noted = true) : l.advance.noted = true := by
  rw [Load.noted, Bool.and_eq_true] at h ⊢
  refine ⟨h.1, ?_⟩
  have hstages := of_decide_eq_true h.2
  show decide (l.stage.next ≠ .pending ∧ l.stage.next ≠ .settled) = true
  cases hs : l.stage with
  | pending => exact absurd hs hstages.1
  | settled => exact absurd hs hstages.2
  | _ => decide

/-- What a load past its rows keeps, every event keeps. -/
theorem exists_load {ttlMs : ℤ} {s t : GaugeRefresh.State} {e : GaugeRefresh.Event} (h : Inv s)
    (hdoes : Does ttlMs s e t) {P : Load → Prop} (hstage : ∀ l, P l → l.stage ≠ .pending)
    (hadvance : ∀ l, P l → P l.advance) {k : ℕ} (hk : ∃ l, s.loads[k]? = some l ∧ P l) :
    ∃ l, t.loads[k]? = some l ∧ P l := by
  obtain ⟨l, hl, hP⟩ := hk
  have hset : ∀ {i : ℕ} {x x' : Load}, s.loads[i]? = some x → (P x → P x') →
      ∃ l, (s.loads.set i x')[k]? = some l ∧ P l := by
    intro i x x' hx hkeep
    by_cases hik : i = k
    · subst hik
      obtain rfl := Option.some.inj (hx.symm.trans hl)
      exact ⟨x', List.getElem?_set_self (List.getElem?_eq_some_iff.mp hx).1, hkeep hP⟩
    · exact ⟨l, by rw [List.getElem?_set_ne hik, hl], hP⟩
  cases hdoes with
  | answered hcall => exact ⟨l, hl, hP⟩
  | started hcached hnone => exact ⟨l, getElem?_concat_eq_some.mpr (.inl hl), hP⟩
  | told hx answer =>
      refine hset hx fun hPx => ?_
      rw [Load.answer_of_joined (h.joined _ (List.mem_of_getElem? hx) (hstage _ hPx))]
      exact hPx
  | turned hx hready => exact hset hx (hadvance _)
  | resumed hwaits hcleared => exact ⟨l, hl, hP⟩
  | idle => exact ⟨l, hl, hP⟩

/-- The latest load that passes a test is not in front of another one that does. -/
theorem latest_of_getElem? {p : Load → Bool} {loads : List Load} {k : ℕ} {l : Load}
    (hl : loads[k]? = some l) (hp : p l = true) :
    ∃ j x, k ≤ j ∧ loads[j]? = some x ∧ latest p loads = some x := by
  induction loads using List.reverseRecOn with
  | nil => cases hl
  | append_singleton loads last ih =>
      rw [latest_concat]
      rcases getElem?_concat_eq_some.mp hl with hl | ⟨rfl, rfl⟩
      · obtain ⟨j, x, hj, hx, hlatest⟩ := ih hl
        by_cases hlast : p last = true
        · have hk := (List.getElem?_eq_some_iff.mp hl).1
          exact ⟨loads.length, last, by omega, List.getElem?_concat_length, if_pos hlast⟩
        · refine ⟨j, x, hj, getElem?_concat_eq_some.mpr (.inl hx), ?_⟩
          rw [if_neg hlast, hlatest]
      · exact ⟨loads.length, l, le_rfl, List.getElem?_concat_length, if_pos hp⟩

/-! ### The invariant -/

/-- What is known of a scrape from its start on. -/
structure Waits (ttlMs : ℤ) (s : GaugeRefresh.State) (scrape : Scrape) : Prop where
  call : ∃ call, s.calls[scrape.call]? = some call
  cached : scrape.promise = .resolved →
    ∃ (k : ℕ) (l : Load), s.loads[k]? = some l ∧ l.noted = true ∧ scrape.now - l.now < ttlMs
  waits : ∀ k, scrape.promise = .awaiting k → s.calls[scrape.call]? = some (.awaiting k)
    ∨ ∃ l : Load, s.loads[k]? = some l ∧ l.stage = .cleared

theorem Waits.does {ttlMs : ℤ} {s t : GaugeRefresh.State} {e : GaugeRefresh.Event} (h : Inv s)
    (hdoes : Does ttlMs s e t) {scrape : Scrape} (hscrape : Waits ttlMs s scrape) :
    Waits ttlMs t scrape where
  call := by
    obtain ⟨call, hcall⟩ := hscrape.call
    rcases hdoes.callsStay _ _ hcall with h | h
    · exact ⟨call, h⟩
    · exact ⟨.resolved, h⟩
  cached := by
    intro hpromise
    obtain ⟨k, l, hl, hnoted, hnow⟩ := hscrape.cached hpromise
    obtain ⟨l', hl', hnoted', hnow'⟩ := exists_load h hdoes
      (P := fun x => x.noted = true ∧ x.now = l.now) (fun x hx => stage_of_noted hx.1)
      (fun x hx => ⟨noted_advance hx.1, hx.2⟩) ⟨l, hl, hnoted, rfl⟩
    exact ⟨k, l', hl', hnoted', hnow' ▸ hnow⟩
  waits := by
    intro k hpromise
    have hcleared : (∃ l : Load, s.loads[k]? = some l ∧ l.stage = .cleared) →
        ∃ l : Load, t.loads[k]? = some l ∧ l.stage = .cleared := by
      refine exists_load h hdoes (fun l hl hpending => ?_) fun l hl => ?_
      · rw [hl] at hpending
        cases hpending
      · rw [Load.advance_stage, hl]
        rfl
    rcases hscrape.waits k hpromise with hwaits | hended
    · cases hdoes with
      | answered hcall => exact .inl (getElem?_concat_eq_some.mpr (.inl hwaits))
      | started hcached hnone => exact .inl (getElem?_concat_eq_some.mpr (.inl hwaits))
      | told hl answer => exact .inl hwaits
      | @turned i l hl hready => exact .inl ((handle_calls s l).symm ▸ hwaits)
      | @resumed call i hcall hstage =>
          by_cases hown : call = scrape.call
          · subst hown
            obtain rfl := Call.awaiting.inj (Option.some.inj (hcall.symm.trans hwaits))
            exact .inr (Option.map_eq_some_iff.mp hstage)
          · refine .inl ?_
            show (s.calls.set call .resolved)[scrape.call]? = _
            rw [List.getElem?_set_ne hown, hwaits]
      | idle => exact .inl hwaits
    · exact .inr (hcleared hended)

/-- A scrape begins with a call that returns at once within the TTL, or waits for a load. -/
theorem waits_scrape {ttlMs : ℤ} {s : GaugeRefresh.State} (h : Inv s) (now : ℤ) :
    let service := GaugeRefresh.step ttlMs s (.refresh now)
    Waits ttlMs service ⟨now, s.calls.length, (service.calls[s.calls.length]?).getD .resolved⟩ := by
  intro service
  have hservice : service = GaugeRefresh.refresh ttlMs s now := rfl
  rw [GaugeRefresh.refresh] at hservice
  split at hservice
  next hcached =>
    have hcall : service.calls[s.calls.length]? = some .resolved := by
      rw [hservice, List.getElem?_concat_length]
    rw [hcall]
    refine ⟨⟨_, hcall⟩, fun _ => ?_, fun _ h => by cases h⟩
    have hlast := h.accounted.lastRefreshAt
    obtain ⟨hne, hlt⟩ := hcached
    cases hlatest : latest Load.noted s.loads with
    | none =>
        rw [hlatest] at hlast
        exact absurd hlast hne
    | some l =>
        rw [hlatest] at hlast
        obtain ⟨hmem, hnoted⟩ := mem_of_latest hlatest
        obtain ⟨k, hk⟩ := List.mem_iff_getElem?.mp hmem
        have hnow : s.lastRefreshAt = l.now := hlast
        exact ⟨k, l, by rw [hservice]; exact hk, hnoted, hnow ▸ hlt⟩
  next hcached =>
    split at hservice
    next i hinFlight =>
      have hcall : service.calls[s.calls.length]? = some (.awaiting i) := by
        rw [hservice, List.getElem?_concat_length]
      rw [hcall]
      refine ⟨⟨_, hcall⟩, (fun h => by cases h), fun k hk => .inl ?_⟩
      rw [hcall, ← Call.awaiting.inj hk]
    next hnone =>
      have hcall : service.calls[s.calls.length]? = some (.awaiting s.loads.length) := by
        rw [hservice, List.getElem?_concat_length]
      rw [hcall]
      refine ⟨⟨_, hcall⟩, (fun h => by cases h), fun k hk => .inl ?_⟩
      rw [hcall, ← Call.awaiting.inj hk]

/-- `Date.now()` is past the epoch at every call. -/
def Event.Positive : Event → Prop
  | .scrape now => 0 < now
  | .service e => ∀ now, e = .refresh now → 0 < now

theorem scraped_inv (ttlMs : ℤ) {es : List Event} (hpositive : ∀ e ∈ es, e.Positive) :
    Inv (scraped ttlMs es).service
      ∧ ∀ scrape ∈ (scraped ttlMs es).scrapes, Waits ttlMs (scraped ttlMs es).service scrape := by
  induction es using List.reverseRecOn with
  | nil => exact ⟨inv_initial, fun _ h => absurd h List.not_mem_nil⟩
  | append_singleton es e ih =>
      obtain ⟨hinv, hwaits⟩ := ih fun e' he' => hpositive e' (List.mem_append_left _ he')
      have he := hpositive e (List.mem_append_right _ (List.mem_singleton_self e))
      rw [scraped, List.foldl_concat, ← scraped]
      cases e with
      | scrape now =>
          have hdoes := does_step ttlMs (scraped ttlMs es).service (.refresh now)
          refine ⟨hinv.does (fun n hn => GaugeRefresh.Event.refresh.inj hn ▸ he) hdoes, ?_⟩
          intro scrape hscrape
          rcases List.mem_append.mp hscrape with hscrape | hscrape
          · exact (hwaits scrape hscrape).does hinv hdoes
          · rw [List.mem_singleton.mp hscrape]
            exact waits_scrape hinv now
      | service e =>
          have hdoes := does_step ttlMs (scraped ttlMs es).service e
          exact ⟨hinv.does he hdoes, fun scrape hscrape => (hwaits scrape hscrape).does hinv hdoes⟩

/-! ### What is shown -/

/-- The gauges are those of a load that is not in front of one whose rows have been written. -/
theorem gauges_of_written {s : GaugeRefresh.State} (h : Inv s) {k : ℕ} {l : Load}
    (hl : s.loads[k]? = some l) (hwritten : l.written = true) :
    ∃ (j : ℕ) (x : Load) (rows : Rows), k ≤ j ∧ s.loads[j]? = some x ∧ x.rows = some rows
      ∧ s.gauges = gaugesOf rows := by
  obtain ⟨j, x, hkj, hx, hlatest⟩ := latest_of_getElem? hl hwritten
  have hmem := (mem_of_latest hlatest).2
  rw [Load.written, Bool.and_eq_true] at hmem
  obtain ⟨rows, hrows⟩ := Option.isSome_iff_exists.mp hmem.1
  refine ⟨j, x, rows, hkj, hx, hrows, ?_⟩
  rw [h.accounted.gauges, hlatest, Option.bind_some, hrows]
  rfl

/-- Up to a load that has ended, every failure has been counted. -/
theorem counted_of_cleared {s : GaugeRefresh.State} (h : Inv s) {k : ℕ} {l : Load}
    (hl : s.loads[k]? = some l) (hcleared : l.stage = .cleared) :
    (s.loads.take (k + 1)).countP Load.hasFailed ≤ s.refreshErrors := by
  have hall : ∀ x ∈ s.loads.take (k + 1), x.stage = .cleared := by
    intro x hx
    obtain ⟨i, hi⟩ := List.mem_iff_getElem?.mp hx
    have hik : i < k + 1 := by
      have := (List.getElem?_eq_some_iff.mp hi).1
      rw [List.length_take] at this
      omega
    rw [List.getElem?_take_of_lt hik] at hi
    by_contra hstage
    obtain ⟨xs, hloads, rfl, -, -⟩ := h.oneInFlight.last hi hstage
    have hlength := (List.getElem?_eq_some_iff.mp hl).1
    rw [hloads, List.length_append, List.length_singleton] at hlength
    obtain rfl : xs.length = k := by omega
    rw [hi] at hl
    exact hstage (Option.some.inj hl ▸ hcleared)
  have hreported : (s.loads.take (k + 1)).countP Load.hasFailed
      = (s.loads.take (k + 1)).countP Load.reported := by
    refine List.countP_congr fun x hx => ?_
    simp [Load.reported, hall x hx]
  rw [hreported, h.accounted.refreshErrors]
  exact (List.take_sublist _ _).countP_le

/-- **What a scrape shows is fresh, or its failure is counted.**  In every interleaving of scrapes,
loads and other refreshes a scrape shows the rows of one load, all of them, and that load did not
start before one that began within the TTL, or before the one in flight that the scrape waited for;
otherwise the load it waited for failed, and the error counter it shows includes this failure. -/
theorem exposition_fresh {ttlMs : ℤ} {es : List Event} (hpositive : ∀ e ∈ es, e.Positive) {i : ℕ}
    {shown : Exposition} (hshown : exposition (scraped ttlMs es) i = some shown) :
    ∃ scrape, (scraped ttlMs es).scrapes[i]? = some scrape
      ∧ Fresh ttlMs (scraped ttlMs es).service.loads scrape shown := by
  obtain ⟨hinv, hwaits⟩ := scraped_inv ttlMs hpositive
  obtain ⟨scrape, hscrape, hshown⟩ := Option.bind_eq_some_iff.mp hshown
  split_ifs at hshown with hresolved
  obtain rfl := Option.some.inj hshown
  refine ⟨scrape, hscrape, ?_⟩
  have hwait := hwaits scrape (List.mem_of_getElem? hscrape)
  cases hpromise : scrape.promise with
  | resolved =>
      obtain ⟨k, l, hl, hnoted, hnow⟩ := hwait.cached hpromise
      have hwritten : l.written = true := by
        rw [Load.noted, Bool.and_eq_true] at hnoted
        rw [Load.written, hnoted.1, Bool.true_and]
        exact decide_eq_true (of_decide_eq_true hnoted.2).1
      obtain ⟨j, x, rows, hkj, hx, hrows, hgauges⟩ := gauges_of_written hinv hl hwritten
      exact .rows hl hx hkj hrows hgauges (.inl hnow)
  | awaiting k =>
      rcases hwait.waits k hpromise with hwaiting | ⟨l, hl, hcleared⟩
      · rw [hresolved] at hwaiting
        cases hwaiting
      · cases hfailed : l.hasFailed with
        | true => exact .failed hpromise hl hfailed (counted_of_cleared hinv hl hcleared)
        | false =>
            have hjoined := hinv.joined l (List.mem_of_getElem? hl) fun h => by
              cases hcleared.symm.trans h
            rw [Load.hasFailed_of_joined hjoined] at hfailed
            have hsome : l.rows.isSome = true := by
              rw [← Option.not_isNone, hfailed]
              rfl
            have hwritten : l.written = true := by
              rw [Load.written, hsome, hcleared]
              rfl
            obtain ⟨j, x, rows, hkj, hx, hrows, hgauges⟩ := gauges_of_written hinv hl hwritten
            exact .rows hl hx hkj hrows hgauges (.inr hpromise)

/-- Two scrapes share a load of which one query fails; a third one comes within the TTL of the load
after it. -/
def troubledScrapes : List Event :=
  [ .scrape 1000, .service (.answer 0 (.usage none)), .scrape 1001, .service (.turn 0),
    .service (.turn 0), .service (.turn 0), .service (.turn 0), .service (.resume 0),
    .service (.resume 1), .scrape 2000, .service (.answer 1 (.agents (some [⟨.active, 7⟩]))),
    .service (.answer 1 (.services (some []))), .service (.answer 1 (.usage (some none))),
    .service (.turn 1), .service (.turn 1), .service (.turn 1), .service (.turn 1),
    .service (.resume 2), .scrape 9000 ]

theorem exposition_fresh_troubled :
    ∃ shown scrape, exposition (scraped 15000 troubledScrapes) 3 = some shown
      ∧ (scraped 15000 troubledScrapes).scrapes[3]? = some scrape
      ∧ Fresh 15000 (scraped 15000 troubledScrapes).service.loads scrape shown := by
  have hpositive : ∀ e ∈ troubledScrapes, e.Positive := by
    simp [troubledScrapes, Event.Positive]
  have hshown : exposition (scraped 15000 troubledScrapes) 3 = some _ := rfl
  obtain ⟨scrape, h⟩ := exposition_fresh hpositive hshown
  exact ⟨_, scrape, rfl, h⟩

end A2aAgentLayer.Observability.Scrapes
