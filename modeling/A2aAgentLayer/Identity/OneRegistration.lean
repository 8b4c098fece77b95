import A2aAgentLayer.Identity.ConcurrentRegistrations

/-!
# One registration for each DID

Since overlapping registrations take effect one after the other, what the table alone allows holds
of all of them: a DID is registered at most once, and every refusal has its reason.
-/

namespace A2aAgentLayer.Identity.ConcurrentRegistrations

open A2aAgentLayer.Lib.Utf16 A2aAgentLayer.Lib.JsObject A2aAgentLayer.Lib.Run
open A2aAgentLayer.Lib.Linearize
open A2aAgentLayer.Common.RequestPipeline (Exception mapped)
open A2aAgentLayer.Identity.DidController A2aAgentLayer.Identity.AgentRows
open A2aAgentLayer.Identity.IdentityService

variable {Digest : Type} {cfg : Config Digest} [DecidableEq Digest]

/-- The DID that an operation has put into the table. -/
def registeredDid (entry : Entry Operation Answer) : Option JsString :=
  match entry.operation, entry.answer with
  | .register data _, .ok _ => some data.agentDid
  | _, _ => none

variable (cfg) in
/-- Why the sequential table answers a registration as it does. -/
theorem apply_register_cases (rows : List Agent) (data : RegisterAgentDto) (id : JsString) :
    (apply cfg rows (.register data id) = (.error 403, rows)
        ∧ verifyDidController cfg.recover data.toRegistrationClaim data.ownerSignature = false)
      ∨ (apply cfg rows (.register data id) = (.error 400, rows) ∧ data.status = .null)
      ∨ (apply cfg rows (.register data id) = (.error 409, rows)
        ∧ (data.agentDid ∈ rows.map (·.agentDid) ∨ id ∈ rows.map (·.id)))
      ∨ ∃ saved, apply cfg rows (.register data id) = (.ok saved, rows ++ [saved])
        ∧ saved.agentDid = data.agentDid ∧ saved.agentDid ∉ rows.map (·.agentDid)
        ∧ saved.id ∉ rows.map (·.id) := by
  by_cases hverified : verifyDidController cfg.recover data.toRegistrationClaim
      data.ownerSignature = true
  · by_cases htaken : data.agentDid ∈ rows.map (·.agentDid)
    · exact .inr (.inr (.inl ⟨apply_taken id hverified htaken, .inl htaken⟩))
    · cases hinsert : insert rows (create data id) with
      | some saved =>
          obtain ⟨hid, hdid, hsaved⟩ := insert_eq_some hinsert
          have hsavedDid : saved.agentDid = data.agentDid := congrArg Entity.agentDid hsaved
          have hsavedId : saved.id = id := congrArg Entity.id hsaved
          exact .inr (.inr (.inr ⟨saved, apply_inserted hverified hinsert, hsavedDid,
            hsavedDid ▸ hdid, hsavedId ▸ hid⟩))
      | none =>
          have hrefused := apply_refused hverified htaken hinsert
          by_cases hnull : data.status = .null
          · rw [if_pos hnull] at hrefused
            exact .inr (.inl ⟨hrefused, hnull⟩)
          · rw [if_neg hnull] at hrefused
            refine .inr (.inr (.inl ⟨hrefused, .inr ?_⟩))
            by_contra hid
            obtain ⟨row, hrow⟩ := exists_insert hnull hid htaken
            rw [hrow] at hinsert
            cases hinsert
  · exact .inl ⟨apply_unverified rows id (Bool.eq_false_iff.mpr hverified),
      Bool.eq_false_iff.mpr hverified⟩

variable (cfg) in
/-- What the answer to a registration tells about the table. -/
def Told (t : List Agent) (entry : Entry Operation Answer) : Prop :=
  match entry.operation, entry.answer with
  | .register data _, .ok saved =>
      saved.agentDid = data.agentDid
        ∧ ∃ row ∈ t, row.id = saved.id ∧ row.agentDid = saved.agentDid
  | .register data id, .error status =>
      (status = 403
          ∧ verifyDidController cfg.recover data.toRegistrationClaim data.ownerSignature = false)
        ∨ (status = 400 ∧ data.status = .null)
        ∨ (status = 409 ∧ (data.agentDid ∈ t.map (·.agentDid) ∨ id ∈ t.map (·.id)))
  | .edit _, _ => True

/-- The rows of a table are still there, under their ids and DIDs. -/
def Stays (t u : List Agent) : Prop :=
  ∀ row ∈ t, ∃ row' ∈ u, row'.id = row.id ∧ row'.agentDid = row.agentDid

omit [DecidableEq Digest] in
theorem Told.later {t u : List Agent} (hstays : Stays t u) {entry : Entry Operation Answer}
    (h : Told cfg t entry) : Told cfg u entry := by
  obtain ⟨call, operation, answer⟩ := entry
  cases operation with
  | edit saved => trivial
  | register data id =>
      cases answer with
      | ok saved =>
          obtain ⟨hdid, row, hrow, hid, hrowDid⟩ := h
          obtain ⟨row', hrow', hid', hdid'⟩ := hstays row hrow
          exact ⟨hdid, row', hrow', hid'.trans hid, hdid'.trans hrowDid⟩
      | error status =>
          rcases h with h | h | ⟨hstatus, h | h⟩
          · exact .inl h
          · exact .inr (.inl h)
          · obtain ⟨row, hrow, hdid⟩ := List.mem_map.mp h
            obtain ⟨row', hrow', -, hdid'⟩ := hstays row hrow
            exact .inr (.inr ⟨hstatus, .inl (List.mem_map.mpr ⟨row', hrow', hdid'.trans hdid⟩)⟩)
          · obtain ⟨row, hrow, hid⟩ := List.mem_map.mp h
            obtain ⟨row', hrow', hid', -⟩ := hstays row hrow
            exact .inr (.inr ⟨hstatus, .inr (List.mem_map.mpr ⟨row', hrow', hid'.trans hid⟩)⟩)

variable (cfg) in
/-- The table after an order of operations. -/
structure Explained (rows : List Agent) (order : List (Entry Operation Answer)) (t : List Agent) :
    Prop where
  ids : (t.map (·.id)).Nodup
  nodup : (t.map (·.agentDid)).Nodup
  dids : t.map (·.agentDid) = rows.map (·.agentDid) ++ order.filterMap registeredDid
  told : ∀ entry ∈ order, Told cfg t entry

omit [DecidableEq Digest] in
/-- An operation whose rows stay, and which says the truth about them. -/
theorem Explained.concat {rows t u : List Agent} {order : List (Entry Operation Answer)}
    (h : Explained cfg rows order t) (hstays : Stays t u) {entry : Entry Operation Answer}
    (htold : Told cfg u entry) (hids : (u.map (·.id)).Nodup)
    (hdids : u.map (·.agentDid) = t.map (·.agentDid) ++ (registeredDid entry).toList)
    (hnodup : (u.map (·.agentDid)).Nodup) : Explained cfg rows (order ++ [entry]) u where
  ids := hids
  nodup := hnodup
  dids := by
    have hlast : [entry].filterMap registeredDid = (registeredDid entry).toList := by
      cases hdid : registeredDid entry with
      | none => exact List.filterMap_cons_none hdid
      | some did => exact List.filterMap_cons_some hdid
    rw [hdids, h.dids, List.append_assoc, List.filterMap_append, hlast]
  told := by
    intro other hother
    rcases List.mem_append.mp hother with hother | hother
    · exact (h.told other hother).later hstays
    · exact List.mem_singleton.mp hother ▸ htold

theorem Stays.refl (t : List Agent) : Stays t t := fun row hrow => ⟨row, hrow, rfl, rfl⟩

/-- **What an order of operations leaves.** -/
theorem explained {rows t : List Agent} {order : List (Entry Operation Answer)}
    (hids : (rows.map (·.id)).Nodup) (hdids : (rows.map (·.agentDid)).Nodup)
    (h : Explains (apply cfg) rows order t) : Explained cfg rows order t := by
  induction h with
  | nil => exact ⟨hids, hdids, (List.append_nil _).symm, fun _ h => absurd h List.not_mem_nil⟩
  | @snoc t u order _ entry hanswer ih =>
      obtain ⟨call, operation, answer⟩ := entry
      cases operation with
      | register data id =>
          rcases apply_register_cases cfg t data id with ⟨happly, hwhy⟩ | ⟨happly, hwhy⟩
            | ⟨happly, hwhy⟩ | ⟨saved, happly, hdid, hfree, hid⟩
          · obtain ⟨rfl, rfl⟩ := Prod.mk.inj (happly.symm.trans hanswer)
            exact ih.concat (.refl t) (.inl ⟨rfl, hwhy⟩) ih.ids (List.append_nil _).symm ih.nodup
          · obtain ⟨rfl, rfl⟩ := Prod.mk.inj (happly.symm.trans hanswer)
            exact ih.concat (.refl t) (.inr (.inl ⟨rfl, hwhy⟩)) ih.ids (List.append_nil _).symm
              ih.nodup
          · obtain ⟨rfl, rfl⟩ := Prod.mk.inj (happly.symm.trans hanswer)
            exact ih.concat (.refl t) (.inr (.inr ⟨rfl, hwhy⟩)) ih.ids (List.append_nil _).symm
              ih.nodup
          · obtain ⟨rfl, rfl⟩ := Prod.mk.inj (happly.symm.trans hanswer)
            refine ih.concat (fun row hrow => ⟨row, List.mem_append_left _ hrow, rfl, rfl⟩)
              ⟨hdid, saved, List.mem_append_right _ (List.mem_singleton.mpr rfl), rfl, rfl⟩ ?_ ?_ ?_
            · rw [List.map_append, List.map_singleton, ← List.concat_eq_append]
              exact ih.ids.concat hid
            · rw [List.map_append, List.map_singleton, hdid]
              rfl
            · rw [List.map_append, List.map_singleton, ← List.concat_eq_append]
              exact ih.nodup.concat hfree
      | edit saved =>
          rw [apply] at hanswer
          split_ifs at hanswer with hrow
          · obtain ⟨rfl, rfl⟩ := Prod.mk.inj hanswer
            obtain ⟨found, hfound, hsame⟩ := List.any_eq_true.mp hrow
            obtain ⟨hfoundId, hfoundDid⟩ := of_decide_eq_true hsame
            have hdid : ∀ row ∈ t, row.id = saved.id → row.agentDid = saved.agentDid := by
              intro row hrow hid
              rw [List.inj_on_of_nodup_map ih.ids hrow hfound (hid.trans hfoundId.symm), hfoundDid]
            have hkept := map_agentDid_replace hdid
            refine ih.concat (fun row hrow => ?_) trivial (by rw [map_id_replace]; exact ih.ids)
              (by rw [hkept]; exact (List.append_nil _).symm) (by rw [hkept]; exact ih.nodup)
            by_cases hid : row.id = saved.id
            · have hrowFound := List.inj_on_of_nodup_map ih.ids hrow hfound
                (hid.trans hfoundId.symm)
              exact ⟨saved, (mem_replace hfound hfoundId.symm).mpr (.inl rfl), hid.symm,
                by rw [hrowFound, hfoundDid]⟩
            · exact ⟨row, (mem_replace hfound hfoundId.symm).mpr (.inr ⟨hrow, hid⟩), rfl, rfl⟩
          · obtain ⟨rfl, rfl⟩ := Prod.mk.inj hanswer
            exact ih.concat (.refl t) trivial ih.ids (List.append_nil _).symm ih.nodup

omit [DecidableEq Digest] in
/-- The entry in which a call was settled. -/
theorem Inv.entry {s : State} (inv : Inv cfg s) {i : ℕ} {x : Call} (hx : s.calls[i]? = some x)
    {answer : Answer} (hdecided : x.decided = some answer) :
    ∃ id, ⟨some i, .register x.data id, answer⟩ ∈ s.order := by
  have hmem : answer ∈ answersOf i s.order := by
    rw [inv.answers, hx, Option.bind_some, hdecided]
    exact List.mem_singleton.mpr rfl
  obtain ⟨⟨call, operation, told⟩, hentry, hread⟩ := List.mem_filterMap.mp hmem
  rw [Option.ite_none_right_eq_some] at hread
  obtain ⟨hcall, htold⟩ := hread
  obtain ⟨y, id, hy, hoperation⟩ := inv.asked _ hentry i hcall
  obtain rfl := Option.some.inj (hx.symm.trans hy)
  obtain rfl : told = answer := Option.some.inj htold
  obtain rfl : call = some i := hcall
  obtain rfl : operation = .register x.data id := hoperation
  exact ⟨id, hentry⟩

/-- **A DID is registered once.**  However registrations overlap, with each other and with rows that
are saved again, no DID is in the table twice, and of all calls for a DID at most one gets a row,
none if the DID was there at first.  The others are told 409, and then the DID is in the table, or
the generated id was taken; 403 stands for a signature that does not verify and 400 for a status
that is `null`. -/
theorem did_registered_once {rows : List Agent} (hids : (rows.map (·.id)).Nodup)
    (hdids : (rows.map (·.agentDid)).Nodup) {es : List Event} {s : State}
    (h : run (step cfg) ⟨rows, [], []⟩ es = some s) :
    (s.rows.map (·.agentDid)).Nodup
      ∧ (∀ (i : ℕ) (x : Call) (saved : Agent), s.calls[i]? = some x → x.decided = some (.ok saved) →
        saved.agentDid = x.data.agentDid ∧ x.data.agentDid ∉ rows.map (·.agentDid)
          ∧ (∃ row ∈ s.rows, row.id = saved.id ∧ row.agentDid = saved.agentDid)
          ∧ ∀ (j : ℕ) (y : Call) (other : Agent), s.calls[j]? = some y →
            y.decided = some (.ok other) → y.data.agentDid = x.data.agentDid → j = i)
      ∧ ∀ (i : ℕ) (x : Call) (status : ℕ), s.calls[i]? = some x →
        x.decided = some (.error status) →
        (status = 403 ∧ verifyDidController cfg.recover x.data.toRegistrationClaim
            x.data.ownerSignature = false)
          ∨ (status = 400 ∧ x.data.status = .null)
          ∨ (status = 409 ∧ (x.data.agentDid ∈ s.rows.map (·.agentDid)
            ∨ ∃ id, ⟨some i, .register x.data id, .error 409⟩ ∈ s.order
              ∧ id ∈ s.rows.map (·.id))) := by
  have inv := inv_run (inv_initial rows) h
  have hexplained := explained hids hdids (explains_rows h)
  refine ⟨hexplained.nodup, fun i x saved hx hdecided => ?_, fun i x status hx hdecided => ?_⟩
  · obtain ⟨id, hentry⟩ := inv.entry hx hdecided
    obtain ⟨hdid, hrow⟩ := hexplained.told _ hentry
    have hnodup := hexplained.nodup
    rw [hexplained.dids] at hnodup
    obtain ⟨-, hfresh, hdisjoint⟩ := List.nodup_append.mp hnodup
    have hmem : x.data.agentDid ∈ s.order.filterMap registeredDid :=
      List.mem_filterMap.mpr ⟨_, hentry, rfl⟩
    refine ⟨hdid, fun hold => hdisjoint _ hold _ hmem rfl, hrow, ?_⟩
    intro j y other hy hyDecided hsame
    obtain ⟨id', hentry'⟩ := inv.entry hy hyDecided
    have heq := eq_of_nodup_filterMap hfresh hentry' hentry (v := y.data.agentDid) rfl
      (congrArg some hsame.symm)
    exact Option.some.inj (congrArg Entry.call heq)
  · obtain ⟨id, hentry⟩ := inv.entry hx hdecided
    rcases hexplained.told _ hentry with h403 | h400 | ⟨rfl, htaken⟩
    · exact .inl h403
    · exact .inr (.inl h400)
    · refine .inr (.inr ⟨rfl, htaken.imp_right fun hid => ⟨id, hentry, hid⟩⟩)

open RegistryMirror (sampleRegistration sampleConfig)

theorem did_registered_once_racing : ∃ s,
    run (step sampleConfig) ⟨[], [], []⟩ racing = some s
      ∧ (s.rows.map (·.agentDid)).Nodup
      ∧ (∀ (i : ℕ) (x : Call) (saved : Agent), s.calls[i]? = some x →
        x.decided = some (.ok saved) →
        saved.agentDid = x.data.agentDid ∧ x.data.agentDid ∉ ([] : List Agent).map (·.agentDid)
          ∧ (∃ row ∈ s.rows, row.id = saved.id ∧ row.agentDid = saved.agentDid)
          ∧ ∀ (j : ℕ) (y : Call) (other : Agent), s.calls[j]? = some y →
            y.decided = some (.ok other) → y.data.agentDid = x.data.agentDid → j = i)
      ∧ ∀ (i : ℕ) (x : Call) (status : ℕ), s.calls[i]? = some x →
        x.decided = some (.error status) →
        (status = 403 ∧ verifyDidController sampleRecover x.data.toRegistrationClaim
            x.data.ownerSignature = false)
          ∨ (status = 400 ∧ x.data.status = .null)
          ∨ (status = 409 ∧ (x.data.agentDid ∈ s.rows.map (·.agentDid)
            ∨ ∃ id, ⟨some i, .register x.data id, .error 409⟩ ∈ s.order
              ∧ id ∈ s.rows.map (·.id))) := by
  have hsome : (run (step sampleConfig) ⟨[], [], []⟩ racing).isSome = true := by decide +kernel
  obtain ⟨s, hs⟩ := Option.isSome_iff_exists.mp hsome
  have hids : (([] : List Agent).map (·.id)).Nodup := List.nodup_nil
  have hdids : (([] : List Agent).map (·.agentDid)).Nodup := List.nodup_nil
  exact ⟨s, hs, did_registered_once hids hdids hs⟩

end A2aAgentLayer.Identity.ConcurrentRegistrations
