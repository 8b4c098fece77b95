import A2aAgentLayer.Common.RequestPipeline
import A2aAgentLayer.Identity.RegistryMirror
import A2aAgentLayer.Lib.Linearize

/-!
# Registrations that overlap

`register` verifies the signature, asks the table for the DID, inserts the row and then waits for
the registry.  Calls overlap between these steps, and other calls save rows that are in the table.
Two registrations of one DID can both find it free; then the unique constraint refuses the second.

The order in which registrations take effect is bookkeeping: nobody reads it.
-/

namespace A2aAgentLayer.Identity.ConcurrentRegistrations

open A2aAgentLayer.Lib.Utf16 A2aAgentLayer.Lib.JsObject A2aAgentLayer.Lib.Run
open A2aAgentLayer.Lib.Linearize
open A2aAgentLayer.Common.RequestPipeline (Exception mapped)
open A2aAgentLayer.Identity.DidController A2aAgentLayer.Identity.AgentRows
open A2aAgentLayer.Identity.IdentityService

/-! ### What is thrown -/

def forbidden : Exception :=
  let message := js "ownerSignature does not prove control of the claimed owner address"
  .http 403 (.object (some (.one message)) (some (js "Forbidden"))) message
    (js "ForbiddenException")

def conflict (did : JsString) : Exception :=
  let message := js "Agent " ++ did ++ js " is already registered"
  .http 409 (.object (some (.one message)) (some (js "Conflict"))) message (js "ConflictException")

/-- The error of an insert that the table refuses: `NOT NULL` is checked before what is unique. -/
def insertError (data : RegisterAgentDto) (constraint : Option JsString) (message : JsString) :
    Exception :=
  if data.status = .null then .queryFailed (some (js "23502")) none message
  else .queryFailed (some (js "23505")) constraint message

/-! ### The calls -/

inductive Phase where
  /-- `findOneBy` is under way. -/
  | finding
  /-- `save` is under way. -/
  | saving
  /-- The row is there, and the registry has the transaction. -/
  | registering (saved : Agent)
  | answered (answer : Except Exception Agent)

structure Call where
  data : RegisterAgentDto
  phase : Phase

/-- What a sequential table is asked for. -/
inductive Operation where
  | register (data : RegisterAgentDto) (id : JsString)
  | edit (saved : Agent)

/-- The answer of a registration: the row, or the status that is sent for the exception. -/
abbrev Answer := Except ℕ Agent

structure State where
  rows : List Agent
  calls : List Call
  order : List (Entry Operation Answer)

inductive Event where
  | register (data : RegisterAgentDto)
  /-- The query of a call has its answer. -/
  | found (call : ℕ)
  /-- The database takes or refuses the row of a call; `id` is the one it generates. -/
  | inserted (call : ℕ) (id : JsString) (constraint : Option JsString) (message : JsString)
  /-- The transaction of a call was mined, or failed for good; an error is logged only. -/
  | registered (call : ℕ)
  /-- `update` or `deactivate` saves a row, under the id and the DID of the row that it read. -/
  | edit (saved : Agent)

def answerOf (answer : Except Exception Agent) : Answer := answer.mapError Exception.sent

def State.arrive (s : State) (data : RegisterAgentDto) (phase : Phase) : State :=
  { s with calls := s.calls ++ [⟨data, phase⟩] }

def State.setPhase (s : State) (call : ℕ) (data : RegisterAgentDto) (phase : Phase) : State :=
  { s with calls := s.calls.set call ⟨data, phase⟩ }

def State.takes (s : State) (call : ℕ) (data : RegisterAgentDto) (id : JsString) (answer : Answer) :
    State :=
  { s with order := s.order ++ [⟨some call, .register data id, answer⟩] }

/-- The table refuses the row of a call; what a `null` makes of it was settled before. -/
def State.refuse (s : State) (call : ℕ) (data : RegisterAgentDto) (id : JsString)
    (error : Exception) : State :=
  let t := s.setPhase call data (.answered (.error error))
  if data.status = .null then t else t.takes call data id (.error error.sent)

variable {Digest : Type} (cfg : Config Digest)

def step (s : State) : Event → Option State
  | .register data =>
      if !verifyDidController cfg.recover data.toRegistrationClaim data.ownerSignature then
        some ((s.arrive data (.answered (.error forbidden))).takes s.calls.length data []
          (.error forbidden.sent))
      else some (s.arrive data .finding)
  | .found i =>
      match s.calls[i]? with
      | some ⟨data, .finding⟩ =>
          if (findByDid s.rows data.agentDid).isSome then
            some ((s.setPhase i data (.answered (.error (conflict data.agentDid)))).takes i data []
              (.error (conflict data.agentDid).sent))
          -- a `null` is refused whatever the table holds by then
          else if data.status = .null then
            some ((s.setPhase i data .saving).takes i data [] (.error 400))
          else some (s.setPhase i data .saving)
      | _ => none
  | .inserted i id constraint message =>
      match s.calls[i]? with
      | some ⟨data, .saving⟩ =>
          match insert s.rows (create data id) with
          | none => some (s.refuse i data id (insertError data constraint message))
          | some saved =>
              some { (s.setPhase i data (if cfg.registryAddress ≠ [] then .registering saved
                  else .answered (.ok saved))).takes i data id (.ok saved) with
                rows := s.rows ++ [saved] }
      | _ => none
  | .registered i =>
      match s.calls[i]? with
      | some ⟨data, .registering saved⟩ => some (s.setPhase i data (.answered (.ok saved)))
      | _ => none
  | .edit saved =>
      if s.rows.any fun row => row.id = saved.id ∧ row.agentDid = saved.agentDid then
        some
          { s with
            rows := replace s.rows saved
            order := s.order ++ [⟨none, .edit saved, .ok saved⟩] }
      else none

/-! ### One call after another -/

variable [DecidableEq Digest]

/-- The status that is sent for what `register` throws. -/
def statusOf (data : RegisterAgentDto) : ServiceError → ℕ
  | .forbidden _ => 403
  | .conflict _ => 409
  | .notFound _ => 404
  | .database => if data.status = .null then 400 else 409

/-- The table as a sequential object: `register` with its registry left out, and a row that is there
saved again. -/
def apply (rows : List Agent) : Operation → Answer × List Agent
  | .register data id =>
      match IdentityService.register { cfg with registryAddress := [] } ⟨rows, fun _ => .zero⟩ data
          id 0 with
      | .ok (saved, t) => (.ok saved, t.rows)
      | .error e => (.error (statusOf data e), rows)
  | .edit saved =>
      if rows.any fun row => row.id = saved.id ∧ row.agentDid = saved.agentDid then
        (.ok saved, replace rows saved)
      else (.error 404, rows)

/-- What is settled about the answer of a call. -/
def Call.decided (call : Call) : Option Answer :=
  match call.phase with
  | .finding => none
  | .saving => if call.data.status = .null then some (.error 400) else none
  | .registering saved => some (.ok saved)
  | .answered answer => some (answerOf answer)

/-! ### What the sequential table answers -/

theorem isSome_findByDid {rows : List Agent} {did : JsString} :
    (findByDid rows did).isSome = true ↔ did ∈ rows.map (·.agentDid) := by
  rw [findByDid, List.find?_isSome, List.mem_map]
  simp only [decide_eq_true_eq]

/-- A new id and a new DID are taken. -/
theorem exists_insert {rows : List Agent} {data : RegisterAgentDto} {id : JsString}
    (hnull : data.status ≠ .null) (hid : id ∉ rows.map (·.id))
    (hdid : data.agentDid ∉ rows.map (·.agentDid)) :
    ∃ saved, insert rows (create data id) = some saved := by
  have hany : ¬ rows.any (fun row => row.id = (create data id).id
      ∨ row.agentDid = (create data id).agentDid) = true := by
    simp only [List.any_eq_true, decide_eq_true_eq, not_exists, not_and, not_or]
    exact fun row hrow => ⟨fun heq => hid (List.mem_map.mpr ⟨row, hrow, heq⟩),
      fun heq => hdid (List.mem_map.mpr ⟨row, hrow, heq⟩)⟩
  obtain ⟨status, hstatus⟩ := assignField_isSome .active hnull
  refine ⟨⟨id, data.agentDid, toLowerCase data.owner, data.publicKey, data.endpoint, status⟩, ?_⟩
  rw [IdentityService.insert, if_neg hany]
  simp only [create, hstatus]
  rfl

/-- A status that is `null` is refused by every table. -/
theorem insert_of_null {data : RegisterAgentDto} (h : data.status = .null) (rows : List Agent)
    (id : JsString) : insert rows (create data id) = none := by
  rw [IdentityService.insert, create, h]
  split_ifs <;> rfl

theorem insertError_sent (data : RegisterAgentDto) (constraint : Option JsString)
    (message : JsString) :
    (insertError data constraint message).sent = if data.status = .null then 400 else 409 := by
  rw [insertError]
  split_ifs <;> rfl

section Apply

variable {cfg} {data : RegisterAgentDto}

theorem apply_unverified (rows : List Agent) (id : JsString)
    (h : verifyDidController cfg.recover data.toRegistrationClaim data.ownerSignature = false) :
    apply cfg rows (.register data id) = (.error 403, rows) := by
  simp only [apply, IdentityService.register, h, Bool.not_false, if_true]
  rfl

theorem apply_taken {rows : List Agent} (id : JsString)
    (h : verifyDidController cfg.recover data.toRegistrationClaim data.ownerSignature = true)
    (htaken : data.agentDid ∈ rows.map (·.agentDid)) :
    apply cfg rows (.register data id) = (.error 409, rows) := by
  simp only [apply, IdentityService.register, h, Bool.not_true, Bool.false_eq_true, if_false,
    isSome_findByDid.mpr htaken, if_true]
  rfl

theorem apply_refused {rows : List Agent} {id : JsString}
    (h : verifyDidController cfg.recover data.toRegistrationClaim data.ownerSignature = true)
    (hfree : data.agentDid ∉ rows.map (·.agentDid))
    (hinsert : insert rows (create data id) = none) :
    apply cfg rows (.register data id)
      = (.error (if data.status = .null then 400 else 409), rows) := by
  have hfind : (findByDid rows data.agentDid).isSome = false :=
    Bool.eq_false_iff.mpr (mt isSome_findByDid.mp hfree)
  simp only [apply, IdentityService.register, h, Bool.not_true, Bool.false_eq_true, if_false, hfind,
    hinsert]
  rfl

theorem apply_inserted {rows : List Agent} {id : JsString} {saved : Agent}
    (h : verifyDidController cfg.recover data.toRegistrationClaim data.ownerSignature = true)
    (hinsert : insert rows (create data id) = some saved) :
    apply cfg rows (.register data id) = (.ok saved, rows ++ [saved]) := by
  have hfree : data.agentDid ∉ rows.map (·.agentDid) := (insert_eq_some hinsert).2.1
  have hfind : (findByDid rows data.agentDid).isSome = false :=
    Bool.eq_false_iff.mpr (mt isSome_findByDid.mp hfree)
  simp only [apply, IdentityService.register, h, Bool.not_true, Bool.false_eq_true, if_false, hfind,
    hinsert]

end Apply

/-! ### Every step takes effect at once -/

/-- Calls that have got to the table have a signature of their owner. -/
def Ready (call : Call) : Prop :=
  match call.phase with
  | .finding | .saving =>
      verifyDidController cfg.recover call.data.toRegistrationClaim call.data.ownerSignature = true
  | _ => True

/-- What the calls have been told is what the order says. -/
structure Inv (s : State) : Prop where
  ready : ∀ call ∈ s.calls, Ready cfg call
  answers : ∀ i, answersOf i s.order = (s.calls[i]?.bind Call.decided).toList
  asked : ∀ entry ∈ s.order, ∀ i, entry.call = some i →
    ∃ call id, s.calls[i]? = some call ∧ entry.operation = .register call.data id

variable {cfg}

omit [DecidableEq Digest] in
theorem inv_initial (rows : List Agent) : Inv cfg ⟨rows, [], []⟩ where
  ready := fun _ h => absurd h List.not_mem_nil
  answers := fun _ => rfl
  asked := fun _ h => absurd h List.not_mem_nil

variable (cfg) in
/-- What a step can do: a call arrives, or it is turned away, or it goes on without or with its
answer being settled, or a row is saved. -/
inductive Moves (s : State) : State → Prop
  | arrive (data : RegisterAgentDto)
      (hverified : verifyDidController cfg.recover data.toRegistrationClaim data.ownerSignature
        = true) : Moves s { s with calls := s.calls ++ [⟨data, .finding⟩] }
  | turnAway (data : RegisterAgentDto)
      (hverified : verifyDidController cfg.recover data.toRegistrationClaim data.ownerSignature
        = false) :
      Moves s ⟨s.rows, s.calls ++ [⟨data, .answered (.error forbidden)⟩],
        s.order ++ [⟨some s.calls.length, .register data [], .error 403⟩]⟩
  | advance {i : ℕ} {call : Call} (phase : Phase) (hcall : s.calls[i]? = some call)
      (hready : Ready cfg ⟨call.data, phase⟩)
      (hsame : Call.decided ⟨call.data, phase⟩ = call.decided) :
      Moves s { s with calls := s.calls.set i ⟨call.data, phase⟩ }
  | settle {i : ℕ} {call : Call} (phase : Phase) (id : JsString) {answer : Answer}
      {rows : List Agent} (hcall : s.calls[i]? = some call)
      (hready : Ready cfg ⟨call.data, phase⟩) (hnone : call.decided = none)
      (hdecided : Call.decided ⟨call.data, phase⟩ = some answer)
      (happly : apply cfg s.rows (.register call.data id) = (answer, rows)) :
      Moves s ⟨rows, s.calls.set i ⟨call.data, phase⟩,
        s.order ++ [⟨some i, .register call.data id, answer⟩]⟩
  | edit (saved : Agent)
      (happly : apply cfg s.rows (.edit saved) = (.ok saved, replace s.rows saved)) :
      Moves s ⟨replace s.rows saved, s.calls, s.order ++ [⟨none, .edit saved, .ok saved⟩]⟩

section Steps

variable {s t : State}

omit [DecidableEq Digest] in
/-- A call that has got to the table was verified. -/
theorem verified_of_calls {i : ℕ} {data : RegisterAgentDto} {phase : Phase}
    (hs : ∀ call ∈ s.calls, Ready cfg call) (hcall : s.calls[i]? = some ⟨data, phase⟩)
    (hphase : phase = .finding ∨ phase = .saving) :
    verifyDidController cfg.recover data.toRegistrationClaim data.ownerSignature = true := by
  have hready := hs _ (List.mem_of_getElem? hcall)
  rcases hphase with rfl | rfl
  · exact hready
  · exact hready

theorem moves_register {data : RegisterAgentDto} (h : step cfg s (.register data) = some t) :
    Moves cfg s t := by
  rw [step] at h
  split_ifs at h with hverified
  · obtain rfl := Option.some.inj h
    exact .turnAway data (by simpa using hverified)
  · obtain rfl := Option.some.inj h
    exact .arrive data (by simpa using hverified)

/-- The query finds the DID, and the call is refused, or does not, and the call goes on to save. -/
theorem moves_found {i : ℕ} (hs : ∀ call ∈ s.calls, Ready cfg call)
    (h : step cfg s (.found i) = some t) : Moves cfg s t := by
  rw [step] at h
  split at h
  · next data hcall =>
      have hready := verified_of_calls hs hcall (.inl rfl)
      split_ifs at h with hfound hnull
      · obtain rfl := Option.some.inj h
        exact .settle _ [] hcall trivial rfl rfl
          (apply_taken [] hready (isSome_findByDid.mp hfound))
      · obtain rfl := Option.some.inj h
        refine .settle _ [] hcall hready rfl (if_pos hnull) ?_
        rw [apply_refused hready (mt isSome_findByDid.mpr hfound) (insert_of_null hnull _ _),
          if_pos hnull]
        rfl
      · obtain rfl := Option.some.inj h
        exact .advance _ hcall hready (if_neg hnull)
  · cases h

/-- The table refuses a row.  A `null` was settled before. -/
theorem moves_refuse {i : ℕ} {id : JsString} {data : RegisterAgentDto}
    {constraint : Option JsString} {message : JsString}
    (hcall : s.calls[i]? = some ⟨data, .saving⟩) (hs : ∀ call ∈ s.calls, Ready cfg call)
    (hinsert : insert s.rows (create data id) = none) :
    Moves cfg s (s.refuse i data id (insertError data constraint message)) := by
  have hready := verified_of_calls hs hcall (.inr rfl)
  have hsent := insertError_sent data constraint message
  by_cases hnull : data.status = .null
  · rw [State.refuse, if_pos hnull]
    rw [if_pos hnull] at hsent
    refine .advance _ hcall trivial ?_
    show some (Except.error (insertError data constraint message).sent) = _
    rw [hsent]
    exact (if_pos hnull).symm
  · rw [State.refuse, if_neg hnull]
    refine .settle _ id hcall trivial (if_neg hnull) rfl ?_
    show _ = (Except.error (insertError data constraint message).sent, s.rows)
    rw [hsent]
    by_cases htaken : data.agentDid ∈ s.rows.map (·.agentDid)
    · rw [apply_taken id hready htaken, if_neg hnull]
    · rw [apply_refused hready htaken hinsert]

theorem moves_inserted {i : ℕ} {id : JsString} {constraint : Option JsString} {message : JsString}
    (hs : ∀ call ∈ s.calls, Ready cfg call)
    (h : step cfg s (.inserted i id constraint message) = some t) : Moves cfg s t := by
  rw [step] at h
  split at h
  · next data hcall =>
      split at h
      · next hinsert =>
          obtain rfl := Option.some.inj h
          exact moves_refuse hcall hs hinsert
      · next saved hinsert =>
          obtain rfl := Option.some.inj h
          have hnull : data.status ≠ .null := fun hnull => by
            rw [insert_of_null hnull] at hinsert
            cases hinsert
          have happly := apply_inserted (verified_of_calls hs hcall (.inr rfl)) hinsert
          split_ifs
          · exact .settle _ id hcall trivial (if_neg hnull) rfl happly
          · exact .settle _ id hcall trivial (if_neg hnull) rfl happly
  · cases h

theorem moves_registered {i : ℕ} (h : step cfg s (.registered i) = some t) : Moves cfg s t := by
  rw [step] at h
  split at h
  · next data saved hcall =>
      obtain rfl := Option.some.inj h
      exact .advance _ hcall trivial rfl
  · cases h

theorem moves_edit {saved : Agent} (h : step cfg s (.edit saved) = some t) : Moves cfg s t := by
  rw [step] at h
  split_ifs at h with hrow
  obtain rfl := Option.some.inj h
  exact .edit saved (if_pos hrow)

/-- **Every step is one of the moves.** -/
theorem step_moves {e : Event} (hs : ∀ call ∈ s.calls, Ready cfg call)
    (h : step cfg s e = some t) : Moves cfg s t := by
  cases e with
  | register data => exact moves_register h
  | found i => exact moves_found hs h
  | inserted i id constraint message => exact moves_inserted hs h
  | registered i => exact moves_registered h
  | edit saved => exact moves_edit h

end Steps

theorem Moves.takesEffect {s t : State} (h : Moves cfg s t) :
    TakesEffect (apply cfg) s.rows s.order t.rows t.order := by
  cases h with
  | arrive data hverified => exact .silent
  | turnAway data hverified =>
      exact .operation
        (⟨some s.calls.length, .register data [], .error 403⟩ : Entry Operation Answer)
        (apply_unverified s.rows [] hverified)
  | @advance i call phase hcall hready hsame => exact .silent
  | @settle i call phase id answer rows hcall hready hnone hdecided happly =>
      exact .operation (⟨some i, .register call.data id, answer⟩ : Entry Operation Answer) happly
  | edit saved happly =>
      exact .operation (⟨none, .edit saved, .ok saved⟩ : Entry Operation Answer) happly

theorem bind_concat (calls : List Call) (call : Call) (i : ℕ) :
    (calls ++ [call])[i]?.bind Call.decided
      = if calls.length = i then call.decided else calls[i]?.bind Call.decided := by
  split_ifs with h
  · rw [← h, List.getElem?_concat_length, Option.bind_some]
  · rcases Nat.lt_or_gt_of_ne h with hlt | hgt
    · rw [List.getElem?_eq_none (by simp; omega), List.getElem?_eq_none (by omega)]
    · rw [List.getElem?_append_left hgt]

theorem bind_set {calls : List Call} {i : ℕ} {old : Call} (hcall : calls[i]? = some old)
    (call : Call) (j : ℕ) :
    (calls.set i call)[j]?.bind Call.decided
      = if i = j then call.decided else calls[j]?.bind Call.decided := by
  obtain ⟨hi, -⟩ := List.getElem?_eq_some_iff.mp hcall
  split_ifs with h
  · rw [← h, List.getElem?_set_self hi, Option.bind_some]
  · rw [List.getElem?_set_ne h]

/-- A call keeps what it was asked for. -/
theorem asked_set {calls : List Call} {i : ℕ} {call : Call} (hcall : calls[i]? = some call)
    (phase : Phase) {j : ℕ} {operation : Operation}
    (h : ∃ call id, calls[j]? = some call ∧ operation = .register call.data id) :
    ∃ later id, (calls.set i ⟨call.data, phase⟩)[j]? = some later
      ∧ operation = .register later.data id := by
  obtain ⟨other, id, hother, rfl⟩ := h
  by_cases hij : i = j
  · subst hij
    obtain rfl := Option.some.inj (hcall.symm.trans hother)
    obtain ⟨hi, -⟩ := List.getElem?_eq_some_iff.mp hcall
    exact ⟨_, id, List.getElem?_set_self hi, rfl⟩
  · exact ⟨other, id, by rw [List.getElem?_set_ne hij]; exact hother, rfl⟩

theorem asked_concat {calls : List Call} (call : Call) {j : ℕ} {operation : Operation}
    (h : ∃ call id, calls[j]? = some call ∧ operation = .register call.data id) :
    ∃ later id, (calls ++ [call])[j]? = some later ∧ operation = .register later.data id := by
  obtain ⟨other, id, hother, rfl⟩ := h
  exact ⟨other, id, getElem?_concat_eq_some.mpr (.inl hother), rfl⟩

/-- **One step.** -/
theorem Inv.moves {s t : State} (inv : Inv cfg s) (h : Moves cfg s t) : Inv cfg t := by
  cases h with
  | arrive data hverified =>
      refine ⟨fun call hcall => ?_, fun i => ?_, fun entry hentry i hi =>
        asked_concat _ (inv.asked entry hentry i hi)⟩
      · rcases List.mem_append.mp hcall with hcall | hcall
        · exact inv.ready call hcall
        · obtain rfl := List.mem_singleton.mp hcall
          exact hverified
      · rw [bind_concat]
        split_ifs with hi
        · rw [inv.answers, ← hi, List.getElem?_eq_none (Nat.le_refl _)]
          rfl
        · exact inv.answers i
  | turnAway data hverified =>
      refine ⟨fun call hcall => ?_, fun i => ?_, fun entry hentry i hi => ?_⟩
      · rcases List.mem_append.mp hcall with hcall | hcall
        · exact inv.ready call hcall
        · obtain rfl := List.mem_singleton.mp hcall
          trivial
      · rw [answersOf_concat, bind_concat, inv.answers]
        simp only [Option.some.injEq]
        split_ifs with hi
        · rw [← hi, List.getElem?_eq_none (Nat.le_refl _)]
          rfl
        · exact List.append_nil _
      · rcases List.mem_append.mp hentry with hentry | hentry
        · exact asked_concat _ (inv.asked entry hentry i hi)
        · obtain rfl := List.mem_singleton.mp hentry
          obtain rfl := Option.some.inj hi
          exact ⟨_, [], List.getElem?_concat_length, rfl⟩
  | @advance i call phase hcall hready hsame =>
      refine ⟨fun other hother => ?_, fun j => ?_, fun entry hentry j hj =>
        asked_set hcall phase (inv.asked entry hentry j hj)⟩
      · rcases List.mem_or_eq_of_mem_set hother with hother | rfl
        · exact inv.ready other hother
        · exact hready
      · rw [inv.answers, bind_set hcall]
        split_ifs with hij
        · rw [← hij, hcall, hsame, Option.bind_some]
        · rfl
  | @settle i call phase id answer rows hcall hready hnone hdecided happly =>
      refine ⟨fun other hother => ?_, fun j => ?_, fun entry hentry j hj => ?_⟩
      · rcases List.mem_or_eq_of_mem_set hother with hother | rfl
        · exact inv.ready other hother
        · exact hready
      · rw [answersOf_concat, bind_set hcall, inv.answers]
        simp only [Option.some.injEq]
        split_ifs with hij
        · rw [← hij, hcall, Option.bind_some, hnone, hdecided]
          rfl
        · exact List.append_nil _
      · rcases List.mem_append.mp hentry with hentry | hentry
        · exact asked_set hcall phase (inv.asked entry hentry j hj)
        · obtain rfl := List.mem_singleton.mp hentry
          obtain rfl := Option.some.inj hj
          obtain ⟨hi, -⟩ := List.getElem?_eq_some_iff.mp hcall
          exact ⟨_, id, List.getElem?_set_self hi, rfl⟩
  | edit saved happly =>
      refine ⟨inv.ready, fun i => ?_, fun entry hentry i hi => ?_⟩
      · rw [answersOf_concat, if_neg nofun, List.append_nil]
        exact inv.answers i
      · rcases List.mem_append.mp hentry with hentry | hentry
        · exact inv.asked entry hentry i hi
        · obtain rfl := List.mem_singleton.mp hentry
          cases hi

theorem inv_run {s t : State} {es : List Event} (inv : Inv cfg s)
    (h : run (step cfg) s es = some t) : Inv cfg t :=
  run_invariant (step cfg) (fun _ _ _ inv hstep => inv.moves (step_moves inv.ready hstep)) inv h

theorem explains_rows {rows : List Agent} {es : List Event} {s : State}
    (h : run (step cfg) ⟨rows, [], []⟩ es = some s) : Explains (apply cfg) rows s.order s.rows :=
  explains_run (fun _ _ _ inv hstep => inv.moves (step_moves inv.ready hstep))
    (fun _ _ _ inv hstep => (step_moves inv.ready hstep).takesEffect) (inv_initial rows) h .nil

/-- Whatever happens next, the order only grows. -/
theorem order_grows {s t : State} {es : List Event} (inv : Inv cfg s)
    (h : run (step cfg) s es = some t) : s.order <+: t.order := by
  have hnext : ∀ m e m', Inv cfg m ∧ s.order <+: m.order → step cfg m e = some m' →
      Inv cfg m' ∧ s.order <+: m'.order := by
    rintro m e m' ⟨hm, hgrown⟩ hstep
    have hmoves := step_moves hm.ready hstep
    exact ⟨hm.moves hmoves, hgrown.trans hmoves.takesEffect.grows⟩
  exact (run_invariant (step cfg) hnext ⟨inv, List.prefix_rfl⟩ h).2

open RegistryMirror (sampleRegistration sampleConfig)

/-- Two registrations of one DID, the second one while the first is still to be inserted. -/
def racing : List Event :=
  [ .register sampleRegistration, .register sampleRegistration, .found 0, .found 1,
    .inserted 0 (js "5c1f") none [], .inserted 1 (js "77aa") (some (js "agents_agentDid_key")) [],
    .registered 0 ]

/-- **Registrations take effect one after another.**  However calls of `register` overlap with each
other and with rows being saved, one order of the calls explains what each of them was told (up to
the exception behind a status) and the table: `register` called in that order would have said the
same.  A call has its place in the order from the moment its answer is settled, and a call that was
answered before another arrived comes before it. -/
theorem registrations_linearize {rows : List Agent} {es : List Event} {s : State}
    (h : run (step cfg) ⟨rows, [], []⟩ es = some s) :
    Explains (apply cfg) rows s.order s.rows
      ∧ (∀ i, answersOf i s.order = (s.calls[i]?.bind Call.decided).toList)
      ∧ (∀ entry ∈ s.order, ∀ i, entry.call = some i →
        ∃ call id, s.calls[i]? = some call ∧ entry.operation = .register call.data id)
      ∧ ∀ es₁ es₂ m, es = es₁ ++ es₂ → run (step cfg) ⟨rows, [], []⟩ es₁ = some m →
        ∃ later, s.order = m.order ++ later
          ∧ (∀ i call answer, m.calls[i]? = some call → call.phase = .answered answer →
            answersOf i later = [])
          ∧ ∀ j, m.calls.length ≤ j → answersOf j m.order = [] := by
  have inv := inv_run (inv_initial rows) h
  refine ⟨explains_rows h, inv.answers, inv.asked, ?_⟩
  rintro es₁ es₂ m rfl hm
  have hinv := inv_run (inv_initial rows) hm
  obtain ⟨m', hm', hrest⟩ := (run_append_eq_some (step cfg)).mp h
  obtain rfl := Option.some.inj (hm.symm.trans hm')
  obtain ⟨later, hlater⟩ := order_grows hinv hrest
  refine ⟨later, hlater.symm, fun i call answer hcall hphase => ?_, fun j hj => ?_⟩
  · -- a call has one entry at most, and it has it already
    have hsome : answersOf i m.order = [answerOf answer] := by
      rw [hinv.answers, hcall, Option.bind_some, Call.decided, hphase]
      rfl
    have hall := inv.answers i
    rw [← hlater, answersOf_append, hsome] at hall
    have hlength := congrArg List.length hall
    rw [List.length_append, List.length_singleton] at hlength
    have hone : (s.calls[i]?.bind Call.decided).toList.length ≤ 1 := by
      cases s.calls[i]?.bind Call.decided <;> simp
    exact List.length_eq_zero_iff.mp (by omega)
  · rw [hinv.answers, List.getElem?_eq_none hj]
    rfl

theorem registrations_linearize_racing : ∃ s,
    run (step sampleConfig) ⟨[], [], []⟩ racing = some s
      ∧ s.calls.map Call.decided
        = [some (.ok ⟨js "5c1f", sampleRegistration.agentDid, toLowerCase sampleRegistration.owner,
          sampleRegistration.publicKey, sampleRegistration.endpoint, .active⟩), some (.error 409)]
      ∧ Explains (apply sampleConfig) [] s.order s.rows
      ∧ (∀ i, answersOf i s.order = (s.calls[i]?.bind Call.decided).toList)
      ∧ (∀ entry ∈ s.order, ∀ i, entry.call = some i →
        ∃ call id, s.calls[i]? = some call ∧ entry.operation = .register call.data id)
      ∧ ∀ es₁ es₂ m, racing = es₁ ++ es₂ → run (step sampleConfig) ⟨[], [], []⟩ es₁ = some m →
        ∃ later, s.order = m.order ++ later
          ∧ (∀ i call answer, m.calls[i]? = some call → call.phase = .answered answer →
            answersOf i later = [])
          ∧ ∀ j, m.calls.length ≤ j → answersOf j m.order = [] := by
  have hcalls : (run (step sampleConfig) ⟨[], [], []⟩ racing).map
      (fun s => s.calls.map Call.decided)
      = some [some (.ok ⟨js "5c1f", sampleRegistration.agentDid,
          toLowerCase sampleRegistration.owner, sampleRegistration.publicKey,
          sampleRegistration.endpoint, .active⟩), some (.error 409)] := by decide +kernel
  obtain ⟨s, hs, hdecided⟩ := Option.map_eq_some_iff.mp hcalls
  exact ⟨s, hs, hdecided, registrations_linearize hs⟩

end A2aAgentLayer.Identity.ConcurrentRegistrations
