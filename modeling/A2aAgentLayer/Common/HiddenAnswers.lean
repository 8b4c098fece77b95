import A2aAgentLayer.Common.ServedRequests

/-!
# What the answers hide

Two histories of requests that differ only in what the exception filters hide are answered alike.
The two runs go on side by side, and every pair of exchanges stays related.
-/

namespace A2aAgentLayer.Common.RequestPipeline

open A2aAgentLayer.Lib.Utf16 A2aAgentLayer.Lib.JsText A2aAgentLayer.Lib.Run
open A2aAgentLayer.Lib.Instances A2aAgentLayer.Common.RequestHeaders

/-! ### What clients do not learn -/

/-- Two exceptions that clients cannot tell apart: a client never sees the message of a database
error, or the code of one that is not mapped, and in production no message of a server error. -/
inductive Alike (isProd : Bool) : Exception → Exception → Prop
  | same (e : Exception) : Alike isProd e e
  | text {status : ℕ} (hprod : isProd = true) (hstatus : 500 ≤ status)
      (value value' message message' name name' : JsString) :
      Alike isProd (.http status (.text value) message name)
        (.http status (.text value') message' name')
  | object {status : ℕ} (hprod : isProd = true) (hstatus : 500 ≤ status)
      (shown shown' : Option Message) (error : Option JsString) (message message' name : JsString) :
      Alike isProd (.http status (.object shown error) message name)
        (.http status (.object shown' error) message' name)
  | error (hprod : isProd = true) (message message' name : JsString) (status status' : Option ℕ) :
      Alike isProd (.error message name status) (.error message' name status')
  | thrown (status status' : Option ℕ) : Alike isProd (.thrown status) (.thrown status')
  | entityNotFound (message message' : JsString) :
      Alike isProd (.entityNotFound message) (.entityNotFound message')
  | queryFailed (code constraint : Option JsString) (message message' : JsString) :
      Alike isProd (.queryFailed code constraint message) (.queryFailed code constraint message')
  | unmapped {code code' : Option JsString} (hcode : mapped code = none)
      (hcode' : mapped code' = none) (constraint constraint' : Option JsString)
      (message message' : JsString) :
      Alike isProd (.queryFailed code constraint message) (.queryFailed code' constraint' message')
  | typeorm (message message' : JsString) : Alike isProd (.typeorm message) (.typeorm message')

theorem Alike.answer {isProd : Bool} {e e' : Exception} (h : Alike isProd e e') (request : Request)
    (requestId : JsString) (now : ℤ) :
    (filtered isProd request requestId now e).1 = (filtered isProd request requestId now e').1 := by
  -- the message of a server error is replaced in production
  have hserver : ∀ e e', (describe e).1 = (describe e').1 → (describe e).2.1 = (describe e').2.1 →
      500 ≤ (describe e).1 → isProd = true →
      (allExceptionsFilter isProd request requestId now e).1
        = (allExceptionsFilter isProd request requestId now e').1 := by
    intro e e' hstatus herror hserver hprod
    have hshown : ((describe e).1 ≥ 500 && isProd) = true := by simp [hserver, hprod]
    simp only [allExceptionsFilter]
    rw [if_pos hshown, if_pos (hstatus ▸ hshown), hstatus, herror]
  cases h with
  | same => rfl
  | text hprod hstatus => exact hserver (.http ..) (.http ..) rfl rfl hstatus hprod
  | object hprod hstatus => exact hserver (.http ..) (.http ..) rfl rfl hstatus hprod
  | error hprod => exact hserver (.error ..) (.error ..) rfl rfl (Nat.le_refl _) hprod
  | thrown => rfl
  | entityNotFound => rfl
  | queryFailed code =>
      simp only [filtered]
      cases mapped code <;> rfl
  | unmapped hcode hcode' =>
      simp only [filtered, hcode, hcode']
      rfl
  | typeorm => rfl

/-- Events that differ in what clients do not learn: log texts, durations, the caller's identity and
exceptions that are alike. -/
inductive AlikeEvents (isProd : Bool) : Event → Event → Prop
  | write (text text' : JsString) : AlikeEvents isProd (.write text) (.write text')
  | reject {e e' : Exception} (h : Alike isProd e e') (now : ℤ) :
      AlikeEvents isProd (.reject e now) (.reject e' now)
  | enter (user user' : Option User) (statusCode : ℕ) (now now' : ℤ) :
      AlikeEvents isProd (.enter user statusCode now) (.enter user' statusCode now')
  | «return» (now now' : ℤ) : AlikeEvents isProd (.return now) (.return now')
  | throw {e e' : Exception} (h : Alike isProd e e') (now : ℤ) :
      AlikeEvents isProd (.throw e now) (.throw e' now)

inductive AlikePhases : Phase → Phase → Prop
  | arrived : AlikePhases .arrived .arrived
  | handling (user user' : Option User) (statusCode : ℕ) (startedAt startedAt' : ℤ) :
      AlikePhases (.handling user statusCode startedAt) (.handling user' statusCode startedAt')
  | answered (outcome outcome' : Outcome) (response : Response) :
      AlikePhases (.answered outcome response) (.answered outcome' response)

/-- Exchanges that look the same from outside. -/
structure AlikeExchanges (x x' : Exchange) : Prop where
  request : x.request = x'.request
  requestId : x.requestId = x'.requestId
  phase : AlikePhases x.phase x'.phase

theorem alike_step {isProd : Bool} {x x' : Exchange} {e e' : Event}
    {y : Exchange × List Written} (hx : AlikeExchanges x x') (he : AlikeEvents isProd e e')
    (h : step isProd x e = some y) :
    ∃ y', step isProd x' e' = some y' ∧ AlikeExchanges y.1 y'.1 := by
  obtain ⟨request, requestId, phase⟩ := x
  obtain ⟨request', requestId', phase'⟩ := x'
  obtain ⟨rfl, rfl, hphase⟩ := hx
  cases he with
  | write text text' =>
      obtain rfl := Option.some.inj h
      exact ⟨_, rfl, rfl, rfl, hphase⟩
  | reject halike now =>
      cases hphase with
      | arrived =>
          obtain rfl := Option.some.inj h
          refine ⟨_, rfl, rfl, rfl, ?_⟩
          simp only [halike.answer request requestId now]
          exact .answered _ _ _
      | handling => cases h
      | answered => cases h
  | enter user user' statusCode now now' =>
      cases hphase with
      | arrived =>
          obtain rfl := Option.some.inj h
          exact ⟨_, rfl, rfl, rfl, .handling _ _ _ _ _⟩
      | handling => cases h
      | answered => cases h
  | «return» now now' =>
      cases hphase with
      | arrived => cases h
      | handling =>
          obtain rfl := Option.some.inj h
          exact ⟨_, rfl, rfl, rfl, .answered _ _ _⟩
      | answered => cases h
  | throw halike now =>
      cases hphase with
      | arrived => cases h
      | handling =>
          obtain rfl := Option.some.inj h
          refine ⟨_, rfl, rfl, rfl, ?_⟩
          simp only [halike.answer request requestId now]
          exact .answered _ _ _
      | answered => cases h

/-- What a client has received. -/
def Phase.response : Phase → Option Response
  | .answered _ response => some response
  | _ => none

theorem AlikePhases.response {p p' : Phase} (h : AlikePhases p p') : p.response = p'.response := by
  cases h <;> rfl

/-- **Clients learn nothing of what the filters hide.**  Two histories that differ only in log
lines, in callers and in the hidden parts of what is thrown give all clients the same answers. -/
theorem answers_hide {isProd : Bool} {es es' : List (Lib.Instances.Event Arrival Event)}
    (hes : List.Forall₂ (Paired Eq (AlikeEvents isProd)) es es')
    {s : List Exchange × List (ℕ × Written)} (h : run (serve isProd) ([], []) es = some s) :
    ∃ s', run (serve isProd) ([], []) es' = some s'
      ∧ s.1.map (fun x => (x.requestId, x.phase.response))
        = s'.1.map fun x => (x.requestId, x.phase.response) := by
  have hstart : ∀ a a' : Arrival, a = a' → AlikeExchanges (arrive a) (arrive a') := by
    rintro a _ rfl
    exact ⟨rfl, rfl, .arrived⟩
  have hkeeps : ∀ x x' e e' y, AlikeExchanges x x' → AlikeEvents isProd e e' →
      step isProd x e = some y → ∃ y', step isProd x' e' = some y' ∧ AlikeExchanges y.1 y'.1 :=
    fun _ _ _ _ _ hx he hstep => alike_step hx he hstep
  have hnone : List.Forall₂ AlikeExchanges [] [] := .nil
  obtain ⟨s', hrun, hs⟩ := logged_related hstart hkeeps hes ([], []) hnone h
  refine ⟨s', hrun, ?_⟩
  generalize s.1 = xs at hs
  generalize s'.1 = xs' at hs
  induction hs with
  | nil => rfl
  | cons hx _ ih =>
      rw [List.map_cons, List.map_cons, ih, hx.requestId, hx.phase.response]

theorem answers_hide_overlapping :
    ∃ s s', run (serve false) ([], []) (overlapping (js "Key (did)=(did:prom:a) already exists"))
        = some s
      ∧ run (serve false) ([], []) (overlapping (js "Key (did)=(did:prom:b) already exists"))
        = some s'
      ∧ s.1.map (fun x => (x.requestId, x.phase.response))
        = s'.1.map fun x => (x.requestId, x.phase.response) := by
  have halike : List.Forall₂ (Paired Eq (AlikeEvents false))
      (overlapping (js "Key (did)=(did:prom:a) already exists"))
      (overlapping (js "Key (did)=(did:prom:b) already exists")) :=
    .cons (.start rfl) (.cons (.start rfl) (.cons (.act 0 (.enter _ _ _ _ _))
      (.cons (.act 1 (.write _ _)) (.cons (.act 0 (.throw (.queryFailed _ _ _ _) _))
        (.cons (.act 1 (.reject (.same _) _)) (.cons (.act 0 (.write _ _)) .nil))))))
  obtain ⟨s', hrun, hsame⟩ := answers_hide halike rfl
  exact ⟨_, s', rfl, hrun, hsame⟩

end A2aAgentLayer.Common.RequestPipeline
