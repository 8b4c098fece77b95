import A2aAgentLayer.Common.CsrfMiddleware

/-!
# How the CSRF middleware fails

The middleware means to reject with `ForbiddenException` only and to let safe methods through.  It
reads the cookie before it looks at the method, and `decodeURIComponent` throws on a malformed
escape; nothing else in it fails.
-/

namespace A2aAgentLayer.Common.CsrfRejections

open A2aAgentLayer.Lib.Utf16 A2aAgentLayer.Lib.PercentDecoding
open A2aAgentLayer.Common.RequestHeaders A2aAgentLayer.Common.CookieHeader
open A2aAgentLayer.Common.CsrfMiddleware

/-- A request as Node hands it on: several `Cookie` headers arrive joined into one text. -/
structure HttpRequest extends Request where
  oneCookieText : ∀ values, headers (js "cookie") ≠ some (.many values)

/-- The cookie of that name, where the middleware reads it off the header, decodes. -/
def Decodes (name : JsString) (request : Request) : Prop :=
  ∀ header encoded, nonempty (request.cookies.bind fun parsed => parsed name) = none →
    request.headers (js "cookie") = some (.one header) → header.text ≠ [] →
    findCookie name header.text = some encoded → decodeURIComponent encoded ≠ none

/-- `next` is called, or the request is forbidden. -/
def PassedOrForbidden (result : Except Rejection Unit) : Prop :=
  result = .ok () ∨ ∃ message, result = .error (.forbidden message)

variable (env : Env)

theorem check_of_safe {request : Request} (h : safeMethod request.method = true) (now : ℤ)
    (cookieToken : Option JsString) : check env request now cookieToken = .ok () := by
  rw [check, if_pos h]

theorem check_passedOrForbidden (request : Request) (now : ℤ) (cookieToken : Option JsString) :
    PassedOrForbidden (check env request now cookieToken) := by
  unfold check
  split
  · exact .inl rfl
  · split
    · exact .inl rfl
    · split
      · split
        · exact .inr ⟨_, rfl⟩
        · exact .inl rfl
      · exact .inr ⟨_, rfl⟩

/-- Reading the cookie fails only in `decodeURIComponent`. -/
theorem readCookie_cases (request : HttpRequest) (name : JsString) :
    (Decodes name request.toRequest ∧ ∃ value, readCookie request.toRequest name = .ok value)
      ∨ (¬ Decodes name request.toRequest
        ∧ readCookie request.toRequest name = .error .uriError) := by
  unfold readCookie Decodes
  cases hparsed : nonempty (request.cookies.bind fun parsed => parsed name) with
  | some value =>
      refine .inl ⟨?_, _, rfl⟩
      rintro _ _ ⟨⟩
  | none =>
      cases hcookie : request.headers (js "cookie") with
      | none =>
          refine .inl ⟨?_, _, rfl⟩
          rintro _ _ _ ⟨⟩
      | some value =>
          cases value with
          | many values => exact absurd hcookie (request.oneCookieText values)
          | one header =>
              by_cases hempty : header.text = []
              · refine .inl ⟨?_, none, by simp only [if_pos hempty]⟩
                rintro _ _ _ ⟨⟩ hne
                exact absurd hempty hne
              · simp only [if_neg hempty]
                cases hfind : findCookie name header.text with
                | none =>
                    refine .inl ⟨?_, _, rfl⟩
                    rintro _ _ _ ⟨⟩ _ h
                    rw [hfind] at h
                    cases h
                | some encoded =>
                    cases hdecode : decodeURIComponent encoded with
                    | none =>
                        refine .inr ⟨?_, by simp only [hdecode]⟩
                        intro h
                        exact h header encoded trivial rfl hempty hfind hdecode
                    | some value =>
                        refine .inl ⟨?_, some value, by simp only [hdecode]⟩
                        rintro _ other _ ⟨⟩ _ h
                        rw [hfind] at h
                        obtain rfl := Option.some.inj h
                        rw [hdecode]
                        exact Option.some_ne_none value

/-- **The middleware fails as Forbidden only, and lets safe methods through, exactly on requests
whose cookie decodes.** -/
theorem use_passedOrForbidden_iff (request : HttpRequest) (before : ℤ) (fresh : Mint) (now : ℤ) :
    (PassedOrForbidden (use env ⟨request.toRequest, before, fresh, now⟩).result
        ∧ (safeMethod request.method = true →
          (use env ⟨request.toRequest, before, fresh, now⟩).result = .ok ()))
      ↔ Decodes env.cookieName request.toRequest := by
  rw [use]
  rcases readCookie_cases request env.cookieName with ⟨hdecodes, value, hread⟩ | ⟨hdecodes, hread⟩
  · simp only [hread]
    constructor
    · intro _
      exact hdecodes
    · intro _
      exact ⟨check_passedOrForbidden env _ _ _, fun hsafe => check_of_safe env hsafe _ _⟩
  · simp only [hread]
    constructor
    · rintro ⟨h | ⟨message, h⟩, -⟩
      · cases h
      · cases h
    · intro h
      exact absurd h hdecodes

/-- A page view with the cookie `a2a.csrf=100%`. -/
def brokenCookie : HttpRequest where
  method := js "GET"
  headers := fun name =>
    if name = js "cookie" then some (.one (headerOf (js "a2a.csrf=100%") (by decide))) else none
  cookies := none
  oneCookieText := by
    intro values h
    rw [if_pos rfl] at h
    cases h

/-- It fails with an error of `decodeURIComponent`, on a safe method. -/
theorem brokenCookie_throws :
    ¬ ∀ (env : Env) (request : HttpRequest) (before : ℤ) (fresh : Mint) (now : ℤ),
      PassedOrForbidden (use env ⟨request.toRequest, before, fresh, now⟩).result
        ∧ (safeMethod request.method = true →
          (use env ⟨request.toRequest, before, fresh, now⟩).result = .ok ()) := by
  intro h
  have hread : readCookie brokenCookie.toRequest fixtureEnv.cookieName = .error .uriError := by
    decide
  have hresult := (h fixtureEnv brokenCookie 0 fixtureMint 0).2 rfl
  rw [use] at hresult
  simp only [hread] at hresult
  cases hresult

end A2aAgentLayer.Common.CsrfRejections
