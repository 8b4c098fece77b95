import Mathlib.Algebra.Order.Group.Int
import A2aAgentLayer.Lib.KeyedStore
import A2aAgentLayer.Lib.Utf16

/-!
# The nonce store

A map from `agent:nonce` to the instant at which the pair was accepted.  Entries older than the
window are dropped, by a timer and in front of every check.  `assertFresh` reads the clock twice:
for the eviction and for the entry it writes.

An accepted pair is remembered as long as the window is open (`remembers_assertFresh`), and until
then it is not accepted again (`window_passed_of_accepted`).
-/

namespace A2aAgentLayer.Protocol.NonceStore

open A2aAgentLayer.Lib.Utf16 A2aAgentLayer.Lib.KeyedStore

/-- `seenAt` by key. -/
abbrev Entries := Store JsString ℤ

def defaultWindowMs : ℤ := 300000

/-- The key of an agent and a nonce. -/
def nonceKey (agentId nonce : JsString) : JsString := agentId ++ js ":" ++ nonce

/-- An entry before the cutoff. -/
def expired (windowMs now seenAt : ℤ) : Bool := decide (seenAt < now - windowMs)

def evictExpired (windowMs : ℤ) (entries : Entries) (now : ℤ) : Entries :=
  evict (expired windowMs now) entries

/-- The entries it leaves, and whether the pair was accepted; a refused pair is a
`ConflictException`. -/
def assertFresh (windowMs : ℤ) (entries : Entries) (agentId nonce : JsString)
    (reached written : ℤ) : Entries × Bool :=
  let kept := evictExpired windowMs entries reached
  if (kept.lookup (nonceKey agentId nonce)).isSome then (kept, false)
  else (kept.insert (nonceKey agentId nonce) written, true)

/-- The entries it leaves, and their number. -/
def size (windowMs : ℤ) (entries : Entries) (now : ℤ) : Entries × ℕ :=
  let kept := evictExpired windowMs entries now
  (kept, kept.entries.length)

/-- A pair accepted at `reached` has an entry that is no older, or its window has passed. -/
def Remembers (windowMs : ℤ) (entries : Entries) (key : JsString) (reached now : ℤ) : Prop :=
  Remembered (expired windowMs) (reached ≤ ·) entries key now

theorem expired_later {windowMs now later : ℤ} (hle : now ≤ later) (seenAt : ℤ)
    (h : expired windowMs now seenAt = true) : expired windowMs later seenAt = true := by
  simp only [expired, decide_eq_true_eq] at h ⊢
  omega

/-- **A check keeps every earlier pair in mind**, also when it writes over its entry. -/
theorem remembers_assertFresh {windowMs reached now reached' written : ℤ} {entries : Entries}
    {key agentId nonce : JsString} (h : Remembers windowMs entries key reached now)
    (hnow : now ≤ reached') (hwritten : reached' ≤ written) (hpast : reached ≤ now) :
    Remembers windowMs (assertFresh windowMs entries agentId nonce reached' written).1 key reached
      written := by
  have hkept := (Remembered.evict h (expired_later hnow)).later (expired_later hwritten)
  rw [assertFresh]
  split_ifs
  · exact hkept
  · exact hkept.insert fun _ => by omega

/-- The pair a check accepts is remembered. -/
theorem remembers_accepted {windowMs reached written : ℤ} {entries : Entries}
    {agentId nonce : JsString} (hwritten : reached ≤ written)
    (h : (assertFresh windowMs entries agentId nonce reached written).2 = true) :
    Remembers windowMs (assertFresh windowMs entries agentId nonce reached written).1
      (nonceKey agentId nonce) reached written := by
  rw [assertFresh] at h ⊢
  split_ifs at h ⊢
  exact remembered_insert_self hwritten

/-- **A pair is accepted again only after its window.** -/
theorem window_passed_of_accepted {windowMs reached now reached' written : ℤ} {entries : Entries}
    {agentId nonce : JsString}
    (hrem : Remembers windowMs entries (nonceKey agentId nonce) reached now)
    (hnow : now ≤ reached')
    (h : (assertFresh windowMs entries agentId nonce reached' written).2 = true) :
    reached + windowMs < reached' := by
  have habsent : (evictExpired windowMs entries reached').lookup (nonceKey agentId nonce)
      = none := by
    rw [assertFresh] at h
    split_ifs at h with hsome
    simpa using hsome
  obtain ⟨seenAt, hle, hexpired⟩ :=
    (Remembered.evict hrem (expired_later hnow)).of_absent habsent
  simp only [expired, decide_eq_true_eq] at hexpired
  omega

end A2aAgentLayer.Protocol.NonceStore
