import A2aAgentLayer.Blockchain.RetryUtil
import A2aAgentLayer.Contracts.AgentRegistry
import A2aAgentLayer.Lib.RecordedDigest

/-!
# A registration that is retried

`register` sends `registerAgent` to the contract inside `withRetry` and waits for the transaction.
The wait may fail although the transaction was mined.  Then the call has taken effect, and nothing
that follows reports it: a retry meets the contract's check for duplicates and fails as well.
-/

namespace A2aAgentLayer.Identity.OnChainRegistration

open A2aAgentLayer.Lib.Utf16 A2aAgentLayer.Contracts.AgentRegistry
open A2aAgentLayer.Blockchain.RetryUtil A2aAgentLayer.Lib.RecordedDigest

/-- The arguments of `registerAgent`; no transaction comes from the zero address. -/
structure Call (Symbol : Type) where
  sender : Address
  did : List Symbol
  publicKey : List Symbol
  endpoint : List Symbol
  sender_ne : sender ≠ 0

/-- What becomes of an attempt: it fails before the transaction is sent, or the transaction is mined
and `tx.wait()` gives its hash or fails. -/
inductive Fate where
  | unsent (error : JsString)
  | mined (timestamp : ℕ) (hash : JsString) (waitError : Option JsString)

/-- The contract's storage, and how often it took the registration of this call. -/
structure Chain (Symbol Digest : Type) where
  agents : Agents Symbol Digest
  taken : ℕ

variable {Symbol Digest : Type} [DecidableEq Digest] (keccak256 : List Symbol → Digest)
  (revertError : JsString → JsString) (call : Call Symbol)

/-- One call of the retried operation.  `revertError` is the text of the error with which
`tx.wait()` reports a revert. -/
def attempt (chain : Chain Symbol Digest) : Fate → Chain Symbol Digest × Except JsString JsString
  | .unsent error => (chain, .error error)
  | .mined timestamp hash waitError =>
      match registerAgent keccak256 chain.agents call.sender timestamp call.did call.publicKey
          call.endpoint with
      | .ok agents =>
          (⟨agents, chain.taken + 1⟩,
            match waitError with
            | none => .ok hash
            | some error => .error error)
      | .error reason => (chain, .error (waitError.getD (revertError reason)))

/-- The on-chain step of `register`, under a schedule of fates. -/
def registerOnChain (options : RetryOptions JsString) (random : ℕ → ℚ) (fates : ℕ → Fate)
    (agents : Agents Symbol Digest) : Retried (Chain Symbol Digest) JsString JsString :=
  withRetry id options random (fun n chain => attempt keccak256 revertError call chain (fates n))
    ⟨agents, 0⟩

/-- The outcome that is reported is what happened on chain. -/
structure Reports (taken : ℕ) (result : Outcome JsString JsString) : Prop where
  once : taken ≤ 1
  resolves : 0 < taken → ∃ hash, result = .resolved hash
  nothing : ∀ error, result = .rejected error → taken = 0

/-- An attempt that is retried without a trace on the chain. -/
def RetriedUnsent (shouldRetry : JsString → Bool) (fate : Fate) : Prop :=
  ∃ error, fate = .unsent error ∧ shouldRetry error = true

/-- No transaction that the run gets to send is mined with a failing wait. -/
def WaitsSucceed (shouldRetry : JsString → Bool) (fates : ℕ → Fate) (first left : ℕ) : Prop :=
  ∀ n < left, (∀ k < n, RetriedUnsent shouldRetry (fates (first + k))) →
    ∀ timestamp hash error, fates (first + n) ≠ .mined timestamp hash (some error)

theorem reports_rejected_iff {taken : ℕ} {error : Option JsString} :
    Reports taken (.rejected error) ↔ taken = 0 := by
  constructor
  · intro h
    exact h.nothing error rfl
  · rintro rfl
    exact ⟨Nat.zero_le 1, fun hpos => absurd hpos (lt_irrefl 0), fun _ _ => rfl⟩

theorem reports_resolved (hash : JsString) : Reports 1 (.resolved hash) :=
  ⟨le_refl 1, fun _ => ⟨hash, rfl⟩, nofun⟩

/-! ### One attempt -/

/-- The DID is in the registry. -/
def Taken (keccak256 : List Symbol → Digest) (call : Call Symbol) (agents : Agents Symbol Digest) :
    Prop :=
  (agents (keccak256 call.did)).owner ≠ 0

section Attempts

variable {keccak256} {call}

/-- A registered DID cannot be registered again: every attempt fails and changes nothing. -/
theorem attempt_of_taken {chain : Chain Symbol Digest} (h : Taken keccak256 call chain.agents)
    (fate : Fate) : ∃ error, attempt keccak256 revertError call chain fate
      = (chain, .error error) := by
  cases fate with
  | unsent error => exact ⟨error, rfl⟩
  | mined timestamp hash waitError =>
      have hrevert : registerAgent keccak256 chain.agents call.sender timestamp call.did
          call.publicKey call.endpoint = .error (js "Agent already registered") := by
        rw [registerAgent, if_neg h]
      refine ⟨waitError.getD (revertError (js "Agent already registered")), ?_⟩
      simp only [attempt, hrevert]

/-- A free DID is registered by an attempt that is mined. -/
theorem attempt_of_free {chain : Chain Symbol Digest} (h : ¬ Taken keccak256 call chain.agents)
    (timestamp : ℕ) (hash : JsString) (waitError : Option JsString) :
    ∃ after, Taken keccak256 call after.agents ∧ after.taken = chain.taken + 1
      ∧ attempt keccak256 revertError call chain (.mined timestamp hash waitError)
        = (after, match waitError with
          | none => .ok hash
          | some error => .error error) := by
  let info : AgentInfo Symbol :=
    ⟨call.sender, call.did, call.publicKey, call.endpoint, true, timestamp⟩
  have hregister : registerAgent keccak256 chain.agents call.sender timestamp call.did
      call.publicKey call.endpoint
        = .ok (Function.update chain.agents (keccak256 call.did) info) :=
    registerAgent_eq_ok (not_not.mp h)
  refine ⟨⟨Function.update chain.agents (keccak256 call.did) info, chain.taken + 1⟩, ?_, rfl, ?_⟩
  · show (Function.update chain.agents _ info _).owner ≠ 0
    rw [Function.update_self]
    exact call.sender_ne
  · simp only [attempt, hregister]

/-! ### A run -/

variable (settings : Settings) (shouldRetry : JsString → Bool) (random : ℕ → ℚ)
  (fates : ℕ → Fate)

/-- On a registered DID no run resolves, and the storage stays as it is. -/
theorem loop_of_taken (chain : Chain Symbol Digest) (h : Taken keccak256 call chain.agents)
    (left first : ℕ) (delay : ℚ) :
    let ran := loop settings shouldRetry random
      (fun n chain => attempt keccak256 revertError call chain (fates n)) left first delay chain
    ran.state = chain ∧ ∃ error, ran.result = .rejected error := by
  induction left generalizing first delay with
  | zero => exact ⟨rfl, none, rfl⟩
  | succ left ih =>
      obtain ⟨error, hattempt⟩ := attempt_of_taken revertError h (fates first)
      intro ran
      have hran : ran = _ := loop_of_error hattempt
      rw [hran]
      split_ifs
      · exact ⟨rfl, some error, rfl⟩
      · exact ih (first + 1) _

variable {shouldRetry} {fates} in
theorem waitsSucceed_succ {first left : ℕ} : WaitsSucceed shouldRetry fates first (left + 1)
    ↔ (∀ timestamp hash error, fates first ≠ .mined timestamp hash (some error))
      ∧ (RetriedUnsent shouldRetry (fates first) →
        WaitsSucceed shouldRetry fates (first + 1) left) := by
  have hshift : ∀ n, first + 1 + n = first + (n + 1) := by
    intro n
    omega
  constructor
  · intro h
    refine ⟨h 0 (by omega) (fun k hk => absurd hk (Nat.not_lt_zero k)), ?_⟩
    intro hfirst n hn hbefore
    rw [hshift]
    refine h (n + 1) (by omega) ?_
    intro k hk
    cases k with
    | zero => exact hfirst
    | succ k =>
        rw [← hshift]
        exact hbefore k (by omega)
  · rintro ⟨hfirst, hrest⟩ n hn hbefore
    cases n with
    | zero => exact hfirst
    | succ n =>
        rw [← hshift]
        refine hrest (hbefore 0 (by omega)) n (by omega) ?_
        intro k hk
        rw [hshift]
        exact hbefore (k + 1) (by omega)

variable {shouldRetry} {fates} in
theorem waitsSucceed_unsent {first left : ℕ} {error : JsString}
    (hfate : fates first = .unsent error) : WaitsSucceed shouldRetry fates first (left + 1)
      ↔ (shouldRetry error = true → WaitsSucceed shouldRetry fates (first + 1) left) := by
  rw [waitsSucceed_succ, hfate]
  constructor
  · rintro ⟨-, hrest⟩ hretry
    exact hrest ⟨error, rfl, hretry⟩
  · intro h
    refine ⟨fun _ _ _ => Fate.noConfusion, ?_⟩
    rintro ⟨e, he, hretry⟩
    obtain rfl := Fate.unsent.inj he
    exact h hretry

variable {shouldRetry} {fates} in
theorem waitsSucceed_mined {first left timestamp : ℕ} {hash : JsString}
    {waitError : Option JsString} (hfate : fates first = .mined timestamp hash waitError) :
    WaitsSucceed shouldRetry fates first (left + 1) ↔ waitError = none := by
  rw [waitsSucceed_succ, hfate]
  constructor
  · rintro ⟨hfirst, -⟩
    cases waitError with
    | none => rfl
    | some error => exact absurd rfl (hfirst timestamp hash error)
  · rintro rfl
    refine ⟨?_, ?_⟩
    · intro _ _ _ h
      cases h
    · rintro ⟨_, h, -⟩
      cases h

variable {fates} in
/-- A wait that fails behind a mined transaction: the call is taken once, and the run rejects. -/
theorem loop_of_failed_wait {chain : Chain Symbol Digest}
    (hfree : ¬ Taken keccak256 call chain.agents) {first timestamp : ℕ} {hash error : JsString}
    (hfate : fates first = .mined timestamp hash (some error)) (left : ℕ) (delay : ℚ) :
    let ran := loop settings shouldRetry random
      (fun n chain => attempt keccak256 revertError call chain (fates n)) (left + 1) first delay
      chain
    ran.state.taken = chain.taken + 1 ∧ ∃ error, ran.result = .rejected error := by
  intro ran
  obtain ⟨after, hafter, hcount, hattempt⟩ := attempt_of_free revertError hfree timestamp hash
    (some error)
  rw [← hfate] at hattempt
  have hran : ran = _ := loop_of_error hattempt
  rw [hran]
  split_ifs
  · exact ⟨hcount, some error, rfl⟩
  · -- the attempts that are left meet the check for duplicates
    obtain ⟨hstate, hresult⟩ := loop_of_taken revertError settings shouldRetry random fates after
      hafter left (first + 1) (min (delay * settings.factor) settings.maxDelayMs)
    have htook := congrArg Chain.taken hstate
    rw [hcount] at htook
    exact ⟨htook, hresult⟩

/-- A run on a free DID reports what happened exactly when no wait fails behind a mined
transaction. -/
theorem reports_iff (chain : Chain Symbol Digest) (hfree : ¬ Taken keccak256 call chain.agents)
    (htaken : chain.taken = 0) (left first : ℕ) (delay : ℚ) :
    let ran := loop settings shouldRetry random
      (fun n chain => attempt keccak256 revertError call chain (fates n)) left first delay chain
    Reports ran.state.taken ran.result ↔ WaitsSucceed shouldRetry fates first left := by
  induction left generalizing first delay with
  | zero =>
      refine iff_of_true ?_ (fun n hn => absurd hn (Nat.not_lt_zero n))
      exact reports_rejected_iff.mpr htaken
  | succ left ih =>
      intro ran
      cases hfate : fates first with
      | unsent error =>
          have hattempt : attempt keccak256 revertError call chain (fates first)
              = (chain, .error error) := by
            rw [hfate, attempt]
          have hran : ran = _ := loop_of_error hattempt
          rw [waitsSucceed_unsent hfate, hran]
          split_ifs with hends
          · refine iff_of_true (reports_rejected_iff.mpr htaken) ?_
            intro hretry n hn
            rcases hends with hlast | hfinal
            · omega
            · rw [hretry] at hfinal
              cases hfinal
          · rw [not_or, Bool.not_eq_false] at hends
            rw [imp_iff_right hends.2]
            exact ih (first + 1) _
      | mined timestamp hash waitError =>
          rw [waitsSucceed_mined hfate]
          cases waitError with
          | none =>
              obtain ⟨after, -, hcount, hattempt⟩ := attempt_of_free revertError hfree timestamp
                hash none
              rw [← hfate] at hattempt
              have hran : ran = _ := loop_of_ok hattempt
              refine iff_of_true ?_ rfl
              rw [hran, hcount, htaken]
              exact reports_resolved hash
          | some error =>
              obtain ⟨htook, e, hresult⟩ := loop_of_failed_wait revertError settings shouldRetry
                random hfree hfate left delay
              refine iff_of_false ?_ (Option.some_ne_none error)
              rw [htook, hresult, reports_rejected_iff, htaken]
              exact Nat.one_ne_zero

end Attempts

/-- **When a retried registration reports what happened on chain.**  The DID was registered before,
or no transaction that the run gets to send is mined with a failing wait. -/
theorem registerOnChain_reports_iff (options : RetryOptions JsString) (random : ℕ → ℚ)
    (fates : ℕ → Fate) (agents : Agents Symbol Digest) :
    let ran := registerOnChain keccak256 revertError call options random fates agents
    Reports ran.state.taken ran.result
      ↔ Taken keccak256 call agents
        ∨ WaitsSucceed (options.shouldRetry.getD isTransientError) fates 0
          options.settings.maxAttempts := by
  intro ran
  by_cases htaken : Taken keccak256 call agents
  · obtain ⟨hstate, error, hresult⟩ := loop_of_taken revertError options.settings
      (options.shouldRetry.getD isTransientError) random fates ⟨agents, 0⟩ htaken
      options.settings.maxAttempts 0 options.settings.initialDelayMs
    have hrejected : ran.result = .rejected error := hresult
    have hnone : ran.state.taken = 0 := congrArg Chain.taken hstate
    refine iff_of_true ?_ (.inl htaken)
    rw [hrejected]
    exact reports_rejected_iff.mpr hnone
  · rw [or_iff_right htaken]
    exact reports_iff revertError options.settings (options.shouldRetry.getD isTransientError)
      random fates ⟨agents, 0⟩ htaken rfl options.settings.maxAttempts 0
      options.settings.initialDelayMs

/-! ### A wait that times out -/

/-- The provider stops answering while the first transaction is mined; the second reverts. -/
def timedOut : ℕ → Fate
  | 0 => .mined 1715000000 (js "0xfirst") (some (js "timeout exceeded"))
  | _ => .mined 1715000060 (js "0xsecond") none

def translator : Call CodeUnit where
  sender := 0xa11ce
  did := js "did:prom:translator"
  publicKey := js "key"
  endpoint := js "https://translator.example"
  sender_ne := by decide

/-- The hash with its value at the DID of `translator`. -/
def translatorKeccak256 : JsString → Recorded CodeUnit :=
  digestOf [(js "did:prom:translator",
    [0xa5, 0x43, 0x5c, 0x54, 0xc9, 0x88, 0x7d, 0x05, 0xda, 0xae, 0x53, 0x44, 0xae, 0x04, 0x80,
     0x62, 0x26, 0x4e, 0x79, 0x4d, 0x09, 0xce, 0x8d, 0x23, 0xc4, 0x59, 0x45, 0x90, 0x5f, 0x63,
     0x8f, 0xb7])]

/-- The registration has taken effect, and `withRetry` rejects. -/
theorem timedOut_misreports :
    ¬ ∀ (agents : Agents CodeUnit (Recorded CodeUnit)) (options : RetryOptions JsString)
        (random : ℕ → ℚ) (fates : ℕ → Fate), 1 ≤ options.settings.maxAttempts →
      let ran := registerOnChain translatorKeccak256 id translator options random fates agents
      Reports ran.state.taken ran.result := by
  intro h
  have hfree : ¬ Taken translatorKeccak256 translator (fun _ => AgentInfo.zero) :=
    fun htaken => htaken rfl
  have hran := h (fun _ => AgentInfo.zero) {} (fun _ => 0) timedOut (by decide)
  have hwaits : WaitsSucceed isTransientError timedOut 0 5 :=
    (reports_iff id defaults isTransientError (fun _ => 0) timedOut
      ⟨fun _ => AgentInfo.zero, 0⟩ hfree rfl 5 0 200).mp hran
  exact hwaits 0 (by decide) (fun k hk => absurd hk (Nat.not_lt_zero k)) _ _ _ rfl

end A2aAgentLayer.Identity.OnChainRegistration
