import FdfiToken.Evm.OFTCore
import FdfiToken.Evm.RateLimiter

/-!
# The bridge contracts

`FDFIOFTAdapter` and `FDFIOFTUpgradeable`: rate limits, the roles that set them, and the
overridden hooks, over whatever base they forward to. A run takes its calls at block times that
never decrease.
-/

namespace FdfiToken.Evm

open Word Fallible Runs

/-- `event InflowRateConsumed` and `event OutflowRateConsumed`. -/
structure RateConsumed where
  eid : U32
  amountLD : U256
  remainingCapacity : U256
deriving DecidableEq

structure FDFIOFTAdapter (σ : Type) where
  owner : Address
  rateLimiter : Address
  rateLimits : RateLimits
  base : σ

structure FDFIOFTUpgradeable (σ : Type) where
  initialized : Bool
  ownable : Ownable
  rateLimiter : Address
  rateLimits : RateLimits
  base : σ

/-- The calls of both contracts; `_debit` and `_credit` are reached through `send` and
`lzReceive`. `outside` is whatever anybody does to the base's own state. -/
inductive BridgeCall (σ : Type) where
  | setRateLimiter (rateLimiter_ : Address)
  | setRateLimits (rateLimitConfigs : List RateLimitConfig)
  | debit (src : Address) (amountLD minAmountLD : U256) (dstEid : U32)
  | credit (dst : Address) (amountLD : U256) (srcEid : U32)
  | transferOwnership (newOwner : Address)
  | acceptOwnership
  | renounceOwnership
  | outside (base : σ)

def BridgeCall.configs {σ : Type} : BridgeCall σ → List RateLimitConfig
  | .setRateLimits rateLimitConfigs => rateLimitConfigs
  | _ => []

def BridgeCall.isAdmin {σ : Type} : BridgeCall σ → Bool
  | .debit _ _ _ _ => false
  | .credit _ _ _ => false
  | .outside _ => false
  | _ => true

/-- The limits a constructor or initializer leaves: it calls the limiter only when there is
something to set. -/
def initialRateLimits (lib : RateLimiter) (msg : Msg) (rateLimitConfigs : List RateLimitConfig) :
    Result RateLimits :=
  if rateLimitConfigs = [] then pure .unset
  else lib.setRateLimits msg rateLimitConfigs .unset

namespace FDFIOFTAdapter

variable {σ : Type} (lib : RateLimiter) (core : OFTBase σ) (msg : Msg)

/-- The constructor; `base` is the state it finds the base in. -/
def construct (owner_ : Address) (rateLimitConfigs : List RateLimitConfig) (base : σ) :
    Result (FDFIOFTAdapter σ) := do
  let base ← core.init owner_ base
  require (owner_ ≠ 0) (.ownableInvalidOwner 0)
  let rateLimits ← initialRateLimits lib msg rateLimitConfigs
  pure ⟨owner_, owner_, rateLimits, base⟩

def checkOwner (a : FDFIOFTAdapter σ) : Result Unit :=
  require (a.owner = msg.sender) (.ownableUnauthorizedAccount msg.sender)

def setRateLimiter (rateLimiter_ : Address) (a : FDFIOFTAdapter σ) :
    Result (FDFIOFTAdapter σ) := do
  a.checkOwner msg
  pure { a with rateLimiter := rateLimiter_ }

def setRateLimits (rateLimitConfigs : List RateLimitConfig) (a : FDFIOFTAdapter σ) :
    Result (FDFIOFTAdapter σ) := do
  require (msg.sender = a.rateLimiter ∨ msg.sender = a.owner) .onlyRateLimiter
  let rateLimits ← lib.setRateLimits msg rateLimitConfigs a.rateLimits
  pure { a with rateLimits }

def _debit (src : Address) (amountLD minAmountLD : U256) (dstEid : U32)
    (a : FDFIOFTAdapter σ) : Result (Debited (FDFIOFTAdapter σ) × RateConsumed) := do
  let rateLimits ← lib.outflow msg dstEid amountLD a.rateLimits
  let remaining ← lib.capacity msg (rateLimits dstEid)
  let out ← core.debit msg src amountLD minAmountLD dstEid a.base
  pure (⟨{ a with rateLimits, base := out.state }, out.amountSentLD, out.amountReceivedLD⟩,
    ⟨dstEid, amountLD, remaining⟩)

def _credit (dst : Address) (amountLD : U256) (srcEid : U32) (a : FDFIOFTAdapter σ) :
    Result (Credited (FDFIOFTAdapter σ) × RateConsumed) := do
  let rateLimits := a.rateLimits.inflow srcEid amountLD
  let remaining ← lib.capacity msg (rateLimits srcEid)
  let out ← core.credit msg dst amountLD srcEid a.base
  pure (⟨{ a with rateLimits, base := out.state }, out.amountReceivedLD⟩,
    ⟨srcEid, amountLD, remaining⟩)

def transferOwnership (newOwner : Address) (a : FDFIOFTAdapter σ) :
    Result (FDFIOFTAdapter σ) := do
  a.checkOwner msg
  require (newOwner ≠ 0) (.ownableInvalidOwner 0)
  pure { a with owner := newOwner }

def renounceOwnership (a : FDFIOFTAdapter σ) : Result (FDFIOFTAdapter σ) := do
  a.checkOwner msg
  pure { a with owner := 0 }

/-- The adapter is plainly ownable: there is no `acceptOwnership`. -/
def exec (call : BridgeCall σ) (a : FDFIOFTAdapter σ) : Result (FDFIOFTAdapter σ) :=
  match call with
  | .setRateLimiter rateLimiter_ => a.setRateLimiter msg rateLimiter_
  | .setRateLimits rateLimitConfigs => a.setRateLimits lib msg rateLimitConfigs
  | .debit src amountLD minAmountLD dstEid =>
    (·.1.state) <$> a._debit lib core msg src amountLD minAmountLD dstEid
  | .credit dst amountLD srcEid => (·.1.state) <$> a._credit lib core msg dst amountLD srcEid
  | .transferOwnership newOwner => a.transferOwnership msg newOwner
  | .acceptOwnership => .error (.reason "")
  | .renounceOwnership => a.renounceOwnership msg
  | .outside base => pure { a with base }

variable {lib core msg}

theorem exec_admin {call : BridgeCall σ} (hadmin : call.isAdmin = true)
    {a a' : FDFIOFTAdapter σ} (h : a.exec lib core msg call = .ok a') :
    lib.Change msg call.configs a.rateLimits a'.rateLimits ∧ a'.base = a.base := by
  cases call with
  | setRateLimiter rateLimiter_ =>
    simp only [exec, setRateLimiter, bind_eq_ok, pure_eq_ok] at h
    obtain ⟨-, -, rfl⟩ := h
    exact ⟨.same _, rfl⟩
  | setRateLimits rateLimitConfigs =>
    simp only [exec, setRateLimits, bind_eq_ok, pure_eq_ok] at h
    obtain ⟨-, -, rls, hset, rfl⟩ := h
    exact ⟨.configure hset, rfl⟩
  | transferOwnership newOwner =>
    simp only [exec, transferOwnership, bind_eq_ok, pure_eq_ok] at h
    obtain ⟨-, -, -, -, rfl⟩ := h
    exact ⟨.same _, rfl⟩
  | acceptOwnership => cases h
  | renounceOwnership =>
    simp only [exec, renounceOwnership, bind_eq_ok, pure_eq_ok] at h
    obtain ⟨-, -, rfl⟩ := h
    exact ⟨.same _, rfl⟩
  | _ => cases hadmin

end FDFIOFTAdapter

namespace FDFIOFTUpgradeable

variable {σ : Type} (lib : RateLimiter) (core : OFTBase σ) (msg : Msg)

/-- A proxy before `initialize`. -/
def deployed (base : σ) : FDFIOFTUpgradeable σ := ⟨false, .unset, 0, .unset, base⟩

/-- `initialize`. -/
def init (rateLimitConfigs : List RateLimitConfig) (owner_ : Address)
    (c : FDFIOFTUpgradeable σ) : Result (FDFIOFTUpgradeable σ) := do
  require (c.initialized = false) .invalidInitialization
  let base ← core.init owner_ c.base
  let rateLimits ← initialRateLimits lib msg rateLimitConfigs
  pure { c with initialized := true, ownable := ⟨owner_, 0⟩, rateLimits, base }

def setRateLimiter (rateLimiter_ : Address) (c : FDFIOFTUpgradeable σ) :
    Result (FDFIOFTUpgradeable σ) := do
  c.ownable.checkOwner msg
  pure { c with rateLimiter := rateLimiter_ }

def setRateLimits (rateLimitConfigs : List RateLimitConfig) (c : FDFIOFTUpgradeable σ) :
    Result (FDFIOFTUpgradeable σ) := do
  require (msg.sender = c.rateLimiter ∨ msg.sender = c.ownable.owner) .onlyRateLimiter
  let rateLimits ← lib.setRateLimits msg rateLimitConfigs c.rateLimits
  pure { c with rateLimits }

def _debit (src : Address) (amountLD minAmountLD : U256) (dstEid : U32)
    (c : FDFIOFTUpgradeable σ) : Result (Debited (FDFIOFTUpgradeable σ)) := do
  let rateLimits ← lib.outflow msg dstEid amountLD c.rateLimits
  let out ← core.debit msg src amountLD minAmountLD dstEid c.base
  pure ⟨{ c with rateLimits, base := out.state }, out.amountSentLD, out.amountReceivedLD⟩

def _credit (dst : Address) (amountLD : U256) (srcEid : U32) (c : FDFIOFTUpgradeable σ) :
    Result (Credited (FDFIOFTUpgradeable σ)) := do
  let out ← core.credit msg dst amountLD srcEid c.base
  pure ⟨{ c with base := out.state }, out.amountReceivedLD⟩

def withOwnable (f : Ownable → Result Ownable) (c : FDFIOFTUpgradeable σ) :
    Result (FDFIOFTUpgradeable σ) := do
  let ownable ← f c.ownable
  pure { c with ownable }

def exec (call : BridgeCall σ) (c : FDFIOFTUpgradeable σ) : Result (FDFIOFTUpgradeable σ) :=
  match call with
  | .setRateLimiter rateLimiter_ => c.setRateLimiter msg rateLimiter_
  | .setRateLimits rateLimitConfigs => c.setRateLimits lib msg rateLimitConfigs
  | .debit src amountLD minAmountLD dstEid =>
    (·.state) <$> c._debit lib core msg src amountLD minAmountLD dstEid
  | .credit dst amountLD srcEid => (·.state) <$> c._credit core msg dst amountLD srcEid
  | .transferOwnership newOwner => c.withOwnable (Ownable.transferOwnership msg newOwner)
  | .acceptOwnership => c.withOwnable (Ownable.acceptOwnership msg)
  | .renounceOwnership => c.withOwnable (Ownable.renounceOwnership msg)
  | .outside base => pure { c with base }

variable {lib core msg}

theorem withOwnable_eq_ok {f : Ownable → Result Ownable} {c c' : FDFIOFTUpgradeable σ} :
    c.withOwnable f = .ok c' ↔ ∃ ownable, f c.ownable = .ok ownable ∧ { c with ownable } = c' := by
  simp [withOwnable]

theorem exec_admin {call : BridgeCall σ} (hadmin : call.isAdmin = true)
    {c c' : FDFIOFTUpgradeable σ} (h : c.exec lib core msg call = .ok c') :
    lib.Change msg call.configs c.rateLimits c'.rateLimits ∧ c'.base = c.base := by
  cases call with
  | setRateLimiter rateLimiter_ =>
    simp only [exec, setRateLimiter, bind_eq_ok, pure_eq_ok] at h
    obtain ⟨-, -, rfl⟩ := h
    exact ⟨.same _, rfl⟩
  | setRateLimits rateLimitConfigs =>
    simp only [exec, setRateLimits, bind_eq_ok, pure_eq_ok] at h
    obtain ⟨-, -, rls, hset, rfl⟩ := h
    exact ⟨.configure hset, rfl⟩
  | transferOwnership newOwner =>
    obtain ⟨-, -, rfl⟩ := withOwnable_eq_ok.mp h
    exact ⟨.same _, rfl⟩
  | acceptOwnership =>
    obtain ⟨-, -, rfl⟩ := withOwnable_eq_ok.mp h
    exact ⟨.same _, rfl⟩
  | renounceOwnership =>
    obtain ⟨-, -, rfl⟩ := withOwnable_eq_ok.mp h
    exact ⟨.same _, rfl⟩
  | _ => cases hadmin

end FDFIOFTUpgradeable

/-- A contract at the time of the block it was last called in. -/
structure Clocked (κ : Type) where
  now : U256
  contract : κ

structure Clocked.Step {κ σ : Type} (exec : Msg → BridgeCall σ → κ → Result κ) (c : Clocked κ)
    (l : Msg × BridgeCall σ) (c' : Clocked κ) : Prop where
  later : c.now.toNat ≤ l.1.timestamp.toNat
  now : c'.now = l.1.timestamp
  exec : exec l.1 l.2 c.contract = .ok c'.contract

/-- Runs of an adapter from its constructor, with all configurations it was ever given. -/
def FDFIOFTAdapter.Reaches {σ : Type} (lib : RateLimiter) (core : OFTBase σ)
    (configs : List RateLimitConfig) (c : Clocked (FDFIOFTAdapter σ)) : Prop :=
  ∃ (msg : Msg) (owner_ : Address) (initial : List RateLimitConfig) (base : σ)
    (a : FDFIOFTAdapter σ) (ls : List (Msg × BridgeCall σ)),
    construct lib core msg owner_ initial base = .ok a ∧
      Run (Clocked.Step (exec lib core)) ⟨msg.timestamp, a⟩ ls c ∧
      configs = initial ++ ls.flatMap fun l => l.2.configs

/-- Runs of a satellite from its `initialize`, with all configurations it was ever given. -/
def FDFIOFTUpgradeable.Reaches {σ : Type} (lib : RateLimiter) (core : OFTBase σ)
    (configs : List RateLimitConfig) (c : Clocked (FDFIOFTUpgradeable σ)) : Prop :=
  ∃ (msg : Msg) (owner_ : Address) (initial : List RateLimitConfig) (base : σ)
    (a : FDFIOFTUpgradeable σ) (ls : List (Msg × BridgeCall σ)),
    (deployed base).init lib core msg initial owner_ = .ok a ∧
      Run (Clocked.Step (exec lib core)) ⟨msg.timestamp, a⟩ ls c ∧
      configs = initial ++ ls.flatMap fun l => l.2.configs

end FdfiToken.Evm
