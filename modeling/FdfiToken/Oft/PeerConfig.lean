import FdfiToken.Solana.Runtime

/-!
# Peers and their rate limiters

The per-destination account: the remote address, enforced options, fee and the two lazily
refilled rate limiters.
-/

namespace FdfiToken

open Word Fallible

structure RateLimiter where
  capacity : U64
  tokens : U64
  refillPerSecond : U64
  lastRefillTime : U64
deriving DecidableEq

namespace RateLimiter

def default : RateLimiter := ⟨0, 0, 0, 0⟩

def refill (l : RateLimiter) (clock : Clock) (extraTokens : U64) : RateLimiter :=
  let currentTime := clock.currentTime
  let newTokens :=
    if l.lastRefillTime.toNat < currentTime.toNat then
      let timeElapsedInSeconds := currentTime - l.lastRefillTime
      saturatingAdd extraTokens (saturatingMul timeElapsedInSeconds l.refillPerSecond)
    else extraTokens
  { l with
    tokens := least l.capacity (saturatingAdd l.tokens newTokens)
    lastRefillTime := currentTime }

def setRate (l : RateLimiter) (clock : Clock) (refillPerSecond : U64) : RateLimiter :=
  { l.refill clock 0 with refillPerSecond := refillPerSecond }

def setCapacity (l : RateLimiter) (clock : Clock) (capacity : U64) : RateLimiter :=
  { l with capacity := capacity, tokens := capacity, lastRefillTime := clock.currentTime }

/-- `try_consume`: the limiter it leaves behind and its result. The refill stays even when
the amount is refused. -/
def tryConsume (l : RateLimiter) (clock : Clock) (amount : U64) : RateLimiter × Result Unit :=
  let l := l.refill clock 0
  match checkedSub l.tokens amount with
  | some newTokens => ({ l with tokens := newTokens }, .ok ())
  | none => (l, .error (.oft .rateLimitExceeded))

/-- What the limiter would hold after a refill at second `t`. -/
def available (l : RateLimiter) (t : ℕ) : ℕ :=
  min l.capacity.toNat
    (l.tokens.toNat + (t - l.lastRefillTime.toNat) * l.refillPerSecond.toNat)

@[simp] theorem refill_capacity (l : RateLimiter) (clock : Clock) (extra : U64) :
    (l.refill clock extra).capacity = l.capacity := rfl

@[simp] theorem refill_rate (l : RateLimiter) (clock : Clock) (extra : U64) :
    (l.refill clock extra).refillPerSecond = l.refillPerSecond := rfl

@[simp] theorem refill_time (l : RateLimiter) (clock : Clock) (extra : U64) :
    (l.refill clock extra).lastRefillTime = clock.currentTime := rfl

/-- The three saturating steps of a refill are invisible: the result is capped by a capacity
that itself fits the word. -/
theorem refill_tokens (l : RateLimiter) (clock : Clock) (extra : U64) :
    (l.refill clock extra).tokens.toNat =
      min l.capacity.toNat (l.available clock.unixTimestamp + extra.toNat) := by
  have hcap := l.capacity.isLt
  dsimp only [refill, available]
  split
  · rename_i hlt
    have hsub : (clock.currentTime - l.lastRefillTime).toNat =
        clock.unixTimestamp - l.lastRefillTime.toNat := by
      rw [BitVec.toNat_sub_of_le (BitVec.le_def.mpr hlt.le), Clock.toNat_currentTime]
    simp only [toNat_least, toNat_saturatingAdd, toNat_saturatingMul, hsub]
    omega
  · rename_i hge
    rw [Clock.toNat_currentTime] at hge
    have hzero : clock.unixTimestamp - l.lastRefillTime.toNat = 0 := by omega
    simp only [toNat_least, toNat_saturatingAdd, hzero, Nat.zero_mul]
    omega

theorem available_le (l : RateLimiter) (t : ℕ) : l.available t ≤ l.capacity.toNat :=
  Nat.min_le_left _ _

theorem refill_zero_tokens (l : RateLimiter) (clock : Clock) :
    (l.refill clock 0).tokens.toNat = l.available clock.unixTimestamp := by
  have hle := l.available_le clock.unixTimestamp
  rw [refill_tokens]
  change min l.capacity.toNat (l.available clock.unixTimestamp + 0) = _
  omega

theorem tryConsume_ok {l : RateLimiter} {clock : Clock} {amount : U64}
    (h : (l.tryConsume clock amount).2 = .ok ()) :
    (l.tryConsume clock amount).1.tokens.toNat + amount.toNat =
        l.available clock.unixTimestamp ∧
      (l.tryConsume clock amount).1.capacity = l.capacity ∧
      (l.tryConsume clock amount).1.refillPerSecond = l.refillPerSecond ∧
      (l.tryConsume clock amount).1.lastRefillTime = clock.currentTime := by
  rw [← refill_zero_tokens]
  cases hsub : checkedSub (l.refill clock 0).tokens amount with
  | none => simp only [tryConsume, hsub, reduceCtorEq] at h
  | some left =>
    simp only [tryConsume, hsub]
    exact ⟨checkedSub_eq_some.mp hsub, rfl, rfl, rfl⟩

theorem tryConsume_ok_iff (l : RateLimiter) (clock : Clock) (amount : U64) :
    (l.tryConsume clock amount).2 = .ok () ↔ amount.toNat ≤ l.available clock.unixTimestamp := by
  rw [← refill_zero_tokens]
  cases hsub : checkedSub (l.refill clock 0).tokens amount with
  | none =>
    simp only [tryConsume, hsub, reduceCtorEq, false_iff, not_le]
    exact checkedSub_eq_none.mp hsub
  | some left =>
    simp only [tryConsume, hsub, true_iff]
    have hleft := checkedSub_eq_some.mp hsub
    omega

theorem tryConsume_rejected {l : RateLimiter} {clock : Clock} {amount : U64}
    (h : (l.tryConsume clock amount).2 ≠ .ok ()) :
    (l.tryConsume clock amount).1 = l.refill clock 0 := by
  cases hsub : checkedSub (l.refill clock 0).tokens amount with
  | none => simp only [tryConsume, hsub]
  | some left => simp only [tryConsume, hsub, ne_eq, not_true_eq_false] at h

end RateLimiter

structure EnforcedOptions where
  send : Bytes
  sendAndCall : Bytes
deriving DecidableEq

namespace EnforcedOptions

def default : EnforcedOptions := ⟨[], []⟩

def getEnforcedOptions (o : EnforcedOptions) (composedMsg : Option Bytes) : Bytes :=
  if composedMsg.isNone then o.send else o.sendAndCall

def combineOptions (rt : Runtime) (o : EnforcedOptions) (composeMsg : Option Bytes)
    (extraOptions : Bytes) : Result Bytes :=
  orError .options (rt.combineOptions (o.getEnforcedOptions composeMsg) extraOptions)

end EnforcedOptions

structure PeerConfig where
  peerAddress : Bytes32
  enforcedOptions : EnforcedOptions
  outboundRateLimiter : Option RateLimiter
  inboundRateLimiter : Option RateLimiter
  feeBps : Option U16
  bump : U8
deriving DecidableEq

/-- The zeroed account `init_if_needed` creates. -/
def PeerConfig.default : PeerConfig :=
  ⟨Bytes32.fill 0, EnforcedOptions.default, none, none, none, 0⟩

structure RateLimitParams where
  refillPerSecond : Option U64
  capacity : Option U64
deriving DecidableEq

def updateRateLimiter (clock : Clock) (rateLimiter : Option RateLimiter)
    (params : Option RateLimitParams) : Option RateLimiter :=
  match params with
  | some param =>
    let limiter := rateLimiter.getD RateLimiter.default
    let limiter := match param.capacity with
      | some capacity => limiter.setCapacity clock capacity
      | none => limiter
    let limiter := match param.refillPerSecond with
      | some refillRate => limiter.setRate clock refillRate
      | none => limiter
    some limiter
  | none => none

/-- `if let Some(rate_limiter) = .. { rate_limiter.try_consume(amount)?; }`. -/
def consumeLimiter (clock : Clock) (limiter : Option RateLimiter) (amount : U64) :
    Result (Option RateLimiter) :=
  match limiter with
  | some rateLimiter => do
    let (rateLimiter, consumed) := rateLimiter.tryConsume clock amount
    consumed
    return some rateLimiter
  | none => return none

/-- `if let Some(rate_limiter) = .. { rate_limiter.refill(amount)?; }`. -/
def refillLimiter (clock : Clock) (limiter : Option RateLimiter) (amount : U64) :
    Option RateLimiter :=
  limiter.map (·.refill clock amount)

theorem consumeLimiter_eq_ok {clock : Clock} {limiter limiter' : Option RateLimiter}
    {amount : U64} :
    consumeLimiter clock limiter amount = .ok limiter' ↔
      (limiter = none ∧ limiter' = none) ∨ ∃ l, limiter = some l ∧
        (l.tryConsume clock amount).2 = .ok () ∧ limiter' = some (l.tryConsume clock amount).1 := by
  cases limiter with
  | none =>
    simp only [consumeLimiter, pure_eq_ok, true_and, reduceCtorEq, false_and, exists_false,
      or_false]
    exact eq_comm
  | some l =>
    simp only [consumeLimiter, bind_eq_ok, pure_eq_ok, reduceCtorEq, false_and, Option.some.injEq,
      exists_eq_left', false_or]
    constructor
    · rintro ⟨⟨⟩, hok, rfl⟩
      exact ⟨hok, rfl⟩
    · rintro ⟨hok, rfl⟩
      exact ⟨(), hok, rfl⟩

end FdfiToken
