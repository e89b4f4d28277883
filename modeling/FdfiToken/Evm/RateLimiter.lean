import FdfiToken.Evm.Runtime
import Mathlib.Logic.Function.Basic

/-!
# LayerZero's rate limiter

The utility both bridge contracts inherit: for each endpoint id an amount in flight that decays
over a window, taken as its documentation describes it. How the decay is rounded and how
configurations are written is left open.
-/

namespace FdfiToken.Evm

open Word Fallible

structure RateLimit where
  amountInFlight : U256
  lastUpdated : U256
  limit : U256
  window : U256
deriving DecidableEq

structure RateLimitConfig where
  dstEid : U32
  limit : U256
  window : U256
deriving DecidableEq

abbrev RateLimits := U32 → RateLimit

/-- `mapping` storage before anything is written. -/
def RateLimits.unset : RateLimits := fun _ => ⟨0, 0, 0, 0⟩

/-- What the limiter leaves open; configuring some lanes does not touch the others. -/
structure RateLimiter where
  decay : (limit window elapsed : U256) → Result U256
  setRateLimits : Msg → List RateLimitConfig → RateLimits → Result RateLimits
  untouched {msg : Msg} {configs : List RateLimitConfig} {rls rls' : RateLimits} {eid : U32} :
    setRateLimits msg configs rls = .ok rls' → (∀ c ∈ configs, c.dstEid ≠ eid) →
      rls' eid = rls eid

namespace RateLimiter

variable (lib : RateLimiter) (msg : Msg)

/-- `_amountCanBeSent`: what is still in flight, and the remaining capacity. -/
def amountCanBeSent (rl : RateLimit) : Result (U256 × U256) := do
  let elapsed ← orError .panic (checkedSub msg.timestamp rl.lastUpdated)
  if rl.window ≤ elapsed then
    pure (0, rl.limit)
  else do
    let decay ← lib.decay rl.limit rl.window elapsed
    let current := saturatingSub rl.amountInFlight decay
    pure (current, saturatingSub rl.limit current)

def outflow (dstEid : U32) (amount : U256) (rls : RateLimits) : Result RateLimits := do
  let (current, canBeSent) ← lib.amountCanBeSent msg (rls dstEid)
  require (amount ≤ canBeSent) .rateLimitExceeded
  let amountInFlight ← orError .panic (checkedAdd current amount)
  pure (Function.update rls dstEid
    { rls dstEid with amountInFlight, lastUpdated := msg.timestamp })

end RateLimiter

/-- `_inflow`; it cannot revert. -/
def RateLimits.inflow (srcEid : U32) (amount : U256) (rls : RateLimits) : RateLimits :=
  let rl := rls srcEid
  Function.update rls srcEid { rl with amountInFlight := saturatingSub rl.amountInFlight amount }

section Capacity

variable {lib : RateLimiter} {msg : Msg} {rl : RateLimit}

def RateLimiter.capacity (lib : RateLimiter) (msg : Msg) (rl : RateLimit) : Result U256 :=
  Prod.snd <$> lib.amountCanBeSent msg rl

private theorem RateLimiter.capacity_eq_ok {c : U256} : lib.capacity msg rl = .ok c ↔
    ∃ elapsed, checkedSub msg.timestamp rl.lastUpdated = some elapsed ∧
      (rl.window ≤ elapsed ∧ rl.limit = c ∨
        ¬ rl.window ≤ elapsed ∧ ∃ decay, lib.decay rl.limit rl.window elapsed = .ok decay ∧
          saturatingSub rl.limit (saturatingSub rl.amountInFlight decay) = c) := by
  simp only [RateLimiter.capacity, amountCanBeSent, map_eq_ok, bind_eq_ok, orError_eq_ok]
  constructor
  · intro h
    obtain ⟨pair, ⟨elapsed, helapsed, h⟩, rfl⟩ := h
    refine ⟨elapsed, helapsed, ?_⟩
    split at h
    · rename_i hwindow
      cases h
      exact .inl ⟨hwindow, rfl⟩
    · rename_i hwindow
      simp only [bind_eq_ok, pure_eq_ok] at h
      obtain ⟨decay, hdecay, rfl⟩ := h
      exact .inr ⟨hwindow, decay, hdecay, rfl⟩
  · intro h
    obtain ⟨elapsed, helapsed, h⟩ := h
    rcases h with ⟨hwindow, rfl⟩ | ⟨hwindow, decay, hdecay, rfl⟩
    · refine ⟨(0, rl.limit), ⟨elapsed, helapsed, ?_⟩, rfl⟩
      rw [if_pos hwindow]
      rfl
    · refine ⟨(saturatingSub rl.amountInFlight decay,
        saturatingSub rl.limit (saturatingSub rl.amountInFlight decay)),
        ⟨elapsed, helapsed, ?_⟩, rfl⟩
      rw [if_neg hwindow, hdecay]
      rfl

/-- With less in flight the query still answers, and with no less capacity. -/
theorem RateLimiter.capacity_mono {c amountInFlight : U256} (h : lib.capacity msg rl = .ok c)
    (hle : amountInFlight.toNat ≤ rl.amountInFlight.toNat) :
    ∃ c' : U256, lib.capacity msg { rl with amountInFlight } = .ok c' ∧ c.toNat ≤ c'.toNat := by
  obtain ⟨elapsed, helapsed, h⟩ := capacity_eq_ok.mp h
  rcases h with ⟨hwindow, rfl⟩ | ⟨hwindow, decay, hdecay, rfl⟩
  · exact ⟨rl.limit, capacity_eq_ok.mpr ⟨elapsed, helapsed, .inl ⟨hwindow, rfl⟩⟩, le_rfl⟩
  · refine ⟨_, capacity_eq_ok.mpr ⟨elapsed, helapsed, .inr ⟨hwindow, decay, hdecay, rfl⟩⟩, ?_⟩
    simp only [toNat_saturatingSub]
    omega

theorem RateLimiter.exists_capacity {c amountInFlight : U256}
    (h : lib.capacity msg { rl with amountInFlight } = .ok c) :
    ∃ c' : U256, lib.capacity msg rl = .ok c' := by
  obtain ⟨elapsed, helapsed, h⟩ := capacity_eq_ok.mp h
  rcases h with ⟨hwindow, -⟩ | ⟨hwindow, decay, hdecay, -⟩
  · exact ⟨_, capacity_eq_ok.mpr ⟨elapsed, helapsed, .inl ⟨hwindow, rfl⟩⟩⟩
  · exact ⟨_, capacity_eq_ok.mpr ⟨elapsed, helapsed, .inr ⟨hwindow, decay, hdecay, rfl⟩⟩⟩

theorem RateLimits.inflow_self (srcEid : U32) (amount : U256) (rls : RateLimits) :
    rls.inflow srcEid amount srcEid =
      { rls srcEid with amountInFlight := saturatingSub (rls srcEid).amountInFlight amount } :=
  Function.update_self ..

theorem RateLimits.inflow_of_ne {srcEid eid : U32} (amount : U256) (rls : RateLimits)
    (h : eid ≠ srcEid) : rls.inflow srcEid amount eid = rls eid := Function.update_of_ne h _ _

theorem RateLimiter.capacity_inflow {srcEid : U32} (amount : U256) {c : U256} {rls : RateLimits}
    (h : lib.capacity msg (rls srcEid) = .ok c) :
    ∃ c' : U256, lib.capacity msg (rls.inflow srcEid amount srcEid) = .ok c' ∧
      c.toNat ≤ c'.toNat := by
  rw [RateLimits.inflow_self]
  refine capacity_mono h ?_
  rw [toNat_saturatingSub]
  exact Nat.sub_le _ _

theorem RateLimits.inflow_zero (srcEid : U32) (rls : RateLimits) :
    rls.inflow srcEid 0 = rls := by
  have hsame : saturatingSub (rls srcEid).amountInFlight 0 = (rls srcEid).amountInFlight := by
    apply BitVec.eq_of_toNat_eq
    simp
  rw [RateLimits.inflow, hsame]
  exact Function.update_eq_self _ _

end Capacity

/-- An entry nobody configured: no limit, no window, nothing in flight. -/
structure RateLimit.Unset (now : U256) (rl : RateLimit) : Prop where
  amountInFlight : rl.amountInFlight = 0
  limit : rl.limit = 0
  window : rl.window = 0
  lastUpdated : rl.lastUpdated.toNat ≤ now.toNat

namespace RateLimit.Unset

variable {lib : RateLimiter} {msg : Msg} {now : U256} {rls : RateLimits} {eid : U32}

theorem amountCanBeSent {rl : RateLimit} (h : rl.Unset now)
    (hlater : now.toNat ≤ msg.timestamp.toNat) : lib.amountCanBeSent msg rl = .ok (0, 0) := by
  obtain ⟨elapsed, helapsed, -⟩ := exists_checkedSub (h.lastUpdated.trans hlater)
  rw [RateLimiter.amountCanBeSent, helapsed, h.window, h.limit]
  simp [orError, pure, Except.pure]

theorem outflow (h : (rls eid).Unset now) (hlater : now.toNat ≤ msg.timestamp.toNat)
    (amount : U256) : lib.outflow msg eid amount rls =
      if amount = 0 then .ok (Function.update rls eid ⟨0, msg.timestamp, 0, 0⟩)
      else .error .rateLimitExceeded := by
  rw [RateLimiter.outflow, h.amountCanBeSent hlater]
  split
  · rename_i hzero
    subst hzero
    simp [require, checkedAdd, fit, orError, h.limit, h.window]
  · rename_i hne
    have hlt : ¬ amount ≤ (0 : U256) := by
      rw [BitVec.le_def]
      exact fun hle => hne (BitVec.eq_of_toNat_eq (Nat.le_zero.mp hle))
    have hrefused : require (amount ≤ (0 : U256)) Revert.rateLimitExceeded = .error _ :=
      require_eq_error.mpr ⟨hlt, rfl⟩
    simp only [ok_bind, hrefused]
    rfl

end RateLimit.Unset

/-- How a call can change the entries: through the limiter's own operations only. -/
inductive RateLimiter.Change (lib : RateLimiter) (msg : Msg) :
    List RateLimitConfig → RateLimits → RateLimits → Prop
  | same (rls : RateLimits) : Change lib msg [] rls rls
  | outflow {eid : U32} {amount : U256} {rls rls' : RateLimits}
      (h : lib.outflow msg eid amount rls = .ok rls') : Change lib msg [] rls rls'
  | inflow (eid : U32) (amount : U256) (rls : RateLimits) :
      Change lib msg [] rls (rls.inflow eid amount)
  | configure {configs : List RateLimitConfig} {rls rls' : RateLimits}
      (h : lib.setRateLimits msg configs rls = .ok rls') : Change lib msg configs rls rls'

theorem RateLimiter.outflow_of_ne {lib : RateLimiter} {msg : Msg} {dstEid eid : U32}
    {amount : U256} {rls rls' : RateLimits} (h : lib.outflow msg dstEid amount rls = .ok rls')
    (hne : eid ≠ dstEid) : rls' eid = rls eid := by
  simp only [RateLimiter.outflow, bind_eq_ok, pure_eq_ok] at h
  obtain ⟨-, -, -, -, -, -, rfl⟩ := h
  exact Function.update_of_ne hne _ _

theorem RateLimit.Unset.change {lib : RateLimiter} {msg : Msg} {now : U256} {eid : U32}
    {configs : List RateLimitConfig} {rls rls' : RateLimits} (h : (rls eid).Unset now)
    (hlater : now.toNat ≤ msg.timestamp.toNat) (hchange : lib.Change msg configs rls rls')
    (hnone : ∀ c ∈ configs, c.dstEid ≠ eid) : (rls' eid).Unset msg.timestamp := by
  have hkeep : (rls eid).Unset msg.timestamp :=
    ⟨h.amountInFlight, h.limit, h.window, h.lastUpdated.trans hlater⟩
  cases hchange with
  | same => exact hkeep
  | @outflow dstEid amount _ _ hout =>
    by_cases heid : eid = dstEid
    · subst heid
      rw [h.outflow hlater] at hout
      split at hout
      · cases hout
        rw [Function.update_self]
        exact ⟨rfl, rfl, rfl, le_rfl⟩
      · cases hout
    · rw [RateLimiter.outflow_of_ne hout heid]
      exact hkeep
  | inflow srcEid amount =>
    by_cases heid : eid = srcEid
    · subst heid
      rw [RateLimits.inflow_self]
      refine ⟨?_, h.limit, h.window, hkeep.lastUpdated⟩
      apply BitVec.eq_of_toNat_eq
      rw [toNat_saturatingSub, h.amountInFlight]
      exact Nat.zero_sub _
    · rw [RateLimits.inflow_of_ne amount rls heid]
      exact hkeep
  | configure hset =>
    rw [lib.untouched hset hnone]
    exact hkeep

namespace RateLimiter

/-- `limit * elapsed / window`, checked. -/
def linearDecay (limit window elapsed : U256) : Result U256 := do
  let product ← orError .panic (checkedMul limit elapsed)
  orError .panic (checkedDiv product window)

def decaying : RateLimiter := ⟨linearDecay, fun _ _ rls => .ok rls, fun h _ => by cases h; rfl⟩

def configure (msg : Msg) (rls : RateLimits) (config : RateLimitConfig) : Result RateLimits := do
  let rls ← decaying.outflow msg config.dstEid 0 rls
  pure (Function.update rls config.dstEid
    { rls config.dstEid with limit := config.limit, window := config.window })

private theorem configure_untouched {msg : Msg} (configs : List RateLimitConfig)
    {rls rls' : RateLimits} {eid : U32} (h : configs.foldlM (configure msg) rls = .ok rls')
    (hnone : ∀ c ∈ configs, c.dstEid ≠ eid) : rls' eid = rls eid := by
  induction configs generalizing rls with
  | nil =>
    cases h
    rfl
  | cons config configs ih =>
    rw [List.foldlM_cons, bind_eq_ok] at h
    obtain ⟨rls₁, hfirst, hrest⟩ := h
    have hne := hnone config List.mem_cons_self
    rw [ih hrest fun c hc => hnone c (List.mem_cons_of_mem _ hc)]
    simp only [configure, bind_eq_ok, pure_eq_ok] at hfirst
    obtain ⟨rls₂, hout, rfl⟩ := hfirst
    rw [Function.update_of_ne (Ne.symm hne), outflow_of_ne hout (Ne.symm hne)]

def reference : RateLimiter where
  decay := linearDecay
  setRateLimits msg configs rls := configs.foldlM (configure msg) rls
  untouched h hnone := configure_untouched _ h hnone

end RateLimiter

end FdfiToken.Evm
