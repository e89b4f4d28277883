import FdfiToken.Evm.Lanes
import FdfiToken.Lib.LeakyBucket
import Mathlib.Algebra.BigOperators.Ring.List

/-!
# Flow through a lane

Where the limiter decays linearly an entry is a leaky bucket: debits are paid from its headroom
and an adapter's credits add to it. Whatever a contract is called for, what it lets out through
a lane is bounded by the lane's limit and what leaks in the meantime.
-/

namespace FdfiToken.Evm

open Word Fallible Runs

/-- Linear decay: in no time more leaks than the limit allows for it. -/
def RateLimiter.Linear (lib : RateLimiter) : Prop :=
  ∀ limit window elapsed decay, lib.decay limit window elapsed = .ok decay →
    decay.toNat * window.toNat ≤ limit.toNat * elapsed.toNat

def RateLimit.bucket (rl : RateLimit) : LeakyBucket where
  limit := rl.limit.toNat
  window := rl.window.toNat
  level := rl.amountInFlight.toNat
  since := rl.lastUpdated.toNat

def BridgeCall.debitedTo {σ : Type} (dstEid : U32) : BridgeCall σ → ℕ
  | .debit _ amountLD _ eid => if eid = dstEid then amountLD.toNat else 0
  | _ => 0

/-- The lane keeps its settings, and what left on balance is paid from its headroom. -/
structure RateLimits.Pays (eid : U32) (now : ℕ) (net : ℤ) (rls rls' : RateLimits) : Prop where
  limit : (rls' eid).limit = (rls eid).limit
  window : (rls' eid).window = (rls eid).window
  paid : net * (rls eid).window.toNat + (rls' eid).bucket.headroom now ≤
    (rls eid).bucket.headroom now

section Operations

variable {lib : RateLimiter} {msg : Msg} {eid : U32} {rls rls' : RateLimits}

private theorem RateLimits.Pays.of_eq {now : ℕ} (h : rls' eid = rls eid) :
    rls.Pays eid now 0 rls' where
  limit := by rw [h]
  window := by rw [h]
  paid := by rw [h, zero_mul, zero_add]

private theorem RateLimiter.amountCanBeSent_leaked (hlinear : lib.Linear) {rl : RateLimit}
    {current canBeSent : U256} (h : lib.amountCanBeSent msg rl = .ok (current, canBeSent)) :
    rl.bucket.Leaked msg.timestamp.toNat current.toNat ∧
      canBeSent.toNat = rl.limit.toNat - current.toNat := by
  simp only [amountCanBeSent, bind_eq_ok, orError_eq_ok, checkedSub_eq_some] at h
  obtain ⟨elapsed, helapsed, h⟩ := h
  have hsince : elapsed.toNat = msg.timestamp.toNat - rl.bucket.since :=
    Nat.eq_sub_of_add_eq helapsed
  split at h
  · rename_i hover
    cases h
    rw [BitVec.le_def, hsince] at hover
    exact ⟨.inl ⟨hover, rfl⟩, rfl⟩
  · simp only [bind_eq_ok, pure_eq_ok, Prod.mk.injEq] at h
    obtain ⟨decay, hdecay, rfl, rfl⟩ := h
    have hle := hlinear _ _ _ _ hdecay
    rw [hsince] at hle
    refine ⟨.inr ⟨decay.toNat, hle, toNat_saturatingSub ..⟩, toNat_saturatingSub ..⟩

private theorem RateLimiter.outflow_pays (hlinear : lib.Linear) {amount : U256}
    (h : lib.outflow msg eid amount rls = .ok rls') :
    rls.Pays eid msg.timestamp.toNat amount.toNat rls' := by
  simp only [outflow, bind_eq_ok, Prod.exists, require_eq_ok, orError_eq_ok, checkedAdd_eq_some,
    pure_eq_ok] at h
  obtain ⟨current, canBeSent, hcan, -, hamount, inFlight, hinFlight, rfl⟩ := h
  obtain ⟨hleaked, hcan⟩ := amountCanBeSent_leaked hlinear hcan
  rw [BitVec.le_def, hcan] at hamount
  have hpaid := LeakyBucket.headroom_admit _ hleaked hamount
  rw [← hinFlight] at hpaid
  refine ⟨?_, ?_, ?_⟩
  · rw [Function.update_self]
  · rw [Function.update_self]
  · rw [Function.update_self]
    exact_mod_cast hpaid

private theorem RateLimits.inflow_bucket (eid : U32) (amount : U256) (rls : RateLimits) :
    (rls.inflow eid amount eid).bucket =
      ⟨(rls eid).bucket.limit, (rls eid).bucket.window, (rls eid).bucket.level - amount.toNat,
        (rls eid).bucket.since⟩ := by
  rw [inflow_self, RateLimit.bucket, toNat_saturatingSub]
  rfl

private theorem RateLimits.inflow_pays (eid : U32) (amount : U256) (rls : RateLimits) (now : ℕ) :
    rls.Pays eid now (-amount.toNat) (rls.inflow eid amount) := by
  have hrefund := (rls eid).bucket.headroom_refund now amount.toNat
  rw [← inflow_bucket] at hrefund
  refine ⟨?_, ?_, ?_⟩
  · rw [inflow_self]
  · rw [inflow_self]
  · change _ ≤ _ + amount.toNat * (rls eid).window.toNat at hrefund
    rw [neg_mul]
    norm_cast
    omega

end Operations

section Calls

variable {σ : Type} {lib : RateLimiter} {core : OFTBase σ} {msg : Msg} {call : BridgeCall σ}
  {eid : U32}

/-- An adapter pays for what it sends and gets back what it pays out, unless the lane is set. -/
theorem FDFIOFTAdapter.exec_pays (hlinear : lib.Linear) {a a' : FDFIOFTAdapter σ}
    (hkeep : ∀ config ∈ call.configs, config.dstEid ≠ eid) (h : a.exec lib core msg call = .ok a') :
    a.rateLimits.Pays eid msg.timestamp.toNat (call.debitedTo eid - call.creditedFrom eid)
      a'.rateLimits := by
  cases call with
  | debit src amountLD minAmountLD dstEid =>
    simp only [exec, _debit, map_eq_ok, bind_eq_ok, pure_eq_ok] at h
    obtain ⟨-, ⟨rls, hout, -, -, -, -, rfl⟩, rfl⟩ := h
    by_cases heid : dstEid = eid
    · subst heid
      simpa [BridgeCall.debitedTo, BridgeCall.creditedFrom] using
        RateLimiter.outflow_pays hlinear hout
    · simpa [BridgeCall.debitedTo, BridgeCall.creditedFrom, heid] using
        RateLimits.Pays.of_eq (RateLimiter.outflow_of_ne hout (Ne.symm heid))
  | credit dst amountLD srcEid =>
    simp only [exec, _credit, map_eq_ok, bind_eq_ok, pure_eq_ok] at h
    obtain ⟨-, ⟨-, -, -, -, rfl⟩, rfl⟩ := h
    by_cases heid : srcEid = eid
    · subst heid
      simpa [BridgeCall.debitedTo, BridgeCall.creditedFrom] using
        RateLimits.inflow_pays srcEid amountLD a.rateLimits msg.timestamp.toNat
    · simpa [BridgeCall.debitedTo, BridgeCall.creditedFrom, heid] using
        RateLimits.Pays.of_eq (RateLimits.inflow_of_ne amountLD a.rateLimits (Ne.symm heid))
  | setRateLimits rateLimitConfigs =>
    simp only [exec, setRateLimits, bind_eq_ok, pure_eq_ok] at h
    obtain ⟨-, -, rls, hset, rfl⟩ := h
    exact .of_eq (lib.untouched hset hkeep)
  | setRateLimiter rateLimiter_ =>
    simp only [exec, setRateLimiter, bind_eq_ok, pure_eq_ok] at h
    obtain ⟨-, -, rfl⟩ := h
    exact .of_eq rfl
  | transferOwnership newOwner =>
    simp only [exec, transferOwnership, bind_eq_ok, pure_eq_ok] at h
    obtain ⟨-, -, -, -, rfl⟩ := h
    exact .of_eq rfl
  | acceptOwnership => cases h
  | renounceOwnership =>
    simp only [exec, renounceOwnership, bind_eq_ok, pure_eq_ok] at h
    obtain ⟨-, -, rfl⟩ := h
    exact .of_eq rfl
  | outside base =>
    cases h
    exact .of_eq rfl

private theorem FDFIOFTUpgradeable.exec_pays (hlinear : lib.Linear) {c c' : FDFIOFTUpgradeable σ}
    (hkeep : ∀ config ∈ call.configs, config.dstEid ≠ eid) (h : c.exec lib core msg call = .ok c') :
    c.rateLimits.Pays eid msg.timestamp.toNat (call.debitedTo eid) c'.rateLimits := by
  cases call with
  | debit src amountLD minAmountLD dstEid =>
    simp only [exec, _debit, map_eq_ok, bind_eq_ok, pure_eq_ok] at h
    obtain ⟨-, ⟨rls, hout, -, -, rfl⟩, rfl⟩ := h
    by_cases heid : dstEid = eid
    · subst heid
      simpa [BridgeCall.debitedTo] using RateLimiter.outflow_pays hlinear hout
    · simpa [BridgeCall.debitedTo, heid] using
        RateLimits.Pays.of_eq (RateLimiter.outflow_of_ne hout (Ne.symm heid))
  | credit dst amountLD srcEid =>
    simp only [exec, _credit, map_eq_ok, bind_eq_ok, pure_eq_ok] at h
    obtain ⟨-, ⟨-, -, rfl⟩, rfl⟩ := h
    exact .of_eq rfl
  | setRateLimits rateLimitConfigs =>
    simp only [exec, setRateLimits, bind_eq_ok, pure_eq_ok] at h
    obtain ⟨-, -, rls, hset, rfl⟩ := h
    exact .of_eq (lib.untouched hset hkeep)
  | setRateLimiter rateLimiter_ =>
    simp only [exec, setRateLimiter, bind_eq_ok, pure_eq_ok] at h
    obtain ⟨-, -, rfl⟩ := h
    exact .of_eq rfl
  | outside base =>
    cases h
    exact .of_eq rfl
  | _ =>
    obtain ⟨-, -, rfl⟩ := withOwnable_eq_ok.mp h
    exact .of_eq rfl

end Calls

section Runs

variable {κ σ : Type} {exec : Msg → BridgeCall σ → κ → Result κ} {c c' : Clocked κ}
  {ls : List (Msg × BridgeCall σ)} {eid : U32}

private theorem Clocked.run_times (h : Run (Clocked.Step exec) c ls c') :
    c.now.toNat ≤ c'.now.toNat ∧
      (∀ l ∈ ls, c.now.toNat ≤ l.1.timestamp.toNat ∧ l.1.timestamp.toNat ≤ c'.now.toNat) ∧
      ls.Pairwise fun l m => l.1.timestamp.toNat ≤ m.1.timestamp.toNat := by
  induction h with
  | nil c => simp
  | @cons c c₁ c₂ l ls head _ ih =>
    obtain ⟨hle, hbetween, hsorted⟩ := ih
    have hlater := head.later
    rw [head.now] at hle hbetween
    refine ⟨hlater.trans hle, ?_, List.pairwise_cons.mpr ⟨fun m hm => (hbetween m hm).1, hsorted⟩⟩
    intro m hm
    rcases List.mem_cons.mp hm with rfl | hm
    · exact ⟨hlater, hle⟩
    · exact ⟨hlater.trans (hbetween m hm).1, (hbetween m hm).2⟩

/-- What leaves a lane on balance is bounded where every call pays for it. -/
theorem Clocked.lane_bounded (limits : κ → RateLimits) (net : BridgeCall σ → ℤ)
    (hpays : ∀ msg call k k', (∀ config ∈ call.configs, config.dstEid ≠ eid) →
      exec msg call k = .ok k' →
        (limits k).Pays eid msg.timestamp.toNat (net call) (limits k'))
    (h : Run (Clocked.Step exec) c ls c')
    (hkeep : ∀ l ∈ ls, ∀ config ∈ l.2.configs, config.dstEid ≠ eid) :
    (ls.map fun l => net l.2).sum * (limits c.contract eid).window.toNat ≤
      (limits c.contract eid).limit.toNat * (limits c.contract eid).window.toNat +
        (limits c.contract eid).limit.toNat * ((c'.now.toNat : ℤ) - c.now.toNat) := by
  obtain ⟨hle, hbetween, hsorted⟩ := Clocked.run_times h
  generalize hlimit : (limits c.contract eid).limit.toNat = L
  generalize hwindow : (limits c.contract eid).window.toNat = W
  have hbound := (h.restrict hkeep).metered
    (I := fun s => (limits s.contract eid).limit.toNat = L ∧
      (limits s.contract eid).window.toNat = W)
    (fun l => l.1.timestamp.toNat) (fun l => net l.2 * W)
    (fun s t => (limits s.contract eid).bucket.headroom t) L ?_ ?_ ?_ ⟨hlimit, hwindow⟩ hsorted
    hbetween hle
  · have hstart := (limits c.contract eid).bucket.headroom_le c.now.toNat
    change _ ≤ (limits c.contract eid).limit.toNat * (limits c.contract eid).window.toNat at hstart
    rw [hlimit, hwindow] at hstart
    rw [List.sum_map_mul_right] at hbound
    zify at hstart
    linarith [Int.natCast_nonneg ((limits c'.contract eid).bucket.headroom c'.now.toNat)]
  · intro s l s' hs hstep
    have hcall := hpays _ _ _ _ hstep.1 hstep.2.exec
    rw [hcall.limit, hcall.window]
    exact hs
  · intro s t t' hs ht
    have haccrues := (limits s.contract eid).bucket.headroom_accrues ht
    change _ ≤ _ + (limits s.contract eid).limit.toNat * (t' - t) at haccrues
    rw [hs.1] at haccrues
    zify [ht] at haccrues
    exact haccrues
  · intro s l s' hs hstep
    have hcall := (hpays _ _ _ _ hstep.1 hstep.2.exec).paid
    rwa [hs.2] at hcall

end Runs

/-- Over any run of an adapter, whatever is called in it, that does not set the lane of an
endpoint, what is debited to the endpoint less what is credited from it is at most the lane's
limit and what leaks in the meantime. A satellite's credits do not count against its debits. All
amounts are times the window. -/
theorem lane_flow_bounded {σ τ : Type} {lib : RateLimiter} (hlinear : lib.Linear)
    (core : OFTBase σ) (token : OFTBase τ) (eid : U32) :
    (∀ (c c' : Clocked (FDFIOFTAdapter σ)) ls,
      Run (Clocked.Step (FDFIOFTAdapter.exec lib core)) c ls c' →
      (∀ l ∈ ls, ∀ config ∈ l.2.configs, config.dstEid ≠ eid) →
      ((ls.map fun l => (l.2.debitedTo eid : ℤ) - l.2.creditedFrom eid).sum) *
          (c.contract.rateLimits eid).window.toNat ≤
        (c.contract.rateLimits eid).limit.toNat * (c.contract.rateLimits eid).window.toNat +
          (c.contract.rateLimits eid).limit.toNat * ((c'.now.toNat : ℤ) - c.now.toNat)) ∧
    ∀ (c c' : Clocked (FDFIOFTUpgradeable τ)) ls,
      Run (Clocked.Step (FDFIOFTUpgradeable.exec lib token)) c ls c' →
      (∀ l ∈ ls, ∀ config ∈ l.2.configs, config.dstEid ≠ eid) →
      ((ls.map fun l => (l.2.debitedTo eid : ℤ)).sum) *
          (c.contract.rateLimits eid).window.toNat ≤
        (c.contract.rateLimits eid).limit.toNat * (c.contract.rateLimits eid).window.toNat +
          (c.contract.rateLimits eid).limit.toNat * ((c'.now.toNat : ℤ) - c.now.toNat) := by
  constructor
  · intro c c' ls hrun hkeep
    exact Clocked.lane_bounded FDFIOFTAdapter.rateLimits
      (fun call => (call.debitedTo eid : ℤ) - call.creditedFrom eid)
      (fun _ _ _ _ hcall hexec => FDFIOFTAdapter.exec_pays hlinear hcall hexec) hrun hkeep
  · intro c c' ls hrun hkeep
    exact Clocked.lane_bounded FDFIOFTUpgradeable.rateLimits (fun call => (call.debitedTo eid : ℤ))
      (fun _ _ _ _ hcall hexec => FDFIOFTUpgradeable.exec_pays hlinear hcall hexec) hrun hkeep

private theorem RateLimiter.reference_linear : RateLimiter.reference.Linear := by
  intro limit window elapsed decay h
  change linearDecay limit window elapsed = .ok decay at h
  simp only [linearDecay, bind_eq_ok, orError_eq_ok, checkedMul_eq_some, checkedDiv_eq_some] at h
  obtain ⟨product, hproduct, -, hdecay⟩ := h
  rw [hdecay, ← hproduct]
  exact Nat.div_mul_le_self _ _

namespace Reference

def callAt (timestamp : U256) {σ : Type} (call : BridgeCall σ) : Msg × BridgeCall σ :=
  (⟨5, timestamp, 1, by decide⟩, call)

def hourlyCalls : List (Msg × BridgeCall (FDFIToken .reference)) := [
  callAt 10 (.debit 5 1000000000000 0 7),
  callAt 20 (.credit 6 1000000000000 7),
  callAt 30 (.debit 5 1000000000000 0 7)]

def callAll {κ σ : Type} (exec : Msg → BridgeCall σ → κ → Result κ) (k : κ)
    (ls : List (Msg × BridgeCall σ)) : Result κ := ls.foldlM (fun k l => exec l.1 l.2 k) k

private theorem callAll_run {κ σ : Type} {exec : Msg → BridgeCall σ → κ → Result κ}
    (ls : List (Msg × BridgeCall σ)) {c : Clocked κ} {k : κ}
    (h : callAll exec c.contract ls = .ok k)
    (hsorted : (c.now :: ls.map fun l => l.1.timestamp).Pairwise fun a b => a.toNat ≤ b.toNat) :
    Run (Clocked.Step exec) c ls
      ⟨((ls.map fun l => l.1.timestamp).getLast?).getD c.now, k⟩ := by
  induction ls generalizing c with
  | nil =>
    cases h
    exact .nil c
  | cons l ls ih =>
    simp only [callAll, List.foldlM_cons, bind_eq_ok] at h
    obtain ⟨k₁, hfirst, hrest⟩ := h
    rw [List.map_cons, List.pairwise_cons] at hsorted
    have htail := ih (c := ⟨l.1.timestamp, k₁⟩) hrest hsorted.2
    rw [List.map_cons, List.getLast?_cons, Option.getD_some]
    exact .cons ⟨hsorted.1 _ List.mem_cons_self, rfl, hfirst⟩ htail

private theorem hourlyCalls_ok :
    (callAll (FDFIOFTAdapter.exec .reference core) limitedAdapter.contract
    hourlyCalls).isOk = true := by decide

def limitedSatellite : Result (FDFIOFTUpgradeable OFTToken) := do
  let c ← (FDFIOFTUpgradeable.deployed .deployed).init .reference OFTToken.base (msgOf 1) hourly 1
  c.exec .reference OFTToken.base (msgOf 9) (.credit 5 8000000000000 7)

theorem limitedSatellite_ok : limitedSatellite.isOk = true := by decide

def satelliteCalls : List (Msg × BridgeCall OFTToken) := [
  callAt 10 (.debit 5 1000000000000 0 7),
  callAt 3610 (.debit 5 1000000000000 0 7)]

private theorem satelliteCalls_ok : (callAll (FDFIOFTUpgradeable.exec .reference OFTToken.base)
    (value _ limitedSatellite_ok) satelliteCalls).isOk = true := by decide

theorem lane_flow_bounded_sample :
    ((hourlyCalls.map fun l => (l.2.debitedTo 7 : ℤ) - l.2.creditedFrom 7).sum = 1000000000000 ∧
      (1000000000000 : ℤ) * 3600 ≤ 1000000000000 * 3600 + 1000000000000 * (30 - 1)) ∧
      (satelliteCalls.map fun l => (l.2.debitedTo 7 : ℤ)).sum = 2000000000000 ∧
      (2000000000000 : ℤ) * 3600 ≤ 1000000000000 * 3600 + 1000000000000 * (3610 - 1) := by
  have hadapter := callAll_run (c := limitedAdapter) hourlyCalls (eq_ok_value _ hourlyCalls_ok)
    (by decide)
  have hsatellite := callAll_run (c := ⟨1, value _ limitedSatellite_ok⟩) satelliteCalls
    (eq_ok_value _ satelliteCalls_ok) (by decide)
  have hbound := lane_flow_bounded RateLimiter.reference_linear core OFTToken.base 7
  exact ⟨⟨by decide, hbound.1 _ _ _ hadapter (by decide)⟩, by decide,
    hbound.2 _ _ _ hsatellite (by decide)⟩

end Reference

end FdfiToken.Evm
