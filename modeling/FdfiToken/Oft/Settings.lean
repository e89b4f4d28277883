import FdfiToken.Oft.NetFlow
import Mathlib.Algebra.BigOperators.Ring.Finset

/-!
# Limits that change

A limiter may be set while its lane is in use. A new rate applies from then on; a capacity, even
the one it had before, comes with a full bucket. So what a lane moves on balance is bounded by
what it held, what each setting handed out and what accrued.
-/

namespace FdfiToken

open Word Fallible Runs

/-- The setting of a limiter that an event makes; `some none` takes the limiter away. -/
def Event.setting (d : Direction) (eid : U32) : Event → Option (Option RateLimitParams)
  | .executed _ (.setPeerConfig _ params) _ =>
    if params.remoteEid = eid then params.config.limits d else none
  | _ => none

def RateLimitParams.granted (params : RateLimitParams) : ℕ :=
  (params.capacity.map (·.toNat)).getD 0

def Event.granted (d : Direction) (eid : U32) (e : Event) : ℕ :=
  match e.setting d eid with
  | some (some params) => params.granted
  | _ => 0

/-- A setting keeps a limiter, with no higher rate than `r`. -/
def Event.SetsWithin (d : Direction) (eid : U32) (r : ℕ) (e : Event) : Prop :=
  ∀ setting ∈ e.setting d eid, ∃ params ∈ setting, (params.refillPerSecond.map (·.toNat)).getD 0 ≤ r

instance (d : Direction) (eid : U32) (r : ℕ) (e : Event) : Decidable (e.SetsWithin d eid r) :=
  inferInstanceAs (Decidable (∀ setting ∈ e.setting d eid, ∃ params ∈ setting, _ ≤ r))

/-- The event moves something through the lane or sets its limiter. -/
def Event.touches (d : Direction) (eid : U32) (e : Event) : Bool :=
  e.flows eid || (e.setting d eid).isSome

private theorem RateLimiter.setCapacity_available (l : RateLimiter) (clock : Clock) (capacity : U64)
    (t : ℕ) : (l.setCapacity clock capacity).available t = capacity.toNat := by
  simp only [setCapacity, available]
  omega

private theorem RateLimiter.setRate_available (l : RateLimiter) (clock : Clock) (rate : U64) :
    (l.setRate clock rate).available clock.unixTimestamp = l.available clock.unixTimestamp := by
  have hle := l.available_le clock.unixTimestamp
  change min l.capacity.toNat ((l.refill clock 0).tokens.toNat +
    (clock.unixTimestamp - clock.currentTime.toNat) * rate.toNat) = _
  rw [Clock.toNat_currentTime, Nat.sub_self, Nat.zero_mul, l.refill_zero_tokens]
  omega

private theorem updateRateLimiter_available (l : RateLimiter) (clock : Clock)
    (params : RateLimitParams) :
    ∃ l', updateRateLimiter clock (some l) (some params) = some l' ∧
      l'.available clock.unixTimestamp ≤ l.available clock.unixTimestamp + params.granted ∧
      (l'.refillPerSecond = l.refillPerSecond ∨
        params.refillPerSecond = some l'.refillPerSecond) := by
  obtain ⟨rate, capacity⟩ := params
  have hcapacity (capacity : U64) :
      (l.setCapacity clock capacity).available clock.unixTimestamp ≤
        l.available clock.unixTimestamp + capacity.toNat := by
    rw [l.setCapacity_available]
    exact Nat.le_add_left _ _
  cases capacity with
  | none =>
    cases rate with
    | none => exact ⟨l, rfl, Nat.le_add_right _ _, .inl rfl⟩
    | some rate => exact ⟨_, rfl, (l.setRate_available clock rate).le, .inr rfl⟩
  | some capacity =>
    cases rate with
    | none => exact ⟨_, rfl, hcapacity capacity, .inl rfl⟩
    | some rate =>
      refine ⟨_, rfl, ?_, .inr rfl⟩
      rw [RateLimiter.setRate_available]
      exact hcapacity capacity

private theorem Event.setting_of_reconfigures {d : Direction} {eid : U32} {e : Event}
    (h : e.reconfigures d eid = true) :
    ∃ clock setting, e.time = clock.unixTimestamp ∧ e.setting d eid = some setting ∧
      e.limiterCall d eid = some ⟨clock, .update setting, false⟩ ∧ e.net d eid = 0 := by
  cases e with
  | executed clock i o =>
    cases i with
    | setPeerConfig admin params =>
      simp only [reconfigures, Bool.and_eq_true, decide_eq_true_eq, Option.isSome_iff_exists] at h
      obtain ⟨heid, setting, hset⟩ := h
      refine ⟨clock, setting, rfl, ?_, ?_, ?_⟩
      · rw [Event.setting, if_pos heid, hset]
      · rw [limiterCall, if_pos heid, hset, Option.map_some]
      · cases d <;> rfl
    | _ => cases h
  | _ => cases h

private theorem Event.setting_eq_none {d : Direction} {eid : U32} {e : Event}
    (h : e.reconfigures d eid = false) : e.setting d eid = none := by
  cases e with
  | executed clock i o =>
    cases i with
    | setPeerConfig admin params =>
      simp only [reconfigures, Bool.and_eq_false_imp, decide_eq_true_eq] at h
      simp only [setting]
      split
      · rename_i heid
        simpa using h heid
      · rfl
    | _ => rfl
  | _ => rfl

/-- The limiter is there and refills at no more than `r`. -/
def World.RateWithin (w : World) (d : Direction) (eid : U32) (r : ℕ) : Prop :=
  ∃ l, w.limiter d eid = some l ∧ l.refillPerSecond.toNat ≤ r

section Bound

variable {rt : Runtime} {d : Direction} {eid : U32} {w w' : World} {e : Event} {r : ℕ}

/-- A setting pays for what it hands out. -/
theorem Step.settles (h : Step rt w e w') (hw : w.RateWithin d eid r)
    (hset : e.SetsWithin d eid r) (hconf : e.reconfigures d eid = true) :
    w'.RateWithin d eid r ∧ e.net d eid - e.granted d eid + headroom (w'.limiter d eid) e.time ≤
      headroom (w.limiter d eid) e.time := by
  obtain ⟨l, hl, hrate⟩ := hw
  obtain ⟨clock, setting, htime, hsetting, hcall, hnet⟩ := Event.setting_of_reconfigures hconf
  obtain ⟨params, rfl, hwithin⟩ := hset setting hsetting
  have hmoves := h.moves d eid
  rw [hcall, hl] at hmoves
  obtain ⟨l', hl', havailable, hrates⟩ := updateRateLimiter_available l clock params
  have hw' : w'.limiter d eid = some l' := (congrArg Prod.fst hmoves).symm.trans hl'
  refine ⟨⟨l', hw', ?_⟩, ?_⟩
  · rcases hrates with hsame | hnew
    · rw [hsame]
      exact hrate
    · rw [hnew] at hwithin
      exact hwithin
  · have hgranted : e.granted d eid = params.granted := by rw [Event.granted, hsetting]
    rw [hnet, hgranted, hw', hl, htime]
    change 0 - (params.granted : ℤ) + (l'.available clock.unixTimestamp : ℕ) ≤
      (l.available clock.unixTimestamp : ℕ)
    omega

theorem Step.touched (h : Step rt w e w') (hw : w.RateWithin d eid r)
    (hset : e.SetsWithin d eid r) (htouch : e.touches d eid = true) :
    w'.RateWithin d eid r ∧ e.net d eid - e.granted d eid + headroom (w'.limiter d eid) e.time ≤
      headroom (w.limiter d eid) e.time := by
  cases hconf : e.reconfigures d eid with
  | true => exact h.settles hw hset hconf
  | false =>
    obtain ⟨l, hl, hrate⟩ := hw
    have hnone := Event.setting_eq_none hconf
    have hflow : e.flows eid = true := by
      rw [Event.touches, hnone] at htouch
      simpa using htouch
    have hgranted : e.granted d eid = 0 := by rw [Event.granted, hnone]
    obtain ⟨⟨l', hl', -, hsame⟩, hpays⟩ := h.pays hconf ⟨l, hl, rfl, rfl⟩ hflow
    refine ⟨⟨l', hl', hsame ▸ hrate⟩, ?_⟩
    rw [hgranted]
    simpa using hpays

theorem Step.untouched (h : Step rt w e w') (htouch : e.touches d eid = false) :
    w'.limiter d eid = w.limiter d eid ∧ e.net d eid - e.granted d eid = 0 := by
  obtain ⟨hflow, hsome⟩ := Bool.or_eq_false_iff.mp htouch
  have hnone : e.setting d eid = none := Option.not_isSome_iff_eq_none.mp (by simp [hsome])
  have hconf : e.reconfigures d eid = false := by
    by_contra htrue
    obtain ⟨_, setting, -, hsetting, -⟩ :=
      Event.setting_of_reconfigures (Bool.not_eq_false _ ▸ htrue)
    rw [hnone] at hsetting
    cases hsetting
  obtain ⟨hsame, hzero⟩ := h.idle hconf hflow
  have hgranted : e.granted d eid = 0 := by rw [Event.granted, hnone]
  exact ⟨hsame, by rw [hzero, hgranted]; rfl⟩

theorem World.RateWithin.headroom_le (hw : w.RateWithin d eid r) {t t' : ℕ} (hle : t ≤ t') :
    headroom (w.limiter d eid) t' ≤ headroom (w.limiter d eid) t + r * ((t' : ℤ) - t) := by
  obtain ⟨l, hl, hrate⟩ := hw
  have haccrues := l.available_accrues hle
  have hgap : (0 : ℤ) ≤ (t' : ℤ) - t := by omega
  have hmul : (l.refillPerSecond.toNat : ℤ) * ((t' : ℤ) - t) ≤ r * ((t' : ℤ) - t) :=
    mul_le_mul_of_nonneg_right (by exact_mod_cast hrate) hgap
  rw [hl]
  change (l.available t' : ℤ) ≤ l.available t + r * ((t' : ℤ) - t)
  linarith

private theorem Step.rateWithin (h : Step rt w e w') (hw : w.RateWithin d eid r)
    (hset : e.SetsWithin d eid r) : w'.RateWithin d eid r := by
  cases htouch : e.touches d eid with
  | true => exact (h.touched hw hset htouch).1
  | false =>
    rw [World.RateWithin, (h.untouched htouch).1]
    exact hw

private theorem sum_net_granted (d : Direction) (eid : U32) (events : List Event) :
    (events.map fun e => e.net d eid - (e.granted d eid : ℤ)).sum =
      d.net (events.map (Event.sentTo eid)).sum (events.map (Event.receivedFrom eid)).sum -
        ((events.map (Event.granted d eid)).sum : ℤ) := by
  have hdifference := Multiset.sum_map_sub (m := (events : Multiset Event))
    (f := Event.net d eid) (g := fun e => (e.granted d eid : ℤ))
  simp only [Multiset.map_coe, Multiset.sum_coe] at hdifference
  have hsum := d.sum_net (Event.sentTo eid) (Event.receivedFrom eid) events
  change (events.map (Event.net d eid)).sum = _ at hsum
  have hgranted : ((events.map (Event.granted d eid)).sum : ℤ) =
      (events.map fun e => (e.granted d eid : ℤ)).sum := by
    rw [Nat.cast_list_sum, List.map_map]
    rfl
  rw [hdifference, hsum, hgranted]

/-- Over any part of a run in which a limiter is set at will but never taken away, what its lane
moves on balance is at most what the limiter held, what each setting handed out and what accrues
at the highest rate set. -/
theorem net_flow_across_settings {l : RateLimiter} {events : List Event}
    (hrun : Run (Step rt) w events w') (hl : w.limiter d eid = some l)
    (hrate : l.refillPerSecond.toNat ≤ r) (hset : ∀ e ∈ events, e.SetsWithin d eid r) {t₁ t₂ : ℕ}
    (hsorted : (events.filter (Event.touches d eid)).Pairwise fun a b => a.time ≤ b.time)
    (hfirst : ∀ e ∈ events, e.touches d eid = true → t₁ ≤ e.time)
    (hlast : ∀ e ∈ events, e.touches d eid = true → e.time ≤ t₂) (ht : t₁ ≤ t₂) :
    d.net (events.map (Event.sentTo eid)).sum (events.map (Event.receivedFrom eid)).sum ≤
      l.available t₁ + (events.map (Event.granted d eid)).sum + r * ((t₂ : ℤ) - t₁) := by
  have hbound := (hrun.restrict hset).amortised (I := fun w => w.RateWithin d eid r)
    (V := fun w t => headroom (w.limiter d eid) t)
    (fun _ _ _ hw hstep => hstep.2.rateWithin hw hstep.1)
    (fun _ _ _ hw hle => hw.headroom_le hle)
    (fun _ _ _ hw hstep htouch => (hstep.2.touched hw hstep.1 htouch).2)
    (fun _ _ _ _ hstep htouch => by
      obtain ⟨hsame, hzero⟩ := hstep.2.untouched htouch
      exact ⟨hzero, fun t => by rw [hsame]⟩)
    ⟨l, hl, hrate⟩ hsorted hfirst hlast ht
  have hrest : 0 ≤ headroom (w'.limiter d eid) t₂ := by
    unfold headroom
    split <;> simp
  rw [sum_net_granted, hl] at hbound
  change _ ≤ (l.available t₁ : ℤ) + _ at hbound
  linarith

end Bound

namespace Reference

def resetRequests : List (Clock × Instruction) := [
  send (clockAt 20) 7 (Bytes32.fill 33) 400000 none,
  setPeer (clockAt 25) 7 (.outboundRateLimit (some ⟨none, some 400000⟩)),
  send (clockAt 30) 7 (Bytes32.fill 33) 400000 none]

def resetRun : World × List Event := replay runtime endpoint limitedStore resetRequests

theorem net_flow_across_settings_sample :
    400000 + 5 * 10 < (resetRun.2.map (Event.sentTo 7)).sum ∧
      Direction.net .outbound (resetRun.2.map (Event.sentTo 7)).sum
        (resetRun.2.map (Event.receivedFrom 7)).sum ≤
          400000 + 400000 + 5 * ((30 : ℕ) - (20 : ℕ) : ℤ) := by
  refine ⟨by decide, ?_⟩
  have hrun : Run (Step runtime) limitedStore resetRun.2 resetRun.1 :=
    replay_run resetRequests limitedStore (by decide)
  have hl : limitedStore.limiter .outbound 7 = some ⟨400000, 400000, 5, 10⟩ := rfl
  have hset : ∀ e ∈ resetRun.2, e.SetsWithin .outbound 7 5 := by decide
  have hfirst : ∀ e ∈ resetRun.2, e.touches .outbound 7 = true → 20 ≤ e.time := by decide
  have hlast : ∀ e ∈ resetRun.2, e.touches .outbound 7 = true → e.time ≤ 30 := by decide
  exact net_flow_across_settings hrun hl le_rfl hset (by decide) hfirst hlast (by decide)

end Reference

end FdfiToken
