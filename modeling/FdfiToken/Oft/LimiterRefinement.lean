import FdfiToken.Lib.TokenBucket
import FdfiToken.Oft.PeerConfig

/-!
# The rate limiter is a token bucket

The limiter accrues lazily, in saturating 64-bit words; the bucket is ticked every second over
the natural numbers. At every call both hold the same tokens and give the same verdict.
-/

namespace FdfiToken

open Word Fallible Runs

/-- A call on a limiter that may be absent. A refused `try_consume` has already refilled the
limiter, unless the failing instruction is rolled back. -/
inductive LimiterCall where
  | update (params : Option RateLimitParams)
  | refill (extraTokens : U64)
  | tryConsume (amount : U64) (rolledBack : Bool)

def LimiterCall.run (clock : Clock) (limiter : Option RateLimiter) :
    LimiterCall → Option RateLimiter × Bool
  | .update params => (updateRateLimiter clock limiter params, true)
  | .refill extraTokens => (refillLimiter clock limiter extraTokens, true)
  | .tryConsume amount rolledBack =>
    match limiter with
    | none => (none, true)
    | some l =>
      match l.tryConsume clock amount with
      | (l', .ok _) => (some l', true)
      | (l', .error _) => (some (if rolledBack then l else l'), false)

/-- A call with its clock; `probe` marks one that was added only to look. -/
structure TimedCall where
  clock : Clock
  call : LimiterCall
  probe : Bool

def TimedCall.run (limiter : Option RateLimiter) (c : TimedCall) : Option RateLimiter × Bool :=
  c.call.run c.clock limiter

def RateLimitParams.config (params : RateLimitParams) : TokenBucket.Config :=
  ⟨params.capacity.map (·.toNat), params.refillPerSecond.map (·.toNat)⟩

def LimiterCall.command : LimiterCall → TokenBucket.Command
  | .update params => .configure (params.map (·.config))
  | .refill extraTokens => .refill extraTokens.toNat
  | .tryConsume amount _ => .consume amount.toNat

def TimedCall.command (c : TimedCall) : TokenBucket.Lane.Timed :=
  ⟨c.clock.unixTimestamp, c.call.command, c.probe⟩

/-- What the limiter and the bucket have in common at second `t`. -/
structure RateLimiter.Tracks (l : RateLimiter) (t : ℕ) (b : TokenBucket) : Prop where
  capacity : b.capacity = l.capacity.toNat
  rate : b.rate = l.refillPerSecond.toNat
  tokens : b.tokens = l.available t
  stored : l.lastRefillTime.toNat = t → l.tokens.toNat = b.tokens
  tokens_le : l.tokens.toNat ≤ l.capacity.toNat
  past : l.lastRefillTime.toNat ≤ t

/-- The limiter and the lane at second `t`: both absent, or holding the same tokens. -/
def Tracks (t : ℕ) (limiter : Option RateLimiter) (lane : TokenBucket.Lane) : Prop :=
  lane.now = t ∧ match limiter, lane.bucket with
    | none, none => True
    | some l, some b => l.Tracks t b
    | _, _ => False

namespace RateLimiter

private theorem available_later (l : RateLimiter) {t t' : ℕ} (hpast : l.lastRefillTime.toNat ≤ t)
    (h : t ≤ t') :
    l.available t' =
      min l.capacity.toNat (l.available t + (t' - t) * l.refillPerSecond.toNat) := by
  have hsplit : t' - l.lastRefillTime.toNat = (t - l.lastRefillTime.toNat) + (t' - t) := by omega
  rw [available, available, hsplit, Nat.add_mul]
  omega

theorem available_now (l : RateLimiter) {t : ℕ} (htime : l.lastRefillTime.toNat = t)
    (hle : l.tokens.toNat ≤ l.capacity.toNat) : l.available t = l.tokens.toNat := by
  have hzero : t - l.lastRefillTime.toNat = 0 := by omega
  rw [available, hzero, Nat.zero_mul, Nat.add_zero, Nat.min_eq_right hle]

namespace Tracks

variable {l : RateLimiter} {b : TokenBucket} {t t' : ℕ}

private theorem of_stored (hcap : b.capacity = l.capacity.toNat)
    (hrate : b.rate = l.refillPerSecond.toNat)
    (htok : b.tokens = l.tokens.toNat) (htime : l.lastRefillTime.toNat = t) : l.Tracks t b := by
  have hle : l.tokens.toNat ≤ l.capacity.toNat := by
    have := b.tokens_le
    omega
  exact ⟨hcap, hrate, by rw [l.available_now htime hle, htok], fun _ => htok.symm, hle, htime.le⟩

theorem advance (h : l.Tracks t b) (hle : t ≤ t') :
    l.Tracks t' (TokenBucket.tick^[t' - t] b) := by
  obtain ⟨hcap, hrate, htok⟩ := b.iterate_tick (t' - t)
  have havail : (TokenBucket.tick^[t' - t] b).tokens = l.available t' := by
    rw [htok, h.capacity, h.rate, h.tokens, l.available_later h.past hle]
  refine ⟨hcap.trans h.capacity, hrate.trans h.rate, havail, fun htime => ?_, h.tokens_le,
    h.past.trans hle⟩
  rw [havail, l.available_now htime h.tokens_le]

theorem default (t : ℕ) : RateLimiter.default.Tracks t TokenBucket.empty := by
  refine ⟨rfl, rfl, ?_, fun _ => rfl, le_rfl, Nat.zero_le _⟩
  have hle := RateLimiter.default.available_le t
  change 0 = RateLimiter.default.available t
  change _ ≤ 0 at hle
  omega

variable {clock : Clock}

theorem refill (h : l.Tracks clock.unixTimestamp b) (extra : U64) :
    (l.refill clock extra).Tracks clock.unixTimestamp (b.refill extra.toNat) := by
  refine of_stored h.capacity h.rate ?_ (by simp)
  rw [refill_tokens, ← h.capacity, ← h.tokens]
  rfl

theorem refill_zero (h : l.Tracks clock.unixTimestamp b) :
    (l.refill clock 0).Tracks clock.unixTimestamp b := by
  have hrefill := h.refill 0
  change RateLimiter.Tracks _ _ (b.refill 0) at hrefill
  rwa [TokenBucket.refill_zero] at hrefill

theorem setRate (h : l.Tracks clock.unixTimestamp b) (rate : U64) :
    (l.setRate clock rate).Tracks clock.unixTimestamp (b.setRate rate.toNat) :=
  have hzero := h.refill_zero
  of_stored hzero.capacity rfl (hzero.stored (by simp)).symm (by simp [RateLimiter.setRate])

theorem setCapacity (h : l.Tracks clock.unixTimestamp b) (capacity : U64) :
    (l.setCapacity clock capacity).Tracks clock.unixTimestamp (b.setCapacity capacity.toNat) :=
  of_stored rfl h.rate rfl (by simp [RateLimiter.setCapacity])

theorem update (h : l.Tracks clock.unixTimestamp b) (params : RateLimitParams) :
    ∃ l', updateRateLimiter clock (some l) (some params) = some l' ∧
      l'.Tracks clock.unixTimestamp (b.configure params.config) := by
  refine ⟨_, rfl, ?_⟩
  obtain ⟨rate, capacity⟩ := params
  cases capacity with
  | none =>
    cases rate with
    | none => exact h
    | some rate => exact h.setRate rate
  | some capacity =>
    cases rate with
    | none => exact h.setCapacity capacity
    | some rate => exact (h.setCapacity capacity).setRate rate

theorem consume (h : l.Tracks clock.unixTimestamp b) {amount : U64}
    (hle : amount.toNat ≤ b.tokens) :
    (l.tryConsume clock amount).2 = .ok () ∧ ∃ b', b.consume amount.toNat = some b' ∧
      (l.tryConsume clock amount).1.Tracks clock.unixTimestamp b' := by
  have hok := (l.tryConsume_ok_iff clock amount).mpr (h.tokens ▸ hle)
  obtain ⟨hleft, hcap, hrate, htime⟩ := tryConsume_ok hok
  refine ⟨hok, _, if_pos hle, of_stored ?_ ?_ ?_ ?_⟩
  · rw [hcap]
    exact h.capacity
  · rw [hrate]
    exact h.rate
  · have htok := h.tokens
    change b.tokens - amount.toNat = _
    omega
  · rw [htime, Clock.toNat_currentTime]

end Tracks

end RateLimiter

theorem Tracks.advance {t t' : ℕ} {limiter : Option RateLimiter} {lane : TokenBucket.Lane}
    (h : Tracks t limiter lane) (hle : t ≤ t') : Tracks t' limiter (lane.advance t') := by
  obtain ⟨bucket, now⟩ := lane
  obtain ⟨hnow, hmatch⟩ := h
  change now = t at hnow
  subst hnow
  refine ⟨rfl, ?_⟩
  cases limiter with
  | none =>
    cases bucket with
    | none => trivial
    | some b => exact hmatch
  | some l =>
    cases bucket with
    | none => exact hmatch
    | some b => exact RateLimiter.Tracks.advance hmatch hle

/-- Accepted or refused, `try_consume` keeps limiter and bucket together, whether or not a
refusal is rolled back. -/
theorem RateLimiter.Tracks.run_consume {clock : Clock} {l : RateLimiter} {b : TokenBucket}
    (h : l.Tracks clock.unixTimestamp b) (amount : U64) (rolledBack : Bool) :
    FdfiToken.Tracks clock.unixTimestamp
        ((LimiterCall.tryConsume amount rolledBack).run clock (some l)).1
        (TokenBucket.Lane.perform (.consume amount.toNat) ⟨some b, clock.unixTimestamp⟩).1 ∧
      ((LimiterCall.tryConsume amount rolledBack).run clock (some l)).2 =
        (TokenBucket.Lane.perform (.consume amount.toNat) ⟨some b, clock.unixTimestamp⟩).2 := by
  by_cases hle : amount.toNat ≤ b.tokens
  · obtain ⟨hok, b', hb', htracks'⟩ := h.consume hle
    generalize hcall : l.tryConsume clock amount = r at hok htracks'
    obtain ⟨l', answer⟩ := r
    subst hok
    simp only [LimiterCall.run, hcall, TokenBucket.Lane.perform, hb', and_true]
    exact ⟨rfl, htracks'⟩
  · have hno : (l.tryConsume clock amount).2 ≠ .ok () := by
      rw [ne_eq, l.tryConsume_ok_iff, ← h.tokens]
      exact hle
    have hleft := RateLimiter.tryConsume_rejected hno
    generalize hcall : l.tryConsume clock amount = r at hno hleft
    obtain ⟨l', answer⟩ := r
    cases answer with
    | ok u => exact absurd rfl hno
    | error e =>
      have hrefused : b.consume amount.toNat = none := if_neg hle
      simp only [LimiterCall.run, hcall, TokenBucket.Lane.perform, hrefused, and_true]
      refine ⟨rfl, ?_⟩
      cases rolledBack with
      | true => exact h
      | false =>
        change l' = _ at hleft
        subst hleft
        exact h.refill_zero

/-- One call keeps limiter and bucket together and gives the same verdict. -/
theorem LimiterCall.run_tracks {clock : Clock} {limiter : Option RateLimiter}
    {lane : TokenBucket.Lane} (h : Tracks clock.unixTimestamp limiter lane) (c : LimiterCall) :
    Tracks clock.unixTimestamp (c.run clock limiter).1 (lane.perform c.command).1 ∧
      (c.run clock limiter).2 = (lane.perform c.command).2 := by
  obtain ⟨bucket, now⟩ := lane
  obtain ⟨hnow, hmatch⟩ := h
  change now = clock.unixTimestamp at hnow
  subst hnow
  cases limiter with
  | none =>
    cases bucket with
    | some b => exact hmatch.elim
    | none =>
      cases c with
      | update params =>
        cases params with
        | none => exact ⟨⟨rfl, trivial⟩, rfl⟩
        | some params =>
          obtain ⟨l', hl', htracks⟩ :=
            (RateLimiter.Tracks.default clock.unixTimestamp).update params
          refine ⟨⟨rfl, ?_⟩, rfl⟩
          rw [LimiterCall.run, show updateRateLimiter clock none (some params) = some l' from hl']
          exact htracks
      | refill extra => exact ⟨⟨rfl, trivial⟩, rfl⟩
      | tryConsume amount rolledBack => exact ⟨⟨rfl, trivial⟩, rfl⟩
  | some l =>
    cases bucket with
    | none => exact hmatch.elim
    | some b =>
      have htracks : l.Tracks clock.unixTimestamp b := hmatch
      cases c with
      | update params =>
        cases params with
        | none => exact ⟨⟨rfl, trivial⟩, rfl⟩
        | some params =>
          obtain ⟨l', hl', htracks'⟩ := htracks.update params
          refine ⟨⟨rfl, ?_⟩, rfl⟩
          rw [LimiterCall.run, hl']
          exact htracks'
      | refill extra => exact ⟨⟨rfl, htracks.refill extra⟩, rfl⟩
      | tryConsume amount rolledBack => exact htracks.run_consume amount rolledBack

private theorem TimedCall.run_tracks {t : ℕ} {limiter : Option RateLimiter}
    {lane : TokenBucket.Lane}
    (h : Tracks t limiter lane) (c : TimedCall) (hle : t ≤ c.clock.unixTimestamp) :
    Tracks c.clock.unixTimestamp (c.run limiter).1 (lane.run c.command).1 ∧
      (c.run limiter).2 = (lane.run c.command).2 :=
  c.call.run_tracks (h.advance hle)

/-- What a call on a limiter shows: its verdict, and whether the call only looked. -/
def TimedCall.Looked (c : TimedCall) (accepted : Bool) : Prop :=
  c.call = .refill 0 ∨ (∃ rolledBack, c.call = .tryConsume 0 rolledBack) ∨
    (∃ amount rolledBack, c.call = .tryConsume amount rolledBack) ∧ accepted = false

def TimedCall.verdicts (answers : List (TimedCall × Option RateLimiter × Bool)) : List Bool :=
  (answers.filter fun a => !a.1.probe).map (·.2.2)

theorem TimedCall.Looked.command {c : TimedCall} {accepted : Bool} (h : c.Looked accepted) :
    TokenBucket.Lane.Looked c.command.command accepted := by
  rcases h with h | ⟨rolledBack, h⟩ | ⟨⟨amount, rolledBack, h⟩, hrefused⟩
  · exact .inl (by rw [TimedCall.command, h]; rfl)
  · exact .inr (.inl (by rw [TimedCall.command, h]; rfl))
  · exact .inr (.inr ⟨⟨amount.toNat, by rw [TimedCall.command, h]; rfl⟩, hrefused⟩)

def Agree (a : TimedCall × Option RateLimiter × Bool)
    (b : TokenBucket.Lane.Timed × TokenBucket.Lane × Bool) : Prop :=
  b.1 = a.1.command ∧ Tracks a.1.clock.unixTimestamp a.2.1 b.2.1 ∧ a.2.2 = b.2.2

private theorem trace_agree (calls : List TimedCall)
    (hsorted : calls.Pairwise fun a b => a.clock.unixTimestamp ≤ b.clock.unixTimestamp) :
    List.Forall₂ Agree (trace TimedCall.run none calls)
      (trace TokenBucket.Lane.run ⟨none, 0⟩ (calls.map TimedCall.command)) :=
  trace_simulates (R := Tracks) (f := TimedCall.command)
    (fun _ _ _ c h hle => TimedCall.run_tracks h c hle) calls (t := 0) ⟨rfl, trivial⟩
    (fun _ _ => Nat.zero_le _) hsorted

private theorem verdicts_agree {as : List (TimedCall × Option RateLimiter × Bool)}
    {bs : List (TokenBucket.Lane.Timed × TokenBucket.Lane × Bool)} (h : List.Forall₂ Agree as bs) :
    TimedCall.verdicts as = TokenBucket.Lane.verdicts bs := by
  induction h with
  | nil => rfl
  | @cons a b as bs hab _ ih =>
    have hprobe : b.1.probe = a.1.probe := by rw [hab.1]; rfl
    cases hp : a.1.probe with
    | true =>
      rw [TimedCall.verdicts, TokenBucket.Lane.verdicts, List.filter_cons_of_neg (by simp [hp]),
        List.filter_cons_of_neg (by simp [hprobe, hp])]
      exact ih
    | false =>
      rw [TimedCall.verdicts, TokenBucket.Lane.verdicts, List.filter_cons_of_pos (by simp [hp]),
        List.filter_cons_of_pos (by simp [hprobe, hp]), List.map_cons, List.map_cons, hab.2.2]
      exact congrArg _ ih

private theorem looked_agree {as : List (TimedCall × Option RateLimiter × Bool)}
    {bs : List (TokenBucket.Lane.Timed × TokenBucket.Lane × Bool)} (h : List.Forall₂ Agree as bs)
    (hlooked : ∀ a ∈ as, a.1.probe = true → a.1.Looked a.2.2) :
    ∀ b ∈ bs, b.1.probe = true → TokenBucket.Lane.Looked b.1.command b.2.2 := by
  induction h with
  | nil => simp
  | @cons a b as bs hab _ ih =>
    intro b' hb' hprobe
    rcases List.mem_cons.mp hb' with rfl | hb'
    · rw [hab.1] at hprobe ⊢
      rw [← hab.2.2]
      exact (hlooked a List.mem_cons_self hprobe).command
    · exact ih (fun a ha => hlooked a (List.mem_cons_of_mem _ ha)) b' hb' hprobe

private theorem tokens_le_capacity (calls : List TimedCall)
    (hsorted : calls.Pairwise fun a b => a.clock.unixTimestamp ≤ b.clock.unixTimestamp)
    {a : TimedCall × Option RateLimiter × Bool} (ha : a ∈ trace TimedCall.run none calls)
    {l : RateLimiter} (hl : a.2.1 = some l) : l.tokens.toNat ≤ l.capacity.toNat := by
  have hagree := trace_agree calls hsorted
  generalize trace TimedCall.run none calls = as at ha hagree
  generalize trace TokenBucket.Lane.run _ _ = bs at hagree
  induction hagree with
  | nil => simp at ha
  | @cons a' b as bs hab _ ih =>
    rcases List.mem_cons.mp ha with rfl | ha
    · obtain ⟨-, ⟨-, htracks⟩, -⟩ := hab
      rw [hl] at htracks
      cases hb : b.2.1.bucket with
      | none => rw [hb] at htracks; exact htracks.elim
      | some bucket => rw [hb] at htracks; exact htracks.tokens_le
    · exact ih ha

/-- From an absent limiter, through any calls at non-decreasing times, the limiter answers as
the ideal bucket does and holds the same tokens at each call; it never exceeds its capacity,
and probes added anywhere change no other verdict. -/
theorem limiter_is_token_bucket (calls : List TimedCall)
    (hsorted : calls.Pairwise fun a b => a.clock.unixTimestamp ≤ b.clock.unixTimestamp) :
    List.Forall₂ Agree (trace TimedCall.run none calls)
        (trace TokenBucket.Lane.run ⟨none, 0⟩ (calls.map TimedCall.command)) ∧
      (∀ a ∈ trace TimedCall.run none calls, ∀ l, a.2.1 = some l →
        l.tokens.toNat ≤ l.capacity.toNat) ∧
      ((∀ a ∈ trace TimedCall.run none calls, a.1.probe = true → a.1.Looked a.2.2) →
        TimedCall.verdicts (trace TimedCall.run none calls) =
          TimedCall.verdicts (trace TimedCall.run none (calls.filter fun c => !c.probe))) := by
  have hagree := trace_agree calls hsorted
  refine ⟨hagree, fun a ha l hl => tokens_le_capacity calls hsorted ha hl, fun hlooked => ?_⟩
  have hagree' := trace_agree (calls.filter fun c => !c.probe) (hsorted.filter _)
  have hfilter : (calls.filter fun c => !c.probe).map TimedCall.command =
      (calls.map TimedCall.command).filter fun c => !c.probe := by
    rw [List.filter_map]
    rfl
  rw [hfilter] at hagree'
  rw [verdicts_agree hagree, verdicts_agree hagree']
  refine TokenBucket.Lane.verdicts_without_probes _ _ (fun _ _ => Nat.zero_le _) ?_
    (looked_agree hagree hlooked)
  exact List.pairwise_map.mpr hsorted

/-- A limit of 100 set at second 10; 150 refused a second later; 60 taken at second 20. -/
def sampleCalls : List TimedCall :=
  [⟨⟨10, by decide, 0⟩, .update (some ⟨some 5, some 100⟩), false⟩,
    ⟨⟨11, by decide, 0⟩, .tryConsume 150 true, true⟩,
    ⟨⟨20, by decide, 0⟩, .tryConsume 60 true, false⟩,
    ⟨⟨21, by decide, 0⟩, .tryConsume 60 true, false⟩]

theorem limiter_is_token_bucket_sample :
    TimedCall.verdicts (trace TimedCall.run none sampleCalls) = [true, true, false] ∧
      TimedCall.verdicts (trace TimedCall.run none (sampleCalls.filter fun c => !c.probe)) =
        [true, true, false] := by
  have hverdicts : TimedCall.verdicts (trace TimedCall.run none sampleCalls) =
      [true, true, false] := rfl
  have hlooked : ∀ a ∈ trace TimedCall.run none sampleCalls,
      a.1.probe = true → a.1.Looked a.2.2 := by
    intro a ha hprobe
    simp only [sampleCalls, trace, List.mem_cons, List.not_mem_nil, or_false] at ha
    rcases ha with rfl | rfl | rfl | rfl
    · cases hprobe
    · exact .inr (.inr ⟨⟨150, true, rfl⟩, rfl⟩)
    · cases hprobe
    · cases hprobe
  have hsame := (limiter_is_token_bucket sampleCalls (by decide)).2.2 hlooked
  exact ⟨hverdicts, hsame ▸ hverdicts⟩

end FdfiToken
