import FdfiToken.Oft.Delivery
import FdfiToken.Oft.NetFlow

/-!
# Waiting for a limiter

A lane is used up by the transfers in its own direction and by nothing else. So a message that is
refused for now goes through once enough has accrued, unless it exceeds the capacity, in which
case it never does.
-/

namespace FdfiToken

open Word Fallible Runs

def Event.drawn (d : Direction) (eid : U32) (e : Event) : ℕ :=
  match d with
  | .outbound => e.sentTo eid
  | .inbound => e.receivedFrom eid

private theorem Event.net_le_drawn (d : Direction) (eid : U32) (e : Event) :
    e.net d eid ≤ e.drawn d eid := by
  cases d with
  | outbound => exact Int.sub_le_self _ (Int.natCast_nonneg _)
  | inbound => exact Int.sub_le_self _ (Int.natCast_nonneg _)

private theorem RateLimiter.available_later_le (l : RateLimiter) {t t' : ℕ} (h : t ≤ t') :
    l.available t' ≤
      min l.capacity.toNat (l.available t + (t' - t) * l.refillPerSecond.toNat) := by
  have hgap : t' - l.lastRefillTime.toNat ≤ (t - l.lastRefillTime.toNat) + (t' - t) := by omega
  have hmul := Nat.mul_le_mul_right l.refillPerSecond.toNat hgap
  rw [Nat.add_mul] at hmul
  rw [available, available]
  omega

private theorem RateLimiter.available_keeps {l l' : RateLimiter} {t t' amount : ℕ} (h : t ≤ t')
    (hcap : l'.capacity = l.capacity) (hrate : l'.refillPerSecond = l.refillPerSecond)
    (htime : l'.lastRefillTime.toNat = t) (htokens : l.available t ≤ l'.tokens.toNat + amount) :
    l.available t' ≤ l'.available t' + amount := by
  have hlater := l.available_later_le h
  have hnow : l'.available t' =
      min l.capacity.toNat (l'.tokens.toNat + (t' - t) * l.refillPerSecond.toNat) := by
    rw [available, hcap, hrate, htime]
  omega

private theorem Direction.transferCall_leaves {d own : Direction} {clock : Clock} {amount : U64}
    {l : RateLimiter} {limiter : Option RateLimiter} {t : ℕ} (ht : clock.unixTimestamp ≤ t)
    (h : (d.transferCall own amount).run clock (some l) = (limiter, true)) :
    ∃ l', limiter = some l' ∧ l'.capacity = l.capacity ∧
      l'.refillPerSecond = l.refillPerSecond ∧
      l.available t ≤ l'.available t + if d = own then amount.toNat else 0 := by
  unfold transferCall at h
  split at h
  · rename_i hown
    rw [if_pos hown]
    by_cases hok : (l.tryConsume clock amount).2 = .ok ()
    · obtain ⟨hleft, hcap, hrate, htime⟩ := RateLimiter.tryConsume_ok hok
      refine ⟨(l.tryConsume clock amount).1, ?_, hcap, hrate, ?_⟩
      · generalize hcall : l.tryConsume clock amount = r at hok h
        obtain ⟨l', answer⟩ := r
        subst hok
        simp only [LimiterCall.run, hcall, Prod.mk.injEq, and_true] at h
        exact h.symm
      · exact RateLimiter.available_keeps ht hcap hrate (by rw [htime]; simp) hleft.ge
    · generalize hcall : l.tryConsume clock amount = r at hok
      obtain ⟨l', answer⟩ := r
      cases answer with
      | ok u => exact absurd rfl hok
      | error e => simp [LimiterCall.run, hcall] at h
  · rename_i hother
    rw [if_neg hother]
    simp only [LimiterCall.run, refillLimiter, Option.map_some, Prod.mk.injEq, and_true] at h
    refine ⟨_, h.symm, rfl, rfl, RateLimiter.available_keeps ht rfl rfl (by simp) ?_⟩
    have hle := l.available_le clock.unixTimestamp
    rw [l.refill_tokens]
    omega

section Lane

variable {rt : Runtime} {d : Direction} {eid : U32} {w w' : World} {t : ℕ}

private theorem Step.leaves {e : Event} {l : RateLimiter} (h : Step rt w e w')
    (hl : w.limiter d eid = some l) (hset : e.reconfigures d eid = false) (ht : e.time ≤ t) :
    ∃ l', w'.limiter d eid = some l' ∧ l'.capacity = l.capacity ∧
      l'.refillPerSecond = l.refillPerSecond ∧
      l.available t ≤ l'.available t + e.drawn d eid := by
  have hmoves := h.moves d eid
  have hdrawn := e.net_le_drawn d eid
  rw [hl] at hmoves
  rcases e.flow_cases d eid hset with ⟨-, hcall, -⟩ | ⟨-, clock, own, amount, htime, hcall, hnet⟩
  · rw [hcall] at hmoves
    exact ⟨l, hmoves, rfl, rfl, Nat.le_add_right _ _⟩
  · rw [hcall] at hmoves
    rw [htime] at ht
    obtain ⟨l', hl', hcap, hrate, hle⟩ := Direction.transferCall_leaves ht hmoves
    refine ⟨l', hl', hcap, hrate, hle.trans ?_⟩
    rw [Event.net, hnet] at hdrawn
    split at hdrawn <;> simp_all

/-- Over any part of a run in which a limiter is not set, whatever else goes on, it loses no more
than what transfers in its own direction draw from it. -/
theorem lane_lasts {events : List Event} (hrun : Run (Step rt) w events w') {l : RateLimiter}
    (hl : w.limiter d eid = some l) (hset : ∀ e ∈ events, e.reconfigures d eid = false)
    (ht : ∀ e ∈ events, e.time ≤ t) :
    ∃ l', w'.limiter d eid = some l' ∧ l'.capacity = l.capacity ∧
      l'.refillPerSecond = l.refillPerSecond ∧
      l.available t ≤ l'.available t + (events.map (Event.drawn d eid)).sum := by
  induction hrun generalizing l with
  | nil => exact ⟨l, hl, rfl, rfl, by simp⟩
  | @cons w w' w'' e events head _ ih =>
    obtain ⟨l', hl', hcap, hrate, hle⟩ :=
      head.leaves hl (hset e List.mem_cons_self) (ht e List.mem_cons_self)
    obtain ⟨l'', hl'', hcap', hrate', hle'⟩ := ih hl'
      (fun e he => hset e (List.mem_cons_of_mem _ he)) fun e he => ht e (List.mem_cons_of_mem _ he)
    refine ⟨l'', hl'', hcap'.trans hcap, hrate'.trans hrate, ?_⟩
    rw [List.map_cons, List.sum_cons]
    omega

end Lane

section Reachable

variable {rt : Runtime} {sd : U8} {before events : List Event} {w w' : World}

theorem Reaches.append (h : Reaches rt sd before w) (hrun : Run (Step rt) w events w') :
    Reaches rt sd (before ++ events) w' := by
  obtain ⟨w₀, hgen, hbefore⟩ := h
  exact ⟨w₀, hgen, hbefore.append hrun⟩

/-- A message over the capacity is refused with any accounts, however long it waits. -/
theorem LzReceive.never_received {params : LzReceiveParams} {l : RateLimiter} {amountSd : U64}
    (hl : w.limiter .inbound params.srcEid = some l)
    (hamount : MsgCodec.amountSd params.message = .ok amountSd)
    (hover : l.capacity.toNat < amountSd.toNat * w.oftStore.rate) {ep : Endpoint} {clock : Clock}
    {metas : List LzAccount} (r : World × LzReceiveOutcome) :
    LzReceive.apply rt ep clock metas params w ≠ .ok r := by
  intro hrun
  obtain ⟨a, peer, -, hreceived⟩ := apply_received hrun
  obtain ⟨amountSd', hsd, hld⟩ := hreceived.amount
  rw [hamount, Except.ok.injEq] at hsd
  subst hsd
  obtain ⟨inbound, hconsume, -⟩ := hreceived.limited
  rw [World.limiter_of_peer hreceived.peer_eq] at hl
  have hle := exists_consumeLimiter.mp ⟨inbound, hconsume⟩ l hl
  have hcap := l.available_le clock.unixTimestamp
  rw [OFTStore.sd2ld_eq_ok.mp hld] at hle
  omega

end Reachable

namespace Reference

def arrived (amountSd : U64) : LzReceiveParams :=
  arrival 7 (Bytes32.fill 77) (Bytes32.fill 34) amountSd

def inboundRun : World × List Event :=
  replay runtime endpoint adapterStore [
    setPeer (clockAt 10) 7 (.peerAddress (Bytes32.fill 77)),
    setPeer (clockAt 11) 7 (.inboundRateLimit (some ⟨some 5000, some 100000⟩)),
    send (clockAt 20) 7 (Bytes32.fill 33) 2000000 none]

def drawnRun : World × List Event :=
  replay runtime endpoint inboundRun.1 [receive inboundRun.1 (clockAt 30) (arrived 90)]

def waitingRun : World × List Event :=
  replay runtime endpoint drawnRun.1 [receive drawnRun.1 (clockAt 31) (arrived 60)]

private theorem drawnRun_limiter :
    drawnRun.1.limiter .inbound 7 = some ⟨100000, 10000, 5000, 30⟩ := by decide

example : waitingRun.2.map (Event.receivedFrom 7) = [0] := by decide

def waitingList : Result (List LzAccount) :=
  LzReceiveTypes.apply runtime (clockAt 40) (arrived 60) waitingRun.1

private theorem waitingList_ok : waitingList.isOk = true := by decide

def waitingReceive : Result (World × LzReceiveOutcome) :=
  LzReceive.apply runtime endpoint (clockAt 40) (withPayer user (value _ waitingList_ok))
    (arrived 60) waitingRun.1

private theorem waitingReceive_ok : waitingReceive.isOk = true := by decide

end Reference

end FdfiToken
