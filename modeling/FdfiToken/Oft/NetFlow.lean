import FdfiToken.Oft.LimiterRefinement
import FdfiToken.Oft.Reference

/-!
# Net flow through a peer

Each limiter of a peer is drawn on by the transfers in its own direction and refilled by the
ones in the other. What flows out on balance is bounded by the capacity and what accrues.
-/

namespace FdfiToken

open Word Fallible Runs

inductive Direction where
  | outbound
  | inbound
deriving DecidableEq

def PeerConfig.limiter (peer : PeerConfig) : Direction → Option RateLimiter
  | .outbound => peer.outboundRateLimiter
  | .inbound => peer.inboundRateLimiter

def World.limiter (w : World) (d : Direction) (eid : U32) : Option RateLimiter :=
  (w.peers eid).bind (·.limiter d)

private theorem World.setPeer_limiter (w : World) (d : Direction) (eid eid' : U32)
    (peer : PeerConfig) :
    (w.setPeer eid peer).limiter d eid' =
      if eid' = eid then peer.limiter d else w.limiter d eid' := by
  by_cases heid : eid' = eid
  · rw [if_pos heid, heid, limiter, setPeer_peers, Function.update_self, Option.bind_some]
  · rw [if_neg heid, limiter, setPeer_peers, Function.update_of_ne heid, limiter]

/-- The amount a successful send to `eid` books, in local decimals. -/
def Event.sentTo (eid : U32) : Event → ℕ
  | .executed _ (.send _ params) (.sent out) =>
    if params.dstEid = eid then out.oftReceipt.amountReceivedLd.toNat else 0
  | _ => 0

/-- The amount a successful receive from `eid` books, converted to local decimals. -/
def Event.receivedFrom (eid : U32) : Event → ℕ
  | .executed _ (.lzReceive _ params) (.received out) =>
    if params.srcEid = eid then out.amountLd.toNat else 0
  | _ => 0

/-- A successful transfer to or from `eid`. -/
def Event.flows (eid : U32) : Event → Bool
  | .executed _ (.send _ params) (.sent _) => params.dstEid = eid
  | .executed _ (.lzReceive _ params) (.received _) => params.srcEid = eid
  | _ => false

def Event.time : Event → ℕ
  | .executed clock _ _ => clock.unixTimestamp
  | .failed clock _ _ => clock.unixTimestamp
  | .external _ _ _ => 0

def PeerConfigParam.limits : Direction → PeerConfigParam → Option (Option RateLimitParams)
  | .outbound, .outboundRateLimit params => some params
  | .inbound, .inboundRateLimit params => some params
  | _, _ => none

/-- The limiter of this direction and `eid` is set. -/
def Event.reconfigures (d : Direction) (eid : U32) : Event → Bool
  | .executed _ (.setPeerConfig _ params) _ =>
    params.remoteEid = eid && (params.config.limits d).isSome
  | _ => false

/-- The call a transfer makes: its own direction is drawn on, the other refilled. -/
def Direction.transferCall (d own : Direction) (amount : U64) : LimiterCall :=
  if d = own then .tryConsume amount true else .refill amount

def Event.limiterCall (d : Direction) (eid : U32) : Event → Option TimedCall
  | .executed clock (.send _ params) (.sent out) =>
    if params.dstEid = eid then
      some ⟨clock, d.transferCall .outbound out.oftReceipt.amountReceivedLd, false⟩
    else none
  | .executed clock (.lzReceive _ params) (.received out) =>
    if params.srcEid = eid then some ⟨clock, d.transferCall .inbound out.amountLd, false⟩
    else none
  | .executed clock (.setPeerConfig _ params) _ =>
    if params.remoteEid = eid then
      (params.config.limits d).map fun limit => ⟨clock, .update limit, false⟩
    else none
  | _ => none

theorem LimiterCall.run_consume {clock : Clock} {limiter limiter' : Option RateLimiter}
    {amount : U64} (h : consumeLimiter clock limiter amount = .ok limiter') (rolledBack : Bool) :
    (LimiterCall.tryConsume amount rolledBack).run clock limiter = (limiter', true) := by
  rcases consumeLimiter_eq_ok.mp h with ⟨rfl, rfl⟩ | ⟨l, rfl, hok, rfl⟩
  · rfl
  · generalize hcall : l.tryConsume clock amount = r at hok ⊢
    obtain ⟨l', answer⟩ := r
    subst hok
    simp only [LimiterCall.run, hcall]

private theorem PeerConfig.configure_limiter {rt : Runtime} {clock : Clock}
    {config : PeerConfigParam}
    {peer peer' : PeerConfig} (h : peer.configure rt clock config = .ok peer') (d : Direction) :
    peer'.limiter d = match config.limits d with
      | some params => updateRateLimiter clock (peer.limiter d) params
      | none => peer.limiter d := by
  rw [(configure_eq_ok h).1]
  cases config <;> cases d <;> rfl

/-- An accepted call leads from one limiter to the other; without a call they are the same. -/
def Moves : Option TimedCall → Option RateLimiter → Option RateLimiter → Prop
  | some c, limiter, limiter' => c.run limiter = (limiter', true)
  | none, limiter, limiter' => limiter' = limiter

theorem Moves.setPeer {w v : World} {d : Direction} {eid eid' : U32} {peer : PeerConfig}
    {c : Option TimedCall} (hpeers : v.peers = w.peers)
    (h : Moves c (w.limiter d eid') (peer.limiter d)) :
    Moves (if eid' = eid then c else none) (w.limiter d eid)
      ((v.setPeer eid' peer).limiter d eid) := by
  rw [World.setPeer_limiter]
  by_cases heid : eid' = eid
  · subst heid
    rwa [if_pos rfl, if_pos rfl]
  · rw [if_neg heid, if_neg (Ne.symm heid)]
    change v.limiter d eid = w.limiter d eid
    rw [World.limiter, hpeers, World.limiter]

theorem World.limiter_of_peer {w : World} {eid : U32} {peer : PeerConfig}
    (h : w.peers eid = some peer) (d : Direction) : w.limiter d eid = peer.limiter d := by
  rw [limiter, h, Option.bind_some]

section Moves

variable {rt : Runtime} {clock : Clock} {w w' : World} (d : Direction) (eid : U32)

theorem Send.Sent.moves {accs : SendAccounts} {params : SendParams} {peer : PeerConfig}
    {out : SendOutcome} (h : Send.Sent rt clock accs params peer w w' out) :
    Moves ((Event.executed clock (.send accs params) (.sent out)).limiterCall d eid)
      (w.limiter d eid) (w'.limiter d eid) := by
  obtain ⟨outbound, hconsume, heq⟩ := h.limited
  rw [heq]
  refine Moves.setPeer rfl ?_
  rw [World.limiter_of_peer h.peer_eq]
  cases d with
  | outbound => exact LimiterCall.run_consume hconsume true
  | inbound => rfl

theorem LzReceive.Received.moves {metas : List LzAccount} {params : LzReceiveParams}
    {a : LzReceiveAccounts} {peer : PeerConfig} {out : LzReceiveOutcome}
    (h : LzReceive.Received rt clock a params peer w w' out) :
    Moves ((Event.executed clock (.lzReceive metas params) (.received out)).limiterCall d eid)
      (w.limiter d eid) (w'.limiter d eid) := by
  obtain ⟨inbound, hconsume, heq⟩ := h.limited
  rw [heq]
  refine Moves.setPeer rfl ?_
  rw [World.limiter_of_peer h.peer_eq]
  cases d with
  | outbound => rfl
  | inbound => exact LimiterCall.run_consume hconsume true

theorem SetPeerConfig.moves {admin : Pubkey} {params : SetPeerConfigParams}
    (h : SetPeerConfig.apply rt clock admin params w = .ok w') (o : Outcome) :
    Moves ((Event.executed clock (.setPeerConfig admin params) o).limiterCall d eid)
      (w.limiter d eid) (w'.limiter d eid) := by
  obtain ⟨-, peer, hconf, rfl⟩ := SetPeerConfig.apply_eq_ok h
  have hlimiter := PeerConfig.configure_limiter hconf d
  have hold : ((w.peers params.remoteEid).getD PeerConfig.default).limiter d =
      w.limiter d params.remoteEid := by
    rw [World.limiter]
    cases w.peers params.remoteEid with
    | none => cases d <;> rfl
    | some peer => rfl
  rw [hold] at hlimiter
  refine Moves.setPeer rfl ?_
  cases hset : params.config.limits d with
  | none =>
    rw [hset] at hlimiter
    cases d <;> exact hlimiter
  | some limit =>
    rw [hset] at hlimiter
    refine Prod.ext ?_ rfl
    cases d <;> exact hlimiter.symm

/-- What one step does to a limiter: the call its event makes, which is accepted. -/
theorem Step.moves {e : Event} (h : Step rt w e w') :
    Moves (e.limiterCall d eid) (w.limiter d eid) (w'.limiter d eid) := by
  cases h with
  | failed _ => rfl
  | external _ => rfl
  | executed _ hrun =>
    cases execute_executed hrun with
    | setOftConfig ep run =>
      rw [(SetOFTConfig.reconfigured run).eq]
      rfl
    | setPause run =>
      rw [(SetPause.reconfigured run).eq]
      rfl
    | withdrawFee run =>
      rw [(WithdrawFee.apply_eq_ok run).2.2.1]
      rfl
    | setPeerConfig run => exact SetPeerConfig.moves d eid run _
    | send sent => exact sent.moves d eid
    | lzReceive _ received => exact received.moves d eid

end Moves

theorem Reaches.limiter {rt : Runtime} {sd : U8} {events : List Event} {w : World}
    (h : Reaches rt sd events w) (d : Direction) (eid : U32) :
    w.limiter d eid =
      (events.filterMap (Event.limiterCall d eid)).foldl (fun l c => (c.run l).1) none := by
  obtain ⟨w₀, hgen, hrun⟩ := h
  have hstart : w₀.limiter d eid = none := by
    rw [World.limiter, hgen.fresh.2.2 eid, Option.bind_none]
  rw [← hstart]
  clear hstart hgen
  induction hrun with
  | nil => rfl
  | @cons w w' w'' e events head _ ih =>
    have hstep := head.moves d eid
    rw [ih]
    cases hcall : e.limiterCall d eid with
    | none =>
      rw [hcall] at hstep
      rw [List.filterMap_cons_none hcall, hstep]
    | some c =>
      rw [hcall] at hstep
      rw [List.filterMap_cons_some hcall, List.foldl_cons, hstep]

def Direction.net : Direction → (sent received : ℤ) → ℤ
  | .outbound, sent, received => sent - received
  | .inbound, sent, received => received - sent

/-- What a limiter can still let through at second `t`. -/
def headroom (limiter : Option RateLimiter) (t : ℕ) : ℤ :=
  match limiter with
  | some l => l.available t
  | none => 0

theorem RateLimiter.available_accrues (l : RateLimiter) {t t' : ℕ} (h : t ≤ t') :
    (l.available t' : ℤ) ≤ l.available t + l.refillPerSecond.toNat * ((t' : ℤ) - t) := by
  have hgap : t' - l.lastRefillTime.toNat ≤ (t - l.lastRefillTime.toNat) + (t' - t) := by omega
  have hmul := Nat.mul_le_mul_right l.refillPerSecond.toNat hgap
  rw [Nat.add_mul] at hmul
  have hcast : ((t' - t : ℕ) : ℤ) = (t' : ℤ) - t := by omega
  rw [← hcast, mul_comm, available, available]
  norm_cast
  omega

/-- A transfer pays its amount from the headroom of its own direction, and adds at most its
amount to that of the other. -/
theorem Direction.transferCall_pays {d own : Direction} {clock : Clock} {amount : U64}
    {l : RateLimiter} {limiter : Option RateLimiter}
    (h : (d.transferCall own amount).run clock (some l) = (limiter, true)) :
    ∃ l', limiter = some l' ∧ l'.capacity = l.capacity ∧
      l'.refillPerSecond = l.refillPerSecond ∧
      (if d = own then (amount.toNat : ℤ) else -amount.toNat) +
        l'.available clock.unixTimestamp ≤ l.available clock.unixTimestamp := by
  unfold transferCall at h
  split at h
  · rename_i hown
    rw [if_pos hown]
    by_cases hok : (l.tryConsume clock amount).2 = .ok ()
    · have hspec := RateLimiter.tryConsume_ok hok
      generalize hcall : l.tryConsume clock amount = r at hok hspec
      obtain ⟨l', answer⟩ := r
      subst hok
      simp only [LimiterCall.run, hcall, Prod.mk.injEq, and_true] at h
      obtain ⟨hleft, hcap, hrate, htime⟩ := hspec
      change l'.tokens.toNat + _ = _ at hleft
      refine ⟨l', h.symm, hcap, hrate, ?_⟩
      have hle := l.available_le clock.unixTimestamp
      have hnow := l'.available_now (t := clock.unixTimestamp) (by rw [htime]; simp)
        (by rw [hcap]; omega)
      omega
    · generalize hcall : l.tryConsume clock amount = r at hok
      obtain ⟨l', answer⟩ := r
      cases answer with
      | ok u => exact absurd rfl hok
      | error e => simp [LimiterCall.run, hcall] at h
  · rename_i hother
    rw [if_neg hother]
    simp only [LimiterCall.run, refillLimiter, Option.map_some, Prod.mk.injEq, and_true] at h
    refine ⟨_, h.symm, rfl, rfl, ?_⟩
    have htokens := l.refill_tokens clock amount
    have hnow := (l.refill clock amount).available_now (t := clock.unixTimestamp) (by simp)
      (by rw [htokens]; exact Nat.min_le_left _ _)
    omega

theorem Event.flow_cases (e : Event) (d : Direction) (eid : U32)
    (h : e.reconfigures d eid = false) :
    (e.flows eid = false ∧ e.limiterCall d eid = none ∧ e.sentTo eid = 0 ∧
        e.receivedFrom eid = 0) ∨
      (e.flows eid = true ∧ ∃ clock own amount, e.time = clock.unixTimestamp ∧
        e.limiterCall d eid = some ⟨clock, d.transferCall own amount, false⟩ ∧
        d.net (e.sentTo eid) (e.receivedFrom eid) =
          if d = own then (amount.toNat : ℤ) else -amount.toNat) := by
  cases e with
  | failed clock i e => exact .inl ⟨rfl, rfl, rfl, rfl⟩
  | external credit minted burned => exact .inl ⟨rfl, rfl, rfl, rfl⟩
  | executed clock i o =>
    cases i with
    | setPeerConfig admin params =>
      refine .inl ⟨rfl, ?_, rfl, rfl⟩
      simp only [reconfigures, Bool.and_eq_false_imp, decide_eq_true_eq] at h
      simp only [limiterCall]
      split
      · rename_i heid
        simpa using h heid
      · rfl
    | send accs params =>
      cases o with
      | sent out =>
        simp only [flows, limiterCall, sentTo, receivedFrom, decide_eq_false_iff_not,
          decide_eq_true_eq]
        by_cases heid : params.dstEid = eid
        · refine .inr ⟨heid, clock, .outbound, out.oftReceipt.amountReceivedLd, rfl,
            if_pos heid, ?_⟩
          rw [if_pos heid]
          cases d <;> simp [Direction.net]
        · exact .inl ⟨heid, if_neg heid, if_neg heid, trivial⟩
      | _ => exact .inl ⟨rfl, rfl, rfl, rfl⟩
    | lzReceive metas params =>
      cases o with
      | received out =>
        simp only [flows, limiterCall, sentTo, receivedFrom, decide_eq_false_iff_not,
          decide_eq_true_eq]
        by_cases heid : params.srcEid = eid
        · refine .inr ⟨heid, clock, .inbound, out.amountLd, rfl, if_pos heid, ?_⟩
          rw [if_pos heid]
          cases d <;> simp [Direction.net]
        · exact .inl ⟨heid, if_neg heid, trivial, if_neg heid⟩
      | _ => exact .inl ⟨rfl, rfl, rfl, rfl⟩
    | _ => exact .inl ⟨rfl, rfl, rfl, rfl⟩

theorem Direction.sum_net {α : Type*} (d : Direction) (f g : α → ℕ) (xs : List α) :
    (xs.map fun x => d.net (f x) (g x)).sum = d.net (xs.map f).sum (xs.map g).sum := by
  cases d with
  | outbound => exact sum_map_sub f g xs
  | inbound => exact sum_map_sub g f xs

def Event.net (d : Direction) (eid : U32) (e : Event) : ℤ :=
  d.net (e.sentTo eid) (e.receivedFrom eid)

/-- The limiter is there, with the capacity and the rate of `l`. -/
def World.Metered (w : World) (d : Direction) (eid : U32) (l : RateLimiter) : Prop :=
  ∃ l', w.limiter d eid = some l' ∧ l'.capacity = l.capacity ∧
    l'.refillPerSecond = l.refillPerSecond

section Bound

variable {rt : Runtime} {d : Direction} {eid : U32} {l : RateLimiter} {w w' : World} {e : Event}

theorem Step.pays (h : Step rt w e w') (hconf : e.reconfigures d eid = false)
    (hw : w.Metered d eid l)
    (hflow : e.flows eid = true) :
    w'.Metered d eid l ∧
      e.net d eid + headroom (w'.limiter d eid) e.time ≤ headroom (w.limiter d eid) e.time := by
  obtain ⟨l', hl', hcap, hrate⟩ := hw
  rcases e.flow_cases d eid hconf with ⟨hno, -⟩ | ⟨-, clock, own, amount, htime, hcall, hnet⟩
  · rw [hflow] at hno
    cases hno
  · have hlim := h.moves d eid
    rw [hcall, hl'] at hlim
    obtain ⟨l'', hl'', hcap', hrate', hpays⟩ := Direction.transferCall_pays hlim
    refine ⟨⟨l'', hl'', hcap'.trans hcap, hrate'.trans hrate⟩, ?_⟩
    rw [Event.net, hnet, hl', hl'', htime]
    exact hpays

theorem Step.idle (h : Step rt w e w') (hconf : e.reconfigures d eid = false)
    (hflow : e.flows eid = false) :
    w'.limiter d eid = w.limiter d eid ∧ e.net d eid = 0 := by
  rcases e.flow_cases d eid hconf with ⟨-, hcall, hsent, hreceived⟩ | ⟨hyes, -⟩
  · have hlim := h.moves d eid
    rw [hcall] at hlim
    refine ⟨hlim, ?_⟩
    rw [Event.net, hsent, hreceived]
    cases d <;> rfl
  · rw [hflow] at hyes
    cases hyes

theorem Step.metered (h : Step rt w e w') (hconf : e.reconfigures d eid = false)
    (hw : w.Metered d eid l) : w'.Metered d eid l := by
  cases hflow : e.flows eid with
  | true => exact (h.pays hconf hw hflow).1
  | false =>
    rw [World.Metered, (h.idle hconf hflow).1]
    exact hw

/-- Over any part of a run in which a limiter is not set, what its peer moves on balance in the
limiter's direction is at most the capacity and what accrues in the meantime. -/
theorem net_flow_bounded {events : List Event} (hrun : Run (Step rt) w events w')
    (hl : w.limiter d eid = some l) (hkeep : ∀ e ∈ events, e.reconfigures d eid = false) {t₁ t₂ : ℕ}
    (hsorted : (events.filter (Event.flows eid)).Pairwise fun a b => a.time ≤ b.time)
    (hfirst : ∀ e ∈ events, e.flows eid = true → t₁ ≤ e.time)
    (hlast : ∀ e ∈ events, e.flows eid = true → e.time ≤ t₂) (ht : t₁ ≤ t₂) :
    d.net (events.map (Event.sentTo eid)).sum (events.map (Event.receivedFrom eid)).sum ≤
      l.capacity.toNat + l.refillPerSecond.toNat * ((t₂ : ℤ) - t₁) := by
  have haccrue : ∀ (w : World) (t t' : ℕ), w.Metered d eid l → t ≤ t' →
      headroom (w.limiter d eid) t' ≤
        headroom (w.limiter d eid) t + l.refillPerSecond.toNat * ((t' : ℤ) - t) := by
    rintro w t t' ⟨l', hl', -, hrate⟩ hle
    rw [hl', ← hrate]
    exact l'.available_accrues hle
  have hbound := (hrun.restrict hkeep).amortised (I := fun w => w.Metered d eid l)
    (V := fun w t => headroom (w.limiter d eid) t)
    (fun _ _ _ hw hstep => hstep.2.metered hstep.1 hw) haccrue
    (fun _ _ _ hw hstep hflow => (hstep.2.pays hstep.1 hw hflow).2)
    (fun _ _ _ _ hstep hflow => by
      obtain ⟨hsame, hzero⟩ := hstep.2.idle hstep.1 hflow
      exact ⟨hzero, fun t => by rw [hsame]⟩)
    ⟨l, hl, rfl, rfl⟩ hsorted hfirst hlast ht
  have hstart : headroom (w.limiter d eid) t₁ ≤ l.capacity.toNat := by
    rw [hl]
    change ((l.available t₁ : ℕ) : ℤ) ≤ _
    exact_mod_cast l.available_le t₁
  have hrest : 0 ≤ headroom (w'.limiter d eid) t₂ := by
    unfold headroom
    split <;> simp
  have hsum := d.sum_net (Event.sentTo eid) (Event.receivedFrom eid) events
  change (events.map (Event.net d eid)).sum = _ at hsum
  linarith

end Bound

namespace Reference

def limitedStore : World :=
  (replay runtime endpoint adapterStore [
    setPeer (clockAt 10) 7 (.peerAddress (Bytes32.fill 77)),
    setPeer (clockAt 10) 7 (.outboundRateLimit (some ⟨some 5, some 400000⟩))]).1

def limitedTransfers : List (Clock × Instruction) := [
  send (clockAt 20) 7 (Bytes32.fill 33) 310000 none,
  send (clockAt 25) 7 (Bytes32.fill 33) 310000 none,
  receive limitedStore (clockAt 30) (arrival 7 (Bytes32.fill 77) (Bytes32.fill 34) 250)]

theorem net_flow_bounded_sample :
    (replay runtime endpoint limitedStore limitedTransfers).2.map
          (fun e => (e.sentTo 7, e.receivedFrom 7)) = [(306000, 0), (0, 0), (0, 250000)] ∧
      Direction.net .outbound
        ((replay runtime endpoint limitedStore limitedTransfers).2.map (Event.sentTo 7)).sum
        ((replay runtime endpoint limitedStore limitedTransfers).2.map (Event.receivedFrom 7)).sum ≤
          400000 + 5 * ((30 : ℕ) - (20 : ℕ) : ℤ) := by
  refine ⟨by decide, ?_⟩
  have hrun : Run (Step runtime) limitedStore
      (replay runtime endpoint limitedStore limitedTransfers).2
      (replay runtime endpoint limitedStore limitedTransfers).1 :=
    replay_run limitedTransfers limitedStore (by decide)
  have hl : limitedStore.limiter .outbound 7 = some ⟨400000, 400000, 5, 10⟩ := rfl
  exact net_flow_bounded hrun hl (by decide) (by decide) (by decide)
    (by decide) (by decide)

end Reference

end FdfiToken
