import FdfiToken.Oft.NetFlow
import FdfiToken.Oft.Quotes
import FdfiToken.Solana.Counters

/-!
# Transfers of different peers

What a transfer does to a store is an effect: it writes the account of its own peer, shifts the
counters of the ledger and the total locked, and may open an account. Its amounts depend on none
of these but its own peer, so transfers of different peers commute.
-/

namespace FdfiToken

open Word Fallible Runs Shifts TokenLedger

def World.Alike (w v : World) : Prop :=
  v = { w with
    oftStore := { w.oftStore with tvlLd := v.oftStore.tvlLd }
    peers := v.peers
    ledger := { w.ledger with
      accounts := v.ledger.accounts
      mint := { w.ledger.mint with supply := v.ledger.mint.supply } } }

/-- What a transfer does to a store. -/
structure Effect where
  eid : U32
  peer : PeerConfig
  out : Counter → ℕ
  into : Counter → ℕ
  unlocked : ℕ
  locked : ℕ
  opened : Pubkey → Option Pubkey

structure Effect.Applies (f : Effect) (w w' : World) : Prop where
  store : w' = { w with
    oftStore := { w.oftStore with tvlLd := w'.oftStore.tvlLd }
    peers := Function.update w.peers f.eid (some f.peer)
    ledger := w'.ledger }
  ledger : w.ledger.Shifted w'.ledger f.out f.into f.opened
  tvl : w'.tvl + f.unlocked = w.tvl + f.locked

namespace Effect

variable {f g : Effect} {w w' w₁ w₂ w₁₂ w₂₁ : World}

theorem Applies.peers (h : f.Applies w w') :
    w'.peers = Function.update w.peers f.eid (some f.peer) := by
  rw [h.store]

theorem Applies.peers_of_ne (h : f.Applies w w') {eid : U32} (hne : eid ≠ f.eid) :
    w'.peers eid = w.peers eid := by
  rw [h.peers, Function.update_of_ne hne]

theorem Applies.alike (h : f.Applies w w') : w.Alike w' := by
  have hledger := h.ledger.alike
  rw [TokenLedger.Alike] at hledger
  rw [World.Alike, ← hledger]
  nth_rewrite 1 [h.store]
  rw [h.peers]

/-- Effects on different peers lead to the same state in either order. -/
theorem Applies.commute (hne : f.eid ≠ g.eid) (h₁ : f.Applies w w₁) (h₁₂ : g.Applies w₁ w₁₂)
    (h₂ : g.Applies w w₂) (h₂₁ : f.Applies w₂ w₂₁) : w₁₂ = w₂₁ := by
  have hledger : w₁₂.ledger = w₂₁.ledger := h₁.ledger.commute h₁₂.ledger h₂.ledger h₂₁.ledger
  have htvl : w₁₂.oftStore.tvlLd = w₂₁.oftStore.tvlLd := by
    have t₁ := h₁.tvl
    have t₁₂ := h₁₂.tvl
    have t₂ := h₂.tvl
    have t₂₁ := h₂₁.tvl
    refine BitVec.eq_of_toNat_eq ?_
    change w₁₂.tvl = w₂₁.tvl
    omega
  have hpeers : w₁₂.peers = w₂₁.peers := by
    rw [h₁₂.peers, h₁.peers, h₂₁.peers, h₂.peers, Function.update_comm hne]
  rw [h₁₂.store, h₂₁.store, ← h₁₂.peers, ← h₂₁.peers, hpeers, hledger, htvl, h₁.store, h₂.store]

end Effect

def drainLimiter (clock : Clock) (limiter : Option RateLimiter) (amount : U64) :
    Option RateLimiter := limiter.map fun l => (l.tryConsume clock amount).1

private theorem consumeLimiter_drain {clock : Clock} {limiter limiter' : Option RateLimiter}
    {amount : U64} (h : consumeLimiter clock limiter amount = .ok limiter') :
    limiter' = drainLimiter clock limiter amount := by
  rcases consumeLimiter_eq_ok.mp h with ⟨rfl, rfl⟩ | ⟨l, rfl, -, rfl⟩ <;> rfl

/-- The same message and amounts; what the endpoint answers is its own. -/
structure SendOutcome.Same (out out' : SendOutcome) : Prop where
  endpointCall : out'.endpointCall = out.endpointCall
  oftReceipt : out'.oftReceipt = out.oftReceipt
  oftFeeLd : out'.oftFeeLd = out.oftFeeLd
  event : out'.event = { out.event with guid := out'.event.guid }

namespace Send

def settle (clock : Clock) (peer : PeerConfig) (amount : U64) : PeerConfig :=
  { peer with
    outboundRateLimiter := drainLimiter clock peer.outboundRateLimiter amount
    inboundRateLimiter := refillLimiter clock peer.inboundRateLimiter amount }

/-- Locking the amount sent, or burning what is received and moving the fee. -/
def effect (clock : Clock) (accs : SendAccounts) (params : SendParams) (peer : PeerConfig)
    (out : SendOutcome) (w : World) : Effect :=
  let schedule := w.ledger.mint.schedule clock.epoch
  let sent := out.oftReceipt.amountSentLd.toNat
  let received := out.oftReceipt.amountReceivedLd.toNat
  let fee := out.oftFeeLd.toNat
  if w.oftStore.oftType = .adapter then {
    eid := params.dstEid
    peer := settle clock peer out.oftReceipt.amountReceivedLd
    out := only (.balance accs.tokenSource) sent
    into := only (.balance w.oftStore.tokenEscrow) (schedule.net sent) +
      only (.withheld w.oftStore.tokenEscrow) (schedule.fee sent)
    unlocked := 0
    locked := received
    opened := fun _ => none }
  else {
    eid := params.dstEid
    peer := settle clock peer out.oftReceipt.amountReceivedLd
    out := only (.balance accs.tokenSource) received + only .supply received +
      only (.balance accs.tokenSource) fee
    into := only (.balance w.oftStore.tokenEscrow) (schedule.net fee) +
      only (.withheld w.oftStore.tokenEscrow) (schedule.fee fee)
    unlocked := 0
    locked := 0
    opened := fun _ => none }

section Effect

variable {rt : Runtime} {sd : U8} {clock : Clock} {accs : SendAccounts} {params : SendParams}
  {peer : PeerConfig} {w w' v : World} {out : SendOutcome}

theorem effect_eid : (effect clock accs params peer out w).eid = params.dstEid := by
  unfold effect
  split <;> rfl

theorem effect_alike (h : w.Alike v) :
    effect clock accs params peer out v = effect clock accs params peer out w := by
  rw [h]
  rfl

theorem Sent.effect_applies (hwf : WellFormed rt sd w) (hsigned : rt.signable accs.signer = true)
    (h : Sent rt clock accs params peer w w' out) :
    (effect clock accs params peer out w).Applies w w' := by
  have hne := hwf.source_ne_escrow h.sourceOwner hsigned
  have hcollected := h.collected
  have hstore : w' = { w with
      oftStore := { w.oftStore with tvlLd := w'.oftStore.tvlLd }
      peers := Function.update w.peers params.dstEid
        (some (settle clock peer out.oftReceipt.amountReceivedLd))
      ledger := w'.ledger } := by
    obtain ⟨outbound, hconsume, heq⟩ := h.limited
    rw [consumeLimiter_drain hconsume] at heq
    exact heq
  by_cases htype : w.oftStore.oftType = .adapter
  · simp only [collect, if_pos htype, bind_eq_ok, orError_eq_ok, checkedAdd_eq_some, pure_eq_ok,
      Prod.mk.injEq] at hcollected
    obtain ⟨tvl, htvl, ledger, hledger, rfl, rfl⟩ := hcollected
    rw [effect, if_pos htype]
    exact ⟨hstore, transferChecked_shifted hne hledger, htvl⟩
  · have hsum := h.split.credited
    rw [OFTStore.credited_native htype] at hsum
    simp only [collect, if_neg htype, bind_eq_ok, orError_eq_ok, checkedSub_eq_some, pure_eq_ok,
      Prod.mk.injEq] at hcollected
    obtain ⟨burned, hburnedv, burntLedger, hburn, ledger, hfee, htvl, rfl⟩ := hcollected
    have hburned := burn_shifted hburn
    rw [show burned.toNat = out.oftReceipt.amountReceivedLd.toNat by omega] at hburned
    have hschedule : burntLedger.mint.schedule clock.epoch =
        w.ledger.mint.schedule clock.epoch := by
      rw [hburned.alike]
      rfl
    have hmoved : burntLedger.Shifted w'.ledger
        (only (.balance accs.tokenSource) out.oftFeeLd.toNat)
        (only (.balance w.oftStore.tokenEscrow)
            ((w.ledger.mint.schedule clock.epoch).net out.oftFeeLd.toNat) +
          only (.withheld w.oftStore.tokenEscrow)
            ((w.ledger.mint.schedule clock.epoch).fee out.oftFeeLd.toNat)) fun _ => none := by
      rw [← hschedule]
      split at hfee
      · exact transferChecked_shifted hne hfee
      · rename_i hzero
        rw [pure_eq_ok] at hfee
        subst hfee
        rw [show out.oftFeeLd.toNat = 0 by omega]
        simpa using Shifted.refl _
    rw [effect, if_neg htype]
    refine ⟨hstore, ?_, ?_⟩
    · simpa only [zero_add] using hburned.trans hmoved
    · rw [World.tvl, World.tvl, htvl]

private theorem apply_outcome {ep : Endpoint}
    (h : apply rt ep clock accs params w = .ok (w', out)) :
    out.endpointCall.nativeFee = params.nativeFee ∧
      out.endpointCall.lzTokenFee = params.lzTokenFee ∧
      out.event = ⟨out.event.guid, params.dstEid, accs.tokenSource, out.oftReceipt.amountSentLd,
        out.oftReceipt.amountReceivedLd⟩ := by
  simp only [apply, handler, bind_eq_ok, Prod.exists, orError_eq_ok, pure_eq_ok,
    Prod.mk.injEq] at h
  obtain ⟨_, -, _, _, _, -, _, -, _, _, -, _, -, _, -, _, -, _, -, _, -, -, rfl⟩ := h
  exact ⟨rfl, rfl, rfl⟩

theorem apply_alike {ep ep' : Endpoint} {v' : World} {out' : SendOutcome} (halike : w.Alike v)
    (hpeer : v.peers params.dstEid = w.peers params.dstEid)
    (h : apply rt ep clock accs params w = .ok (w', out))
    (h' : apply rt ep' clock accs params v = .ok (v', out')) : out.Same out' := by
  obtain ⟨peer, hsent⟩ := apply_sent h
  obtain ⟨peer', hsent'⟩ := apply_sent h'
  obtain ⟨hnative, hlz, hevent⟩ := apply_outcome h
  obtain ⟨hnative', hlz', hevent'⟩ := apply_outcome h'
  obtain rfl : peer = peer' :=
    Option.some.inj (hsent.peer_eq.symm.trans (hpeer.symm.trans hsent'.peer_eq))
  have hamounts := hsent'.amounts
  rw [show v.checkedAmounts clock peer params.amountLd params.minAmountLd =
    w.checkedAmounts clock peer params.amountLd params.minAmountLd by rw [halike]; rfl] at hamounts
  obtain ⟨hreceipt, hfee⟩ := hsent.receipt_eq hamounts
  obtain ⟨amountSd, hsd, hmessage⟩ := hsent.message
  obtain ⟨amountSd', hsd', hmessage'⟩ := hsent'.message
  have hconvert : v.oftStore.ld2sd = w.oftStore.ld2sd := by
    rw [halike]
    rfl
  rw [hconvert, ← hreceipt, hsd, Except.ok.injEq] at hsd'
  have hoptions := hsent.options.symm.trans hsent'.options
  rw [Except.ok.injEq] at hoptions
  refine ⟨?_, hreceipt.symm, hfee.symm, ?_⟩
  · rw [EndpointSendParams.ext_iff]
    exact ⟨hsent'.dstEid.trans hsent.dstEid.symm, hsent'.receiver.trans hsent.receiver.symm,
      by rw [hmessage, hmessage', hsd'], hoptions.symm, hnative'.trans hnative.symm,
      hlz'.trans hlz.symm⟩
  · rw [hevent', hevent, hreceipt]

theorem effect_same {out' : SendOutcome} (h : out.Same out') :
    effect clock accs params peer out' w = effect clock accs params peer out w := by
  simp only [effect, h.oftReceipt, h.oftFeeLd]

end Effect

end Send

namespace LzReceive

def settle (clock : Clock) (peer : PeerConfig) (amount : U64) : PeerConfig :=
  { peer with
    outboundRateLimiter := refillLimiter clock peer.outboundRateLimiter amount
    inboundRateLimiter := drainLimiter clock peer.inboundRateLimiter amount }

/-- Opening the recipient's account, then unlocking or minting the amount. -/
def effect (clock : Clock) (a : LzReceiveAccounts) (params : LzReceiveParams) (peer : PeerConfig)
    (out : LzReceiveOutcome) (w : World) : Effect :=
  let schedule := w.ledger.mint.schedule clock.epoch
  let amount := out.amountLd.toNat
  let opened := fun k => if k = a.tokenDest then some a.toAddress else none
  if w.oftStore.oftType = .adapter then {
    eid := params.srcEid
    peer := settle clock peer out.amountLd
    out := only (.balance w.oftStore.tokenEscrow) amount
    into := only (.balance a.tokenDest) (schedule.net amount) +
      only (.withheld a.tokenDest) (schedule.fee amount)
    unlocked := amount
    locked := 0
    opened := opened }
  else {
    eid := params.srcEid
    peer := settle clock peer out.amountLd
    out := 0
    into := only (.balance a.tokenDest) amount + only .supply amount
    unlocked := 0
    locked := 0
    opened := opened }

section Effect

variable {rt : Runtime} {sd : U8} {clock : Clock} {a : LzReceiveAccounts}
  {params : LzReceiveParams} {peer : PeerConfig} {w w' v : World} {out : LzReceiveOutcome}

theorem effect_eid : (effect clock a params peer out w).eid = params.srcEid := by
  unfold effect
  split <;> rfl

theorem effect_alike (h : w.Alike v) :
    effect clock a params peer out v = effect clock a params peer out w := by
  rw [h]
  rfl

theorem Received.effect_applies (hwf : WellFormed rt sd w)
    (h : Received rt clock a params peer w w' out) :
    (effect clock a params peer out w).Applies w w' := by
  have hne : w.oftStore.tokenEscrow ≠ a.tokenDest := by
    rw [h.tokenDest]
    exact hwf.escrow_ne_associated _ _ _
  have hstore : w' = { w with
      oftStore := { w.oftStore with tvlLd := w'.oftStore.tvlLd }
      peers := Function.update w.peers params.srcEid (some (settle clock peer out.amountLd))
      ledger := w'.ledger } := by
    obtain ⟨inbound, hconsume, heq⟩ := h.limited
    rw [consumeLimiter_drain hconsume] at heq
    exact heq
  obtain ⟨opened, received, hopened, hrelease, -, -⟩ := h.released
  have hopen := initIfNeeded_shifted hopened
  by_cases htype : w.oftStore.oftType = .adapter
  · have hschedule : opened.mint.schedule clock.epoch = w.ledger.mint.schedule clock.epoch := by
      rw [hopen.alike]
      rfl
    simp only [release, if_pos htype, bind_eq_ok, orError_eq_ok, checkedSub_eq_some, pure_eq_ok,
      Prod.mk.injEq, h.tokenEscrow] at hrelease
    obtain ⟨tvl, htvl, ledger, hledger, _, -, rfl, rfl, -⟩ := hrelease
    have hmoved := transferChecked_shifted hne hledger
    rw [hschedule] at hmoved
    rw [effect, if_pos htype]
    refine ⟨hstore, ?_, htvl⟩
    simpa only [zero_add] using hopen.trans hmoved
  · rw [release, if_neg htype] at hrelease
    cases hauthority : a.mintAuthority with
    | none => simp [hauthority] at hrelease
    | some authority =>
      simp only [hauthority, bind_eq_ok, pure_eq_ok, Prod.mk.injEq] at hrelease
      obtain ⟨ledger, hledger, htvl, rfl, -⟩ := hrelease
      rw [effect, if_neg htype]
      refine ⟨hstore, ?_, ?_⟩
      · simpa only [zero_add] using hopen.trans (mintTo_shifted hledger)
      · rw [World.tvl, World.tvl, ← htvl]

private theorem release_received {opened ledger : TokenLedger} {amount tvl received : U64}
    (h : release clock a { w with ledger := opened } amount = .ok (tvl, ledger, received)) :
    received.toNat = w.oftStore.credited opened.mint clock.epoch amount.toNat := by
  by_cases htype : w.oftStore.oftType = .adapter
  · simp only [release, if_pos htype, bind_eq_ok, pure_eq_ok, Prod.mk.injEq,
      Mint.getPostFeeAmountLd_eq_ok] at h
    obtain ⟨_, -, _, -, _, hreceived, -, -, rfl⟩ := h
    rw [OFTStore.credited_adapter htype, hreceived]
  · rw [OFTStore.credited_native htype]
    rw [(release_native (w := { w with ledger := opened }) htype h).2.2]

theorem apply_alike {ep ep' : Endpoint} {metas : List LzAccount} {v' : World}
    {out' : LzReceiveOutcome} (halike : w.Alike v)
    (h : apply rt ep clock metas params w = .ok (w', out))
    (h' : apply rt ep' clock metas params v = .ok (v', out')) : out' = out := by
  obtain ⟨a, peer, hparse, hreceived⟩ := apply_received h
  obtain ⟨a', peer', hparse', hreceived'⟩ := apply_received h'
  rw [hparse, Except.ok.injEq] at hparse'
  subst hparse'
  obtain ⟨amountSd, hsd, hld⟩ := hreceived.amount
  obtain ⟨amountSd', hsd', hld'⟩ := hreceived'.amount
  rw [hsd, Except.ok.injEq] at hsd'
  subst hsd'
  have hconvert : v.oftStore.sd2ld = w.oftStore.sd2ld := by
    rw [halike]
    rfl
  rw [hconvert, hld, Except.ok.injEq] at hld'
  obtain ⟨opened, received, hopened, hrelease, hcall, hevent⟩ := hreceived.released
  obtain ⟨opened', received', hopened', hrelease', hcall', hevent'⟩ := hreceived'.released
  have hsame : received' = received := by
    refine BitVec.eq_of_toNat_eq ?_
    rw [release_received hrelease', release_received hrelease, hld',
      (TokenLedger.initIfNeeded_spec hopened').2.1, (TokenLedger.initIfNeeded_spec hopened).2.1,
      halike]
    rfl
  have hkey : v.storeKey = w.storeKey := by rw [halike]
  rw [LzReceiveOutcome.ext_iff, hreceived'.cleared, hreceived.cleared, hkey,
    hreceived'.clearAccounts, hreceived.clearAccounts, hreceived'.composeAccounts,
    hreceived.composeAccounts, hcall', hcall, hevent', hevent, hsame]
  exact ⟨rfl, rfl, hld'.symm, rfl, rfl, rfl⟩

end Effect

end LzReceive

def Instruction.transferEid : Instruction → Option U32
  | .send _ params => some params.dstEid
  | .lzReceive _ params => some params.srcEid
  | _ => none

def Outcome.Same : Outcome → Outcome → Prop
  | .sent out, .sent out' => out.Same out'
  | .received out, .received out' => out' = out
  | _, _ => False

section Transfers

variable {rt : Runtime} {sd : U8} {clock : Clock} {i : Instruction} {eid : U32} {w w' : World}
  {o : Outcome}

/-- A transfer has an effect, and the same effect and outcome wherever its peer is the same. -/
theorem execute_effect {ep : Endpoint} (hwf : WellFormed rt sd w)
    (heid : i.transferEid = some eid) (hsigned : i.signed rt = true)
    (h : execute rt ep clock i w = .ok (w', o)) :
    ∃ f : Effect, f.eid = eid ∧ f.Applies w w' ∧
      ∀ ep' v v' o', WellFormed rt sd v → w.Alike v → v.peers eid = w.peers eid →
        execute rt ep' clock i v = .ok (v', o') → f.Applies v v' ∧ o.Same o' := by
  cases i with
  | send accs params =>
    cases heid
    have hkey : rt.signable accs.signer = true := hsigned
    simp only [execute, bind_eq_ok, pure_eq_ok, Prod.mk.injEq, Prod.exists] at h
    obtain ⟨_, out, hrun, rfl, rfl⟩ := h
    obtain ⟨peer, hsent⟩ := Send.apply_sent hrun
    refine ⟨Send.effect clock accs params peer out w, Send.effect_eid,
      hsent.effect_applies hwf hkey, ?_⟩
    intro ep' v v' o' hwf' halike hpeers h'
    simp only [execute, bind_eq_ok, pure_eq_ok, Prod.mk.injEq, Prod.exists] at h'
    obtain ⟨_, out', hrun', rfl, rfl⟩ := h'
    obtain ⟨peer', hsent'⟩ := Send.apply_sent hrun'
    obtain rfl := hsent'.peer_unique (hpeers.trans hsent.peer_eq)
    have hsame := Send.apply_alike halike hpeers hrun hrun'
    have happlies := hsent'.effect_applies hwf' hkey
    rw [Send.effect_alike halike, Send.effect_same hsame] at happlies
    exact ⟨happlies, hsame⟩
  | lzReceive metas params =>
    cases heid
    simp only [execute, bind_eq_ok, pure_eq_ok, Prod.mk.injEq, Prod.exists] at h
    obtain ⟨_, out, hrun, rfl, rfl⟩ := h
    obtain ⟨a, peer, hparse, hreceived⟩ := LzReceive.apply_received hrun
    refine ⟨LzReceive.effect clock a params peer out w, LzReceive.effect_eid,
      hreceived.effect_applies hwf, ?_⟩
    intro ep' v v' o' hwf' halike hpeers h'
    simp only [execute, bind_eq_ok, pure_eq_ok, Prod.mk.injEq, Prod.exists] at h'
    obtain ⟨_, out', hrun', rfl, rfl⟩ := h'
    obtain ⟨a', peer', hparse', hreceived'⟩ := LzReceive.apply_received hrun'
    obtain rfl : a = a' := Except.ok.inj (hparse.symm.trans hparse')
    obtain rfl : peer = peer' :=
      Option.some.inj (hreceived.peer_eq.symm.trans (hpeers.symm.trans hreceived'.peer_eq))
    obtain rfl := LzReceive.apply_alike halike hrun hrun'
    have happlies := hreceived'.effect_applies hwf'
    rw [LzReceive.effect_alike halike] at happlies
    exact ⟨happlies, rfl⟩
  | _ => cases heid

theorem WellFormed.execute {ep : Endpoint} (hwf : WellFormed rt sd w)
    (hsigned : i.signed rt = true) (h : execute rt ep clock i w = .ok (w', o)) :
    WellFormed rt sd w' := by
  refine hwf.step (.executed (fun k hk => ?_) h)
  rwa [Instruction.signed, hk, Option.all_some] at hsigned

end Transfers

/-- A transfer leaves every other peer's account alone, so whether that peer's limiters take an
amount does not depend on it. Two transfers of different peers at the same time that succeed in
both orders lead to the same state, with the same messages and amounts. -/
theorem peers_commute {rt : Runtime} {sd : U8} {events : List Event} {w : World}
    (h : Reaches rt sd events w) (clock : Clock) {i₁ i₂ : Instruction} {eid₁ eid₂ : U32}
    (heid₁ : i₁.transferEid = some eid₁) (heid₂ : i₂.transferEid = some eid₂)
    (hne : eid₁ ≠ eid₂) (hsigned₁ : i₁.signed rt = true) (hsigned₂ : i₂.signed rt = true) :
    (∀ ep w₁ o₁, execute rt ep clock i₁ w = .ok (w₁, o₁) →
      w₁.peers eid₂ = w.peers eid₂ ∧
        ∀ d amount, consumeLimiter clock (w₁.limiter d eid₂) amount =
          consumeLimiter clock (w.limiter d eid₂) amount) ∧
    (∀ ep w₂ o₂, execute rt ep clock i₂ w = .ok (w₂, o₂) →
      w₂.peers eid₁ = w.peers eid₁ ∧
        ∀ d amount, consumeLimiter clock (w₂.limiter d eid₁) amount =
          consumeLimiter clock (w.limiter d eid₁) amount) ∧
    ∀ ep₁ ep₂ ep₁' ep₂' w₁ w₂ w₁₂ w₂₁ o₁ o₂ o₁' o₂',
      execute rt ep₁ clock i₁ w = .ok (w₁, o₁) → execute rt ep₂ clock i₂ w₁ = .ok (w₁₂, o₂') →
      execute rt ep₂' clock i₂ w = .ok (w₂, o₂) → execute rt ep₁' clock i₁ w₂ = .ok (w₂₁, o₁') →
      w₁₂ = w₂₁ ∧ o₁.Same o₁' ∧ o₂.Same o₂' := by
  have hwf := h.wellFormed
  refine ⟨?_, ?_, ?_⟩
  · intro ep w₁ o₁ hrun
    obtain ⟨f, rfl, hf, -⟩ := execute_effect hwf heid₁ hsigned₁ hrun
    have hpeers := hf.peers_of_ne (Ne.symm hne)
    exact ⟨hpeers, fun d amount => by rw [World.limiter, hpeers, World.limiter]⟩
  · intro ep w₂ o₂ hrun
    obtain ⟨g, rfl, hg, -⟩ := execute_effect hwf heid₂ hsigned₂ hrun
    have hpeers := hg.peers_of_ne hne
    exact ⟨hpeers, fun d amount => by rw [World.limiter, hpeers, World.limiter]⟩
  · intro ep₁ ep₂ ep₁' ep₂' w₁ w₂ w₁₂ w₂₁ o₁ o₂ o₁' o₂' h₁ h₁₂ h₂ h₂₁
    obtain ⟨f, rfl, hf, hf'⟩ := execute_effect hwf heid₁ hsigned₁ h₁
    obtain ⟨g, rfl, hg, hg'⟩ := execute_effect hwf heid₂ hsigned₂ h₂
    obtain ⟨hg₁₂, hsame₂⟩ := hg' _ _ _ _ (hwf.execute hsigned₁ h₁) hf.alike
      (hf.peers_of_ne (Ne.symm hne)) h₁₂
    obtain ⟨hf₂₁, hsame₁⟩ := hf' _ _ _ _ (hwf.execute hsigned₂ h₂) hg.alike
      (hg.peers_of_ne hne) h₂₁
    exact ⟨hf.commute hne hg₁₂ hg hf₂₁, hsame₁, hsame₂⟩

namespace Reference

def twoPeersRun : World × List Event :=
  replay runtime endpoint adapterStore [
    setPeer (clockAt 10) 7 (.peerAddress (Bytes32.fill 77)),
    setPeer (clockAt 11) 8 (.peerAddress (Bytes32.fill 88)),
    setPeer (clockAt 12) 7 (.outboundRateLimit (some ⟨some 5000, some 3000000⟩)),
    send (clockAt 20) 8 (Bytes32.fill 33) 2000000 none]

def sendFirst : Instruction := (send (clockAt 30) 7 (Bytes32.fill 33) 1000000 none).2

def receiveSecond : Instruction :=
  (receive twoPeersRun.1 (clockAt 30) (arrival 8 (Bytes32.fill 88) user 500)).2

def inOrder (i j : Instruction) : Result ((World × Outcome) × (World × Outcome)) := do
  let first ← execute runtime endpoint (clockAt 30) i twoPeersRun.1
  let second ← execute runtime endpoint (clockAt 30) j first.1
  return (first, second)

private theorem sendFirst_ok : (inOrder sendFirst receiveSecond).isOk = true := by decide

private theorem receiveFirst_ok : (inOrder receiveSecond sendFirst).isOk = true := by decide

private theorem inOrder_eq_ok {i j : Instruction} {first second : World × Outcome}
    (h : inOrder i j = .ok (first, second)) :
    execute runtime endpoint (clockAt 30) i twoPeersRun.1 = .ok first ∧
      execute runtime endpoint (clockAt 30) j first.1 = .ok second := by
  simp only [inOrder, bind_eq_ok, pure_eq_ok, Prod.mk.injEq] at h
  obtain ⟨_, hfirst, _, hsecond, rfl, rfl⟩ := h
  exact ⟨hfirst, hsecond⟩

theorem peers_commute_sample :
    (value _ sendFirst_ok).2.1 = (value _ receiveFirst_ok).2.1 ∧
      (value _ sendFirst_ok).2.1.tvl = 2490000 := by
  have hreach : Reaches runtime 6 twoPeersRun.2 twoPeersRun.1 :=
    adapter.replay_reaches adapter_init _ (by decide)
  have hsend := inOrder_eq_ok (eq_ok_value _ sendFirst_ok)
  have hreceive := inOrder_eq_ok (eq_ok_value _ receiveFirst_ok)
  have hsigned : sendFirst.signed runtime = true ∧ receiveSecond.signed runtime = true :=
    ⟨by decide, by decide⟩
  have hcommute := peers_commute hreach (clockAt 30) (rfl : sendFirst.transferEid = some 7)
    (rfl : receiveSecond.transferEid = some 8) (by decide) hsigned.1 hsigned.2
  exact ⟨(hcommute.2.2 _ _ _ _ _ _ _ _ _ _ _ _ hsend.1 hsend.2 hreceive.1 hreceive.2).1,
    by decide⟩

end Reference

end FdfiToken
