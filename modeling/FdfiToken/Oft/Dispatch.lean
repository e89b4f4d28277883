import FdfiToken.Oft.Limits

/-!
# What a send depends on

When a send of a reachable store goes through: the amounts, the limiter, the sender's tokens, the
options and the endpoint. The account checks and the arithmetic never stand in the way.
-/

namespace FdfiToken

open Word Fallible Runs

namespace Send

structure Sendable (rt : Runtime) (ep : Endpoint) (clock : Clock) (accs : SendAccounts)
    (params : SendParams) (w : World) (peer : PeerConfig) (sent received fee : U64) : Prop where
  peer_eq : w.peers params.dstEid = some peer
  sourceOwner : w.ledger.ownerOf accs.tokenSource = some accs.signer
  unpaused : w.oftStore.paused = false
  split : FeeSplit w.oftStore w.ledger.mint clock.epoch
    (effectiveBps w.oftStore.defaultFeeBps peer.feeBps) params.amountLd.toNat sent.toNat
    received.toNat fee.toNat
  slippage : params.minAmountLd.toNat ≤ received.toNat
  limited : ∀ l, peer.outboundRateLimiter = some l →
    received.toNat ≤ l.available clock.unixTimestamp
  collected : w.CanCollect clock.epoch accs.tokenSource accs.signer sent.toNat received.toNat
    fee.toNat
  sender : accs.remainingAccounts[1]? = some w.storeKey
  taken : ∃ options amountSd,
    peer.enforcedOptions.combineOptions rt params.composeMsg params.options = .ok options ∧
      w.oftStore.ld2sd received = .ok amountSd ∧
      (ep.send ⟨params.dstEid, peer.peerAddress, messageOf accs params amountSd, options,
        params.nativeFee, params.lzTokenFee⟩ accs.remainingAccounts).isSome

end Send

section Reachable

variable {rt : Runtime} {sd : U8} {events : List Event} {w : World}

/-- A signed send goes through exactly when it is sendable. -/
theorem dispatch_exact (h : Reaches rt sd events w) {accs : SendAccounts}
    (hsigned : rt.signable accs.signer = true) (ep : Endpoint) (clock : Clock)
    (params : SendParams) :
    (∃ r, Send.apply rt ep clock accs params w = .ok r) ↔
      ∃ peer sent received fee,
        Send.Sendable rt ep clock accs params w peer sent received fee := by
  have happly : (∃ r, Send.apply rt ep clock accs params w = .ok r) ↔
      ∃ peer, Send.tryAccounts rt accs params w = .ok peer ∧
        ∃ r, Send.handler rt ep clock accs params peer w = .ok r := by
    simp only [Send.apply, bind_eq_ok]
    exact ⟨fun ⟨r, peer, haccs, hrun⟩ => ⟨peer, haccs, r, hrun⟩,
      fun ⟨peer, haccs, r, hrun⟩ => ⟨r, peer, haccs, hrun⟩⟩
  rw [happly]
  refine exists_congr fun peer => ?_
  rw [Send.tryAccounts_iff h.wellFormed, Send.exists_handler_iff]
  constructor
  · intro hgoes
    obtain ⟨⟨hpeer, howner⟩, sent, received, fee, hamounts, hout, hcollect, hsender, htaken⟩ :=
      hgoes
    obtain ⟨hpaused, hsplit, hmin⟩ := Send.checkedAmounts_eq_ok.mp hamounts
    exact ⟨sent, received, fee, hpeer, howner, hpaused, hsplit, hmin,
      exists_consumeLimiter.mp hout,
      (Send.exists_collect_iff h hsigned howner hsplit).mp hcollect, hsender, htaken⟩
  · intro hgoes
    obtain ⟨sent, received, fee, hsendable⟩ := hgoes
    refine ⟨⟨hsendable.peer_eq, hsendable.sourceOwner⟩, sent, received, fee,
      Send.checkedAmounts_eq_ok.mpr ⟨hsendable.unpaused, hsendable.split, hsendable.slippage⟩,
      exists_consumeLimiter.mpr hsendable.limited, ?_, hsendable.sender, hsendable.taken⟩
    exact (Send.exists_collect_iff h hsigned hsendable.sourceOwner hsendable.split).mpr
      hsendable.collected

end Reachable

namespace Reference

private theorem smallSend_ok : (limitedSend 50000).isOk = true := by decide

theorem dispatch_exact_sample :
    (∃ peer sent received fee, Send.Sendable runtime endpoint (clockAt 20) limitedAccounts
      (limitedParams 50000) limitedRun.1 peer sent received fee) ∧
    ¬ ∃ peer sent received fee, Send.Sendable runtime endpoint (clockAt 20) limitedAccounts
      (limitedParams 2000000) limitedRun.1 peer sent received fee := by
  have hreach : Reaches runtime 6 limitedRun.2 limitedRun.1 :=
    adapter.replay_reaches adapter_init _ (by decide)
  have hsigned : runtime.signable limitedAccounts.signer = true := by decide
  constructor
  · exact (dispatch_exact hreach hsigned endpoint (clockAt 20) (limitedParams 50000)).mp
      ⟨_, eq_ok_value (limitedSend 50000) smallSend_ok⟩
  · intro hsendable
    obtain ⟨r, hrun⟩ := (dispatch_exact hreach hsigned endpoint (clockAt 20)
      (limitedParams 2000000)).mpr hsendable
    have hrefused := failure_eq_some.mp limitedSend_refused
    cases hrun.symm.trans hrefused

end Reference

end FdfiToken
