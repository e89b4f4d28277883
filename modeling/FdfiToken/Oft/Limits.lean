import FdfiToken.Oft.Amounts

/-!
# The limits a quote advertises

`quote_oft` always advertises every amount. What a `send` asks for beyond the quote's own checks
is that the outbound limiter of the peer has the amount at that second, that it can be counted as
locked, and that the accounts and options it is called with are in order.
-/

namespace FdfiToken

open Word Fallible Rounding Runs

/-- Rejected by the program itself, and not by the token program or the endpoint. -/
def Rejected {α : Type} (r : Result α) : Prop :=
  ∃ e, r = .error e ∧ e ≠ .tokenProgram ∧ e ≠ .endpoint

/-- The OFT fee on an amount: the portion of the whole shared units. -/
def OFTStore.feeOf (s : OFTStore) (m : Mint) (epoch : U64) (bps amount : ℕ) : ℕ :=
  portion bps 10000 (s.units m epoch amount) * s.rate

/-- What a send of an amount delivers: the whole shared units less those of the fee. -/
def OFTStore.receivedOf (s : OFTStore) (m : Mint) (epoch : U64) (bps amount : ℕ) : ℕ :=
  (s.units m epoch amount - portion bps 10000 (s.units m epoch amount)) * s.rate

private theorem QuoteOFT.within_limits {rt : Runtime} {clock : Clock} {params : QuoteSendParams}
    {w : World} {quote : QuoteOFTResult} (h : apply rt clock params w = .ok quote) (amount : U64) :
    quote.oftLimits.minAmountLd.toNat ≤ amount.toNat ∧
      amount.toNat ≤ quote.oftLimits.maxAmountLd.toNat := by
  simp only [apply, handler, bind_eq_ok, Prod.exists, pure_eq_ok] at h
  obtain ⟨_, -, peer, -, _, -, sent, received, fee, -, details, -, rfl⟩ := h
  have hamount := amount.isLt
  have hmax : (0xffffffffffffffff : U64).toNat = 2 ^ 64 - 1 := by decide
  refine ⟨Nat.zero_le _, ?_⟩
  change amount.toNat ≤ (0xffffffffffffffff : U64).toNat
  omega

namespace Send

/-- What the program asks of a send beyond the checks of the quote: the tokens are the signer's, the
limiter has what is delivered, an adapter can count it as locked, and where the tokens can be taken
the endpoint is called for this store with options that combine. -/
structure Unhindered (rt : Runtime) (clock : Clock) (accs : SendAccounts) (params : SendParams)
    (w : World) (peer : PeerConfig) (sent received fee : ℕ) : Prop where
  sourceOwner : w.ledger.ownerOf accs.tokenSource = some accs.signer
  limited : ∀ l, peer.outboundRateLimiter = some l → received ≤ l.available clock.unixTimestamp
  counted : w.oftStore.oftType = .adapter → w.tvl + received < 2 ^ 64
  called : w.CanCollect clock.epoch accs.tokenSource accs.signer sent received fee →
    accs.remainingAccounts[1]? = some w.storeKey ∧
      ∃ options, peer.enforcedOptions.combineOptions rt params.composeMsg params.options =
        .ok options

section Handler

variable {rt : Runtime} {ep : Endpoint} {clock : Clock} {accs : SendAccounts} {params : SendParams}
  {peer : PeerConfig} {w : World} {sent received fee : U64}

/-- Once the amounts are computed the program itself rejects a send by the limiter, the count of
what is locked, or, when the tokens are taken, by an account or the options. -/
theorem handler_not_rejected_iff
    (hamounts : w.checkedAmounts clock peer params.amountLd params.minAmountLd =
      .ok (sent, received, fee)) :
    ¬ Rejected (handler rt ep clock accs params peer w) ↔
      (∀ l, peer.outboundRateLimiter = some l →
        received.toNat ≤ l.available clock.unixTimestamp) ∧
      (w.oftStore.oftType = .adapter → w.tvl + received.toNat < 2 ^ 64) ∧
      ((∃ r, collect clock accs w sent received fee = .ok r) →
        accs.remainingAccounts[1]? = some w.storeKey ∧
          ∃ options, peer.enforcedOptions.combineOptions rt params.composeMsg params.options =
            .ok options) := by
  obtain ⟨-, hsplit, -⟩ := checkedAmounts_eq_ok.mp hamounts
  rw [← exists_consumeLimiter]
  cases hlimit : consumeLimiter clock peer.outboundRateLimiter received with
  | error e =>
    have hfails : Rejected (handler rt ep clock accs params peer w) :=
      ⟨_, handler_limited hamounts hlimit, by decide, by decide⟩
    exact ⟨fun hpasses => (hpasses hfails).elim, by rintro ⟨⟨_, ⟨⟩⟩, -⟩⟩
  | ok outbound =>
    constructor
    · intro hpasses
      refine ⟨⟨outbound, rfl⟩, ?_, ?_⟩
      · intro htype
        by_contra hover
        refine hpasses ⟨.panic, ?_, by decide, by decide⟩
        have hpanic : collect clock accs w sent received fee = .error .panic :=
          collect_overflow htype (Nat.not_lt.mp hover)
        simp only [handler, hamounts, hlimit, hpanic, ok_bind]
        rfl
      · intro htaken
        cases hrun : handler rt ep clock accs params peer w with
        | ok r =>
          obtain ⟨_, _, _, -, -, -, hsender, options, _, hoptions, -⟩ :=
            exists_handler_iff.mp ⟨r, hrun⟩
          exact ⟨hsender, options, hoptions⟩
        | error e =>
          cases handler_refused hamounts hlimit hrun with
          | tokens failed =>
            obtain ⟨r, htaken⟩ := htaken
            cases htaken.symm.trans failed
          | missing | sender | options =>
            exact (hpasses ⟨_, hrun, by decide, by decide⟩).elim
          | endpoint taken sender combined => exact ⟨sender, combined⟩
    · rintro ⟨-, hcounted, hcalled⟩ ⟨e, hrun, htoken, hendpoint⟩
      cases handler_refused hamounts hlimit hrun with
      | tokens failed =>
        rcases collect_error hsplit failed with rfl | ⟨-, htype, hover⟩
        · exact htoken rfl
        · exact absurd (hcounted htype) (Nat.not_lt.mpr hover)
      | missing taken short =>
        obtain ⟨hsender, -⟩ := hcalled taken
        rw [List.getElem?_eq_none (by omega)] at hsender
        cases hsender
      | sender taken other => exact other (hcalled taken).1
      | options taken apart =>
        obtain ⟨-, options, hoptions⟩ := hcalled taken
        exact apart options hoptions
      | endpoint => exact hendpoint rfl

end Handler

end Send

/-- The limits of a quote cover every amount. Of the quoted sends the program itself rejects exactly
those that something hinders, an outbound limiter with less available than the send delivers for
one. -/
theorem limits_honest_iff {rt : Runtime} {sd : U8} {events : List Event} {w : World}
    (h : Reaches rt sd events w) {clock : Clock} {params : SendParams} {payInLzToken : Bool}
    {quote : QuoteOFTResult} {peer : PeerConfig} (hpeer : w.peers params.dstEid = some peer)
    (hquote : QuoteOFT.apply rt clock (params.quoted payInLzToken) w = .ok quote)
    (ep : Endpoint) {accs : SendAccounts} (hsigned : rt.signable accs.signer = true) :
    (quote.oftLimits.minAmountLd.toNat ≤ params.amountLd.toNat ∧
      params.amountLd.toNat ≤ quote.oftLimits.maxAmountLd.toNat) ∧
    (¬ Rejected (Send.apply rt ep clock accs params w) ↔
      let bps := effectiveBps w.oftStore.defaultFeeBps peer.feeBps
      Send.Unhindered rt clock accs params w peer
        (w.oftStore.sentOf w.ledger.mint clock.epoch params.amountLd.toNat)
        (w.oftStore.receivedOf w.ledger.mint clock.epoch bps params.amountLd.toNat)
        (w.oftStore.feeOf w.ledger.mint clock.epoch bps params.amountLd.toNat)) := by
  refine ⟨QuoteOFT.within_limits hquote _, ?_⟩
  obtain ⟨quoted, fee, hquoted, hamounts⟩ := QuoteOFT.amounts_of_apply hquote
  obtain rfl : peer = quoted := Option.some.inj (hpeer.symm.trans hquoted)
  obtain ⟨-, hsplit, -⟩ := Send.checkedAmounts_eq_ok.mp hamounts
  obtain ⟨hsent, hreceived, hfee⟩ := (feeSplit_iff h.wellFormed.rate_pos
    (h.wellFormed.effectiveBps_lt hpeer) params.amountLd.isLt).mp hsplit
  dsimp only
  rw [OFTStore.receivedOf, OFTStore.feeOf, ← hsent, ← hreceived, ← hfee]
  cases haccs : Send.tryAccounts rt accs params w with
  | error e =>
    have hrejected : Rejected (Send.apply rt ep clock accs params w) := by
      refine ⟨e, ?_, ?_⟩
      · rw [Send.apply, haccs]
        rfl
      · rw [Send.tryAccounts_error haccs]
        decide
    constructor
    · intro hpasses
      exact (hpasses hrejected).elim
    · intro hunhindered
      have hok := (Send.tryAccounts_iff h.wellFormed).mpr ⟨hpeer, hunhindered.sourceOwner⟩
      cases hok.symm.trans haccs
  | ok checked =>
    obtain ⟨hchecked, howner⟩ := (Send.tryAccounts_iff h.wellFormed).mp haccs
    obtain rfl : peer = checked := Option.some.inj (hpeer.symm.trans hchecked)
    rw [Send.apply, haccs, ok_bind, Send.handler_not_rejected_iff hamounts,
      Send.exists_collect_iff h hsigned howner hsplit]
    constructor
    · rintro ⟨hlimited, hcounted, hcalled⟩
      exact ⟨howner, hlimited, hcounted, hcalled⟩
    · rintro ⟨-, hlimited, hcounted, hcalled⟩
      exact ⟨hlimited, hcounted, hcalled⟩

namespace Reference

def limitedRun : World × List Event :=
  replay runtime endpoint adapterStore [
    setPeer (clockAt 10) 7 (.peerAddress (Bytes32.fill 77)),
    setPeer (clockAt 11) 7 (.outboundRateLimit (some ⟨some 5000, some 100000⟩))]

def limitedParams (amount : U64) : SendParams :=
  ⟨7, Bytes32.fill 33, amount, 0, [], none, 5000, 0⟩

def limitedAccounts : SendAccounts := ⟨user, userTokens, [admin, storeKey]⟩

def limitedQuote (amount : U64) : Result QuoteOFTResult :=
  QuoteOFT.apply runtime (clockAt 20) ((limitedParams amount).quoted false) limitedRun.1

def limitedSend (amount : U64) : Result (World × SendOutcome) :=
  Send.apply runtime endpoint (clockAt 20) limitedAccounts (limitedParams amount) limitedRun.1

private theorem limitedQuote_ok : (limitedQuote 2000000).isOk = true := by decide

private theorem smallQuote_ok : (limitedQuote 50000).isOk = true := by decide

theorem limitedSend_refused :
    failure (limitedSend 2000000) = some (.oft .rateLimitExceeded) := by decide

/-- 2000000 is quoted as within the limits, and refused at the same second. -/
theorem limits_not_honest :
    Reaches runtime 6 limitedRun.2 limitedRun.1 ∧
      (∃ quote, limitedQuote 2000000 = .ok quote ∧ quote.oftLimits.minAmountLd.toNat ≤ 2000000 ∧
        2000000 ≤ quote.oftLimits.maxAmountLd.toNat) ∧
      limitedSend 2000000 = .error (.oft .rateLimitExceeded) :=
  ⟨adapter.replay_reaches adapter_init _ (by decide),
    ⟨value _ limitedQuote_ok, eq_ok_value _ limitedQuote_ok, by decide, by decide⟩,
    failure_eq_some.mp limitedSend_refused⟩

theorem limits_honest_iff_sample :
    ¬ Rejected (limitedSend 50000) ∧
      ∃ quote, limitedQuote 50000 = .ok quote ∧ quote.oftReceipt.amountReceivedLd = 49000 := by
  refine ⟨?_, _, eq_ok_value (limitedQuote 50000) smallQuote_ok, by decide⟩
  have hreach : Reaches runtime 6 limitedRun.2 limitedRun.1 :=
    adapter.replay_reaches adapter_init _ (by decide)
  have hpeer : limitedRun.1.peers 7 = some ((limitedRun.1.peers 7).getD PeerConfig.default) := rfl
  have hsigned : runtime.signable limitedAccounts.signer = true := by decide
  refine (limits_honest_iff hreach hpeer (eq_ok_value (limitedQuote 50000) smallQuote_ok) endpoint
    hsigned).2.mpr ⟨by decide, ?_, by decide, fun _ => ⟨by decide, [], by decide⟩⟩
  have hlimiter : ((limitedRun.1.peers 7).getD PeerConfig.default).outboundRateLimiter =
      some ⟨100000, 100000, 5000, 11⟩ := by decide
  rw [hlimiter]
  rintro l ⟨⟩
  decide

end Reference

end FdfiToken
