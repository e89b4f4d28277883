import FdfiToken.Oft.Amounts

/-!
# What `quote_oft` foretells

`quote_oft` is compared with a `send` of the same parameters in the same state: it fails where the
send fails its pause, fee and slippage checks, and what it answers is what the send does.
-/

namespace FdfiToken

open Word Fallible Runs

/-- A send bears out the quote: the same receipt; for an adapter the fee the token program
withholds and the rise of the escrow over the total locked; for a native store what is burned. -/
structure Forecast (w w' : World) (quote : QuoteOFTResult) (out : SendOutcome) : Prop where
  receipt : out.oftReceipt = quote.oftReceipt
  withheld : w.oftStore.oftType = .adapter →
    w'.ledger.withheld w.oftStore.tokenEscrow = w.ledger.withheld w.oftStore.tokenEscrow +
      ((quote.fee QuoteOFT.transferFeeDescription).getD 0).toNat
  surplus : w.oftStore.oftType = .adapter →
    (w'.escrow : ℤ) - w'.tvl = (w.escrow - w.tvl) +
      ((quote.fee QuoteOFT.crossChainFeeDescription).getD 0).toNat
  burned : w.oftStore.oftType = .native →
    w'.supply + quote.oftReceipt.amountSentLd.toNat = w.supply +
      ((quote.fee QuoteOFT.crossChainFeeDescription).getD 0).toNat

namespace Send

/-- The errors of a send past its pause, fee and slippage checks: the rate limit, the token program,
the accounts and options of the endpoint's call, the endpoint. A panic is one of them only where
those accounts are too few or the total locked could leave `u64`. -/
def LateError (accs : SendAccounts) (params : SendParams) (w : World) : ProgramError → Prop
  | .oft .rateLimitExceeded | .oft .invalidSender | .tokenProgram | .options | .endpoint => True
  | .panic => accs.remainingAccounts.length < 2 ∨
      w.oftStore.oftType = .adapter ∧ 2 ^ 64 ≤ w.tvl + params.amountLd.toNat
  | _ => False

section Errors

variable {rt : Runtime} {sd : U8} {ep : Endpoint} {clock : Clock} {accs : SendAccounts}
  {params : SendParams} {peer : PeerConfig} {w : World} {e : ProgramError}

private theorem handler_late {sent received fee : U64}
    (hamounts : w.checkedAmounts clock peer params.amountLd params.minAmountLd =
      .ok (sent, received, fee))
    (h : handler rt ep clock accs params peer w = .error e) : LateError accs params w e := by
  obtain ⟨-, hsplit, -⟩ := checkedAmounts_eq_ok.mp hamounts
  cases hlimit : consumeLimiter clock peer.outboundRateLimiter received with
  | error e' =>
    have hlimited : handler rt ep clock accs params peer w = .error (.oft .rateLimitExceeded) :=
      handler_limited hamounts hlimit
    obtain rfl := Except.error.inj (h.symm.trans hlimited)
    trivial
  | ok outbound =>
    cases handler_refused hamounts hlimit h with
    | tokens failed =>
      rcases collect_error hsplit failed with rfl | ⟨rfl, htype, hover⟩
      · trivial
      · have hunits := w.oftStore.units_mul_rate_le w.ledger.mint clock.epoch params.amountLd.toNat
        have hsum : received.toNat + fee.toNat = _ := hsplit.split
        rw [OFTStore.units, ← hsum] at hunits
        exact .inr ⟨htype, by omega⟩
    | missing taken short => exact .inl short
    | sender | options | endpoint => trivial

/-- On a well-formed store the amounts fail on the pause flag and the slippage alone. -/
theorem checkedAmounts_error (hwf : WellFormed rt sd w) {eid : U32}
    (hpeer : w.peers eid = some peer) {amount minAmount : U64}
    (h : w.checkedAmounts clock peer amount minAmount = .error e) :
    e = .oft .paused ∨ e = .oft .slippageExceeded := by
  obtain ⟨sent, received, fee, hamounts, -⟩ :=
    exists_amounts hwf.rate_pos (hwf.effectiveBps_lt hpeer) w.ledger.mint clock.epoch amount
  simp only [World.checkedAmounts, hamounts, ok_bind, bind_eq_error, require_eq_error,
    pure_ne_error, and_false, exists_false, or_false] at h
  rcases h with ⟨-, rfl⟩ | ⟨_, -, -, rfl⟩
  · exact .inl rfl
  · exact .inr rfl

private theorem apply_of_peer (hwf : WellFormed rt sd w) (hpeer : w.peers params.dstEid = some peer)
    (howner : w.ledger.ownerOf accs.tokenSource = some accs.signer) :
    apply rt ep clock accs params w = handler rt ep clock accs params peer w := by
  rw [apply, (tryAccounts_iff hwf).mpr ⟨hpeer, howner⟩, ok_bind]

private theorem quote_of_peer (hwf : WellFormed rt sd w) {params : QuoteSendParams}
    (hpeer : w.peers params.dstEid = some peer) :
    QuoteOFT.apply rt clock params w = QuoteOFT.handler clock params peer w := by
  have haccount := hwf.peerAccount_eq_ok.mpr hpeer
  simp only [QuoteOFT.apply, hwf.checkStore, haccount, hwf.checkMint, ok_bind]

private theorem apply_no_peer (hpeer : w.peers params.dstEid = none) :
    apply rt ep clock accs params w = .error .constraint := by
  cases haccs : tryAccounts rt accs params w with
  | error e =>
    rw [apply, haccs, tryAccounts_error haccs]
    rfl
  | ok peer =>
    rw [tryAccounts_peer haccs] at hpeer
    cases hpeer

private theorem quote_no_peer (hwf : WellFormed rt sd w) {params : QuoteSendParams}
    (hpeer : w.peers params.dstEid = none) :
    QuoteOFT.apply rt clock params w = .error .constraint := by
  have haccount : w.peerAccount rt params.dstEid = .error .constraint := by
    rw [World.peerAccount, hpeer]
    rfl
  rw [QuoteOFT.apply, hwf.checkStore, ok_bind, haccount]
  rfl

/-- The quote and a send from the signer's own account fail alike, up to the errors that only a send
can meet. -/
theorem quote_error_iff (hwf : WellFormed rt sd w)
    (howner : w.ledger.ownerOf accs.tokenSource = some accs.signer) {payInLzToken : Bool} :
    QuoteOFT.apply rt clock (params.quoted payInLzToken) w = .error e ↔
      apply rt ep clock accs params w = .error e ∧ ¬ LateError accs params w e := by
  cases hpeer : w.peers params.dstEid with
  | none =>
    have hasked : w.peers (params.quoted payInLzToken).dstEid = none := hpeer
    rw [quote_no_peer hwf hasked, apply_no_peer hpeer, Except.error.injEq, Except.error.injEq]
    constructor
    · rintro rfl
      exact ⟨rfl, id⟩
    · exact And.left
  | some peer =>
    have hasked : w.peers (params.quoted payInLzToken).dstEid = some peer := hpeer
    cases hamounts : w.checkedAmounts clock peer params.amountLd params.minAmountLd with
    | error e' =>
      have hquote : QuoteOFT.apply rt clock (params.quoted payInLzToken) w = .error e' := by
        rw [quote_of_peer hwf hasked, QuoteOFT.handler, SendParams.quoted, hamounts]
        rfl
      have hsend : apply rt ep clock accs params w = .error e' := by
        rw [apply_of_peer hwf hpeer howner, handler, hamounts]
        rfl
      rw [hquote, hsend, Except.error.injEq, Except.error.injEq]
      constructor
      · rintro rfl
        rcases checkedAmounts_error hwf hpeer hamounts with rfl | rfl
        · exact ⟨rfl, id⟩
        · exact ⟨rfl, id⟩
      · exact And.left
    | ok amounts =>
      obtain ⟨transferFee, hanswer, -⟩ := QuoteOFT.apply_of_amounts hwf hasked hamounts
      rw [hanswer, apply_of_peer hwf hpeer howner]
      constructor
      · intro h
        cases h
      · intro h
        obtain ⟨hrun, hlate⟩ := h
        exact (hlate (handler_late hamounts hrun)).elim

end Errors

end Send

private theorem Send.Sent.forecast {rt : Runtime} {sd : U8} {clock : Clock} {accs : SendAccounts}
    {params : SendParams} {peer : PeerConfig} {w w' : World} {out : SendOutcome}
    {quote : QuoteOFTResult} (h : Send.Sent rt clock accs params peer w w' out)
    (hwf : WellFormed rt sd w) (hsigned : rt.signable accs.signer = true)
    (hreceipt : out.oftReceipt = quote.oftReceipt)
    (htransfer : w.oftStore.oftType = .adapter →
      (quote.fee QuoteOFT.transferFeeDescription).getD 0 =
        w.ledger.mint.transferFee clock.epoch out.oftReceipt.amountSentLd)
    (hcross : (quote.fee QuoteOFT.crossChainFeeDescription).getD 0 = out.oftFeeLd) :
    Forecast w w' quote out := by
  refine ⟨hreceipt, ?_, ?_, ?_⟩
  · intro htype
    have hne := hwf.source_ne_escrow h.sourceOwner hsigned
    have hcharged := (Send.collect_adapter htype hne h.collected).2.charged
    rw [htransfer htype, Mint.toNat_transferFee]
    exact hcharged
  · intro htype
    obtain ⟨hescrow, htvl⟩ := h.books hwf htype hsigned
    rw [hcross, hescrow, htvl]
    push_cast
    ring
  · intro htype
    have hburned := h.burns hwf htype hsigned
    have hadapter : w.oftStore.oftType ≠ .adapter := OFTType.ne_adapter htype
    have hsplit := h.split.credited
    rw [OFTStore.credited_native hadapter] at hsplit
    rw [hcross, ← hreceipt]
    omega

section Reachable

variable {rt : Runtime} {sd : U8} {events : List Event} {w : World}

/-- Every send that goes through is quoted, and for a send from the signer's own account `quote_oft`
answers exactly when the send gets past its pause, fee and slippage checks: its error is the send's,
and a quoted send meets only the errors of what comes after. The fees a quote lists add up to what
is sent and not received; for an adapter the transfer fee is listed exactly when the mint withholds
one, for a native store never; and every send bears the quote out. -/
theorem quote_forecasts_send (h : Reaches rt sd events w) (clock : Clock) (params : SendParams)
    (payInLzToken : Bool) :
    (∀ ep accs,
      (∀ r, Send.apply rt ep clock accs params w = .ok r →
        ∃ quote, QuoteOFT.apply rt clock (params.quoted payInLzToken) w = .ok quote) ∧
      (w.ledger.ownerOf accs.tokenSource = some accs.signer →
        ((∃ quote, QuoteOFT.apply rt clock (params.quoted payInLzToken) w = .ok quote) ↔
          ∀ e, Send.apply rt ep clock accs params w = .error e →
            Send.LateError accs params w e) ∧
        ∀ e, QuoteOFT.apply rt clock (params.quoted payInLzToken) w = .error e →
          Send.apply rt ep clock accs params w = .error e)) ∧
    ∀ quote, QuoteOFT.apply rt clock (params.quoted payInLzToken) w = .ok quote →
      (quote.oftFeeDetails.map (·.feeAmountLd.toNat)).sum +
          quote.oftReceipt.amountReceivedLd.toNat = quote.oftReceipt.amountSentLd.toNat ∧
        (w.oftStore.oftType = .adapter → quote.fee QuoteOFT.transferFeeDescription =
          let withheld := w.ledger.mint.transferFee clock.epoch quote.oftReceipt.amountSentLd
          if 0 < withheld.toNat then some withheld else none) ∧
        (w.oftStore.oftType = .native → quote.fee QuoteOFT.transferFeeDescription = none) ∧
        ∀ ep accs w' out, rt.signable accs.signer = true →
          Send.apply rt ep clock accs params w = .ok (w', out) → Forecast w w' quote out := by
  have hwf := h.wellFormed
  constructor
  · intro ep accs
    refine ⟨?_, ?_⟩
    · rintro ⟨w', out⟩ hsend
      obtain ⟨peer, hsent⟩ := Send.apply_sent hsend
      have hasked : w.peers (params.quoted payInLzToken).dstEid = some peer := hsent.peer_eq
      obtain ⟨transferFee, hanswer, -⟩ := QuoteOFT.apply_of_amounts hwf hasked hsent.amounts
      exact ⟨_, hanswer⟩
    · intro howner
      have herror (e : ProgramError) :
          QuoteOFT.apply rt clock (params.quoted payInLzToken) w = .error e ↔
            Send.apply rt ep clock accs params w = .error e ∧ ¬ Send.LateError accs params w e :=
        Send.quote_error_iff hwf howner
      refine ⟨?_, fun e hquote => ((herror e).mp hquote).1⟩
      constructor
      · rintro ⟨quote, hquote⟩ e hsend
        by_contra hlate
        cases hquote.symm.trans ((herror e).mpr ⟨hsend, hlate⟩)
      · intro hlate
        cases hquote : QuoteOFT.apply rt clock (params.quoted payInLzToken) w with
        | ok quote => exact ⟨quote, rfl⟩
        | error e =>
          obtain ⟨hsend, hnot⟩ := (herror e).mp hquote
          exact (hnot (hlate e hsend)).elim
  · intro quote hrun
    obtain ⟨peer, fee, hpeer, hamounts⟩ := QuoteOFT.amounts_of_apply hrun
    obtain ⟨transferFee, hanswer, hsum, hadapter, hnative⟩ :=
      QuoteOFT.apply_of_amounts hwf hpeer hamounts
    have hdetails : quote.oftFeeDetails = QuoteOFT.listFees transferFee fee := by
      rw [hrun, Except.ok.injEq] at hanswer
      rw [hanswer]
    obtain ⟨htransfer, hcross⟩ := QuoteOFT.fee_of_details hdetails
    refine ⟨?_, ?_, ?_, ?_⟩
    · rw [hdetails, QuoteOFT.sum_listFees]
      omega
    · intro htype
      rw [htransfer, hadapter htype]
    · intro htype
      rw [htransfer, hnative htype]
      rfl
    · intro ep accs w' out hsigned hsend
      obtain ⟨p, hsent⟩ := Send.apply_sent hsend
      have hsame := hsent.peer_unique hpeer
      subst hsame
      obtain ⟨hreceipt, hfee⟩ := hsent.receipt_eq hamounts
      refine hsent.forecast hwf hsigned hreceipt ?_ ?_
      · intro htype
        rw [htransfer, QuoteOFT.listed_getD, hadapter htype, hreceipt]
      · rw [hcross, QuoteOFT.listed_getD, hfee]

end Reachable

namespace Reference

/-- More is asked to arrive than the fees leave. -/
def greedyParams : SendParams := { quotedParams 2000000 with minAmountLd := 1976001 }

private theorem greedyQuote_refused :
    failure (QuoteOFT.apply runtime (clockAt 20) (greedyParams.quoted false) quotedRun.1) =
      some (.oft .slippageExceeded) := by decide

/-- 5000 withheld by the mint and 19000 kept by the store; a send that the quote refuses is refused
for the same reason. -/
theorem quote_forecasts_send_sample :
    (value _ quotedAmounts_ok).oftFeeDetails =
        [⟨5000, QuoteOFT.transferFeeDescription⟩, ⟨19000, QuoteOFT.crossChainFeeDescription⟩] ∧
      Forecast quotedRun.1 (value _ quotedSend_ok).1 (value _ quotedAmounts_ok)
        (value _ quotedSend_ok).2 ∧
      Send.apply runtime endpoint (clockAt 20) ⟨user, userTokens, [admin, storeKey]⟩ greedyParams
        quotedRun.1 = .error (.oft .slippageExceeded) := by
  refine ⟨by decide, ?_, ?_⟩
  · exact ((quote_forecasts_send quotedRun_reaches (clockAt 20) (quotedParams 2000000) false).2 _
      (eq_ok_value (quotedAmounts 2000000) quotedAmounts_ok)).2.2.2 endpoint _ _ _ rfl
      (eq_ok_value (quotedSend 2000000) quotedSend_ok)
  · have hquote := failure_eq_some.mp greedyQuote_refused
    exact (((quote_forecasts_send quotedRun_reaches (clockAt 20) greedyParams false).1 endpoint
      ⟨user, userTokens, [admin, storeKey]⟩).2 (by decide)).2 _ hquote

end Reference

end FdfiToken
