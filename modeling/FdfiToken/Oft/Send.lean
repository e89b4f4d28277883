import FdfiToken.Oft.World
import FdfiToken.Oft.MsgCodec

/-!
# Sending and quoting

`send`, `quote_send` and `quote_oft`. The three share their first steps: the pause flag, the
amounts and the slippage check.
-/

namespace FdfiToken

open Word Fallible

structure SendParams where
  dstEid : U32
  toAddress : Bytes32
  amountLd : U64
  minAmountLd : U64
  options : Bytes
  composeMsg : Option Bytes
  nativeFee : U64
  lzTokenFee : U64
deriving DecidableEq

/-- The parameters of both quotes: `QuoteSendParams` and `QuoteOFTParams` have the same fields. -/
structure QuoteSendParams where
  dstEid : U32
  toAddress : Bytes32
  amountLd : U64
  minAmountLd : U64
  options : Bytes
  composeMsg : Option Bytes
  payInLzToken : Bool
deriving DecidableEq

structure OFTReceipt where
  amountSentLd : U64
  amountReceivedLd : U64
deriving DecidableEq

structure OFTSent where
  guid : Bytes32
  dstEid : U32
  sourceKey : Pubkey
  amountSentLd : U64
  amountReceivedLd : U64
deriving DecidableEq

/-- The pause, fee and slippage steps: amounts sent and received, and the OFT fee. -/
def World.checkedAmounts (w : World) (clock : Clock) (peer : PeerConfig)
    (amountLd minAmountLd : U64) : Result (U64 × U64 × U64) := do
  ensure (w.oftStore.paused = false) .paused
  let (amountSentLd, amountReceivedLd, oftFeeLd) ←
    computeFeeAndAdjustAmount amountLd w.oftStore w.ledger.mint clock.epoch peer.feeBps
  ensure (minAmountLd.toNat ≤ amountReceivedLd.toNat) .slippageExceeded
  return (amountSentLd, amountReceivedLd, oftFeeLd)

structure SendAccounts where
  signer : Pubkey
  tokenSource : Pubkey
  remainingAccounts : List Pubkey

/-- What a `send` hands to the endpoint, gets back, returns and emits. -/
structure SendOutcome where
  endpointCall : EndpointSendParams
  msgReceipt : MessagingReceipt
  oftReceipt : OFTReceipt
  oftFeeLd : U64
  event : OFTSent

namespace Send

/-- Take the tokens from the sender: lock them, or burn them and move the fee. -/
def collect (clock : Clock) (accs : SendAccounts) (w : World)
    (amountSentLd amountReceivedLd oftFeeLd : U64) : Result (U64 × TokenLedger) :=
  if w.oftStore.oftType = .adapter then do
    -- transfer all tokens to escrow with fee
    let tvlLd ← orPanic (checkedAdd w.oftStore.tvlLd amountReceivedLd)
    let ledger ← w.ledger.transferChecked clock.epoch accs.tokenSource w.oftStore.tokenEscrow
      accs.signer amountSentLd w.ledger.mint.decimals
    return (tvlLd, ledger)
  else do
    let burned ← orPanic (checkedSub amountSentLd oftFeeLd)
    let ledger ← w.ledger.burn accs.tokenSource accs.signer burned
    -- transfer fee to escrow
    let ledger ← (if 0 < oftFeeLd.toNat then
        ledger.transferChecked clock.epoch accs.tokenSource w.oftStore.tokenEscrow accs.signer
          oftFeeLd w.ledger.mint.decimals
      else pure ledger)
    return (w.oftStore.tvlLd, ledger)

/-- The account constraints of `send`. -/
def tryAccounts (rt : Runtime) (accs : SendAccounts) (params : SendParams) (w : World) :
    Result PeerConfig := do
  w.checkStore rt
  let peer ← w.peerAccount rt params.dstEid
  let tokenSource ← orError .constraint (w.ledger.accounts accs.tokenSource)
  require (tokenSource.owner = accs.signer) .constraint
  let _ ← w.escrowAccount
  w.checkMint
  return peer

def handler (rt : Runtime) (ep : Endpoint) (clock : Clock) (accs : SendAccounts)
    (params : SendParams) (peer : PeerConfig) (w : World) : Result (World × SendOutcome) := do
  let (amountSentLd, amountReceivedLd, oftFeeLd) ←
    w.checkedAmounts clock peer params.amountLd params.minAmountLd
  let outboundRateLimiter ← consumeLimiter clock peer.outboundRateLimiter amountReceivedLd
  let inboundRateLimiter := refillLimiter clock peer.inboundRateLimiter amountReceivedLd
  let (tvlLd, ledger) ← collect clock accs w amountSentLd amountReceivedLd oftFeeLd
  -- send message to endpoint
  let sender ← orPanic accs.remainingAccounts[1]?
  ensure (w.storeKey = sender) .invalidSender
  let amountSd ← w.oftStore.ld2sd amountReceivedLd
  let options ← peer.enforcedOptions.combineOptions rt params.composeMsg params.options
  let endpointCall : EndpointSendParams := {
    dstEid := params.dstEid
    receiver := peer.peerAddress
    message := MsgCodec.encode params.toAddress amountSd accs.signer params.composeMsg
    options := options
    nativeFee := params.nativeFee
    lzTokenFee := params.lzTokenFee }
  let msgReceipt ← orError .endpoint (ep.send endpointCall accs.remainingAccounts)
  let w' : World := { w with oftStore := { w.oftStore with tvlLd := tvlLd }, ledger := ledger }
  return (w'.setPeer params.dstEid { peer with
      outboundRateLimiter := outboundRateLimiter, inboundRateLimiter := inboundRateLimiter },
    { endpointCall := endpointCall
      msgReceipt := msgReceipt
      oftReceipt := ⟨amountSentLd, amountReceivedLd⟩
      oftFeeLd := oftFeeLd
      event := ⟨msgReceipt.guid, params.dstEid, accs.tokenSource, amountSentLd,
        amountReceivedLd⟩ })

def apply (rt : Runtime) (ep : Endpoint) (clock : Clock) (accs : SendAccounts)
    (params : SendParams) (w : World) : Result (World × SendOutcome) := do
  let peer ← tryAccounts rt accs params w
  handler rt ep clock accs params peer w

def messageOf (accs : SendAccounts) (params : SendParams) (amountSd : U64) : Bytes :=
  MsgCodec.encode params.toAddress amountSd accs.signer params.composeMsg

/-- Everything a successful `send` checked, moved and handed to the endpoint. -/
structure Sent (rt : Runtime) (clock : Clock) (accs : SendAccounts) (params : SendParams)
    (peer : PeerConfig) (w w' : World) (out : SendOutcome) : Prop where
  peer_eq : w.peers params.dstEid = some peer
  sourceOwner : w.ledger.ownerOf accs.tokenSource = some accs.signer
  escrowOwner : w.ledger.ownerOf w.oftStore.tokenEscrow = some w.storeKey
  unpaused : w.oftStore.paused = false
  split : FeeSplit w.oftStore w.ledger.mint clock.epoch
    (effectiveBps w.oftStore.defaultFeeBps peer.feeBps) params.amountLd.toNat
    out.oftReceipt.amountSentLd.toNat out.oftReceipt.amountReceivedLd.toNat out.oftFeeLd.toNat
  slippage : params.minAmountLd.toNat ≤ out.oftReceipt.amountReceivedLd.toNat
  collected : collect clock accs w out.oftReceipt.amountSentLd out.oftReceipt.amountReceivedLd
    out.oftFeeLd = .ok (w'.oftStore.tvlLd, w'.ledger)
  limited : ∃ outbound, consumeLimiter clock peer.outboundRateLimiter
      out.oftReceipt.amountReceivedLd = .ok outbound ∧
    w' = World.setPeer
      { w with oftStore := { w.oftStore with tvlLd := w'.oftStore.tvlLd }, ledger := w'.ledger }
      params.dstEid
      { peer with
        outboundRateLimiter := outbound
        inboundRateLimiter :=
          refillLimiter clock peer.inboundRateLimiter out.oftReceipt.amountReceivedLd }
  dstEid : out.endpointCall.dstEid = params.dstEid
  receiver : out.endpointCall.receiver = peer.peerAddress
  message : ∃ amountSd, w.oftStore.ld2sd out.oftReceipt.amountReceivedLd = .ok amountSd ∧
    out.endpointCall.message = messageOf accs params amountSd
  options : peer.enforcedOptions.combineOptions rt params.composeMsg params.options =
    .ok out.endpointCall.options

theorem checkedAmounts_eq_ok {w : World} {clock : Clock} {peer : PeerConfig}
    {amount minAmount sent received fee : U64} :
    w.checkedAmounts clock peer amount minAmount = .ok (sent, received, fee) ↔
      w.oftStore.paused = false ∧
        FeeSplit w.oftStore w.ledger.mint clock.epoch
          (effectiveBps w.oftStore.defaultFeeBps peer.feeBps) amount.toNat sent.toNat
          received.toNat fee.toNat ∧
        minAmount.toNat ≤ received.toNat := by
  simp only [World.checkedAmounts, bind_eq_ok, require_eq_ok, exists_const, pure_eq_ok,
    Prod.mk.injEq, Prod.exists]
  constructor
  · rintro ⟨hpaused, s, r, f, hcompute, hmin, rfl, rfl, rfl⟩
    exact ⟨hpaused, computeFeeAndAdjustAmount_eq_ok.mp hcompute, hmin⟩
  · rintro ⟨hpaused, hsplit, hmin⟩
    exact ⟨hpaused, sent, received, fee, computeFeeAndAdjustAmount_eq_ok.mpr hsplit, hmin, rfl,
      rfl, rfl⟩

theorem apply_sent {rt : Runtime} {ep : Endpoint} {clock : Clock} {accs : SendAccounts}
    {params : SendParams} {w w' : World} {out : SendOutcome}
    (h : apply rt ep clock accs params w = .ok (w', out)) :
    ∃ peer, Sent rt clock accs params peer w w' out := by
  simp only [apply, tryAccounts, handler, bind_eq_ok, Prod.exists, orError_eq_ok, require_eq_ok,
    exists_const, pure_eq_ok, Prod.mk.injEq, World.peerAccount_eq_ok, World.escrowAccount_eq_ok,
    World.checkStore_eq_ok, World.checkMint_eq_ok] at h
  obtain ⟨peer, ⟨-, p, ⟨hpeer, -⟩, source, hsource, hsigner, escrow, ⟨hescrow, howner⟩, -, rfl⟩,
    sent, received, fee, hamounts, outbound, hout, tvl, ledger, hcollect, sender, -, -, amountSd,
    hsd, options, hoptions, receipt, -, rfl, rfl⟩ := h
  obtain ⟨hpaused, hsplit, hmin⟩ := checkedAmounts_eq_ok.mp hamounts
  exact ⟨p, hpeer, by simp [TokenLedger.ownerOf, hsource, hsigner],
    by simp [TokenLedger.ownerOf, hescrow, howner], hpaused, hsplit, hmin, hcollect,
    ⟨outbound, hout, rfl⟩, rfl, rfl, ⟨amountSd, hsd, rfl⟩, hoptions⟩

/-- Locking: the escrow is credited what is received and the fee, and only the received part
is counted as locked. -/
theorem collect_adapter {clock : Clock} {accs : SendAccounts} {w : World} {sent received fee : U64}
    {tvl : U64} {ledger : TokenLedger} (htype : w.oftStore.oftType = .adapter)
    (hne : accs.tokenSource ≠ w.oftStore.tokenEscrow)
    (h : collect clock accs w sent received fee = .ok (tvl, ledger)) :
    tvl.toNat = w.tvl + received.toNat ∧
      w.ledger.Moved ledger accs.tokenSource w.oftStore.tokenEscrow sent.toNat
        ((w.ledger.mint.schedule clock.epoch).net sent.toNat)
        ((w.ledger.mint.schedule clock.epoch).fee sent.toNat) := by
  simp only [collect, if_pos htype, bind_eq_ok, orError_eq_ok, checkedAdd_eq_some, pure_eq_ok,
    Prod.mk.injEq] at h
  obtain ⟨t, ht, l, hl, rfl, rfl⟩ := h
  exact ⟨ht, TokenLedger.transferChecked_moved hne hl⟩

/-- Burning: the supply falls by what is received, the fee moves to the escrow. -/
theorem collect_native {clock : Clock} {accs : SendAccounts} {w : World} {sent received fee : U64}
    {tvl : U64} {ledger : TokenLedger} (htype : w.oftStore.oftType ≠ .adapter)
    (hne : accs.tokenSource ≠ w.oftStore.tokenEscrow)
    (hsum : sent.toNat = received.toNat + fee.toNat)
    (h : collect clock accs w sent received fee = .ok (tvl, ledger)) :
    tvl = w.oftStore.tvlLd ∧
      w.ledger.Frame ledger [accs.tokenSource, w.oftStore.tokenEscrow] ∧
      ledger.mint.supply.toNat + received.toNat = w.ledger.mint.supply.toNat ∧
      w.ledger.balance w.oftStore.tokenEscrow ≤ ledger.balance w.oftStore.tokenEscrow := by
  simp only [collect, if_neg htype, bind_eq_ok, orError_eq_ok, checkedSub_eq_some, pure_eq_ok,
    Prod.mk.injEq] at h
  obtain ⟨burned, hburned, l, hl, l', hl', rfl, rfl⟩ := h
  have hburn := (TokenLedger.burn_burned hl).1
  have hescrow : l.balance w.oftStore.tokenEscrow = w.ledger.balance w.oftStore.tokenEscrow :=
    hburn.frame.balance (by simpa using hne.symm)
  have hsupply := hburn.supply
  refine ⟨rfl, ?_⟩
  split at hl'
  · have hmoved := TokenLedger.transferChecked_moved hne hl'
    have hcredited := hmoved.credited
    refine ⟨?_, by rw [hmoved.mint]; omega, by omega⟩
    have hframe := hburn.frame.trans hmoved.frame
    exact ⟨fun k hk => hframe.accounts k (by simpa using hk), hframe.ownerOf, hframe.mintKey,
      hframe.tokenProgram, hframe.decimals⟩
  · rw [pure_eq_ok] at hl'
    subst hl'
    exact ⟨⟨fun k hk => hburn.frame.accounts k (by
        simp only [List.mem_cons, List.not_mem_nil, or_false, not_or] at hk ⊢
        exact hk.1), hburn.frame.ownerOf, hburn.frame.mintKey, hburn.frame.tokenProgram,
      hburn.frame.decimals⟩, by omega, hescrow.ge⟩

theorem collect_frame {clock : Clock} {accs : SendAccounts} {w : World}
    {sent received fee tvl : U64} {ledger : TokenLedger}
    (h : collect clock accs w sent received fee = .ok (tvl, ledger)) :
    ∃ touched, w.ledger.Frame ledger touched := by
  unfold collect at h
  split at h
  · simp only [bind_eq_ok, pure_eq_ok, Prod.mk.injEq] at h
    obtain ⟨_, -, l, hl, -, rfl⟩ := h
    exact ⟨_, (TokenLedger.transferChecked_frame hl).1⟩
  · simp only [bind_eq_ok, pure_eq_ok, Prod.mk.injEq] at h
    obtain ⟨_, -, l, hl, l', hl', -, rfl⟩ := h
    have hburn := (TokenLedger.burn_burned hl).1.frame
    split at hl'
    · exact ⟨_, hburn.trans (TokenLedger.transferChecked_frame hl').1⟩
    · rw [pure_eq_ok] at hl'
      subst hl'
      exact ⟨_, hburn⟩

end Send

namespace QuoteSend

/-- `quote_send` up to its endpoint call. -/
def quoteParams (rt : Runtime) (clock : Clock) (params : QuoteSendParams) (peer : PeerConfig)
    (w : World) : Result QuoteParams := do
  let (_, amountReceivedLd, _) ← w.checkedAmounts clock peer params.amountLd params.minAmountLd
  let options ← peer.enforcedOptions.combineOptions rt params.composeMsg params.options
  return {
    sender := w.storeKey
    dstEid := params.dstEid
    receiver := peer.peerAddress
    message := MsgCodec.encode params.toAddress amountReceivedLd Pubkey.default params.composeMsg
    payInLzToken := params.payInLzToken
    options := options }

def apply (rt : Runtime) (ep : Endpoint) (clock : Clock) (remainingAccounts : List Pubkey)
    (params : QuoteSendParams) (w : World) : Result MessagingFee := do
  w.checkStore rt
  let peer ← w.peerAccount rt params.dstEid
  w.checkMint
  let quote ← quoteParams rt clock params peer w
  orError .endpoint (ep.quote quote remainingAccounts)

end QuoteSend

structure OFTLimits where
  minAmountLd : U64
  maxAmountLd : U64
deriving DecidableEq

structure OFTFeeDetail where
  feeAmountLd : U64
  description : String
deriving DecidableEq

structure QuoteOFTResult where
  oftLimits : OFTLimits
  oftFeeDetails : List OFTFeeDetail
  oftReceipt : OFTReceipt
deriving DecidableEq

namespace QuoteOFT

def transferFeeDescription : String := "Token2022 Transfer Fee"
def crossChainFeeDescription : String := "Cross Chain Fee"

def feeDetails (amountSentLd amountReceivedLd oftFeeLd : U64) : Result (List OFTFeeDetail) := do
  let total ← orPanic (checkedAdd amountReceivedLd oftFeeLd)
  let transferFee ← (if total.toNat < amountSentLd.toNat then do
      let afterFee ← orPanic (checkedSub amountSentLd oftFeeLd)
      let feeAmountLd ← orPanic (checkedSub afterFee amountReceivedLd)
      pure [OFTFeeDetail.mk feeAmountLd transferFeeDescription]
    else pure [])
  -- cross chain fee
  let crossChainFee :=
    if 0 < oftFeeLd.toNat then [OFTFeeDetail.mk oftFeeLd crossChainFeeDescription] else []
  return transferFee ++ crossChainFee

def handler (clock : Clock) (params : QuoteSendParams) (peer : PeerConfig) (w : World) :
    Result QuoteOFTResult := do
  let (amountSentLd, amountReceivedLd, oftFeeLd) ←
    w.checkedAmounts clock peer params.amountLd params.minAmountLd
  let oftFeeDetails ← feeDetails amountSentLd amountReceivedLd oftFeeLd
  return {
    oftLimits := ⟨0, 0xffffffffffffffff⟩
    oftFeeDetails := oftFeeDetails
    oftReceipt := ⟨amountSentLd, amountReceivedLd⟩ }

def apply (rt : Runtime) (clock : Clock) (params : QuoteSendParams) (w : World) :
    Result QuoteOFTResult := do
  w.checkStore rt
  let peer ← w.peerAccount rt params.dstEid
  w.checkMint
  handler clock params peer w

end QuoteOFT

end FdfiToken
