import FdfiToken.Lib.Rounding
import FdfiToken.Oft.Solvency
import FdfiToken.Oft.WireFormat

/-!
# The quotes

`quote_send` prices the message it builds itself, which is compared with the one a `send` of the
same parameters puts on the wire. `quote_oft` is taken apart into the amounts of a send and the
fees it lists.
-/

namespace FdfiToken

open Word Fallible BigEndian Rounding Runs

namespace MsgCodec

/-- Equal outside the 32 bytes of the sender, which follow the amount of a composed message. -/
structure SameButSender (a b : Bytes) : Prop where
  head : a.take composeMsgOffset = b.take composeMsgOffset
  tail : a.drop (composeMsgOffset + 32) = b.drop (composeMsgOffset + 32)
  length : a.length = b.length

section Encode

variable (to_ : Bytes32) (amount : U64) (sender : Pubkey) (msg : Option Bytes)

private theorem take_encode :
    (encode to_ amount sender msg).take composeMsgOffset = to_.toList ++ ofWord 8 amount := by
  have hlen : (to_.toList ++ ofWord 8 amount).length = composeMsgOffset := by
    simp [to_.length_toList, composeMsgOffset]
  cases msg with
  | none => rw [encode, ← hlen, List.take_length]
  | some m => rw [encode, ← hlen, List.append_assoc, List.take_left]

private theorem drop_encode :
    (encode to_ amount sender msg).drop (composeMsgOffset + 32) = msg.getD [] := by
  cases msg with
  | none =>
    refine List.drop_eq_nil_of_le ?_
    simp [encode, to_.length_toList, composeMsgOffset]
  | some m =>
    have hlen : (to_.toList ++ ofWord 8 amount ++ sender.toList).length =
        composeMsgOffset + 32 := by
      simp [to_.length_toList, sender.length_toList, composeMsgOffset]
    rw [encode, ← hlen, List.drop_left, Option.getD_some]

private theorem encode_sameButSender_iff (amount' : U64) (sender' : Pubkey) :
    SameButSender (encode to_ amount sender msg) (encode to_ amount' sender' msg) ↔
      amount = amount' := by
  constructor
  · intro h
    have hhead := h.head
    rw [take_encode, take_encode, List.append_cancel_left_eq] at hhead
    have hwidth : 256 ^ 8 = 2 ^ 64 := rfl
    rw [← toWord_ofWord hwidth amount, hhead, toWord_ofWord hwidth]
  · intro h
    subst h
    exact ⟨by rw [take_encode, take_encode], by rw [drop_encode, drop_encode],
      by rw [length_encode, length_encode]⟩

end Encode

end MsgCodec

def SendParams.quoted (params : SendParams) (payInLzToken : Bool) : QuoteSendParams :=
  ⟨params.dstEid, params.toAddress, params.amountLd, params.minAmountLd, params.options,
    params.composeMsg, payInLzToken⟩

namespace QuoteSend

/-- The checks of `quote_send` and what it then asks the endpoint to price. -/
def request (rt : Runtime) (clock : Clock) (params : QuoteSendParams) (w : World) :
    Result QuoteParams := do
  w.checkStore rt
  let peer ← w.peerAccount rt params.dstEid
  w.checkMint
  quoteParams rt clock params peer w

theorem apply_eq_ok {rt : Runtime} {ep : Endpoint} {clock : Clock} {remaining : List Pubkey}
    {params : QuoteSendParams} {w : World} {fee : MessagingFee} :
    apply rt ep clock remaining params w = .ok fee ↔
      ∃ quote, request rt clock params w = .ok quote ∧ ep.quote quote remaining = some fee := by
  simp only [apply, request, bind_eq_ok, orError_eq_ok]
  constructor
  · intro h
    obtain ⟨u, hu, peer, hpeer, v, hv, quote, hquote, hfee⟩ := h
    exact ⟨quote, ⟨u, hu, peer, hpeer, v, hv, hquote⟩, hfee⟩
  · intro h
    obtain ⟨quote, ⟨u, hu, peer, hpeer, v, hv, hquote⟩, hfee⟩ := h
    exact ⟨u, hu, peer, hpeer, v, hv, quote, hquote, hfee⟩

/-- The quote is for the message that is sent. -/
structure Prices (quote : QuoteParams) (call : EndpointSendParams) : Prop where
  receiver : quote.receiver = call.receiver
  options : quote.options = call.options
  message : MsgCodec.SameButSender quote.message call.message

end QuoteSend

def OFTStore.units (s : OFTStore) (m : Mint) (epoch : U64) (amount : ℕ) : ℕ :=
  s.credited m epoch amount / s.rate

/-- The whole shared units of the OFT fee on `units`. -/
def OFTStore.feeUnits (s : OFTStore) (bps units : ℕ) : ℕ :=
  units * s.rate * bps / 10000 % 2 ^ 64 / s.rate

private theorem OFTStore.feeUnits_lt {s : OFTStore} {bps units : ℕ} (hbps : bps < 10000)
    (hunits : 0 < units) (hrate : 0 < s.rate) : s.feeUnits bps units < units := by
  have hle : s.feeUnits bps units ≤ portion bps 10000 (units * s.rate) / s.rate :=
    Nat.div_le_div_right (Nat.mod_le _ _)
  rw [portion_grid hrate] at hle
  exact hle.trans_lt (portion_lt hbps hunits)

private theorem OFTStore.feeUnits_eq_iff {s : OFTStore} {bps units : ℕ} (hbps : bps < 10000)
    (hrate : 0 < s.rate) : s.feeUnits bps units = units ↔ units = 0 := by
  constructor
  · intro heq
    by_contra hunits
    have hlt := feeUnits_lt hbps (Nat.pos_of_ne_zero hunits) hrate
    omega
  · intro hunits
    rw [hunits, feeUnits, Nat.zero_mul, Nat.zero_mul, Nat.zero_div, Nat.zero_mod, Nat.zero_div]

theorem WellFormed.effectiveBps_lt {rt : Runtime} {sd : U8} {w : World} (h : WellFormed rt sd w)
    {eid : U32} {peer : PeerConfig} (hpeer : w.peers eid = some peer) :
    effectiveBps w.oftStore.defaultFeeBps peer.feeBps < 10000 := by
  rw [effectiveBps]
  cases hfee : peer.feeBps with
  | none => exact h.defaultFee
  | some bps => exact h.peerFee eid peer hpeer bps hfee

namespace FeeSplit

variable {s : OFTStore} {m : Mint} {epoch : U64} {bps amount sent received fee : ℕ}

theorem fee_units (h : FeeSplit s m epoch bps amount sent received fee) :
    fee = s.feeUnits bps (s.units m epoch amount) * s.rate := by
  have hfee := h.fee_eq
  rwa [h.split] at hfee

private theorem received_units (h : FeeSplit s m epoch bps amount sent received fee) :
    received + s.feeUnits bps (s.units m epoch amount) * s.rate =
      s.units m epoch amount * s.rate := by
  have hsplit := h.split
  rwa [h.fee_units] at hsplit

private theorem received_eq_zero_iff (h : FeeSplit s m epoch bps amount sent received fee) :
    received = 0 ↔ s.feeUnits bps (s.units m epoch amount) = s.units m epoch amount := by
  have hunits := h.received_units
  constructor
  · intro hzero
    rw [hzero, Nat.zero_add] at hunits
    exact Nat.eq_of_mul_eq_mul_right h.rate_pos hunits
  · intro heq
    rw [heq] at hunits
    omega

theorem received_eq (h : FeeSplit s m epoch bps amount sent received fee) :
    received = (s.units m epoch amount - s.feeUnits bps (s.units m epoch amount)) * s.rate := by
  have hunits := h.received_units
  rw [Nat.sub_mul]
  omega

end FeeSplit

namespace Send

theorem Sent.peer_unique {rt : Runtime} {clock : Clock} {accs : SendAccounts}
    {params : SendParams} {peer peer' : PeerConfig} {w w' : World} {out : SendOutcome}
    (h : Sent rt clock accs params peer w w' out) (hpeer : w.peers params.dstEid = some peer') :
    peer = peer' := by
  rwa [h.peer_eq, Option.some.injEq] at hpeer

private theorem quote_of_send {rt : Runtime} {ep : Endpoint} {clock : Clock} {accs : SendAccounts}
    {params : SendParams} {w w' : World} {out : SendOutcome}
    (h : apply rt ep clock accs params w = .ok (w', out)) (payInLzToken : Bool) :
    ∃ quote, QuoteSend.request rt clock (params.quoted payInLzToken) w = .ok quote ∧
      quote.receiver = out.endpointCall.receiver ∧ quote.options = out.endpointCall.options ∧
      quote.message = MsgCodec.encode params.toAddress out.oftReceipt.amountReceivedLd
        Pubkey.default params.composeMsg := by
  simp only [apply, tryAccounts, handler, bind_eq_ok, Prod.exists, orError_eq_ok, require_eq_ok,
    exists_const, pure_eq_ok, Prod.mk.injEq] at h
  obtain ⟨peer, ⟨u, hstore, p, hpeer, _, -, -, _, -, v, hmint, rfl⟩, sent, received, fee,
    hamounts, _, -, _, _, -, _, -, -, _, -, options, hoptions, _, -, rfl, rfl⟩ := h
  refine ⟨⟨w.storeKey, params.dstEid, p.peerAddress, _, payInLzToken, options⟩, ?_, rfl, rfl, rfl⟩
  simp only [QuoteSend.request, QuoteSend.quoteParams, bind_eq_ok, Prod.exists, pure_eq_ok]
  exact ⟨u, hstore, p, hpeer, v, hmint, sent, received, fee, hamounts, options, hoptions, rfl⟩

/-- A message quoted with the unconverted amount is the one sent when the conversion changes
nothing. -/
theorem Sent.prices_iff {rt : Runtime} {clock : Clock} {accs : SendAccounts} {params : SendParams}
    {peer : PeerConfig} {w w' : World} {out : SendOutcome} {quote : QuoteParams}
    (h : Sent rt clock accs params peer w w' out)
    (hreceiver : quote.receiver = out.endpointCall.receiver)
    (hoptions : quote.options = out.endpointCall.options)
    (hmessage : quote.message = MsgCodec.encode params.toAddress out.oftReceipt.amountReceivedLd
      Pubkey.default params.composeMsg) :
    QuoteSend.Prices quote out.endpointCall ↔
      w.oftStore.rate = 1 ∨
        w.oftStore.feeUnits (effectiveBps w.oftStore.defaultFeeBps peer.feeBps)
            (w.oftStore.units w.ledger.mint clock.epoch params.amountLd.toNat) =
          w.oftStore.units w.ledger.mint clock.epoch params.amountLd.toNat := by
  obtain ⟨amountSd, hsd, hcall⟩ := h.message
  obtain ⟨-, hvalue⟩ := OFTStore.ld2sd_eq_ok.mp hsd
  have hprices : QuoteSend.Prices quote out.endpointCall ↔
      out.oftReceipt.amountReceivedLd = amountSd := by
    rw [← MsgCodec.encode_sameButSender_iff params.toAddress _ Pubkey.default params.composeMsg
      _ accs.signer]
    constructor
    · intro hagree
      have hsame := hagree.message
      rwa [hmessage, hcall] at hsame
    · intro hsame
      refine ⟨hreceiver, hoptions, ?_⟩
      rwa [hmessage, hcall]
  rw [hprices, ← h.split.received_eq_zero_iff, ← BitVec.toNat_inj, hvalue, eq_comm,
    Nat.div_eq_self, Or.comm]

end Send

/-- The quote is for the message sent exactly when the rate is one or the OFT fee takes every
whole shared unit, so that nothing is converted. In a reachable store, whose fees are below 100%,
that means the credited amount is less than one shared unit. -/
theorem quote_prices_iff {rt : Runtime} {ep : Endpoint} {clock : Clock} {accs : SendAccounts}
    {params : SendParams} {w w' : World} {peer : PeerConfig} {out : SendOutcome}
    (hpeer : w.peers params.dstEid = some peer)
    (hsend : Send.apply rt ep clock accs params w = .ok (w', out)) (payInLzToken : Bool) :
    ∃ quote, QuoteSend.request rt clock (params.quoted payInLzToken) w = .ok quote ∧
      (QuoteSend.Prices quote out.endpointCall ↔
        w.oftStore.rate = 1 ∨
          w.oftStore.feeUnits (effectiveBps w.oftStore.defaultFeeBps peer.feeBps)
              (w.oftStore.units w.ledger.mint clock.epoch params.amountLd.toNat) =
            w.oftStore.units w.ledger.mint clock.epoch params.amountLd.toNat) ∧
      ∀ sd events, Reaches rt sd events w →
        (QuoteSend.Prices quote out.endpointCall ↔
          w.oftStore.rate = 1 ∨ w.oftStore.credited w.ledger.mint clock.epoch
            params.amountLd.toNat < w.oftStore.rate) := by
  obtain ⟨quote, hquote, hreceiver, hoptions, hmessage⟩ := Send.quote_of_send hsend payInLzToken
  obtain ⟨p, hsent⟩ := Send.apply_sent hsend
  have hsame := hsent.peer_unique hpeer
  subst hsame
  have hprices := hsent.prices_iff hreceiver hoptions hmessage
  refine ⟨quote, hquote, hprices, ?_⟩
  intro sd events hreach
  have hpos := hreach.wellFormed.rate_pos
  rw [hprices, OFTStore.feeUnits_eq_iff (hreach.wellFormed.effectiveBps_lt hpeer) hpos,
    OFTStore.units, Nat.div_eq_zero_iff_lt hpos]

def QuoteOFTResult.fee (quote : QuoteOFTResult) (description : String) : Option U64 :=
  (quote.oftFeeDetails.find? (·.description = description)).map (·.feeAmountLd)

namespace QuoteOFT

def listFees (transferFee oftFeeLd : U64) : List OFTFeeDetail :=
  (if 0 < transferFee.toNat then [⟨transferFee, transferFeeDescription⟩] else []) ++
    if 0 < oftFeeLd.toNat then [⟨oftFeeLd, crossChainFeeDescription⟩] else []

/-- When the amounts add up no subtraction underflows, and the transfer fee listed is what is
sent beyond what is received and the OFT fee. -/
theorem feeDetails_eq_ok {sent received fee transferFee : U64}
    (hsum : transferFee.toNat + (received.toNat + fee.toNat) = sent.toNat) :
    feeDetails sent received fee = .ok (listFees transferFee fee) := by
  have hsent := sent.isLt
  obtain ⟨total, htotal, htotalv⟩ := exists_checkedAdd (a := received) (b := fee) (by omega)
  obtain ⟨after, hafter, hafterv⟩ := exists_checkedSub (a := sent) (b := fee) (by omega)
  have hleft : checkedSub after received = some transferFee := by
    rw [checkedSub_eq_some]
    omega
  simp only [feeDetails, listFees, htotal, orError, ok_bind]
  by_cases hpos : 0 < transferFee.toNat
  · rw [if_pos (show total.toNat < sent.toNat by omega), if_pos hpos]
    simp only [hafter, hleft, orError, ok_bind]
    rfl
  · rw [if_neg (show ¬ total.toNat < sent.toNat by omega), if_neg hpos]
    rfl

theorem sum_listFees (transferFee fee : U64) :
    ((listFees transferFee fee).map (·.feeAmountLd.toNat)).sum = transferFee.toNat + fee.toNat := by
  unfold listFees
  split <;> split <;> simp <;> omega

private theorem find_listFees (transferFee fee : U64) :
    (listFees transferFee fee).find? (·.description = transferFeeDescription) =
        (if 0 < transferFee.toNat then some ⟨transferFee, transferFeeDescription⟩ else none) ∧
      (listFees transferFee fee).find? (·.description = crossChainFeeDescription) =
        if 0 < fee.toNat then some ⟨fee, crossChainFeeDescription⟩ else none := by
  have hne : transferFeeDescription ≠ crossChainFeeDescription := by decide
  unfold listFees
  split <;> split <;> simp [hne, hne.symm]

theorem listed_getD (fee : U64) : (if 0 < fee.toNat then some fee else none).getD 0 = fee := by
  split
  · rfl
  · rename_i hzero
    refine BitVec.eq_of_toNat_eq ?_
    rw [Option.getD_none]
    change 0 = fee.toNat
    omega

theorem fee_of_details {quote : QuoteOFTResult} {transferFee fee : U64}
    (h : quote.oftFeeDetails = listFees transferFee fee) :
    quote.fee transferFeeDescription =
        (if 0 < transferFee.toNat then some transferFee else none) ∧
      quote.fee crossChainFeeDescription = if 0 < fee.toNat then some fee else none := by
  obtain ⟨htransfer, hcross⟩ := find_listFees transferFee fee
  rw [QuoteOFTResult.fee, QuoteOFTResult.fee, h, htransfer, hcross]
  constructor <;> split <;> rfl

section Steps

variable {rt : Runtime} {sd : U8} {clock : Clock} {w : World}

private theorem transferFee_eq {peer : PeerConfig} {amount minAmount sent received fee : U64}
    (hamounts : w.checkedAmounts clock peer amount minAmount = .ok (sent, received, fee)) :
    ∃ transferFee : U64, transferFee.toNat + (received.toNat + fee.toNat) = sent.toNat ∧
      (w.oftStore.oftType = .adapter → transferFee = w.ledger.mint.transferFee clock.epoch sent) ∧
      (w.oftStore.oftType = .native → transferFee = 0) := by
  have hcredited := (Send.checkedAmounts_eq_ok.mp hamounts).2.1.credited
  cases htype : w.oftStore.oftType with
  | adapter =>
    have hnet := (w.ledger.mint.schedule clock.epoch).net_add_fee sent.toNat
    rw [OFTStore.credited_adapter htype] at hcredited
    refine ⟨w.ledger.mint.transferFee clock.epoch sent, ?_, fun _ => rfl, fun h => by cases h⟩
    rw [Mint.toNat_transferFee]
    omega
  | native =>
    have hadapter : w.oftStore.oftType ≠ .adapter := OFTType.ne_adapter htype
    rw [OFTStore.credited_native hadapter] at hcredited
    exact ⟨0, by simp [hcredited], fun h => (by cases h), fun _ => rfl⟩

theorem amounts_of_apply {params : QuoteSendParams} {quote : QuoteOFTResult}
    (h : apply rt clock params w = .ok quote) :
    ∃ peer fee, w.peers params.dstEid = some peer ∧
      w.checkedAmounts clock peer params.amountLd params.minAmountLd =
        .ok (quote.oftReceipt.amountSentLd, quote.oftReceipt.amountReceivedLd, fee) := by
  simp only [apply, handler, bind_eq_ok, Prod.exists, pure_eq_ok, World.peerAccount_eq_ok] at h
  obtain ⟨-, -, peer, ⟨hpeer, -⟩, -, -, sent, received, fee, hamounts, _, -, rfl⟩ := h
  exact ⟨peer, fee, hpeer, hamounts⟩

theorem apply_of_amounts (hwf : WellFormed rt sd w) {params : QuoteSendParams} {peer : PeerConfig}
    {sent received fee : U64} (hpeer : w.peers params.dstEid = some peer)
    (hamounts : w.checkedAmounts clock peer params.amountLd params.minAmountLd =
      .ok (sent, received, fee)) :
    ∃ transferFee : U64, apply rt clock params w =
        .ok ⟨⟨0, 0xffffffffffffffff⟩, listFees transferFee fee, ⟨sent, received⟩⟩ ∧
      transferFee.toNat + (received.toNat + fee.toNat) = sent.toNat ∧
      (w.oftStore.oftType = .adapter → transferFee = w.ledger.mint.transferFee clock.epoch sent) ∧
      (w.oftStore.oftType = .native → transferFee = 0) := by
  obtain ⟨transferFee, hsum, hadapter, hnative⟩ := transferFee_eq hamounts
  refine ⟨transferFee, ?_, hsum, hadapter, hnative⟩
  have haccount := hwf.peerAccount_eq_ok.mpr hpeer
  simp only [apply, handler, hwf.checkStore, haccount, hwf.checkMint, hamounts,
    feeDetails_eq_ok hsum, ok_bind]
  rfl

end Steps

end QuoteOFT

theorem Send.Sent.amounts {rt : Runtime} {clock : Clock} {accs : SendAccounts}
    {params : SendParams} {peer : PeerConfig} {w w' : World} {out : SendOutcome}
    (h : Send.Sent rt clock accs params peer w w' out) :
    w.checkedAmounts clock peer params.amountLd params.minAmountLd =
      .ok (out.oftReceipt.amountSentLd, out.oftReceipt.amountReceivedLd, out.oftFeeLd) :=
  checkedAmounts_eq_ok.mpr ⟨h.unpaused, h.split, h.slippage⟩

theorem Send.Sent.receipt_eq {rt : Runtime} {clock : Clock} {accs : SendAccounts}
    {params : SendParams} {peer : PeerConfig} {w w' : World} {out : SendOutcome}
    {receipt : OFTReceipt} {fee : U64} (h : Send.Sent rt clock accs params peer w w' out)
    (hamounts : w.checkedAmounts clock peer params.amountLd params.minAmountLd =
      .ok (receipt.amountSentLd, receipt.amountReceivedLd, fee)) :
    out.oftReceipt = receipt ∧ out.oftFeeLd = fee := by
  have heq := h.amounts.symm.trans hamounts
  simp only [Except.ok.injEq, Prod.mk.injEq] at heq
  obtain ⟨hsent, hreceived, hfee⟩ := heq
  refine ⟨?_, hfee⟩
  rw [OFTReceipt.mk.injEq]
  exact ⟨hsent, hreceived⟩

namespace Reference

def quotedRun : World × List Event :=
  replay runtime endpoint adapterStore [
    setPeer (clockAt 10) 7 (.peerAddress (Bytes32.fill 77)),
    (clockAt 11, .setOftConfig ⟨admin, []⟩ (.defaultFee 100))]

def quotedParams (amount : U64) : SendParams :=
  ⟨7, Bytes32.fill 33, amount, 0, [], some [1, 2, 3], 5000, 0⟩

def quotedSend (amount : U64) : Result (World × SendOutcome) :=
  Send.apply runtime endpoint (clockAt 20) ⟨user, userTokens, [admin, storeKey]⟩
    (quotedParams amount) quotedRun.1

def quotedMessage (amount : U64) : Result QuoteParams :=
  QuoteSend.request runtime (clockAt 20) ((quotedParams amount).quoted false) quotedRun.1

def quotedAmounts (amount : U64) : Result QuoteOFTResult :=
  QuoteOFT.apply runtime (clockAt 20) ((quotedParams amount).quoted false) quotedRun.1

theorem quotedRun_reaches : Reaches runtime 6 quotedRun.2 quotedRun.1 :=
  adapter.replay_reaches adapter_init _ (by decide)

theorem quotedSend_ok : (quotedSend 2000000).isOk = true := by decide

private theorem quotedMessage_ok : (quotedMessage 2000000).isOk = true := by decide

theorem quotedAmounts_ok : (quotedAmounts 2000000).isOk = true := by decide

private theorem dustSend_ok : (quotedSend 999).isOk = true := by decide

/-- The quote is for a message of 1976000 shared units, and 1976 are sent. -/
theorem quote_misprices :
    Reaches runtime 6 quotedRun.2 quotedRun.1 ∧
      ∃ w out quote, quotedSend 2000000 = .ok (w, out) ∧ quotedMessage 2000000 = .ok quote ∧
        MsgCodec.amountSd quote.message = .ok 1976000 ∧
        MsgCodec.amountSd out.endpointCall.message = .ok 1976 ∧
        ¬ QuoteSend.Prices quote out.endpointCall := by
  refine ⟨quotedRun_reaches, _, _, _, eq_ok_value _ quotedSend_ok, eq_ok_value _ quotedMessage_ok,
    by decide, by decide, ?_⟩
  intro h
  have hdiffer : (value _ quotedMessage_ok).message.take 40 ≠
      (value _ quotedSend_ok).2.endpointCall.message.take 40 := by decide
  exact hdiffer h.message.head

theorem quote_prices_iff_sample :
    ∃ quote, quotedMessage 999 = .ok quote ∧
      QuoteSend.Prices quote (value _ dustSend_ok).2.endpointCall := by
  have hpeer : quotedRun.1.peers 7 = some ((quotedRun.1.peers 7).getD PeerConfig.default) := rfl
  obtain ⟨quote, hquote, hiff, -⟩ :=
    quote_prices_iff hpeer (eq_ok_value (quotedSend 999) dustSend_ok) false
  exact ⟨quote, hquote, hiff.mpr (.inr (by decide))⟩

end Reference

end FdfiToken
