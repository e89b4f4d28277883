import FdfiToken.Mesh.Conservation

/-!
# One transfer, end to end

A send on one store and the receive of its message on another. Between the two lie the fees,
two conversions at different rates and two codecs; the amount, the recipient and the compose
payload come through unchanged.
-/

namespace FdfiToken

open Word Fallible Runs

def World.recipientAccount (rt : Runtime) (w : World) (toAddress : Pubkey) : Pubkey :=
  rt.associatedTokenAddress toAddress w.oftStore.tokenMint w.ledger.tokenProgram

/-- A receive pays the recipient's own account what its event says, and takes the whole amount
out of the escrow or out of nothing. -/
theorem LzReceive.Received.pays {rt : Runtime} {sd : U8} {clock : Clock} {w w' : World}
    {a : LzReceiveAccounts} {params : LzReceiveParams} {peer : PeerConfig}
    {out : LzReceiveOutcome} (hwf : WellFormed rt sd w)
    (h : LzReceive.Received rt clock a params peer w w' out) :
    w'.ledger.ownerOf (w.recipientAccount rt a.toAddress) = some a.toAddress ∧
      w'.ledger.balance (w.recipientAccount rt a.toAddress) =
        w.ledger.balance (w.recipientAccount rt a.toAddress) +
          out.event.amountReceivedLd.toNat := by
  obtain ⟨opened, received, hopened, hrelease, -, hevent⟩ := h.released
  obtain ⟨-, -, -, hbalance, howner⟩ := TokenLedger.initIfNeeded_spec hopened
  obtain ⟨touched, hframe⟩ := release_frame hrelease
  have hdest : a.tokenDest = w.recipientAccount rt a.toAddress := h.tokenDest
  rw [hdest] at howner
  refine ⟨hframe.ownerOf _ _ howner, ?_⟩
  rw [hevent, ← hbalance, ← hdest]
  by_cases htype : w.oftStore.oftType = .adapter
  · have hne : a.tokenEscrow ≠ a.tokenDest := by
      rw [h.tokenEscrow, h.tokenDest]
      exact hwf.escrow_ne_associated _ _ _
    obtain ⟨-, hmoved, hreceived⟩ :=
      release_adapter (w := { w with ledger := opened }) htype hne hrelease
    rw [hmoved.credited]
    change _ = _ + received.toNat
    rw [hreceived]
  · obtain ⟨-, hminted, hreceived⟩ :=
      release_native (w := { w with ledger := opened }) htype hrelease
    rw [hminted.credited, hreceived]

/-- What a transfer sent from `w` and received on `v` comes to. The endpoint is asked to forward
what `composeCall` says, and nothing where there is none. -/
structure Bridged (rt : Runtime) (clock : Clock) (metas : List LzAccount) (w v v' : World)
    (accs : SendAccounts) (params : SendParams) (delivery : LzReceiveParams) (sent : SendOutcome)
    (received : LzReceiveOutcome) : Prop where
  recipient : received.event.toAddress = params.toAddress
  owner : v'.ledger.ownerOf (v.recipientAccount rt params.toAddress) = some params.toAddress
  credited : v'.ledger.balance (v.recipientAccount rt params.toAddress) =
    v.ledger.balance (v.recipientAccount rt params.toAddress) +
      received.event.amountReceivedLd.toNat
  released : v.oftStore.oftType = .adapter → v'.escrow + received.amountLd.toNat = v.escrow
  minted : v.oftStore.oftType = .native → v'.supply = v.supply + received.amountLd.toNat
  slippage : params.minAmountLd.toNat ≤ sent.oftReceipt.amountReceivedLd.toNat
  exact_amount : received.amountLd.toNat * 10 ^ w.ledger.mint.decimals.toNat =
    sent.oftReceipt.amountReceivedLd.toNat * 10 ^ v.ledger.mint.decimals.toNat
  asked : LzReceive.Asks rt clock metas delivery v (v', received)
    ⟨v.storeKey, delivery.srcEid, delivery.sender, delivery.nonce, delivery.guid, delivery.message⟩
    received.clearAccounts received.composeCall received.composeAccounts
  forwarded : received.composeCall.isSome = params.composeMsg.isSome
  payload : ∀ msg, params.composeMsg = some msg → ∃ call, received.composeCall = some call ∧
    call.toAddress = params.toAddress ∧
    ComposeMsgCodec.nonce call.message = .ok delivery.nonce ∧
    ComposeMsgCodec.srcEid call.message = .ok delivery.srcEid ∧
    ComposeMsgCodec.amountLd call.message = .ok received.event.amountReceivedLd ∧
    ComposeMsgCodec.composeFrom call.message = .ok accs.signer ∧
    ComposeMsgCodec.composeMsg call.message = msg

private theorem rescale {units s d d' : ℕ} (h : s ≤ d) (h' : s ≤ d') :
    units * 10 ^ (d' - s) * 10 ^ d = units * 10 ^ (d - s) * 10 ^ d' := by
  obtain ⟨k, rfl⟩ := Nat.exists_eq_add_of_le h
  obtain ⟨k', rfl⟩ := Nat.exists_eq_add_of_le h'
  rw [Nat.add_sub_cancel_left, Nat.add_sub_cancel_left, pow_add, pow_add]
  ring

section EndToEnd

variable {rtA rtB : Runtime} {sd : U8} {eventsA eventsB : List Event} {w w' v v' : World}
  {epA epB : Endpoint} {clockA clockB : Clock} {accs : SendAccounts} {params : SendParams}
  {sent : SendOutcome} {metas : List LzAccount} {delivery : LzReceiveParams}
  {received : LzReceiveOutcome}

/-- A transfer between any two stores with the same shared decimals arrives exactly. -/
theorem transfer_bridged (hw : Reaches rtA sd eventsA w) (hv : Reaches rtB sd eventsB v)
    (hsend : Send.apply rtA epA clockA accs params w = .ok (w', sent))
    (hreceive : LzReceive.apply rtB epB clockB metas delivery v = .ok (v', received))
    (hmessage : delivery.message = sent.endpointCall.message) :
    Bridged rtB clockB metas w v v' accs params delivery sent received := by
  obtain ⟨peerA, hsent⟩ := Send.apply_sent hsend
  obtain ⟨a, peerB, -, hreceived⟩ := LzReceive.apply_received hreceive
  have hwf := hv.wellFormed
  have hasks := LzReceive.apply_asks hreceive
  rw [hreceived.cleared] at hasks
  obtain ⟨amountSd, -, hencoded⟩ := hsent.message
  rw [hencoded] at hmessage
  have hto : a.toAddress = params.toAddress := by
    have hread := hreceived.toAddress
    rw [hmessage, Send.messageOf, MsgCodec.sendTo_encode, Except.ok.injEq] at hread
    exact hread.symm
  obtain ⟨howner, hcredited⟩ := hreceived.pays hwf
  obtain ⟨opened, amount, -, -, hcompose, hevent⟩ := hreceived.released
  rw [hto] at howner hcredited
  have hcall : received.composeCall = params.composeMsg.map fun msg =>
      { toAddress := params.toAddress
        guid := delivery.guid
        index := 0
        message := ComposeMsgCodec.encode delivery.nonce delivery.srcEid amount
          (accs.signer.toList ++ msg) } := by
    rw [hcompose, LzReceive.composeCallOf, hmessage, Send.messageOf, MsgCodec.composeMsg_encode,
      hto, Option.map_map]
    rfl
  exact {
    recipient := by rw [hevent, hto]
    owner := howner
    credited := hcredited
    released := fun htype => (hreceived.books hwf htype).1
    minted := fun htype => hreceived.mints htype
    slippage := hsent.slippage
    exact_amount := by
      rw [hreceived.units, hsent.units, hencoded, hmessage, Send.messageOf,
        hw.wellFormed.rate, hwf.rate]
      exact rescale hw.wellFormed.decimals hwf.decimals
    asked := hasks
    forwarded := by rw [hcall, Option.isSome_map]
    payload := by
      intro msg hmsg
      rw [hmsg] at hcall
      refine ⟨_, hcall, rfl, ?_, ?_, ?_, ?_, ?_⟩
      · exact ComposeMsgCodec.nonce_encode ..
      · exact ComposeMsgCodec.srcEid_encode ..
      · rw [hevent]
        exact ComposeMsgCodec.amountLd_encode ..
      · exact ComposeMsgCodec.composeFrom_encode ..
      · exact ComposeMsgCodec.composeMsg_encode .. }

end EndToEnd

namespace Reference

def hubPeer : World × List Event :=
  replay runtime endpoint adapterStore [setPeer (clockAt 10) 8 (.peerAddress storeKey)]

def nativePeer : World × List Event :=
  replay runtime endpoint nativeStore [setPeer (clockAt 10) 7 (.peerAddress storeKey)]

def composedParams : SendParams := ⟨8, user, 2000000, 1990000, [], some [], 5000, 0⟩

def composedSend : Result (World × SendOutcome) :=
  Send.apply runtime endpoint (clockAt 20) ⟨user, userTokens, [admin, storeKey]⟩ composedParams
    hubPeer.1

private theorem composedSend_ok : composedSend.isOk = true := by decide

def composedDelivery : LzReceiveParams :=
  ⟨7, storeKey, 1, Bytes32.fill 9, (value _ composedSend_ok).2.endpointCall.message, []⟩

def composedMetas : List LzAccount :=
  (LzReceiveTypes.apply runtime (clockAt 30) composedDelivery nativePeer.1).toOption.getD []

def composedReceive : Result (World × LzReceiveOutcome) :=
  LzReceive.apply runtime endpoint (clockAt 30) composedMetas composedDelivery nativePeer.1

private theorem composedReceive_ok : composedReceive.isOk = true := by decide

theorem transfer_bridged_sample :
    (value _ composedSend_ok).2.oftReceipt.amountReceivedLd = 1995000 ∧
      (value _ composedReceive_ok).2.amountLd = 199500 ∧
      Bridged runtime (clockAt 30) composedMetas hubPeer.1 nativePeer.1
        (value _ composedReceive_ok).1
        ⟨user, userTokens, [admin, storeKey]⟩ composedParams composedDelivery
        (value _ composedSend_ok).2 (value _ composedReceive_ok).2 := by
  have hhub : Reaches runtime 6 hubPeer.2 hubPeer.1 :=
    adapter.replay_reaches adapter_init _ (by decide)
  have hnative : Reaches runtime 6 nativePeer.2 nativePeer.1 :=
    native.replay_reaches native_init _ (by decide)
  exact ⟨by decide, by decide,
    transfer_bridged hhub hnative (eq_ok_value composedSend composedSend_ok)
      (eq_ok_value composedReceive composedReceive_ok) rfl⟩

end Reference

end FdfiToken
