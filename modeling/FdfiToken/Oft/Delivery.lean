import FdfiToken.Oft.Deliverability
import FdfiToken.Oft.Limits
import FdfiToken.Oft.ReceiveTypes
import FdfiToken.Oft.Solvency

/-!
# What a delivery depends on

When a message is executed with the accounts `lz_receive_types` lists. What the program checks or
computes beyond that never stands in the way.
-/

namespace FdfiToken

open Word Fallible Runs

/-- The store can give `amount` to the account `dest`, be it there or not, and the token program
accepts that. -/
def World.CanRelease (rt : Runtime) (w : World) (epoch : U64) (dest : Pubkey) (amount : ℕ) :
    Prop :=
  match w.oftStore.oftType with
  | .adapter =>
    w.ledger.accepts (.transferChecked w.oftStore.tokenEscrow dest w.storeKey amount) = true ∧
      amount ≤ w.tvl ∧
      w.ledger.balance dest + (w.ledger.mint.schedule epoch).net amount < 2 ^ 64 ∧
      w.ledger.withheld dest + (w.ledger.mint.schedule epoch).fee amount < 2 ^ 64
  | .native =>
    w.ledger.balance dest + amount < 2 ^ 64 ∧ w.supply + amount < 2 ^ 64 ∧
      ∃ authority, w.ledger.mint.mintAuthority = some authority ∧ authority ≠ rt.programId ∧
        w.ledger.signsFor w.storeKey authority ∧
        w.ledger.accepts (.mintTo dest authority amount) = true

namespace LzReceive

/-- `clear` as the endpoint is asked for it. -/
def clearCall (w : World) (params : LzReceiveParams) : ClearParams :=
  ⟨w.storeKey, params.srcEid, params.sender, params.nonce, params.guid, params.message⟩

/-- What an execution asks of everything but the limiter, for a list made at `listed`. -/
structure Acceptable (rt : Runtime) (ep : Endpoint) (listed clock : Clock)
    (params : LzReceiveParams) (w : World) (peer : PeerConfig) (toAddress : Pubkey)
    (amountSd : U64) : Prop where
  peer_eq : w.peers params.srcEid = some peer
  sender : peer.peerAddress = params.sender
  toAddress_eq : MsgCodec.sendTo params.message = .ok toAddress
  amount : MsgCodec.amountSd params.message = .ok amountSd
  unpaused : w.oftStore.paused = false
  cleared : ep.clear (clearCall w params)
    ((rt.accountsForClear w.oftStore.endpointProgram w.storeKey params.srcEid params.sender
      params.nonce).map (·.pubkey)) = true
  opens :
    let tokenDest := rt.associatedTokenAddress toAddress w.oftStore.tokenMint w.ledger.tokenProgram
    w.ledger.ownerOf tokenDest = none → w.ledger.accepts (.create tokenDest toAddress) = true
  recipient : ∀ owner,
    w.ledger.ownerOf (rt.associatedTokenAddress toAddress w.oftStore.tokenMint
      w.ledger.tokenProgram) = some owner → owner = toAddress
  converts : amountSd.toNat * w.oftStore.rate < 2 ^ 64
  released : w.CanRelease rt clock.epoch
    (rt.associatedTokenAddress toAddress w.oftStore.tokenMint w.ledger.tokenProgram)
    (amountSd.toNat * w.oftStore.rate)
  composed : ∀ call listedCall,
    LzReceiveTypes.composeCall clock params toAddress w = .ok (some call) →
    LzReceiveTypes.composeCall listed params toAddress w = .ok (some listedCall) →
    ep.sendCompose call ((rt.accountsForSendCompose w.oftStore.endpointProgram w.storeKey
      listedCall).map (·.pubkey)) = true

structure Executable (rt : Runtime) (ep : Endpoint) (listed clock : Clock)
    (params : LzReceiveParams) (w : World) (peer : PeerConfig) (toAddress : Pubkey)
    (amountSd : U64) : Prop where
  acceptable : Acceptable rt ep listed clock params w peer toAddress amountSd
  limited : ∀ l, peer.inboundRateLimiter = some l →
    amountSd.toNat * w.oftStore.rate ≤ l.available clock.unixTimestamp

section Handler

variable {rt : Runtime} {ep : Endpoint} {clock : Clock} {params : LzReceiveParams}
  {peer : PeerConfig} {w : World} {a : LzReceiveAccounts}

theorem exists_handler_iff :
    (∃ r, handler rt ep clock a params peer w = .ok r) ↔
      w.oftStore.paused = false ∧ rt.clearMinAccountsLen ≤ a.remainingAccounts.length ∧
        ep.clear (clearCall w params) (a.remainingAccounts.take rt.clearMinAccountsLen) = true ∧
        ∃ amountSd amountLd, MsgCodec.amountSd params.message = .ok amountSd ∧
          w.oftStore.sd2ld amountSd = .ok amountLd ∧
          (∃ inbound, consumeLimiter clock peer.inboundRateLimiter amountLd = .ok inbound) ∧
          ∃ tvl ledger received, release clock a w amountLd = .ok (tvl, ledger, received) ∧
            sendCompose ep (composeCallOf a.toAddress params received)
              (a.remainingAccounts.drop rt.clearMinAccountsLen) = .ok () := by
  simp only [handler, bind_eq_ok, Prod.exists, require_eq_ok, cpi_eq_ok, exists_const, pure_eq_ok]
  constructor
  · intro h
    obtain ⟨_, _, hpaused, hlen, hclear, amountSd, hsd, amountLd, hld, inbound, hin, tvl, ledger,
      received, hrelease, _, hcompose, -⟩ := h
    exact ⟨hpaused, hlen, hclear, amountSd, amountLd, hsd, hld, ⟨inbound, hin⟩, tvl, ledger,
      received, hrelease, hcompose⟩
  · intro h
    obtain ⟨hpaused, hlen, hclear, amountSd, amountLd, hsd, hld, ⟨inbound, hin⟩, tvl, ledger,
      received, hrelease, hcompose⟩ := h
    exact ⟨_, _, hpaused, hlen, hclear, amountSd, hsd, amountLd, hld, inbound, hin, tvl, ledger,
      received, hrelease, (), hcompose, rfl⟩

end Handler

section Release

variable {rt : Runtime} {sd : U8} {clock : Clock} {params : LzReceiveParams} {w : World}
  {payer toAddress : Pubkey} {call : Option SendComposeParams} {opened : TokenLedger}
  {amount : U64}

open LzReceiveTypes (named)

private theorem exists_unlock_iff (hwf : WellFormed rt sd w) (htype : w.oftStore.oftType = .adapter)
    (hcovered : w.tvl ≤ w.escrow)
    (hopened : w.ledger.initIfNeeded (named rt w params payer toAddress call).tokenDest toAddress =
      .ok opened) :
    (∃ r, release clock (named rt w params payer toAddress call) { w with ledger := opened }
        amount = .ok r) ↔
      w.CanRelease rt clock.epoch (named rt w params payer toAddress call).tokenDest
        amount.toNat := by
  obtain ⟨hframe, hmint, -, hbalance, howner⟩ := TokenLedger.initIfNeeded_spec hopened
  have hwithheld := TokenLedger.initIfNeeded_withheld hopened
  have haccepts := TokenLedger.initIfNeeded_accepts hopened
  have hne : w.oftStore.tokenEscrow ≠ (named rt w params payer toAddress call).tokenDest :=
    hwf.escrow_ne_associated _ _ _
  have htransfer : (∃ l, opened.transferChecked clock.epoch w.oftStore.tokenEscrow
      (named rt w params payer toAddress call).tokenDest w.storeKey amount opened.mint.decimals =
        .ok l) ↔ _ :=
    TokenLedger.exists_transferChecked_iff hne
  have hescrow := hframe.ownerOf _ _ hwf.escrowOwner
  change w.tvl ≤ w.ledger.balance w.oftStore.tokenEscrow at hcovered
  simp only [World.CanRelease, htype]
  constructor
  · intro h
    obtain ⟨⟨tvl, ledger, received⟩, h⟩ := h
    simp only [release, htype, if_true, bind_eq_ok, orError_eq_ok, checkedSub_eq_some] at h
    obtain ⟨t, ht, l, hl, -⟩ := h
    have hcan := htransfer.mp ⟨l, hl⟩
    have haccepted := hcan.accepted
    have hroom := hcan.room
    have hwithheldRoom := hcan.withheldRoom
    rw [haccepts] at haccepted
    rw [hbalance, hmint] at hroom
    rw [hwithheld, hmint] at hwithheldRoom
    exact ⟨haccepted, Nat.le.intro ((Nat.add_comm _ _).trans ht), hroom, hwithheldRoom⟩
  · intro h
    obtain ⟨haccepted, hlocked, hroom, hwithheldRoom⟩ := h
    obtain ⟨tvl, htvl, -⟩ := exists_checkedSub (a := w.oftStore.tvlLd) hlocked
    obtain ⟨ledger, hledger⟩ := htransfer.mpr
      ⟨by rwa [haccepts], hescrow, by simp [howner], by rw [hbalance]; omega,
        by rwa [hbalance, hmint], by rwa [hwithheld, hmint]⟩
    obtain ⟨post, hpost⟩ := exists_postFeeAmountLd opened.mint clock.epoch amount
    refine ⟨(tvl, ledger, post), ?_⟩
    simp only [release, htype, if_true, bind_eq_ok, orError_eq_ok, pure_eq_ok]
    exact ⟨tvl, htvl, ledger, hledger, post, hpost, rfl⟩

private theorem exists_mint_iff (htype : w.oftStore.oftType = .native)
    (hopened : w.ledger.initIfNeeded (named rt w params payer toAddress call).tokenDest toAddress =
      .ok opened) :
    (∃ r, release clock (named rt w params payer toAddress call) { w with ledger := opened }
        amount = .ok r) ↔
      w.CanRelease rt clock.epoch (named rt w params payer toAddress call).tokenDest
        amount.toNat := by
  obtain ⟨-, hmint, hmultisigs, hbalance, howner⟩ := TokenLedger.initIfNeeded_spec hopened
  have haccepts := TokenLedger.initIfNeeded_accepts hopened
  have hsigns (authority : Pubkey) : opened.signsFor w.storeKey authority ↔
      w.ledger.signsFor w.storeKey authority := by
    rw [TokenLedger.signsFor, TokenLedger.signsFor, hmultisigs]
  have hnative : w.oftStore.oftType ≠ .adapter := OFTType.ne_adapter htype
  have hminted (authority : Pubkey) :
      (∃ l, opened.mintTo (named rt w params payer toAddress call).tokenDest authority w.storeKey
        amount = .ok l) ↔ _ :=
    TokenLedger.exists_mintTo_iff
  simp only [World.CanRelease, htype]
  constructor
  · intro h
    obtain ⟨r, h⟩ := h
    rw [release, if_neg hnative] at h
    cases hauthority : (named rt w params payer toAddress call).mintAuthority with
    | none => simp [hauthority] at h
    | some authority =>
      simp only [hauthority, bind_eq_ok] at h
      obtain ⟨l, hl, -⟩ := h
      have hcan := (hminted authority).mp ⟨l, hl⟩
      have hroom := hcan.room
      have hsupplyRoom := hcan.supplyRoom
      have hset := hcan.mintAuthority
      have haccepted := hcan.accepted
      rw [haccepts] at haccepted
      rw [hbalance] at hroom
      rw [hmint] at hsupplyRoom hset
      refine ⟨hroom, hsupplyRoom, authority, hset, ?_, (hsigns authority).mp hcan.signs, haccepted⟩
      intro hprogram
      simp [named, hset, hprogram] at hauthority
  · intro h
    obtain ⟨hroom, hsupplyRoom, authority, hset, hprogram, hsigned, haccepted⟩ := h
    have hauthority : (named rt w params payer toAddress call).mintAuthority = some authority := by
      simp [named, hset, hprogram]
    obtain ⟨ledger, hledger⟩ := (hminted authority).mpr
      ⟨by rwa [haccepts], by simp [howner], by rwa [hmint], (hsigns authority).mpr hsigned,
        by rwa [hbalance], by rwa [hmint]⟩
    refine ⟨(w.oftStore.tvlLd, ledger, amount), ?_⟩
    rw [release, if_neg hnative]
    simp only [hauthority, bind_eq_ok, pure_eq_ok]
    exact ⟨ledger, hledger, rfl⟩

private theorem composeCall_isSome
    (h : LzReceiveTypes.composeCall clock params toAddress w = .ok call) :
    call.isSome = (MsgCodec.composeMsg params.message).isSome := by
  unfold LzReceiveTypes.composeCall at h
  cases hmessage : MsgCodec.composeMsg params.message with
  | none =>
    simp only [hmessage, pure_eq_ok] at h
    rw [← h]
    rfl
  | some message =>
    simp only [hmessage, bind_eq_ok, pure_eq_ok] at h
    obtain ⟨_, -, _, -, _, -, rfl⟩ := h
    rfl

private theorem composeCall_of_release {a : LzReceiveAccounts} {amountSd tvl received : U64}
    {ledger : TokenLedger} (toAddress : Pubkey)
    (hsd : MsgCodec.amountSd params.message = .ok amountSd)
    (hld : w.oftStore.sd2ld amountSd = .ok amount) (hmint : opened.mint = w.ledger.mint)
    (h : release clock a { w with ledger := opened } amount = .ok (tvl, ledger, received)) :
    LzReceiveTypes.composeCall clock params toAddress w =
      .ok (composeCallOf toAddress params received) := by
  rw [LzReceiveTypes.composeCall, composeCallOf]
  cases MsgCodec.composeMsg params.message with
  | none => rfl
  | some message =>
    cases htype : w.oftStore.oftType with
    | native =>
      have heq := (release_native (w := { w with ledger := opened }) (OFTType.ne_adapter htype)
        h).2.2
      simp only [hsd, hld, heq, ok_bind, if_true, Option.map_some]
      rfl
    | adapter =>
      simp only [release, htype, if_true, bind_eq_ok, pure_eq_ok, Prod.mk.injEq, hmint] at h
      obtain ⟨_, -, _, -, post, hpost, -, -, rfl⟩ := h
      simp only [hsd, hld, hpost, ok_bind, reduceCtorEq, if_false, Option.map_some]
      rfl

end Release

private theorem validate_peer {rt : Runtime} {w : World} {params : LzReceiveParams}
    {a : LzReceiveAccounts} {peer : PeerConfig} (h : validate rt w params a = .ok peer) :
    w.peers params.srcEid = some peer ∧ peer.peerAddress = params.sender := by
  simp only [validate, bind_eq_ok, require_eq_ok, exists_const, pure_eq_ok,
    World.peerAccount_eq_ok] at h
  obtain ⟨_, -, -, p, ⟨hpeer, -⟩, -, hsender, _, -, -, _, -, -, _, -, -, -, -, -, _, -, -, -, -, -,
    rfl⟩ := h
  exact ⟨hpeer, hsender⟩

theorem exists_apply_iff {rt : Runtime} {ep : Endpoint} {clock : Clock} {metas : List LzAccount}
    {params : LzReceiveParams} {w : World} {a : LzReceiveAccounts}
    (hparse : parse rt metas = .ok a) :
    (∃ r, apply rt ep clock metas params w = .ok r) ↔
      ∃ peer opened, validate rt w params a = .ok peer ∧
        w.ledger.initIfNeeded a.tokenDest a.toAddress = .ok opened ∧
        ∃ r, handler rt ep clock a params peer { w with ledger := opened } = .ok r := by
  simp only [apply, bind_eq_ok, Prod.exists, tryAccounts_eq_ok]
  constructor
  · intro h
    obtain ⟨w', out, a', peer, ⟨hparse', hvalid⟩, opened, hopened, hrun⟩ := h
    rw [hparse, Except.ok.injEq] at hparse'
    subst hparse'
    exact ⟨peer, opened, hvalid, hopened, w', out, hrun⟩
  · intro h
    obtain ⟨peer, opened, hvalid, hopened, w', out, hrun⟩ := h
    exact ⟨w', out, a, peer, ⟨hparse, hvalid⟩, opened, hopened, hrun⟩

end LzReceive

section Reachable

variable {rt : Runtime} {sd : U8} {events : List Event} {w : World}

private theorem LzReceive.exists_release_iff (h : Reaches rt sd events w) {clock : Clock}
    {params : LzReceiveParams} {payer toAddress : Pubkey} {call : Option SendComposeParams}
    {opened : TokenLedger} {amount : U64}
    (hopened : w.ledger.initIfNeeded
      (LzReceiveTypes.named rt w params payer toAddress call).tokenDest toAddress = .ok opened) :
    (∃ r, release clock (LzReceiveTypes.named rt w params payer toAddress call)
        { w with ledger := opened } amount = .ok r) ↔
      w.CanRelease rt clock.epoch
        (rt.associatedTokenAddress toAddress w.oftStore.tokenMint w.ledger.tokenProgram)
        amount.toNat := by
  cases htype : w.oftStore.oftType with
  | native => exact exists_mint_iff htype hopened
  | adapter => exact exists_unlock_iff h.wellFormed htype (h.books htype).2 hopened

section Listed

variable {listed clock : Clock} {params : LzReceiveParams} {payer toAddress : Pubkey}
  {call : Option SendComposeParams} {ep : Endpoint} {peer : PeerConfig}

private theorem LzReceiveTypes.named_take
    (hclear : (rt.accountsForClear w.oftStore.endpointProgram w.storeKey params.srcEid
      params.sender params.nonce).length = rt.clearMinAccountsLen) :
    (named rt w params payer toAddress call).remainingAccounts.take rt.clearMinAccountsLen =
      (rt.accountsForClear w.oftStore.endpointProgram w.storeKey params.srcEid params.sender
        params.nonce).map (·.pubkey) := by
  rw [← hclear]
  exact List.take_left' (by rw [List.length_map])

private theorem LzReceiveTypes.named_drop
    (hclear : (rt.accountsForClear w.oftStore.endpointProgram w.storeKey params.srcEid
      params.sender params.nonce).length = rt.clearMinAccountsLen) :
    (named rt w params payer toAddress call).remainingAccounts.drop rt.clearMinAccountsLen =
      ((call.map (rt.accountsForSendCompose w.oftStore.endpointProgram w.storeKey)).getD []).map
        (·.pubkey) := by
  rw [← hclear]
  exact List.drop_left' (by rw [List.length_map])

/-- What is executed with the listed accounts is executable. -/
theorem LzReceive.executable_of_handler (h : Reaches rt sd events w)
    (hclear : (rt.accountsForClear w.oftStore.endpointProgram w.storeKey params.srcEid
      params.sender params.nonce).length = rt.clearMinAccountsLen)
    (hto : MsgCodec.sendTo params.message = .ok toAddress)
    (hcall : LzReceiveTypes.composeCall listed params toAddress w = .ok call)
    (hvalid : validate rt w params (LzReceiveTypes.named rt w params payer toAddress call) =
      .ok peer)
    {opened : TokenLedger} (hopened : w.ledger.initIfNeeded
      (LzReceiveTypes.named rt w params payer toAddress call).tokenDest toAddress = .ok opened)
    (hhandler : ∃ r, handler rt ep clock (LzReceiveTypes.named rt w params payer toAddress call)
      params peer { w with ledger := opened } = .ok r) :
    ∃ amountSd, Executable rt ep listed clock params w peer toAddress amountSd := by
  obtain ⟨hpeer, hsender⟩ := validate_peer hvalid
  obtain ⟨hpaused, -, hcleared, amountSd, amountLd, hsd, hld, hinbound, tvl, ledger, received,
    hrelease, hcompose⟩ := exists_handler_iff.mp hhandler
  have hsettled := composeCall_of_release (w := w) toAddress hsd hld
    (TokenLedger.initIfNeeded_spec hopened).2.1 hrelease
  have hvalue := OFTStore.sd2ld_eq_ok.mp hld
  have hlimited := exists_consumeLimiter.mp hinbound
  have hcan := (exists_release_iff h hopened).mp ⟨_, hrelease⟩
  rw [LzReceiveTypes.named_take hclear] at hcleared
  rw [hvalue] at hlimited hcan
  obtain ⟨hopens, hrecipient⟩ := TokenLedger.exists_initIfNeeded_iff.mp ⟨opened, hopened⟩
  refine ⟨amountSd, ⟨hpeer, hsender, hto, hsd, hpaused, hcleared, hopens, hrecipient,
    OFTStore.exists_sd2ld.mp ⟨_, hld⟩, hcan, ?_⟩, hlimited⟩
  intro c listedCall hc hlisted
  rw [hcall, Except.ok.injEq] at hlisted
  rw [hsettled, Except.ok.injEq] at hc
  have haccepted := sendCompose_eq_ok.mp hcompose c hc
  rw [LzReceiveTypes.named_drop hclear, hlisted] at haccepted
  exact haccepted

private theorem LzReceive.handler_of_executable (h : Reaches rt sd events w)
    (hclear : (rt.accountsForClear w.oftStore.endpointProgram w.storeKey params.srcEid
      params.sender params.nonce).length = rt.clearMinAccountsLen)
    (hcall : LzReceiveTypes.composeCall listed params toAddress w = .ok call) {amountSd : U64}
    (hexecutable : Executable rt ep listed clock params w peer toAddress amountSd) :
    ∃ opened, w.ledger.initIfNeeded
        (LzReceiveTypes.named rt w params payer toAddress call).tokenDest toAddress =
          .ok opened ∧
      ∃ r, handler rt ep clock (LzReceiveTypes.named rt w params payer toAddress call) params peer
        { w with ledger := opened } = .ok r := by
  obtain ⟨hacceptable, hlimited⟩ := hexecutable
  obtain ⟨opened, hopened⟩ := TokenLedger.exists_initIfNeeded_iff.mpr
    ⟨hacceptable.opens, hacceptable.recipient⟩
  obtain ⟨amountLd, hld⟩ := OFTStore.exists_sd2ld.mpr hacceptable.converts
  have hvalue := OFTStore.sd2ld_eq_ok.mp hld
  have hreleased := hacceptable.released
  rw [← hvalue] at hlimited hreleased
  obtain ⟨⟨tvl, ledger, received⟩, hrelease⟩ := (exists_release_iff h hopened).mpr hreleased
  have hmint := (TokenLedger.initIfNeeded_spec hopened).2.1
  refine ⟨opened, hopened, exists_handler_iff.mpr ⟨hacceptable.unpaused, ?_, ?_, amountSd,
    amountLd, hacceptable.amount, hld, exists_consumeLimiter.mpr hlimited, tvl, ledger, received,
    hrelease, sendCompose_eq_ok.mpr ?_⟩⟩
  · rw [LzReceiveTypes.named, List.length_append, List.length_map, hclear]
    exact Nat.le_add_right _ _
  · rw [LzReceiveTypes.named_take hclear]
    exact hacceptable.cleared
  · intro c hc
    change composeCallOf toAddress params received = some c at hc
    have hsettled := composeCall_of_release (w := w) toAddress hacceptable.amount hld hmint
      hrelease
    rw [hc] at hsettled
    have hsome : call.isSome = true := by
      rw [composeCall_isSome hcall, ← composeCall_isSome hsettled]
      rfl
    obtain ⟨listedCall, rfl⟩ := Option.isSome_iff_exists.mp hsome
    rw [LzReceiveTypes.named_drop hclear]
    exact hacceptable.composed c listedCall hsettled hcall

end Listed

end Reachable

namespace Reference

end Reference

end FdfiToken
