import FdfiToken.Oft.World
import FdfiToken.Oft.MsgCodec

/-!
# Receiving

`lz_receive`, with its accounts read position by position from the list it is called with, and
`lz_receive_types`, which tells the executor that list.
-/

namespace FdfiToken

open Word Fallible

/-- `LzReceive` followed by the pair `event_cpi` adds and the remaining accounts. -/
structure LzReceiveAccounts where
  payer : Pubkey
  peer : Pubkey
  oftStore : Pubkey
  tokenEscrow : Pubkey
  toAddress : Pubkey
  tokenDest : Pubkey
  tokenMint : Pubkey
  mintAuthority : Option Pubkey
  tokenProgram : Pubkey
  associatedTokenProgram : Pubkey
  systemProgram : Pubkey
  eventAuthority : Pubkey
  program : Pubkey
  remainingAccounts : List Pubkey
deriving DecidableEq

structure OFTReceived where
  guid : Bytes32
  srcEid : U32
  toAddress : Pubkey
  amountReceivedLd : U64
deriving DecidableEq

/-- What an `lz_receive` hands to the endpoint, releases and emits. -/
@[ext] structure LzReceiveOutcome where
  clearCall : ClearParams
  clearAccounts : List Pubkey
  amountLd : U64
  composeCall : Option SendComposeParams
  composeAccounts : List Pubkey
  event : OFTReceived

namespace LzReceive

/-- The accounts by position, with their `Signer` and `mut` constraints. An optional account
given as the program itself is absent. -/
def parse (rt : Runtime) : List LzAccount → Result LzReceiveAccounts
  | payer :: peer :: oftStore :: tokenEscrow :: toAddress :: tokenDest :: tokenMint ::
      mintAuthority :: tokenProgram :: associatedTokenProgram :: systemProgram ::
      eventAuthority :: program :: remainingAccounts => do
    require (payer.isSigner = true) .constraint
    require (payer.isWritable = true) .constraint
    require (peer.isWritable = true) .constraint
    require (oftStore.isWritable = true) .constraint
    require (tokenEscrow.isWritable = true) .constraint
    require (tokenDest.isWritable = true) .constraint
    require (tokenMint.isWritable = true) .constraint
    return {
      payer := payer.pubkey
      peer := peer.pubkey
      oftStore := oftStore.pubkey
      tokenEscrow := tokenEscrow.pubkey
      toAddress := toAddress.pubkey
      tokenDest := tokenDest.pubkey
      tokenMint := tokenMint.pubkey
      mintAuthority :=
        if mintAuthority.pubkey = rt.programId then none else some mintAuthority.pubkey
      tokenProgram := tokenProgram.pubkey
      associatedTokenProgram := associatedTokenProgram.pubkey
      systemProgram := systemProgram.pubkey
      eventAuthority := eventAuthority.pubkey
      program := program.pubkey
      remainingAccounts := remainingAccounts.map (·.pubkey) }
  | _ => .error .constraint

/-- `token_mint.mint_authority == COption::Some(mint_authority.key())`, when one is given. -/
def checkMintAuthority (w : World) : Option Pubkey → Result Unit
  | some mintAuthority =>
    ensure (w.ledger.mint.mintAuthority = some mintAuthority) .invalidMintAuthority
  | none => return ()

/-- The address, seeds, associated-token and mint-authority constraints. -/
def validate (rt : Runtime) (w : World) (params : LzReceiveParams) (a : LzReceiveAccounts) :
    Result PeerConfig := do
  w.checkStore rt
  require (a.oftStore = w.storeKey) .constraint
  let peer ← w.peerAccount rt params.srcEid
  require (a.peer = w.peerKey rt params.srcEid) .constraint
  ensure (peer.peerAddress = params.sender) .invalidSender
  let _ ← w.escrowAccount
  require (a.tokenEscrow = w.oftStore.tokenEscrow) .constraint
  let toAddress ← MsgCodec.sendTo params.message
  ensure (a.toAddress = toAddress) .invalidTokenDest
  w.checkMint
  require (a.tokenMint = w.oftStore.tokenMint) .constraint
  require (a.tokenProgram = w.ledger.tokenProgram) .constraint
  require (a.tokenProgram ∈ rt.tokenInterface) .constraint
  require (a.tokenDest = rt.associatedTokenAddress a.toAddress a.tokenMint a.tokenProgram)
    .constraint
  checkMintAuthority w a.mintAuthority
  require (a.associatedTokenProgram = rt.associatedTokenId) .constraint
  require (a.systemProgram = rt.systemProgramId) .constraint
  require (a.eventAuthority = (rt.findProgramAddress [rt.eventSeed]).1) .constraint
  require (a.program = rt.programId) .constraint
  return peer

def tryAccounts (rt : Runtime) (w : World) (params : LzReceiveParams) (metas : List LzAccount) :
    Result (LzReceiveAccounts × PeerConfig) := do
  let a ← parse rt metas
  let peer ← validate rt w params a
  return (a, peer)

/-- Give the tokens to the recipient, from the escrow or newly minted: the new total locked,
the new ledger and the amount that reaches the recipient. -/
def release (clock : Clock) (a : LzReceiveAccounts) (w : World) (amountLd : U64) :
    Result (U64 × TokenLedger × U64) :=
  if w.oftStore.oftType = .adapter then do
    -- unlock from escrow
    let tvlLd ← orPanic (checkedSub w.oftStore.tvlLd amountLd)
    let ledger ← w.ledger.transferChecked clock.epoch a.tokenEscrow a.tokenDest w.storeKey
      amountLd w.ledger.mint.decimals
    -- update the amount_received_ld with the post transfer fee amount
    let amountReceivedLd ← getPostFeeAmountLd w.ledger.mint clock.epoch amountLd
    return (tvlLd, ledger, amountReceivedLd)
  else
    match a.mintAuthority with
    | some mintAuthority => do
      let ledger ← w.ledger.mintTo a.tokenDest mintAuthority w.storeKey amountLd
      return (w.oftStore.tvlLd, ledger, amountLd)
    | none => .error (.oft .invalidMintAuthority)

/-- The compose call for a message of which `amountReceivedLd` reached the recipient. -/
def composeCallOf (toAddress : Pubkey) (params : LzReceiveParams) (amountReceivedLd : U64) :
    Option SendComposeParams :=
  (MsgCodec.composeMsg params.message).map fun message => {
    toAddress := toAddress
    guid := params.guid
    index := 0 -- only 1 compose msg per lzReceive
    message := ComposeMsgCodec.encode params.nonce params.srcEid amountReceivedLd message }

/-- `if let Some(message) = .. { send_compose(..)?; }`. -/
def sendCompose (ep : Endpoint) (call : Option SendComposeParams) (accounts : List Pubkey) :
    Result Unit :=
  match call with
  | some call => cpi (ep.sendCompose call accounts)
  | none => return ()

def handler (rt : Runtime) (ep : Endpoint) (clock : Clock) (a : LzReceiveAccounts)
    (params : LzReceiveParams) (peer : PeerConfig) (w : World) :
    Result (World × LzReceiveOutcome) := do
  ensure (w.oftStore.paused = false) .paused
  -- Validate and clear the payload
  require (rt.clearMinAccountsLen ≤ a.remainingAccounts.length) .panic
  let accountsForClear := a.remainingAccounts.take rt.clearMinAccountsLen
  let clearCall : ClearParams := {
    receiver := w.storeKey
    srcEid := params.srcEid
    sender := params.sender
    nonce := params.nonce
    guid := params.guid
    message := params.message }
  cpi (ep.clear clearCall accountsForClear)
  -- Convert the amount from sd to ld
  let amountSd ← MsgCodec.amountSd params.message
  let amountLd ← w.oftStore.sd2ld amountSd
  -- Consume the inbound rate limiter
  let inboundRateLimiter ← consumeLimiter clock peer.inboundRateLimiter amountLd
  -- Refill the outbound rate limiter
  let outboundRateLimiter := refillLimiter clock peer.outboundRateLimiter amountLd
  let (tvlLd, ledger, amountReceivedLd) ← release clock a w amountLd
  let composeAccounts := a.remainingAccounts.drop rt.clearMinAccountsLen
  let composeCall := composeCallOf a.toAddress params amountReceivedLd
  sendCompose ep composeCall composeAccounts
  let w' : World := { w with oftStore := { w.oftStore with tvlLd := tvlLd }, ledger := ledger }
  return (w'.setPeer params.srcEid { peer with
      outboundRateLimiter := outboundRateLimiter, inboundRateLimiter := inboundRateLimiter },
    { clearCall := clearCall
      clearAccounts := accountsForClear
      amountLd := amountLd
      composeCall := composeCall
      composeAccounts := composeAccounts
      event := ⟨params.guid, params.srcEid, a.toAddress, amountReceivedLd⟩ })

def apply (rt : Runtime) (ep : Endpoint) (clock : Clock) (metas : List LzAccount)
    (params : LzReceiveParams) (w : World) : Result (World × LzReceiveOutcome) := do
  let (a, peer) ← tryAccounts rt w params metas
  -- `init_if_needed` of `token_dest`
  let ledger ← w.ledger.initIfNeeded a.tokenDest a.toAddress
  handler rt ep clock a params peer { w with ledger := ledger }

/-- The receive ends with `r` exactly where the endpoint clears the message and takes the compose
call: these are the calls it makes. -/
def Asks (rt : Runtime) (clock : Clock) (metas : List LzAccount) (params : LzReceiveParams)
    (w : World) (r : World × LzReceiveOutcome) (clearCall : ClearParams)
    (clearAccounts : List Pubkey) (composeCall : Option SendComposeParams)
    (composeAccounts : List Pubkey) : Prop :=
  ∀ ep, apply rt ep clock metas params w = .ok r ↔ ep.clear clearCall clearAccounts = true ∧
    ∀ call, composeCall = some call → ep.sendCompose call composeAccounts = true

theorem sendCompose_eq_ok {ep : Endpoint} {call : Option SendComposeParams}
    {accounts : List Pubkey} :
    sendCompose ep call accounts = .ok () ↔
      ∀ c, call = some c → ep.sendCompose c accounts = true := by
  cases call with
  | none => simp [sendCompose, pure, Except.pure]
  | some c => simp [sendCompose]

/-- A receive that goes through makes the calls its outcome records, and no others. -/
theorem apply_asks {rt : Runtime} {ep : Endpoint} {clock : Clock} {metas : List LzAccount}
    {params : LzReceiveParams} {w w' : World} {out : LzReceiveOutcome}
    (h : apply rt ep clock metas params w = .ok (w', out)) :
    Asks rt clock metas params w (w', out) out.clearCall out.clearAccounts out.composeCall
      out.composeAccounts := by
  intro ep'
  simp only [apply, handler, bind_eq_ok, Prod.exists, require_eq_ok, cpi_eq_ok, exists_const,
    pure_eq_ok, Prod.mk.injEq] at h ⊢
  obtain ⟨a, peer, haccs, opened, hopened, hpaused, hlen, -, amountSd, hsd, amountLd, hld, inbound,
    hin, tvl, ledger, received, hrelease, -, -, hworld, hout⟩ := h
  constructor
  · intro h'
    obtain ⟨_, _, -, _, -, -, -, hclear, _, -, _, -, _, -, _, _, _, -, _, hcompose, -, rfl⟩ := h'
    exact ⟨hclear, sendCompose_eq_ok.mp hcompose⟩
  · intro hasked
    obtain ⟨hclear, hcompose⟩ := hasked
    subst hout
    exact ⟨a, peer, haccs, opened, hopened, hpaused, hlen, hclear, amountSd, hsd, amountLd, hld,
      inbound, hin, tvl, ledger, received, hrelease, (), sendCompose_eq_ok.mpr hcompose, hworld,
      rfl⟩

theorem apply_unique {rt : Runtime} {ep ep' : Endpoint} {clock : Clock} {metas : List LzAccount}
    {params : LzReceiveParams} {w : World} {r r' : World × LzReceiveOutcome}
    (h : apply rt ep clock metas params w = .ok r)
    (h' : apply rt ep' clock metas params w = .ok r') : r = r' := by
  let open' : Endpoint := { ep with clear := fun _ _ => true, sendCompose := fun _ _ => true }
  have hopen : apply rt open' clock metas params w = .ok r :=
    (apply_asks h open').mpr ⟨rfl, fun _ _ => rfl⟩
  have hopen' : apply rt open' clock metas params w = .ok r' :=
    (apply_asks h' open').mpr ⟨rfl, fun _ _ => rfl⟩
  exact Except.ok.inj (hopen.symm.trans hopen')

/-- Unlocking: the escrow and the total locked fall by the same amount, and the recipient
gets it less the transfer fee. -/
theorem release_adapter {clock : Clock} {a : LzReceiveAccounts} {w : World}
    {amount tvl received : U64} {ledger : TokenLedger} (htype : w.oftStore.oftType = .adapter)
    (hne : a.tokenEscrow ≠ a.tokenDest)
    (h : release clock a w amount = .ok (tvl, ledger, received)) :
    tvl.toNat + amount.toNat = w.tvl ∧
      w.ledger.Moved ledger a.tokenEscrow a.tokenDest amount.toNat
        ((w.ledger.mint.schedule clock.epoch).net amount.toNat)
        ((w.ledger.mint.schedule clock.epoch).fee amount.toNat) ∧
      received.toNat = (w.ledger.mint.schedule clock.epoch).net amount.toNat := by
  simp only [release, if_pos htype, bind_eq_ok, orError_eq_ok, checkedSub_eq_some, pure_eq_ok,
    Prod.mk.injEq, Mint.getPostFeeAmountLd_eq_ok] at h
  obtain ⟨t, ht, l, hl, r, hr, rfl, rfl, rfl⟩ := h
  exact ⟨ht, TokenLedger.transferChecked_moved hne hl, hr⟩

theorem release_native {clock : Clock} {a : LzReceiveAccounts} {w : World}
    {amount tvl received : U64} {ledger : TokenLedger} (htype : w.oftStore.oftType ≠ .adapter)
    (h : release clock a w amount = .ok (tvl, ledger, received)) :
    tvl = w.oftStore.tvlLd ∧ w.ledger.Minted ledger a.tokenDest amount.toNat ∧
      received = amount := by
  rw [release, if_neg htype] at h
  cases hauth : a.mintAuthority with
  | none => simp [hauth] at h
  | some authority =>
    simp only [hauth, bind_eq_ok, pure_eq_ok, Prod.mk.injEq] at h
    obtain ⟨l, hl, rfl, rfl, rfl⟩ := h
    exact ⟨rfl, TokenLedger.mintTo_minted hl, rfl⟩

theorem release_frame {clock : Clock} {a : LzReceiveAccounts} {w : World}
    {amount tvl received : U64} {ledger : TokenLedger}
    (h : release clock a w amount = .ok (tvl, ledger, received)) :
    ∃ touched, w.ledger.Frame ledger touched := by
  by_cases htype : w.oftStore.oftType = .adapter
  · simp only [release, if_pos htype, bind_eq_ok, pure_eq_ok, Prod.mk.injEq] at h
    obtain ⟨_, -, l, hl, _, -, -, rfl, -⟩ := h
    exact ⟨_, (TokenLedger.transferChecked_frame hl).1⟩
  · exact ⟨_, (release_native htype h).2.1.frame⟩

/-- Everything a successful `lz_receive` checked, moved and handed to the endpoint. -/
structure Received (rt : Runtime) (clock : Clock) (a : LzReceiveAccounts)
    (params : LzReceiveParams) (peer : PeerConfig) (w w' : World) (out : LzReceiveOutcome) :
    Prop where
  peer_eq : w.peers params.srcEid = some peer
  sender : peer.peerAddress = params.sender
  escrowOwner : w.ledger.ownerOf w.oftStore.tokenEscrow = some w.storeKey
  tokenEscrow : a.tokenEscrow = w.oftStore.tokenEscrow
  toAddress : MsgCodec.sendTo params.message = .ok a.toAddress
  tokenDest : a.tokenDest =
    rt.associatedTokenAddress a.toAddress w.oftStore.tokenMint w.ledger.tokenProgram
  unpaused : w.oftStore.paused = false
  amount : ∃ amountSd, MsgCodec.amountSd params.message = .ok amountSd ∧
    w.oftStore.sd2ld amountSd = .ok out.amountLd
  released : ∃ opened received, w.ledger.initIfNeeded a.tokenDest a.toAddress = .ok opened ∧
    release clock a { w with ledger := opened } out.amountLd =
      .ok (w'.oftStore.tvlLd, w'.ledger, received) ∧
    out.composeCall = composeCallOf a.toAddress params received ∧
    out.event = ⟨params.guid, params.srcEid, a.toAddress, received⟩
  limited : ∃ inbound,
    consumeLimiter clock peer.inboundRateLimiter out.amountLd = .ok inbound ∧
    w' = World.setPeer
      { w with oftStore := { w.oftStore with tvlLd := w'.oftStore.tvlLd }, ledger := w'.ledger }
      params.srcEid
      { peer with
        outboundRateLimiter := refillLimiter clock peer.outboundRateLimiter out.amountLd
        inboundRateLimiter := inbound }
  cleared : out.clearCall =
    ⟨w.storeKey, params.srcEid, params.sender, params.nonce, params.guid, params.message⟩
  clearAccounts : out.clearAccounts = a.remainingAccounts.take rt.clearMinAccountsLen
  composeAccounts : out.composeAccounts = a.remainingAccounts.drop rt.clearMinAccountsLen

theorem tryAccounts_eq_ok {rt : Runtime} {w : World} {params : LzReceiveParams}
    {metas : List LzAccount} {a : LzReceiveAccounts} {peer : PeerConfig} :
    tryAccounts rt w params metas = .ok (a, peer) ↔
      parse rt metas = .ok a ∧ validate rt w params a = .ok peer := by
  simp only [tryAccounts, bind_eq_ok, pure_eq_ok, Prod.mk.injEq]
  constructor
  · rintro ⟨a', ha, p', hp, rfl, rfl⟩
    exact ⟨ha, hp⟩
  · rintro ⟨ha, hp⟩
    exact ⟨a, ha, peer, hp, rfl, rfl⟩

theorem apply_received {rt : Runtime} {ep : Endpoint} {clock : Clock} {metas : List LzAccount}
    {params : LzReceiveParams} {w w' : World} {out : LzReceiveOutcome}
    (h : apply rt ep clock metas params w = .ok (w', out)) :
    ∃ a peer, parse rt metas = .ok a ∧ Received rt clock a params peer w w' out := by
  simp only [apply, handler, bind_eq_ok, Prod.exists, tryAccounts_eq_ok, require_eq_ok,
    cpi_eq_ok, exists_const, pure_eq_ok, Prod.mk.injEq] at h
  obtain ⟨a, peer, ⟨hparse, hvalid⟩, opened, hopened, hpaused, -, -, amountSd, hsd, amountLd,
    hld, inbound, hin, tvl, ledger, received, hrelease, _, -, rfl, rfl⟩ := h
  simp only [validate, bind_eq_ok, require_eq_ok, exists_const, pure_eq_ok,
    World.peerAccount_eq_ok, World.escrowAccount_eq_ok, World.checkStore_eq_ok,
    World.checkMint_eq_ok] at hvalid
  obtain ⟨-, -, p, ⟨hpeer, -⟩, -, hsender, escrow, ⟨hescrow, howner⟩, hkey, to_, hto, rfl, -, hmint,
    hprogram, -, hdest, _, -, -, -, -, -, rfl⟩ := hvalid
  rw [hmint, hprogram] at hdest
  exact ⟨a, p, hparse, hpeer, hsender, by simp [TokenLedger.ownerOf, hescrow, howner], hkey, hto,
    hdest, hpaused, ⟨amountSd, hsd, hld⟩, ⟨opened, received, hopened, hrelease, rfl, rfl⟩,
    ⟨inbound, hin, rfl⟩, rfl, rfl, rfl⟩

end LzReceive

namespace LzReceiveTypes

def composeCall (clock : Clock) (params : LzReceiveParams) (toAddress : Pubkey) (w : World) :
    Result (Option SendComposeParams) :=
  match MsgCodec.composeMsg params.message with
  | some message => do
    let amountSd ← MsgCodec.amountSd params.message
    let amountLd ← w.oftStore.sd2ld amountSd
    let amountReceivedLd ← (if w.oftStore.oftType = .native then pure amountLd
      else getPostFeeAmountLd w.ledger.mint clock.epoch amountLd)
    return some {
      toAddress := toAddress
      guid := params.guid
      index := 0
      message := ComposeMsgCodec.encode params.nonce params.srcEid amountReceivedLd message }
  | none => return none

def apply (rt : Runtime) (clock : Clock) (params : LzReceiveParams) (w : World) :
    Result (List LzAccount) := do
  w.checkStore rt
  w.checkMint
  let peer := w.peerKey rt params.srcEid
  let toAddress ← MsgCodec.sendTo params.message
  let tokenProgram := w.ledger.tokenProgram
  let tokenDest := rt.associatedTokenAddress toAddress w.oftStore.tokenMint tokenProgram
  let mintAuthority := w.ledger.mint.mintAuthority.getD rt.programId
  let eventAuthority := (rt.findProgramAddress [rt.eventSeed]).1
  let accounts : List LzAccount := [
    ⟨Pubkey.default, true, true⟩, -- 0
    ⟨peer, false, true⟩, -- 1
    ⟨w.storeKey, false, true⟩, -- 2
    ⟨w.oftStore.tokenEscrow, false, true⟩, -- 3
    ⟨toAddress, false, false⟩, -- 4
    ⟨tokenDest, false, true⟩, -- 5
    ⟨w.ledger.mintKey, false, true⟩, -- 6
    ⟨mintAuthority, false, false⟩, -- 7
    ⟨tokenProgram, false, false⟩, -- 8
    ⟨rt.associatedTokenId, false, false⟩, -- 9
    ⟨rt.systemProgramId, false, false⟩, -- 10
    ⟨eventAuthority, false, false⟩, -- 11
    ⟨rt.programId, false, false⟩] -- 12
  let endpointProgram := w.oftStore.endpointProgram
  -- remaining accounts 0..9
  let accountsForClear :=
    rt.accountsForClear endpointProgram w.storeKey params.srcEid params.sender params.nonce
  -- remaining accounts 9..16
  let composeCall ← composeCall clock params toAddress w
  let accountsForComposing := (composeCall.map
    (rt.accountsForSendCompose endpointProgram w.storeKey)).getD []
  return accounts ++ accountsForClear ++ accountsForComposing

end LzReceiveTypes

end FdfiToken
