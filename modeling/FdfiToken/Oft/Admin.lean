import FdfiToken.Oft.World

/-!
# Initialisation and administration

`init_oft` and the admin's instructions. Accounts whose address a constraint fixes are not
parameters; each instruction's own accounts are.
-/

namespace FdfiToken

open Word Fallible

structure InitOFTAccounts where
  tokenEscrow : Pubkey
  remainingAccounts : List Pubkey

structure InitOFTParams where
  oftType : OFTType
  admin : Pubkey
  sharedDecimals : U8
  endpointProgram : Option Pubkey

/-- `init_oft` on a mint and its existing token accounts. Creating the escrow needs a
signature for its address, and that address must be free. -/
def InitOFT.apply (rt : Runtime) (ep : Endpoint) (accs : InitOFTAccounts)
    (params : InitOFTParams) (ledger : TokenLedger) : Result World := do
  require (ledger.tokenProgram ∈ rt.tokenInterface) .constraint
  require (rt.signable accs.tokenEscrow = true) .constraint
  require (ledger.accounts accs.tokenEscrow = none) .constraint
  let (oftStore, bump) := rt.findProgramAddress (storeSeeds accs.tokenEscrow)
  ensure (params.sharedDecimals.toNat ≤ ledger.mint.decimals.toNat) .invalidDecimals
  let exponent ← orPanic (checkedSub ledger.mint.decimals params.sharedDecimals)
  let ld2sdRate ← orPanic (checkedPow (10 : U64) exponent.toNat)
  cpi (ep.registerOApp params.admin accs.remainingAccounts)
  return {
    storeKey := oftStore
    oftStore := {
      oftType := params.oftType
      ld2sdRate := ld2sdRate
      tokenMint := ledger.mintKey
      tokenEscrow := accs.tokenEscrow
      endpointProgram := params.endpointProgram.getD rt.endpointId
      bump := bump
      tvlLd := 0
      admin := params.admin
      defaultFeeBps := 0
      paused := false
      pauser := none
      unpauser := none }
    lzReceiveTypesAccounts := ⟨oftStore, ledger.mintKey⟩
    peers := fun _ => none
    ledger := ledger.set accs.tokenEscrow ⟨oftStore, 0, 0⟩ }

structure AdminAccounts where
  admin : Pubkey
  remainingAccounts : List Pubkey

inductive SetOFTConfigParams where
  | admin (admin : Pubkey)
  | delegate (delegate : Pubkey)
  | defaultFee (feeBps : U16)
  | paused (paused : Bool)
  | pauser (pauser : Option Pubkey)
  | unpauser (unpauser : Option Pubkey)
deriving DecidableEq

/-- `has_one = admin @OFTError::Unauthorized`, with the store's own seeds. -/
def World.checkAdmin (rt : Runtime) (w : World) (admin : Pubkey) : Result Unit := do
  w.checkStore rt
  ensure (w.oftStore.admin = admin) .unauthorized

def SetOFTConfig.apply (rt : Runtime) (ep : Endpoint) (accs : AdminAccounts)
    (params : SetOFTConfigParams) (w : World) : Result World := do
  w.checkAdmin rt accs.admin
  match params with
  | .admin admin => return { w with oftStore := { w.oftStore with admin := admin } }
  | .delegate delegate =>
    cpi (ep.setDelegate delegate accs.remainingAccounts)
    return w
  | .defaultFee feeBps =>
    ensure (feeBps.toNat < maxFeeBasisPoints.toNat) .invalidFee
    return { w with oftStore := { w.oftStore with defaultFeeBps := feeBps } }
  | .paused paused => return { w with oftStore := { w.oftStore with paused := paused } }
  | .pauser pauser => return { w with oftStore := { w.oftStore with pauser := pauser } }
  | .unpauser unpauser => return { w with oftStore := { w.oftStore with unpauser := unpauser } }

inductive PeerConfigParam where
  | peerAddress (peerAddress : Bytes32)
  | feeBps (feeBps : Option U16)
  | enforcedOptions (send sendAndCall : Bytes)
  | outboundRateLimit (rateLimitParams : Option RateLimitParams)
  | inboundRateLimit (rateLimitParams : Option RateLimitParams)
deriving DecidableEq

structure SetPeerConfigParams where
  remoteEid : U32
  config : PeerConfigParam
deriving DecidableEq

/-- The `match` of `SetPeerConfig::apply`. -/
def PeerConfig.configure (rt : Runtime) (clock : Clock) (config : PeerConfigParam)
    (peer : PeerConfig) : Result PeerConfig :=
  match config with
  | .peerAddress peerAddress => return { peer with peerAddress := peerAddress }
  | .feeBps feeBps => do
    match feeBps with
    | some feeBps => ensure (feeBps.toNat < maxFeeBasisPoints.toNat) .invalidFee
    | none => pure ()
    return { peer with feeBps := feeBps }
  | .enforcedOptions send sendAndCall => do
    require (rt.assertType3 send = true) .options
    require (rt.assertType3 sendAndCall = true) .options
    return { peer with enforcedOptions := ⟨send, sendAndCall⟩ }
  | .outboundRateLimit params =>
    return { peer with
      outboundRateLimiter := updateRateLimiter clock peer.outboundRateLimiter params }
  | .inboundRateLimit params =>
    return { peer with
      inboundRateLimiter := updateRateLimiter clock peer.inboundRateLimiter params }

def SetPeerConfig.apply (rt : Runtime) (clock : Clock) (admin : Pubkey)
    (params : SetPeerConfigParams) (w : World) : Result World := do
  w.checkAdmin rt admin
  let peer := (w.peers params.remoteEid).getD PeerConfig.default
  let peer ← peer.configure rt clock params.config
  let bump := (rt.findProgramAddress (peerSeeds w.storeKey params.remoteEid)).2
  return w.setPeer params.remoteEid { peer with bump := bump }

def isValidSigner (signer : Pubkey) (oftStore : OFTStore) (paused : Bool) : Bool :=
  if paused then oftStore.pauser = some signer else oftStore.unpauser = some signer

def SetPause.apply (rt : Runtime) (signer : Pubkey) (paused : Bool) (w : World) :
    Result World := do
  w.checkStore rt
  ensure (isValidSigner signer w.oftStore paused = true) .unauthorized
  return { w with oftStore := { w.oftStore with paused := paused } }

structure WithdrawFeeAccounts where
  admin : Pubkey
  tokenDest : Pubkey

def WithdrawFee.apply (rt : Runtime) (clock : Clock) (accs : WithdrawFeeAccounts) (feeLd : U64)
    (w : World) : Result World := do
  w.checkAdmin rt accs.admin
  w.checkMint
  let tokenEscrow ← w.escrowAccount
  let _ ← orError .constraint (w.ledger.accounts accs.tokenDest)
  let surplus ← orPanic (checkedSub tokenEscrow.amount w.oftStore.tvlLd)
  ensure (feeLd.toNat ≤ surplus.toNat) .invalidFee
  let ledger ← w.ledger.transferChecked clock.epoch w.oftStore.tokenEscrow accs.tokenDest
    w.storeKey feeLd w.ledger.mint.decimals
  return { w with ledger := ledger }

@[simp] theorem World.checkAdmin_eq_ok {rt : Runtime} {w : World} {admin : Pubkey} {u : Unit} :
    w.checkAdmin rt admin = .ok u ↔
      rt.createProgramAddress (storeSeeds w.oftStore.tokenEscrow ++ [[w.oftStore.bump]]) =
        some w.storeKey ∧ w.oftStore.admin = admin := by
  simp [World.checkAdmin]

structure Reconfigured (w w' : World) : Prop where
  eq : w' = { w with oftStore := { w.oftStore with
    admin := w'.oftStore.admin
    defaultFeeBps := w'.oftStore.defaultFeeBps
    paused := w'.oftStore.paused
    pauser := w'.oftStore.pauser
    unpauser := w'.oftStore.unpauser } }
  defaultFee : w'.oftStore.defaultFeeBps = w.oftStore.defaultFeeBps ∨
    w'.oftStore.defaultFeeBps.toNat < 10000

theorem SetOFTConfig.reconfigured {rt : Runtime} {ep : Endpoint} {accs : AdminAccounts}
    {params : SetOFTConfigParams} {w w' : World}
    (h : SetOFTConfig.apply rt ep accs params w = .ok w') : Reconfigured w w' := by
  cases params with
  | defaultFee feeBps =>
    simp only [apply, bind_eq_ok, require_eq_ok, exists_const, pure_eq_ok] at h
    obtain ⟨_, -, hfee, rfl⟩ := h
    exact ⟨rfl, .inr hfee⟩
  | delegate delegate =>
    simp only [apply, bind_eq_ok, cpi_eq_ok, exists_const, pure_eq_ok] at h
    obtain ⟨_, -, -, rfl⟩ := h
    exact ⟨rfl, .inl rfl⟩
  | _ =>
    simp only [apply, bind_eq_ok, pure_eq_ok] at h
    obtain ⟨_, -, rfl⟩ := h
    exact ⟨rfl, .inl rfl⟩

theorem SetPause.reconfigured {rt : Runtime} {signer : Pubkey} {paused : Bool} {w w' : World}
    (h : SetPause.apply rt signer paused w = .ok w') : Reconfigured w w' := by
  simp only [apply, bind_eq_ok, require_eq_ok, exists_const, pure_eq_ok] at h
  obtain ⟨_, -, -, rfl⟩ := h
  exact ⟨rfl, .inl rfl⟩

theorem SetPeerConfig.apply_eq_ok {rt : Runtime} {clock : Clock} {admin : Pubkey}
    {params : SetPeerConfigParams} {w w' : World}
    (h : SetPeerConfig.apply rt clock admin params w = .ok w') :
    w.oftStore.admin = admin ∧ ∃ peer,
      ((w.peers params.remoteEid).getD PeerConfig.default).configure rt clock params.config =
        .ok peer ∧
      w' = w.setPeer params.remoteEid
        { peer with
          bump := (rt.findProgramAddress (peerSeeds w.storeKey params.remoteEid)).2 } := by
  simp only [apply, bind_eq_ok, World.checkAdmin_eq_ok, exists_const, pure_eq_ok] at h
  obtain ⟨⟨-, hadmin⟩, peer, hpeer, rfl⟩ := h
  exact ⟨hadmin, peer, hpeer, rfl⟩

def PeerConfigParam.set (clock : Clock) (peer : PeerConfig) : PeerConfigParam → PeerConfig
  | .peerAddress address => { peer with peerAddress := address }
  | .feeBps bps => { peer with feeBps := bps }
  | .enforcedOptions send sendAndCall => { peer with enforcedOptions := ⟨send, sendAndCall⟩ }
  | .outboundRateLimit params => { peer with
      outboundRateLimiter := updateRateLimiter clock peer.outboundRateLimiter params }
  | .inboundRateLimit params => { peer with
      inboundRateLimiter := updateRateLimiter clock peer.inboundRateLimiter params }

theorem PeerConfig.configure_eq_ok {rt : Runtime} {clock : Clock} {config : PeerConfigParam}
    {peer peer' : PeerConfig} (h : peer.configure rt clock config = .ok peer') :
    peer' = config.set clock peer ∧
      ∀ bps, config = .feeBps (some bps) → bps.toNat < 10000 := by
  cases config with
  | feeBps feeBps =>
    cases feeBps with
    | none =>
      simp only [configure, pure_eq_ok] at h
      subst h
      exact ⟨rfl, fun _ h => by cases h⟩
    | some bps =>
      simp only [configure, bind_eq_ok, require_eq_ok, exists_const, pure_eq_ok] at h
      obtain ⟨hlt, rfl⟩ := h
      refine ⟨rfl, ?_⟩
      rintro _ ⟨⟩
      exact hlt
  | enforcedOptions send sendAndCall =>
    simp only [configure, bind_eq_ok, require_eq_ok, exists_const, pure_eq_ok] at h
    obtain ⟨-, -, rfl⟩ := h
    exact ⟨rfl, fun _ h => by cases h⟩
  | _ =>
    simp only [configure, pure_eq_ok] at h
    subst h
    exact ⟨rfl, fun _ h => by cases h⟩

theorem PeerConfig.configure_fee {rt : Runtime} {clock : Clock} {config : PeerConfigParam}
    {peer peer' : PeerConfig} (h : peer.configure rt clock config = .ok peer')
    (hfee : ∀ bps, peer.feeBps = some bps → bps.toNat < 10000) :
    ∀ bps, peer'.feeBps = some bps → bps.toNat < 10000 := by
  obtain ⟨rfl, hvalid⟩ := configure_eq_ok h
  cases config with
  | feeBps feeBps =>
    intro bps hbps
    exact hvalid bps (congrArg _ hbps)
  | _ => exact hfee

theorem WithdrawFee.apply_eq_ok {rt : Runtime} {clock : Clock} {accs : WithdrawFeeAccounts}
    {feeLd : U64} {w w' : World} (h : WithdrawFee.apply rt clock accs feeLd w = .ok w') :
    w.oftStore.admin = accs.admin ∧ w.tvl + feeLd.toNat ≤ w.escrow ∧
      w' = { w with ledger := w'.ledger } ∧
      w.ledger.transferChecked clock.epoch w.oftStore.tokenEscrow accs.tokenDest w.storeKey feeLd
        w.ledger.mint.decimals = .ok w'.ledger := by
  simp only [apply, bind_eq_ok, World.checkAdmin_eq_ok, World.checkMint_eq_ok,
    World.escrowAccount_eq_ok, orError_eq_ok, checkedSub_eq_some, require_eq_ok, exists_const,
    pure_eq_ok] at h
  obtain ⟨⟨-, hadmin⟩, -, escrow, ⟨hescrow, -⟩, _, -, surplus, hsurplus, hle, ledger, hledger,
    rfl⟩ := h
  refine ⟨hadmin, ?_, rfl, hledger⟩
  rw [World.escrow, TokenLedger.balance_of_account hescrow, World.tvl]
  omega

end FdfiToken
