import FdfiToken.Oft.PeerConfig
import FdfiToken.Oft.Fees

/-!
# On-chain state of one store

One store with its peer accounts and the ledger of its mint. Peer accounts are derived from
the store's address and the remote endpoint id, so they are kept by that id.
-/

namespace FdfiToken

open Word Fallible

/-- `b"OFT"`. -/
def oftSeed : Bytes := [0x4f, 0x46, 0x54]

/-- `b"Peer"`. -/
def peerSeed : Bytes := [0x50, 0x65, 0x65, 0x72]

def storeSeeds (tokenEscrow : Pubkey) : List Bytes := [oftSeed, tokenEscrow.toList]

def peerSeeds (storeKey : Pubkey) (eid : U32) : List Bytes :=
  [peerSeed, storeKey.toList, eidBytes eid]

structure World where
  storeKey : Pubkey
  oftStore : OFTStore
  lzReceiveTypesAccounts : LzReceiveTypesAccounts
  peers : U32 → Option PeerConfig
  ledger : TokenLedger

namespace World

def peerKey (rt : Runtime) (w : World) (eid : U32) : Pubkey :=
  (rt.findProgramAddress (peerSeeds w.storeKey eid)).1

/-- `seeds = [OFT_SEED, oft_store.token_escrow], bump = oft_store.bump`. -/
def checkStore (rt : Runtime) (w : World) : Result Unit :=
  require (rt.createProgramAddress (storeSeeds w.oftStore.tokenEscrow ++ [[w.oftStore.bump]]) =
    some w.storeKey) .constraint

/-- `seeds = [PEER_SEED, oft_store, eid], bump = peer.bump`. -/
def peerAccount (rt : Runtime) (w : World) (eid : U32) : Result PeerConfig := do
  let peer ← orError .constraint (w.peers eid)
  require (rt.createProgramAddress (peerSeeds w.storeKey eid ++ [[peer.bump]]) =
    some (w.peerKey rt eid)) .constraint
  return peer

/-- `address = oft_store.token_escrow, token::authority = oft_store`. -/
def escrowAccount (w : World) : Result TokenAccount := do
  let escrow ← orError .constraint (w.ledger.accounts w.oftStore.tokenEscrow)
  require (escrow.owner = w.storeKey) .constraint
  return escrow

/-- `address = oft_store.token_mint`. -/
def checkMint (w : World) : Result Unit :=
  require (w.ledger.mintKey = w.oftStore.tokenMint) .constraint

def escrow (w : World) : ℕ := w.ledger.balance w.oftStore.tokenEscrow

def tvl (w : World) : ℕ := w.oftStore.tvlLd.toNat

def supply (w : World) : ℕ := w.ledger.mint.supply.toNat

def setPeer (w : World) (eid : U32) (peer : PeerConfig) : World :=
  { w with peers := Function.update w.peers eid (some peer) }

@[simp] theorem setPeer_storeKey (w : World) (eid : U32) (peer : PeerConfig) :
    (w.setPeer eid peer).storeKey = w.storeKey := rfl

@[simp] theorem setPeer_oftStore (w : World) (eid : U32) (peer : PeerConfig) :
    (w.setPeer eid peer).oftStore = w.oftStore := rfl

@[simp] theorem setPeer_ledger (w : World) (eid : U32) (peer : PeerConfig) :
    (w.setPeer eid peer).ledger = w.ledger := rfl

@[simp] theorem setPeer_peers (w : World) (eid : U32) (peer : PeerConfig) :
    (w.setPeer eid peer).peers = Function.update w.peers eid (some peer) := rfl

@[simp] theorem checkStore_eq_ok {rt : Runtime} {w : World} {u : Unit} :
    w.checkStore rt = .ok u ↔
      rt.createProgramAddress (storeSeeds w.oftStore.tokenEscrow ++ [[w.oftStore.bump]]) =
        some w.storeKey := by
  simp [checkStore]

@[simp] theorem peerAccount_eq_ok {rt : Runtime} {w : World} {eid : U32} {peer : PeerConfig} :
    w.peerAccount rt eid = .ok peer ↔ w.peers eid = some peer ∧
      rt.createProgramAddress (peerSeeds w.storeKey eid ++ [[peer.bump]]) =
        some (w.peerKey rt eid) := by
  simp only [peerAccount, bind_eq_ok, orError_eq_ok, require_eq_ok, exists_const, pure_eq_ok]
  constructor
  · rintro ⟨p, hp, hseeds, rfl⟩
    exact ⟨hp, hseeds⟩
  · rintro ⟨hp, hseeds⟩
    exact ⟨peer, hp, hseeds, rfl⟩

@[simp] theorem escrowAccount_eq_ok {w : World} {account : TokenAccount} :
    w.escrowAccount = .ok account ↔
      w.ledger.accounts w.oftStore.tokenEscrow = some account ∧ account.owner = w.storeKey := by
  simp only [escrowAccount, bind_eq_ok, orError_eq_ok, require_eq_ok, exists_const, pure_eq_ok]
  constructor
  · rintro ⟨a, ha, howner, rfl⟩
    exact ⟨ha, howner⟩
  · rintro ⟨ha, howner⟩
    exact ⟨account, ha, howner, rfl⟩

@[simp] theorem checkMint_eq_ok {w : World} {u : Unit} :
    w.checkMint = .ok u ↔ w.ledger.mintKey = w.oftStore.tokenMint := by
  simp [checkMint]

end World

end FdfiToken
