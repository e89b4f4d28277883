import FdfiToken.Evm.ERC20
import FdfiToken.Lib.Run

/-!
# The governance token

`FDFIToken`: owner mints under a cap, burns, permits, vote delegation, and transfers that stay
gated until the owner enables them for good. Every call that succeeds is a step.
-/

namespace FdfiToken.Evm

open Word Fallible

/-- What a permit's signature covers, but for the nonce. -/
structure Permit where
  owner : Address
  spender : Address
  value : U256
  deadline : U256
deriving DecidableEq

structure Delegation where
  delegatee : Address
  nonce : U256
  expiry : U256
deriving DecidableEq

structure Signature where
  v : U8
  r : Bytes32
  s : Bytes32
deriving DecidableEq

/-- What the token inherits and never looks into: vote checkpoints and signature recovery. -/
structure OpenZeppelin where
  Votes : Type
  noVotes : Votes
  transferVotingUnits : Msg → (src dst : Address) → (amount : U256) → Votes → Result Votes
  delegate : Msg → (account delegatee : Address) → (units : U256) → Votes → Result Votes
  recoverPermit : Permit → (nonce : U256) → Signature → Option Address
  recoverDelegation : Delegation → Signature → Option Address

structure FDFIToken (oz : OpenZeppelin) where
  initialized : Bool
  erc20 : ERC20
  nonces : Address → U256
  votes : oz.Votes
  ownable : Ownable
  transfersEnabled : Bool

/-- The external calls but for upgrades. -/
inductive TokenCall where
  | init (owner_ : Address)
  | mintTo (dst : Address) (amount : U256)
  | enableTransfers
  | transfer (dst : Address) (value : U256)
  | transferFrom (src dst : Address) (value : U256)
  | approve (spender : Address) (value : U256)
  | burn (value : U256)
  | burnFrom (account : Address) (value : U256)
  | permit (permit : Permit) (signature : Signature)
  | delegate (delegatee : Address)
  | delegateBySig (delegation : Delegation) (signature : Signature)
  | transferOwnership (newOwner : Address)
  | acceptOwnership
  | renounceOwnership
deriving DecidableEq

structure TokenTx where
  msg : Msg
  call : TokenCall

def maxSupply : U256 := 2000000000000000000000000000

theorem toNat_maxSupply : maxSupply.toNat = 2 * 10 ^ 27 := by decide

/-- `type(uint208).max`, the most ERC20Votes can count. -/
def maxSafeSupply : U256 := BitVec.ofNat 256 (2 ^ 208 - 1)

namespace FDFIToken

variable {oz : OpenZeppelin}

/-- A proxy before `initialize`. -/
def deployed (oz : OpenZeppelin) : FDFIToken oz :=
  ⟨false, .empty, fun _ => 0, oz.noVotes, .unset, false⟩

/-- `ERC20Votes._update`. -/
def votesUpdate (msg : Msg) (src dst : Address) (value : U256) (s : FDFIToken oz) :
    Result (FDFIToken oz) := do
  let erc20 ← s.erc20.update src dst value
  if src = 0 then
    require (erc20.totalSupply.toNat ≤ maxSafeSupply.toNat)
      (.erc20ExceededSafeSupply erc20.totalSupply maxSafeSupply)
  let votes ← oz.transferVotingUnits msg src dst value s.votes
  pure { s with erc20, votes }

/-- Mints and burns always, transfers between accounts only once enabled. -/
def update (msg : Msg) (src dst : Address) (value : U256) (s : FDFIToken oz) :
    Result (FDFIToken oz) := do
  if src ≠ 0 ∧ dst ≠ 0 then
    require (s.transfersEnabled = true) (.reason "Transfers disabled")
  s.votesUpdate msg src dst value

/-- What a successful `_update` did. -/
structure Moved (src dst : Address) (value : U256) (s s' : FDFIToken oz) : Prop where
  gate : src ≠ 0 → dst ≠ 0 → s.transfersEnabled = true
  ledger : s.erc20.update src dst value = .ok s'.erc20
  initialized : s'.initialized = s.initialized
  nonces : s'.nonces = s.nonces
  ownable : s'.ownable = s.ownable
  transfersEnabled : s'.transfersEnabled = s.transfersEnabled

theorem update_eq_ok {msg : Msg} {src dst : Address} {value : U256} {s s' : FDFIToken oz}
    (h : s.update msg src dst value = .ok s') : Moved src dst value s s' := by
  have hbase {s₁ : FDFIToken oz} (h : s₁.votesUpdate msg src dst value = .ok s') :
      s₁.erc20.update src dst value = .ok s'.erc20 ∧ s'.initialized = s₁.initialized ∧
        s'.nonces = s₁.nonces ∧ s'.ownable = s₁.ownable ∧
        s'.transfersEnabled = s₁.transfersEnabled := by
    simp only [votesUpdate, bind_eq_ok] at h
    obtain ⟨erc20, hledger, h⟩ := h
    split at h
    · simp only [bind_eq_ok, pure_eq_ok] at h
      obtain ⟨-, -, votes, -, rfl⟩ := h
      exact ⟨hledger, rfl, rfl, rfl, rfl⟩
    · simp only [bind_eq_ok, pure_eq_ok] at h
      obtain ⟨votes, -, rfl⟩ := h
      exact ⟨hledger, rfl, rfl, rfl, rfl⟩
  simp only [update] at h
  split at h
  · simp only [bind_eq_ok, require_eq_ok] at h
    obtain ⟨-, hgate, h⟩ := h
    obtain ⟨hledger, hinit, hnonces, hownable, henabled⟩ := hbase h
    exact ⟨fun _ _ => hgate, hledger, hinit, hnonces, hownable, henabled⟩
  · rename_i hends
    obtain ⟨hledger, hinit, hnonces, hownable, henabled⟩ := hbase h
    exact ⟨fun hsrc hdst => absurd ⟨hsrc, hdst⟩ hends, hledger, hinit, hnonces, hownable,
      henabled⟩

instance : ERC20.Host (FDFIToken oz) where
  ledger s := s.erc20
  setLedger l s := { s with erc20 := l }
  update := update
  ledger_setLedger _ _ := rfl
  setLedger_ledger _ := rfl
  update_ledger h := (update_eq_ok h).ledger

/-- `initialize`. -/
def init (owner_ : Address) (s : FDFIToken oz) : Result (FDFIToken oz) := do
  require (s.initialized = false) .invalidInitialization
  let ownable ← Ownable.init owner_
  pure { s with initialized := true, ownable, transfersEnabled := false }

def mintTo (msg : Msg) (dst : Address) (amount : U256) (s : FDFIToken oz) :
    Result (FDFIToken oz) := do
  s.ownable.checkOwner msg
  let supply ← orError .panic (checkedAdd s.erc20.totalSupply amount)
  require (supply.toNat ≤ maxSupply.toNat) (.reason "Cap exceeded")
  ERC20._mint msg dst amount s

def enableTransfers (msg : Msg) (s : FDFIToken oz) : Result (FDFIToken oz) := do
  s.ownable.checkOwner msg
  require (s.transfersEnabled = false) (.reason "Transfers already enabled")
  pure { s with transfersEnabled := true }

/-- `_useNonce`, unchecked. -/
def useNonce (owner : Address) (s : FDFIToken oz) : FDFIToken oz :=
  { s with nonces := Function.update s.nonces owner (s.nonces owner + 1) }

def permit (msg : Msg) (p : Permit) (signature : Signature) (s : FDFIToken oz) :
    Result (FDFIToken oz) := do
  require (msg.timestamp.toNat ≤ p.deadline.toNat) (.erc2612ExpiredSignature p.deadline)
  let signer ← orError .ecdsaInvalidSignature
    (oz.recoverPermit p (s.nonces p.owner) signature)
  require (signer = p.owner) (.erc2612InvalidSigner signer p.owner)
  ERC20._approve p.owner p.spender p.value (s.useNonce p.owner)

def _delegate (msg : Msg) (account delegatee : Address) (s : FDFIToken oz) :
    Result (FDFIToken oz) := do
  let votes ← oz.delegate msg account delegatee (s.erc20.balances account) s.votes
  pure { s with votes }

def delegateBySig (msg : Msg) (d : Delegation) (signature : Signature) (s : FDFIToken oz) :
    Result (FDFIToken oz) := do
  require (msg.timestamp.toNat ≤ d.expiry.toNat) (.votesExpiredSignature d.expiry)
  let signer ← orError .ecdsaInvalidSignature (oz.recoverDelegation d signature)
  require (d.nonce = s.nonces signer) (.invalidAccountNonce signer (s.nonces signer))
  _delegate msg signer d.delegatee (s.useNonce signer)

def withOwnable (f : Ownable → Result Ownable) (s : FDFIToken oz) : Result (FDFIToken oz) := do
  let ownable ← f s.ownable
  pure { s with ownable }

def exec (tx : TokenTx) (s : FDFIToken oz) : Result (FDFIToken oz) :=
  match tx.call with
  | .init owner_ => s.init owner_
  | .mintTo dst amount => s.mintTo tx.msg dst amount
  | .enableTransfers => s.enableTransfers tx.msg
  | .transfer dst value => ERC20.transfer tx.msg dst value s
  | .transferFrom src dst value => ERC20.transferFrom tx.msg src dst value s
  | .approve spender value => ERC20.approve tx.msg spender value s
  | .burn value => ERC20.burn tx.msg value s
  | .burnFrom account value => ERC20.burnFrom tx.msg account value s
  | .permit permit signature => s.permit tx.msg permit signature
  | .delegate delegatee => s._delegate tx.msg tx.msg.sender delegatee
  | .delegateBySig delegation signature => s.delegateBySig tx.msg delegation signature
  | .transferOwnership newOwner => s.withOwnable (Ownable.transferOwnership tx.msg newOwner)
  | .acceptOwnership => s.withOwnable (Ownable.acceptOwnership tx.msg)
  | .renounceOwnership => s.withOwnable (Ownable.renounceOwnership tx.msg)

def Step (s : FDFIToken oz) (tx : TokenTx) (s' : FDFIToken oz) : Prop := s.exec tx = .ok s'

end FDFIToken

structure VoteCounts where
  delegates : Address → Address
  votes : Address → U256
  total : U256

namespace VoteCounts

def moveDelegateVotes (src dst : Address) (amount : U256) (v : VoteCounts) : VoteCounts :=
  if src = dst ∨ amount = 0 then v
  else
    let v := if src = 0 then v
      else { v with votes := Function.update v.votes src (v.votes src - amount) }
    if dst = 0 then v
    else { v with votes := Function.update v.votes dst (v.votes dst + amount) }

def transferVotingUnits (src dst : Address) (amount : U256) (v : VoteCounts) : VoteCounts :=
  let total := if src = 0 then v.total + amount else v.total
  let total := if dst = 0 then total - amount else total
  { v with total }.moveDelegateVotes (v.delegates src) (v.delegates dst) amount

def delegate (account delegatee : Address) (units : U256) (v : VoteCounts) : VoteCounts :=
  { v with delegates := Function.update v.delegates account delegatee }.moveDelegateVotes
    (v.delegates account) delegatee units

end VoteCounts

/-- Votes as they are counted, and no signature that anybody can produce. -/
def OpenZeppelin.reference : OpenZeppelin where
  Votes := VoteCounts
  noVotes := ⟨fun _ => 0, fun _ => 0, 0⟩
  transferVotingUnits _ src dst amount v := .ok (v.transferVotingUnits src dst amount)
  delegate _ account delegatee units v := .ok (v.delegate account delegatee units)
  recoverPermit _ _ _ := none
  recoverDelegation _ _ := none

end FdfiToken.Evm
