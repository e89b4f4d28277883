import FdfiToken.Lib.Checked
import Mathlib.Data.BitVec
import Mathlib.Data.Fintype.Card

/-!
# What the contracts run on

Solidity's value types, what a call knows of its caller and its block, and the errors it can
revert with. A call that reverts leaves no trace.
-/

namespace FdfiToken.Evm

open Word Fallible

abbrev U8 := BitVec 8
abbrev U32 := BitVec 32
abbrev U64 := BitVec 64
abbrev U256 := BitVec 256

abbrev Bytes32 := BitVec 256

/-- `address`; `address(0)` is `0`. -/
abbrev Address := BitVec 160

instance : Fintype Address := Fintype.ofEquiv (Fin (2 ^ 160)) BitVec.equivFin.symm.toEquiv

/-- `msg.sender` and `block`. Nobody calls from the zero address. -/
structure Msg where
  sender : Address
  timestamp : U256
  number : U256
  sender_ne : sender ≠ 0

/-- How a call reverts: `reason` is `require` with a message, `panic` is checked arithmetic. -/
inductive Revert where
  | reason (message : String)
  | panic
  | erc20InsufficientBalance (sender : Address) (balance needed : U256)
  | erc20InvalidSender (sender : Address)
  | erc20InvalidReceiver (receiver : Address)
  | erc20InsufficientAllowance (spender : Address) (allowance needed : U256)
  | erc20InvalidApprover (approver : Address)
  | erc20InvalidSpender (spender : Address)
  | erc20ExceededSafeSupply (increasedSupply cap : U256)
  | erc2612ExpiredSignature (deadline : U256)
  | erc2612InvalidSigner (signer owner : Address)
  | ecdsaInvalidSignature
  | votesExpiredSignature (expiry : U256)
  | invalidAccountNonce (account : Address) (currentNonce : U256)
  | votes
  | ownableUnauthorizedAccount (account : Address)
  | ownableInvalidOwner (owner : Address)
  | invalidInitialization
  | invalidDelegate
  | slippageExceeded (amountLD minAmountLD : U256)
  | onlyRateLimiter
  | rateLimitExceeded
deriving DecidableEq

abbrev Result (α : Type) := Except Revert α

/-- Ownable2Step's storage. -/
structure Ownable where
  owner : Address
  pendingOwner : Address
deriving DecidableEq

namespace Ownable

/-- Before `__Ownable_init`. -/
def unset : Ownable := ⟨0, 0⟩

/-- `onlyOwner`. -/
def checkOwner (msg : Msg) (o : Ownable) : Result Unit :=
  require (o.owner = msg.sender) (.ownableUnauthorizedAccount msg.sender)

/-- `__Ownable_init`. -/
def init (initialOwner : Address) : Result Ownable := do
  require (initialOwner ≠ 0) (.ownableInvalidOwner 0)
  pure ⟨initialOwner, 0⟩

def transferOwnership (msg : Msg) (newOwner : Address) (o : Ownable) : Result Ownable := do
  o.checkOwner msg
  pure { o with pendingOwner := newOwner }

def acceptOwnership (msg : Msg) (o : Ownable) : Result Ownable := do
  require (o.pendingOwner = msg.sender) (.ownableUnauthorizedAccount msg.sender)
  pure ⟨msg.sender, 0⟩

def renounceOwnership (msg : Msg) (o : Ownable) : Result Ownable := do
  o.checkOwner msg
  pure ⟨0, 0⟩

end Ownable

end FdfiToken.Evm
