import FdfiToken.Lib.Checked
import FdfiToken.Lib.BigEndian

/-!
# What the program runs on

Rust's fixed-width types and byte arrays, the errors an instruction can end with, the clock,
and the code the program calls but does not contain: address derivation, `oapp::options` and
the LayerZero endpoint.
-/

namespace FdfiToken

open Word Fallible

abbrev U8 := BitVec 8
abbrev U16 := BitVec 16
abbrev U32 := BitVec 32
abbrev U64 := BitVec 64
abbrev U128 := BitVec 128
abbrev Bytes := List BigEndian.Byte

/-- `[u8; 32]`. -/
structure Bytes32 where
  toList : Bytes
  length_toList : toList.length = 32
deriving DecidableEq

namespace Bytes32

@[ext] theorem ext {a b : Bytes32} (h : a.toList = b.toList) : a = b := by
  cases a
  cases b
  simp_all

/-- `[b; 32]`. -/
def fill (b : U8) : Bytes32 := ⟨List.replicate 32 b, by simp⟩

/-- `copy_from_slice` into a fresh array: lengths must agree. -/
def ofSlice (bytes : Bytes) : Option Bytes32 :=
  if h : bytes.length = 32 then some ⟨bytes, h⟩ else none

theorem ofSlice_toList (a : Bytes32) : ofSlice a.toList = some a := by
  simp [ofSlice, a.length_toList]

end Bytes32

abbrev Pubkey := Bytes32

def Pubkey.default : Pubkey := Bytes32.fill 0

inductive OFTError where
  | unauthorized
  | invalidSender
  | invalidDecimals
  | slippageExceeded
  | invalidTokenDest
  | rateLimitExceeded
  | invalidFee
  | invalidMintAuthority
  | paused
deriving DecidableEq

/-- How an instruction fails. `panic` covers arithmetic overflow (the release profile keeps
overflow checks on), division by zero and out-of-range slices; `constraint` is an account
constraint without an error of its own. -/
inductive ProgramError where
  | oft (e : OFTError)
  | panic
  | invalidArgument
  | constraint
  | options
  | tokenProgram
  | endpoint
deriving DecidableEq

abbrev Result (α : Type) := Except ProgramError α

/-- `require!` with an `OFTError`. -/
abbrev ensure (p : Prop) [Decidable p] (e : OFTError) : Result Unit := require p (.oft e)

abbrev orPanic {α : Type} (o : Option α) : Result α := orError .panic o

/-- The clock sysvar. The timestamp is an `i64` that the cluster keeps non-negative. -/
structure Clock where
  unixTimestamp : ℕ
  timestamp_lt : unixTimestamp < 2 ^ 63
  epoch : U64

/-- `Clock::get()?.unix_timestamp.try_into().unwrap()`. -/
def Clock.currentTime (clock : Clock) : U64 := BitVec.ofNat 64 clock.unixTimestamp

@[simp] theorem Clock.toNat_currentTime (clock : Clock) :
    clock.currentTime.toNat = clock.unixTimestamp := by
  have h := clock.timestamp_lt
  rw [currentTime, BitVec.toNat_ofNat, Nat.mod_eq_of_lt (by omega)]

structure MessagingFee where
  nativeFee : U64
  lzTokenFee : U64
deriving DecidableEq

structure MessagingReceipt where
  guid : Bytes32
  nonce : U64
  fee : MessagingFee
deriving DecidableEq

structure QuoteParams where
  sender : Pubkey
  dstEid : U32
  receiver : Bytes32
  message : Bytes
  payInLzToken : Bool
  options : Bytes
deriving DecidableEq

/-- `oapp::endpoint::instructions::SendParams`. -/
@[ext] structure EndpointSendParams where
  dstEid : U32
  receiver : Bytes32
  message : Bytes
  options : Bytes
  nativeFee : U64
  lzTokenFee : U64
deriving DecidableEq

structure ClearParams where
  receiver : Pubkey
  srcEid : U32
  sender : Bytes32
  nonce : U64
  guid : Bytes32
  message : Bytes
deriving DecidableEq

structure SendComposeParams where
  toAddress : Pubkey
  guid : Bytes32
  index : U16
  message : Bytes
deriving DecidableEq

structure LzReceiveParams where
  srcEid : U32
  sender : Bytes32
  nonce : U64
  guid : Bytes32
  message : Bytes
  extraData : Bytes
deriving DecidableEq

/-- `oapp::endpoint_cpi::LzAccount`: an account of an instruction and its flags. -/
structure LzAccount where
  pubkey : Pubkey
  isSigner : Bool
  isWritable : Bool
deriving DecidableEq

/-- What the endpoint program answers during one instruction, call by call; the accounts are
those the program passes on. `none` and `false` are failed calls. -/
structure Endpoint where
  registerOApp : (delegate : Pubkey) → (accounts : List Pubkey) → Bool
  setDelegate : (delegate : Pubkey) → (accounts : List Pubkey) → Bool
  quote : QuoteParams → (accounts : List Pubkey) → Option MessagingFee
  send : EndpointSendParams → (accounts : List Pubkey) → Option MessagingReceipt
  clear : ClearParams → (accounts : List Pubkey) → Bool
  sendCompose : SendComposeParams → (accounts : List Pubkey) → Bool

def cpi (ok : Bool) : Result Unit := require (ok = true) .endpoint

@[simp] theorem cpi_eq_ok {ok : Bool} {u : Unit} : cpi ok = .ok u ↔ ok = true := by
  simp [cpi]

/-- The pure functions and constants outside the program. `signable` says for which addresses
someone other than this program can provide a signature: nobody can for the addresses derived
from this program, nor for associated token accounts. -/
structure Runtime where
  programId : Pubkey
  endpointId : Pubkey
  tokenInterface : List Pubkey
  associatedTokenId : Pubkey
  systemProgramId : Pubkey
  eventSeed : Bytes
  clearMinAccountsLen : ℕ
  findProgramAddress : List Bytes → Pubkey × U8
  createProgramAddress : List Bytes → Option Pubkey
  associatedTokenAddress : (wallet mint tokenProgram : Pubkey) → Pubkey
  accountsForClear : (endpointProgram receiver : Pubkey) → (srcEid : U32) → (sender : Bytes32) →
    (nonce : U64) → List LzAccount
  accountsForSendCompose : (endpointProgram sender : Pubkey) → SendComposeParams → List LzAccount
  combineOptions : (enforced extra : Bytes) → Option Bytes
  assertType3 : Bytes → Bool
  signable : Pubkey → Bool
  create_find : ∀ seeds,
    createProgramAddress (seeds ++ [[(findProgramAddress seeds).2]]) =
      some (findProgramAddress seeds).1
  find_not_signable : ∀ seeds, signable (findProgramAddress seeds).1 = false
  associated_not_signable : ∀ wallet mint tokenProgram,
    signable (associatedTokenAddress wallet mint tokenProgram) = false

/-- `eid.to_be_bytes()`. -/
def eidBytes (eid : U32) : Bytes := BigEndian.ofWord 4 eid

end FdfiToken
