import FdfiToken.Oft.Program
import FdfiToken.Solana.Reference

/-!
# Reference deployments

Stores on the reference runtime, of either type and for any decimals and transfer fee, with
one funded user. What is submitted to them is a run of the program.
-/

namespace FdfiToken

open Word Fallible Runs

namespace Reference

def admin : Pubkey := Bytes32.fill 1
def user : Pubkey := Bytes32.fill 2
def userTokens : Pubkey := Bytes32.fill 3
def escrow : Pubkey := Bytes32.fill 4
def mintKey : Pubkey := Bytes32.fill 5

def runtime : Runtime := .reference (Bytes32.fill 16) (Bytes32.fill 17) (Bytes32.fill 18)

def endpoint : Endpoint where
  registerOApp _ _ := true
  setDelegate _ _ := true
  quote _ _ := some ⟨5000, 0⟩
  send call _ := some ⟨Bytes32.fill 9, 1, ⟨call.nativeFee, call.lzTokenFee⟩⟩
  clear _ _ := true
  sendCompose _ _ := true

def storeKey : Pubkey := (runtime.findProgramAddress (storeSeeds escrow)).1

def clockAt (t : ℕ) : Clock := ⟨t % 2 ^ 63, Nat.mod_lt _ (by decide), 0⟩

/-- A mint the store may mint, of which the user holds `balance`, with a token program that takes
every call. -/
def ledger (decimals : U8) (fees : Option TransferFeeConfig) (balance : U64) : TokenLedger where
  mintKey := mintKey
  tokenProgram := Bytes32.fill 18
  mint := ⟨some storeKey, balance, decimals, fees⟩
  accounts := Function.update (fun _ => none) userTokens (some ⟨user, balance, 0⟩)
  multisigs := fun _ => none
  accepts := fun _ => true

structure Deployment where
  oftType : OFTType
  decimals : U8
  sharedDecimals : U8
  fees : Option TransferFeeConfig
  balance : U64

def Deployment.init (d : Deployment) : Result World :=
  InitOFT.apply runtime endpoint ⟨escrow, []⟩ ⟨d.oftType, admin, d.sharedDecimals, none⟩
    (ledger d.decimals d.fees d.balance)

/-- The store `init_oft` leaves. -/
def Deployment.store (d : Deployment) (h : d.init.isOk = true) : World := value d.init h

theorem Deployment.store_genesis (d : Deployment) (h : d.init.isOk = true) :
    Genesis runtime d.sharedDecimals (d.store h) :=
  ⟨endpoint, _, _, _, rfl, eq_ok_value d.init h⟩

theorem Deployment.replay_reaches (d : Deployment) (h : d.init.isOk = true)
    (requests : List (Clock × Instruction))
    (hsigned : ∀ r ∈ requests, r.2.signed runtime = true) :
    Reaches runtime d.sharedDecimals (replay runtime endpoint (d.store h) requests).2
      (replay runtime endpoint (d.store h) requests).1 :=
  ⟨d.store h, d.store_genesis h, replay_run requests _ hsigned⟩

/-- The admin configures the peer of `eid`. -/
def setPeer (t : Clock) (eid : U32) (config : PeerConfigParam) : Clock × Instruction :=
  (t, .setPeerConfig admin ⟨eid, config⟩)

def send (t : Clock) (eid : U32) (toAddress : Bytes32) (amount : U64)
    (composeMsg : Option Bytes) : Clock × Instruction :=
  (t, .send ⟨user, userTokens, [admin, storeKey]⟩
    ⟨eid, toAddress, amount, 0, [], composeMsg, 5000, 0⟩)

/-- The accounts `lz_receive_types` asks for are passed to `lz_receive`. -/
def receive (w : World) (t : Clock) (params : LzReceiveParams) : Clock × Instruction :=
  (t, .lzReceive ((LzReceiveTypes.apply runtime t params w).toOption.getD []) params)

/-- A message that carries `amountSd` to `toAddress`, as `remote` at `eid` sends it. -/
def arrival (eid : U32) (remote : Bytes32) (toAddress : Bytes32) (amountSd : U64) :
    LzReceiveParams :=
  ⟨eid, remote, 1, Bytes32.fill 9, MsgCodec.encode toAddress amountSd remote none, []⟩

def adapter : Deployment :=
  ⟨.adapter, 9, 6, some ⟨⟨0, 5000, 100, by decide⟩, ⟨0, 5000, 100, by decide⟩⟩, 1000000000⟩

def native : Deployment := ⟨.native, 8, 6, none, 0⟩

theorem adapter_init : adapter.init.isOk = true := rfl

theorem native_init : native.init.isOk = true := rfl

def adapterStore : World := adapter.store adapter_init

def nativeStore : World := native.store native_init

end Reference

end FdfiToken
