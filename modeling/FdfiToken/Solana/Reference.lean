import FdfiToken.Solana.Runtime

/-!
# A reference runtime

The laws of `Runtime` can be met: derived addresses carry a tag that no signer's address has.
Options are combined as `oapp::options` does it.
-/

namespace FdfiToken

namespace Reference

def tagged (tag : U8) (bytes : Bytes) : Bytes32 :=
  ⟨tag :: (bytes.reverse ++ List.replicate 31 0).take 31, by simp⟩

def programTag : U8 := 255
def associatedTag : U8 := 254

/-- `b"__event_authority"`. -/
def eventSeed : Bytes :=
  [0x5f, 0x5f, 0x65, 0x76, 0x65, 0x6e, 0x74, 0x5f, 0x61, 0x75, 0x74, 0x68, 0x6f, 0x72, 0x69, 0x74,
    0x79]

def signable (key : Pubkey) : Bool :=
  match key.toList with
  | tag :: _ => tag != programTag && tag != associatedTag
  | [] => false

def findProgramAddress (seeds : List Bytes) : Pubkey × U8 := (tagged programTag seeds.flatten, 255)

def associatedTokenAddress (wallet mint tokenProgram : Pubkey) : Pubkey :=
  tagged associatedTag (tokenProgram.toList ++ mint.toList ++ wallet.toList)

/-- `assert_type_3`: the first two bytes spell 3. -/
def assertType3 (options : Bytes) : Bool := options.take 2 = [0, 3]

/-- `combine_options`: enforced options alone, extra options alone, or one after the other with
the second type header dropped. -/
def combineOptions (enforced extra : Bytes) : Option Bytes :=
  if enforced = [] then some extra
  else if extra = [] then some enforced
  else if assertType3 extra then some (enforced ++ extra.drop 2)
  else none

/-- Nine accounts for `clear`, as `Clear` has. -/
def accountsForClear (endpointProgram receiver : Pubkey) : List LzAccount :=
  ⟨endpointProgram, false, false⟩ :: ⟨receiver, false, false⟩ ::
    List.replicate 7 ⟨endpointProgram, false, true⟩

/-- Seven accounts for `send_compose`. -/
def accountsForSendCompose (endpointProgram sender : Pubkey) (call : SendComposeParams) :
    List LzAccount :=
  ⟨endpointProgram, false, false⟩ :: ⟨sender, false, false⟩ :: ⟨call.toAddress, false, false⟩ ::
    List.replicate 4 ⟨endpointProgram, false, true⟩

end Reference

/-- A runtime with the given ids of this program, the endpoint and the token program. -/
def Runtime.reference (programId endpointId tokenProgram : Pubkey) : Runtime where
  programId := programId
  endpointId := endpointId
  tokenInterface := [tokenProgram]
  associatedTokenId := Bytes32.fill 252
  systemProgramId := Pubkey.default
  eventSeed := Reference.eventSeed
  clearMinAccountsLen := 9
  findProgramAddress := Reference.findProgramAddress
  createProgramAddress seeds := some (Reference.findProgramAddress seeds.dropLast).1
  associatedTokenAddress := Reference.associatedTokenAddress
  accountsForClear endpointProgram receiver _ _ _ :=
    Reference.accountsForClear endpointProgram receiver
  accountsForSendCompose := Reference.accountsForSendCompose
  combineOptions := Reference.combineOptions
  assertType3 := Reference.assertType3
  signable := Reference.signable
  create_find seeds := by rw [List.dropLast_concat]
  find_not_signable _ := rfl
  associated_not_signable _ _ _ := rfl

end FdfiToken
