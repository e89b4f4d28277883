import FdfiToken.Solana.Runtime

/-!
# The wire formats

`msg_codec` is the transfer message between stores, `compose_msg_codec` the message handed to
a composer. Reading back what was encoded is exact, for payloads of any length.
-/

namespace FdfiToken

open Fallible BigEndian

namespace MsgCodec

def sendToOffset : ℕ := 0
def sendAmountSdOffset : ℕ := 32
def composeMsgOffset : ℕ := 40

def encode (sendTo : Bytes32) (amountSd : U64) (sender : Pubkey) (composeMsg : Option Bytes) :
    Bytes :=
  match composeMsg with
  | some msg => sendTo.toList ++ ofWord 8 amountSd ++ sender.toList ++ msg
  | none => sendTo.toList ++ ofWord 8 amountSd

def sendTo (message : Bytes) : Result Bytes32 := do
  let bytes ← orPanic (slice message sendToOffset sendAmountSdOffset)
  orPanic (Bytes32.ofSlice bytes)

def amountSd (message : Bytes) : Result U64 := do
  let bytes ← orPanic (slice message sendAmountSdOffset composeMsgOffset)
  return toWord 64 bytes

def composeMsg (message : Bytes) : Option Bytes :=
  if composeMsgOffset < message.length then some (message.drop composeMsgOffset) else none

private theorem encode_eq (to_ : Bytes32) (amount : U64) (sender : Pubkey) (msg : Option Bytes) :
    encode to_ amount sender msg =
      to_.toList ++ ofWord 8 amount ++ (msg.map (sender.toList ++ ·)).getD [] := by
  cases msg <;> simp [encode]

@[simp] theorem sendTo_encode (to_ : Bytes32) (amount : U64) (sender : Pubkey)
    (msg : Option Bytes) : sendTo (encode to_ amount sender msg) = .ok to_ := by
  have hslice : slice (encode to_ amount sender msg) sendToOffset sendAmountSdOffset =
      some to_.toList := by
    rw [encode_eq, List.append_assoc]
    exact slice_append [] to_.toList _ rfl (by simp [to_.length_toList, sendAmountSdOffset])
  simp [sendTo, hslice, Bytes32.ofSlice_toList]

@[simp] theorem amountSd_encode (to_ : Bytes32) (amount : U64) (sender : Pubkey)
    (msg : Option Bytes) : amountSd (encode to_ amount sender msg) = .ok amount := by
  have hslice : slice (encode to_ amount sender msg) sendAmountSdOffset composeMsgOffset =
      some (ofWord 8 amount) := by
    rw [encode_eq]
    exact slice_append to_.toList (ofWord 8 amount) _ to_.length_toList.symm
      (by simp [to_.length_toList, composeMsgOffset])
  simp [amountSd, hslice, toWord_ofWord (show 256 ^ 8 = 2 ^ 64 from rfl)]

/-- An empty compose message is still a composed message: the sender's 32 bytes follow. -/
@[simp] theorem composeMsg_encode (to_ : Bytes32) (amount : U64) (sender : Pubkey)
    (msg : Option Bytes) :
    composeMsg (encode to_ amount sender msg) = msg.map (sender.toList ++ ·) := by
  have hlen : (to_.toList ++ ofWord 8 amount).length = composeMsgOffset := by
    simp [to_.length_toList, composeMsgOffset]
  cases msg with
  | none => simp [composeMsg, encode, to_.length_toList, composeMsgOffset]
  | some m =>
    rw [encode_eq, composeMsg, if_pos (by
      rw [List.length_append, hlen]
      simp [sender.length_toList])]
    rw [← hlen, List.drop_left]
    rfl

end MsgCodec

namespace ComposeMsgCodec

def nonceOffset : ℕ := 0
def srcEidOffset : ℕ := 8
def amountLdOffset : ℕ := 12
def composeFromOffset : ℕ := 20
def composeMsgOffset : ℕ := 52

/-- `compose_msg` is the sender followed by its payload. -/
def encode (nonce : U64) (srcEid : U32) (amountLd : U64) (composeMsg : Bytes) : Bytes :=
  ofWord 8 nonce ++ ofWord 4 srcEid ++ ofWord 8 amountLd ++ composeMsg

def nonce (message : Bytes) : Result U64 := do
  let bytes ← orPanic (slice message nonceOffset srcEidOffset)
  return toWord 64 bytes

def srcEid (message : Bytes) : Result U32 := do
  let bytes ← orPanic (slice message srcEidOffset amountLdOffset)
  return toWord 32 bytes

def amountLd (message : Bytes) : Result U64 := do
  let bytes ← orPanic (slice message amountLdOffset composeFromOffset)
  return toWord 64 bytes

def composeFrom (message : Bytes) : Result Bytes32 := do
  let bytes ← orPanic (slice message composeFromOffset composeMsgOffset)
  orPanic (Bytes32.ofSlice bytes)

def composeMsg (message : Bytes) : Bytes :=
  if composeMsgOffset < message.length then message.drop composeMsgOffset else []

variable (n : U64) (eid : U32) (amount : U64)

@[simp] theorem nonce_encode (tail : Bytes) : nonce (encode n eid amount tail) = .ok n := by
  have hslice : slice (encode n eid amount tail) nonceOffset srcEidOffset =
      some (ofWord 8 n) := by
    rw [encode, List.append_assoc, List.append_assoc]
    exact slice_append [] (ofWord 8 n) _ rfl (by simp [srcEidOffset])
  simp [nonce, hslice, toWord_ofWord (show 256 ^ 8 = 2 ^ 64 from rfl)]

@[simp] theorem srcEid_encode (tail : Bytes) : srcEid (encode n eid amount tail) = .ok eid := by
  have hslice : slice (encode n eid amount tail) srcEidOffset amountLdOffset =
      some (ofWord 4 eid) := by
    rw [encode, List.append_assoc]
    exact slice_append (ofWord 8 n) (ofWord 4 eid) _ (by simp [srcEidOffset])
      (by simp [amountLdOffset])
  simp [srcEid, hslice, toWord_ofWord (show 256 ^ 4 = 2 ^ 32 from rfl)]

@[simp] theorem amountLd_encode (tail : Bytes) :
    amountLd (encode n eid amount tail) = .ok amount := by
  have hslice : slice (encode n eid amount tail) amountLdOffset composeFromOffset =
      some (ofWord 8 amount) := by
    rw [encode]
    exact slice_append (ofWord 8 n ++ ofWord 4 eid) (ofWord 8 amount) _ (by simp [amountLdOffset])
      (by simp [composeFromOffset])
  simp [amountLd, hslice, toWord_ofWord (show 256 ^ 8 = 2 ^ 64 from rfl)]

@[simp] theorem composeFrom_encode (from_ : Bytes32) (msg : Bytes) :
    composeFrom (encode n eid amount (from_.toList ++ msg)) = .ok from_ := by
  have hslice : slice (encode n eid amount (from_.toList ++ msg)) composeFromOffset
      composeMsgOffset = some from_.toList := by
    rw [encode, ← List.append_assoc]
    exact slice_append (ofWord 8 n ++ ofWord 4 eid ++ ofWord 8 amount) from_.toList _
      (by simp [composeFromOffset]) (by simp [from_.length_toList, composeMsgOffset])
  simp [composeFrom, hslice, Bytes32.ofSlice_toList]

@[simp] theorem composeMsg_encode (from_ : Bytes32) (msg : Bytes) :
    composeMsg (encode n eid amount (from_.toList ++ msg)) = msg := by
  have hlen : (ofWord 8 n ++ ofWord 4 eid ++ ofWord 8 amount ++ from_.toList).length =
      composeMsgOffset := by
    simp [from_.length_toList, composeMsgOffset]
  rw [encode, ← List.append_assoc, composeMsg, List.length_append, hlen]
  split
  · rw [← hlen, List.drop_left]
  · exact (List.eq_nil_of_length_eq_zero (by omega)).symm

end ComposeMsgCodec

end FdfiToken
