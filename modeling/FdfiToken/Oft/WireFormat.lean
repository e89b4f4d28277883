import FdfiToken.Oft.MsgCodec

/-!
# Exactness of the wire formats

A byte string is an encoding exactly when it has the right length, and then of what the readers
return and of nothing else. So the encoders lose nothing and their images do not overlap.
-/

namespace FdfiToken

open Word Fallible BigEndian

@[simp] theorem Bytes32.ofSlice_eq_some {bytes : Bytes} {a : Bytes32} :
    ofSlice bytes = some a ↔ a.toList = bytes := by
  constructor
  · intro h
    unfold ofSlice at h
    split at h
    · rw [Option.some.injEq] at h
      rw [← h]
    · cases h
  · intro h
    rw [← h, ofSlice_toList]

private theorem Bytes32.append_inj {a b : Bytes32} {tail tail' : Bytes}
    (h : a.toList ++ tail = b.toList ++ tail') : a = b ∧ tail = tail' := by
  obtain ⟨hhead, htail⟩ := List.append_inj h (by rw [a.length_toList, b.length_toList])
  exact ⟨Bytes32.ext hhead, htail⟩

private theorem Bytes32.exists_append {bytes : Bytes} (h : 32 ≤ bytes.length) :
    ∃ (head : Bytes32) (tail : Bytes), head.toList ++ tail = bytes :=
  ⟨⟨bytes.take 32, by rw [List.length_take]; omega⟩, bytes.drop 32, List.take_append_drop ..⟩

private theorem ofWord_of_slice {w k start stop : ℕ} {message part : Bytes} {x : BitVec w}
    (hwidth : 256 ^ k = 2 ^ w) (hlen : k = stop - start)
    (hpart : slice message start stop = some part) (hx : toWord w part = x) :
    ofWord k x = part := by
  have hpartlen : part.length = k := (length_of_slice hpart).trans hlen.symm
  subst hx hpartlen
  exact ofWord_toWord hwidth

/-- What a transfer message says: the recipient, the amount, and the sender with its payload when
it is composed. -/
structure TransferMessage where
  sendTo : Bytes32
  amountSd : U64
  composed : Option (Pubkey × Bytes)

/-- `message` encodes `t`; without a compose message the sender plays no part. -/
def TransferMessage.EncodedBy (t : TransferMessage) (message : Bytes) : Prop :=
  ∃ sender msg, t.composed = msg.map (Prod.mk sender) ∧
    MsgCodec.encode t.sendTo t.amountSd sender msg = message

structure TransferMessage.ReadFrom (t : TransferMessage) (message : Bytes) : Prop where
  sendTo : MsgCodec.sendTo message = .ok t.sendTo
  amountSd : MsgCodec.amountSd message = .ok t.amountSd
  composeMsg : MsgCodec.composeMsg message = t.composed.map fun c => c.1.toList ++ c.2

namespace MsgCodec

theorem length_encode (to_ : Bytes32) (amount : U64) (sender : Pubkey) (msg : Option Bytes) :
    (encode to_ amount sender msg).length = 40 + (msg.map (32 + ·.length)).getD 0 := by
  cases msg with
  | none => simp [encode, to_.length_toList]
  | some m =>
    simp [encode, to_.length_toList, sender.length_toList]
    omega

theorem exists_fields {message : Bytes} (h : composeMsgOffset ≤ message.length) :
    (∃ toAddress, sendTo message = .ok toAddress) ∧ ∃ amount, amountSd message = .ok amount := by
  obtain ⟨to_, hto⟩ := exists_slice message sendToOffset sendAmountSdOffset (by decide)
    ((by decide : sendAmountSdOffset ≤ composeMsgOffset).trans h)
  obtain ⟨amount, hamount⟩ := exists_slice message sendAmountSdOffset composeMsgOffset (by decide) h
  have harray := Bytes32.ofSlice_toList ⟨to_, length_of_slice hto⟩
  constructor
  · refine ⟨⟨to_, length_of_slice hto⟩, ?_⟩
    rw [sendTo, hto]
    simp only [orError, ok_bind, harray]
  · simp only [amountSd, hamount, orError, ok_bind, pure_eq_ok]
    exact ⟨_, rfl⟩

theorem take_of_fields {message : Bytes} {to_ : Bytes32} {amount : U64}
    (hto : sendTo message = .ok to_) (hamount : amountSd message = .ok amount) :
    to_.toList ++ ofWord 8 amount = message.take composeMsgOffset ∧
      composeMsgOffset ≤ message.length := by
  simp only [sendTo, amountSd, bind_eq_ok, orError_eq_ok, pure_eq_ok,
    Bytes32.ofSlice_eq_some] at hto hamount
  obtain ⟨head, hhead, rfl⟩ := hto
  obtain ⟨word, hword, hvalue⟩ := hamount
  have hfield := ofWord_of_slice (show 256 ^ 8 = 2 ^ 64 from rfl) (k := 8) rfl hword hvalue
  have hstart := take_append_slice hhead
  rw [sendToOffset, List.take_zero, List.nil_append] at hstart
  rw [hfield, hstart, take_append_slice hword]
  exact ⟨rfl, (slice_eq_some.mp hword).1.2⟩

theorem composeMsg_eq_none {message : Bytes} :
    composeMsg message = none ↔ message.length ≤ composeMsgOffset := by
  simp [composeMsg]

theorem composeMsg_eq_some {message payload : Bytes} :
    composeMsg message = some payload ↔
      composeMsgOffset < message.length ∧ message.drop composeMsgOffset = payload := by
  simp [composeMsg]

end MsgCodec

namespace TransferMessage

variable {t t' : TransferMessage} {message : Bytes}

/-- A message encodes exactly what its readers return. -/
theorem encodedBy_iff : t.EncodedBy message ↔ t.ReadFrom message := by
  constructor
  · rintro ⟨sender, msg, hcomposed, rfl⟩
    refine ⟨by simp, by simp, ?_⟩
    rw [MsgCodec.composeMsg_encode, hcomposed, Option.map_map]
    rfl
  · intro h
    obtain ⟨htake, hlen⟩ := MsgCodec.take_of_fields h.sendTo h.amountSd
    have hcompose := h.composeMsg
    cases hcomposed : t.composed with
    | none =>
      rw [hcomposed, Option.map_none, MsgCodec.composeMsg_eq_none] at hcompose
      refine ⟨Pubkey.default, none, hcomposed, ?_⟩
      rw [MsgCodec.encode, htake, List.take_of_length_le hcompose]
    | some c =>
      obtain ⟨sender, msg⟩ := c
      rw [hcomposed, Option.map_some, MsgCodec.composeMsg_eq_some] at hcompose
      refine ⟨sender, some msg, hcomposed, ?_⟩
      rw [MsgCodec.encode, htake, List.append_assoc, ← hcompose.2, List.take_append_drop]

theorem ReadFrom.unique (h : t.ReadFrom message) (h' : t'.ReadFrom message) : t' = t := by
  have hto := h'.sendTo.symm.trans h.sendTo
  have hamount := h'.amountSd.symm.trans h.amountSd
  have hcompose := h'.composeMsg.symm.trans h.composeMsg
  rw [Except.ok.injEq] at hto hamount
  have hcomposed : t'.composed = t.composed := by
    refine Option.map_injective ?_ hcompose
    rintro ⟨sender, msg⟩ ⟨sender', msg'⟩ hsame
    obtain ⟨rfl, rfl⟩ := Bytes32.append_inj hsame
    rfl
  cases t
  cases t'
  simp_all

theorem exists_readFrom :
    (∃ t : TransferMessage, t.ReadFrom message) ↔ message.length = 40 ∨ 72 ≤ message.length := by
  constructor
  · rintro ⟨t, h⟩
    obtain ⟨sender, msg, -, rfl⟩ := encodedBy_iff.mpr h
    rw [MsgCodec.length_encode]
    cases msg with
    | none => exact .inl rfl
    | some m =>
      refine .inr ?_
      rw [Option.map_some, Option.getD_some]
      omega
  · intro hlen
    have hfields : MsgCodec.composeMsgOffset ≤ message.length := by
      change 40 ≤ message.length
      omega
    obtain ⟨⟨to_, hto⟩, amount, hamount⟩ := MsgCodec.exists_fields hfields
    rcases hlen with hplain | hcomposed
    · refine ⟨⟨to_, amount, none⟩, hto, hamount, ?_⟩
      exact MsgCodec.composeMsg_eq_none.mpr hplain.le
    · have htail : 32 ≤ (message.drop MsgCodec.composeMsgOffset).length := by
        rw [List.length_drop, MsgCodec.composeMsgOffset]
        omega
      obtain ⟨sender, msg, hpayload⟩ := Bytes32.exists_append htail
      refine ⟨⟨to_, amount, some (sender, msg)⟩, hto, hamount, ?_⟩
      refine MsgCodec.composeMsg_eq_some.mpr ⟨?_, hpayload.symm⟩
      change 40 < message.length
      omega

private theorem readFrom_encode (to_ : Bytes32) (amount : U64) (sender : Pubkey)
    (msg : Option Bytes) :
    ReadFrom ⟨to_, amount, msg.map (Prod.mk sender)⟩ (MsgCodec.encode to_ amount sender msg) :=
  encodedBy_iff.mp ⟨sender, msg, rfl, rfl⟩

private theorem encode_inj {to_ to' : Bytes32} {amount amount' : U64} {sender sender' : Pubkey}
    {msg msg' : Option Bytes}
    (h : MsgCodec.encode to_ amount sender msg = MsgCodec.encode to' amount' sender' msg') :
    to_ = to' ∧ amount = amount' ∧ msg = msg' ∧ (msg.isSome → sender = sender') := by
  have hread := readFrom_encode to_ amount sender msg
  rw [h] at hread
  have hsame := (readFrom_encode to' amount' sender' msg').unique hread
  rw [mk.injEq] at hsame
  obtain ⟨hto, hamount, hcomposed⟩ := hsame
  refine ⟨hto, hamount, ?_⟩
  cases msg with
  | none =>
    cases msg' with
    | none => exact ⟨rfl, fun h => by cases h⟩
    | some m' => cases hcomposed
  | some m =>
    cases msg' with
    | none => cases hcomposed
    | some m' =>
      simp only [Option.map_some, Option.some.injEq, Prod.mk.injEq] at hcomposed
      exact ⟨congrArg some hcomposed.2, fun _ => hcomposed.1⟩

end TransferMessage

/-- What a compose message says. -/
structure ComposeMessage where
  nonce : U64
  srcEid : U32
  amountLd : U64
  composeFrom : Bytes32
  composeMsg : Bytes

def ComposeMessage.encode (c : ComposeMessage) : Bytes :=
  ComposeMsgCodec.encode c.nonce c.srcEid c.amountLd (c.composeFrom.toList ++ c.composeMsg)

structure ComposeMessage.ReadFrom (c : ComposeMessage) (message : Bytes) : Prop where
  nonce : ComposeMsgCodec.nonce message = .ok c.nonce
  srcEid : ComposeMsgCodec.srcEid message = .ok c.srcEid
  amountLd : ComposeMsgCodec.amountLd message = .ok c.amountLd
  composeFrom : ComposeMsgCodec.composeFrom message = .ok c.composeFrom
  composeMsg : ComposeMsgCodec.composeMsg message = c.composeMsg

namespace ComposeMessage

variable {c c' : ComposeMessage} {message : Bytes}

private theorem readFrom_encode (c : ComposeMessage) : c.ReadFrom c.encode := by
  constructor <;> simp [encode]

theorem ReadFrom.unique (h : c.ReadFrom message) (h' : c'.ReadFrom message) : c' = c := by
  have hnonce := h'.nonce.symm.trans h.nonce
  have heid := h'.srcEid.symm.trans h.srcEid
  have hamount := h'.amountLd.symm.trans h.amountLd
  have hfrom := h'.composeFrom.symm.trans h.composeFrom
  have hmsg := h'.composeMsg.symm.trans h.composeMsg
  rw [Except.ok.injEq] at hnonce heid hamount hfrom
  cases c
  cases c'
  simp_all

private theorem encode_of_readFrom (h : c.ReadFrom message) : c.encode = message := by
  obtain ⟨hnonce, heid, hamount, hfrom, hmsg⟩ := h
  simp only [ComposeMsgCodec.nonce, ComposeMsgCodec.srcEid, ComposeMsgCodec.amountLd,
    ComposeMsgCodec.composeFrom, bind_eq_ok, orError_eq_ok, pure_eq_ok,
    Bytes32.ofSlice_eq_some] at hnonce heid hamount hfrom
  obtain ⟨nonce, hnonce, hnoncev⟩ := hnonce
  obtain ⟨eid, heid, heidv⟩ := heid
  obtain ⟨amount, hamount, hamountv⟩ := hamount
  obtain ⟨from_, hfrom, rfl⟩ := hfrom
  have hstart := take_append_slice hnonce
  rw [ComposeMsgCodec.nonceOffset, List.take_zero, List.nil_append] at hstart
  have htail : c.composeMsg = message.drop ComposeMsgCodec.composeMsgOffset := by
    rw [← hmsg, ComposeMsgCodec.composeMsg]
    split
    · rfl
    · rename_i hshort
      rw [List.drop_eq_nil_of_le (by omega)]
  rw [encode, ComposeMsgCodec.encode,
    ofWord_of_slice (show 256 ^ 8 = 2 ^ 64 from rfl) (k := 8) rfl hnonce hnoncev,
    ofWord_of_slice (show 256 ^ 4 = 2 ^ 32 from rfl) (k := 4) rfl heid heidv,
    ofWord_of_slice (show 256 ^ 8 = 2 ^ 64 from rfl) (k := 8) rfl hamount hamountv,
    hstart, take_append_slice heid, take_append_slice hamount, ← List.append_assoc,
    take_append_slice hfrom, htail, List.take_append_drop]

theorem exists_readFrom : (∃ c : ComposeMessage, c.ReadFrom message) ↔ 52 ≤ message.length := by
  constructor
  · rintro ⟨c, h⟩
    rw [← encode_of_readFrom h]
    simp [encode, ComposeMsgCodec.encode, c.composeFrom.length_toList]
    omega
  · intro hlen
    obtain ⟨nonce, hnonce⟩ := exists_slice message ComposeMsgCodec.nonceOffset
      ComposeMsgCodec.srcEidOffset (by decide)
      ((by decide : _ ≤ 52).trans hlen)
    obtain ⟨eid, heid⟩ := exists_slice message ComposeMsgCodec.srcEidOffset
      ComposeMsgCodec.amountLdOffset (by decide)
      ((by decide : _ ≤ 52).trans hlen)
    obtain ⟨amount, hamount⟩ := exists_slice message ComposeMsgCodec.amountLdOffset
      ComposeMsgCodec.composeFromOffset (by decide) ((by decide : _ ≤ 52).trans hlen)
    obtain ⟨from_, hfrom⟩ := exists_slice message ComposeMsgCodec.composeFromOffset
      ComposeMsgCodec.composeMsgOffset (by decide) hlen
    have harray := Bytes32.ofSlice_toList ⟨from_, length_of_slice hfrom⟩
    refine ⟨⟨toWord 64 nonce, toWord 32 eid, toWord 64 amount, ⟨from_, length_of_slice hfrom⟩,
      ComposeMsgCodec.composeMsg message⟩, ?_, ?_, ?_, ?_, rfl⟩
    · simp [ComposeMsgCodec.nonce, hnonce]
    · simp [ComposeMsgCodec.srcEid, heid]
    · simp [ComposeMsgCodec.amountLd, hamount]
    · simp only [ComposeMsgCodec.composeFrom, hfrom, orError, ok_bind, harray]

end ComposeMessage

/-- Both formats are exact. The readers return what was encoded; every string of length 40 or of
at least 72 bytes encodes one transfer message, every string of at least 52 bytes one compose
message, each the one its readers return. So the encoders are injective, up to the sender that a
plain message does not carry, and a composed message is never a plain one. -/
theorem wire_formats_exact :
    (∀ (to_ : Bytes32) (amount : U64) (sender : Pubkey) (msg : Option Bytes),
      MsgCodec.sendTo (MsgCodec.encode to_ amount sender msg) = .ok to_ ∧
        MsgCodec.amountSd (MsgCodec.encode to_ amount sender msg) = .ok amount ∧
        MsgCodec.composeMsg (MsgCodec.encode to_ amount sender msg) =
          msg.map (sender.toList ++ ·)) ∧
    (∀ c : ComposeMessage, c.ReadFrom c.encode) ∧
    (∀ message : Bytes, message.length = 40 ∨ 72 ≤ message.length →
      ∃ t : TransferMessage, t.EncodedBy message ∧ t.ReadFrom message ∧
        ∀ t' : TransferMessage, t'.EncodedBy message → t' = t) ∧
    (∀ message : Bytes, 52 ≤ message.length →
      ∃ c : ComposeMessage, c.encode = message ∧ c.ReadFrom message ∧
        ∀ c' : ComposeMessage, c'.encode = message → c' = c) ∧
    (∀ (to_ to' : Bytes32) (amount amount' : U64) (sender sender' : Pubkey)
      (msg msg' : Option Bytes),
      MsgCodec.encode to_ amount sender msg = MsgCodec.encode to' amount' sender' msg' →
        to_ = to' ∧ amount = amount' ∧ msg = msg' ∧ (msg.isSome → sender = sender')) ∧
    (∀ c c' : ComposeMessage, c.encode = c'.encode → c = c') ∧
    ∀ (to_ to' : Bytes32) (amount amount' : U64) (sender sender' : Pubkey) (msg : Bytes),
      MsgCodec.encode to_ amount sender (some msg) ≠ MsgCodec.encode to' amount' sender' none := by
  refine ⟨fun to_ amount sender msg => ⟨by simp, by simp, by simp⟩,
    ComposeMessage.readFrom_encode, ?_, ?_,
    fun _ _ _ _ _ _ _ _ => TransferMessage.encode_inj, ?_, ?_⟩
  · intro message hlen
    obtain ⟨t, hread⟩ := TransferMessage.exists_readFrom.mpr hlen
    exact ⟨t, TransferMessage.encodedBy_iff.mpr hread, hread,
      fun t' h' => hread.unique (TransferMessage.encodedBy_iff.mp h')⟩
  · intro message hlen
    obtain ⟨c, hread⟩ := ComposeMessage.exists_readFrom.mpr hlen
    exact ⟨c, ComposeMessage.encode_of_readFrom hread, hread,
      fun c' h' => hread.unique (h' ▸ c'.readFrom_encode)⟩
  · intro c c' heq
    exact (c'.readFrom_encode).unique (heq ▸ c.readFrom_encode)
  · intro to_ to' amount amount' sender sender' msg heq
    cases (TransferMessage.encode_inj heq).2.2.1

end FdfiToken
