import FdfiToken.Oft.Reference
import FdfiToken.Oft.WireFormat

/-!
# Which messages are received

`lz_receive` parses a message by slicing it, and takes whatever follows the fixed fields for a
compose payload. A payload that cannot hold its sender is accepted, released against, and handed
to a composer that cannot read it.
-/

namespace FdfiToken

open Word Fallible BigEndian Runs

/-- Everything `lz_receive` reads of a message can be read; reading the compose payload never
fails. -/
def MsgCodec.Parses (message : Bytes) : Prop :=
  (∃ toAddress, sendTo message = .ok toAddress) ∧ ∃ amount, amountSd message = .ok amount

private theorem MsgCodec.parses_iff {message : Bytes} : Parses message ↔ 40 ≤ message.length := by
  constructor
  · rintro ⟨⟨toAddress, hto⟩, amount, hamount⟩
    exact (take_of_fields hto hamount).2
  · intro h
    exact exists_fields h

/-- Messages in the image of `msg_codec::encode`. -/
def MsgCodec.Encoded (message : Bytes) : Prop := ∃ t : TransferMessage, t.EncodedBy message

private theorem MsgCodec.encoded_iff {message : Bytes} :
    Encoded message ↔ message.length = 40 ∨ 72 ≤ message.length := by
  simp only [Encoded, TransferMessage.encodedBy_iff, TransferMessage.exists_readFrom]

/-- The receive path accepts only well-formed messages: what parses is an encoding, every compose
payload handed on can be read by all five readers, and what is no encoding is refused. -/
structure LzReceive.AcceptsOnlyEncoded (message : Bytes) : Prop where
  parsed : MsgCodec.Parses message → MsgCodec.Encoded message
  readable : ∀ rt ep clock metas params w w' out call, params.message = message →
    apply rt ep clock metas params w = .ok (w', out) → out.composeCall = some call →
    ∃ c : ComposeMessage, c.ReadFrom call.message
  refused : ¬ MsgCodec.Encoded message → ∀ rt ep clock metas params w, params.message = message →
    ∃ e, apply rt ep clock metas params w = .error e

namespace LzReceive

section Payload

variable {rt : Runtime} {ep : Endpoint} {clock : Clock} {metas : List LzAccount}
  {params : LzReceiveParams} {w w' : World} {out : LzReceiveOutcome}

private theorem parses_of_apply (h : apply rt ep clock metas params w = .ok (w', out)) :
    MsgCodec.Parses params.message := by
  obtain ⟨a, peer, -, hreceived⟩ := apply_received h
  obtain ⟨amountSd, hsd, -⟩ := hreceived.amount
  exact ⟨⟨a.toAddress, hreceived.toAddress⟩, amountSd, hsd⟩

private theorem composeCall_length (h : apply rt ep clock metas params w = .ok (w', out)) :
    (out.composeCall = none ↔ params.message.length ≤ 40) ∧
      ∀ call, out.composeCall = some call →
        call.message.length = 20 + (params.message.length - 40) := by
  obtain ⟨a, peer, -, hreceived⟩ := apply_received h
  obtain ⟨opened, received, -, -, hcall, -⟩ := hreceived.released
  rw [hcall, composeCallOf]
  constructor
  · rw [Option.map_eq_none_iff]
    exact MsgCodec.composeMsg_eq_none
  · intro call hsome
    rw [Option.map_eq_some_iff] at hsome
    obtain ⟨payload, hpayload, rfl⟩ := hsome
    obtain ⟨-, rfl⟩ := MsgCodec.composeMsg_eq_some.mp hpayload
    simp [ComposeMsgCodec.encode, MsgCodec.composeMsgOffset]
    omega

private theorem unreadable_payload (h : apply rt ep clock metas params w = .ok (w', out))
    (hlong : 40 < params.message.length) (hshort : params.message.length < 72) :
    ∃ call, out.composeCall = some call ∧
      ComposeMsgCodec.composeFrom call.message = .error .panic := by
  obtain ⟨hnone, hlength⟩ := composeCall_length h
  cases hcall : out.composeCall with
  | none =>
    have hle := hnone.mp hcall
    omega
  | some call =>
    have hlen := hlength call hcall
    refine ⟨call, rfl, ?_⟩
    have hslice : slice call.message ComposeMsgCodec.composeFromOffset
        ComposeMsgCodec.composeMsgOffset = none := by
      refine if_neg ?_
      rintro ⟨-, hstop⟩
      change 52 ≤ call.message.length at hstop
      omega
    rw [ComposeMsgCodec.composeFrom, hslice]
    rfl

end Payload

/-- The receive path lives up to this on every message but those of 41 to 71 bytes, which are
longer than a plain message and too short for a composed one. -/
theorem acceptsOnlyEncoded_iff (message : Bytes) :
    AcceptsOnlyEncoded message ↔ ¬ (41 ≤ message.length ∧ message.length ≤ 71) := by
  constructor
  · rintro h ⟨hlong, hshort⟩
    have hencoded := MsgCodec.encoded_iff.mp (h.parsed (MsgCodec.parses_iff.mpr (by omega)))
    omega
  · intro hlen
    have hparsed : MsgCodec.Parses message → MsgCodec.Encoded message := by
      intro hparses
      have hlong := MsgCodec.parses_iff.mp hparses
      exact MsgCodec.encoded_iff.mpr (by omega)
    refine ⟨hparsed, ?_, ?_⟩
    · rintro rt ep clock metas params w w' out call rfl hrun hcall
      obtain ⟨hnone, hlength⟩ := composeCall_length hrun
      have hlong : ¬ params.message.length ≤ 40 := by
        intro hle
        rw [hnone.mpr hle] at hcall
        cases hcall
      refine ComposeMessage.exists_readFrom.mpr ?_
      rw [hlength call hcall]
      omega
    · rintro hno rt ep clock metas params w rfl
      cases hrun : apply rt ep clock metas params w with
      | error e => exact ⟨e, rfl⟩
      | ok r => exact absurd (hparsed (parses_of_apply hrun)) hno

end LzReceive

namespace Reference

def sentRun : World × List Event :=
  replay runtime endpoint adapterStore [
    setPeer (clockAt 10) 7 (.peerAddress (Bytes32.fill 77)),
    send (clockAt 20) 7 (Bytes32.fill 33) 2000000 none]

def truncated : LzReceiveParams :=
  { arrival 7 (Bytes32.fill 77) (Bytes32.fill 34) 500 with
    message := (arrival 7 (Bytes32.fill 77) (Bytes32.fill 34) 500).message ++ [1] }

def receiveTruncated : Result (World × LzReceiveOutcome) :=
  LzReceive.apply runtime endpoint (clockAt 30)
    ((LzReceiveTypes.apply runtime (clockAt 30) truncated sentRun.1).toOption.getD []) truncated
    sentRun.1

private theorem receiveTruncated_ok : receiveTruncated.isOk = true := by decide

/-- A message of 41 bytes is no encoding, yet it is parsed, tokens are released against it, and the
composer is handed a payload whose sender cannot be read. -/
theorem truncated_accepted :
    Reaches runtime 6 sentRun.2 sentRun.1 ∧ truncated.message.length = 41 ∧
      MsgCodec.Parses truncated.message ∧ ¬ MsgCodec.Encoded truncated.message ∧
      ¬ LzReceive.AcceptsOnlyEncoded truncated.message ∧
      ∃ w out, receiveTruncated = .ok (w, out) ∧ w.tvl + 500000 = sentRun.1.tvl ∧
        ∃ call, out.composeCall = some call ∧
          ComposeMsgCodec.composeFrom call.message = .error .panic := by
  have hlen : truncated.message.length = 41 := by decide
  have hencoded : ¬ MsgCodec.Encoded truncated.message := by
    rw [MsgCodec.encoded_iff]
    omega
  have hparses : MsgCodec.Parses truncated.message := MsgCodec.parses_iff.mpr (by omega)
  refine ⟨adapter.replay_reaches adapter_init _ (by decide), hlen, hparses, hencoded,
    fun h => hencoded (h.parsed hparses), _, _, eq_ok_value _ receiveTruncated_ok,
    by decide, ?_⟩
  exact LzReceive.unreadable_payload (eq_ok_value _ receiveTruncated_ok) (by omega) (by omega)

end Reference

end FdfiToken
