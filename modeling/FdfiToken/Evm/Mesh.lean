import FdfiToken.Evm.Contracts
import FdfiToken.Evm.Supply
import Mathlib.Data.Multiset.AddSub

/-!
# The EVM mesh

The canonical token with its one adapter and any number of satellites, peered with each other.
The endpoint delivers a message unmodified, at most once, to the party it was sent to. Parties
are satellites `some i` and the adapter `none`.
-/

namespace FdfiToken.Evm

open Word Fallible Runs

/-- A message on its way: recipient and amount in shared decimals. -/
structure Packet (ι : Type) where
  src : Option ι
  dst : Option ι
  sendTo : Bytes32
  amountSD : U64
deriving DecidableEq

/-- `bytes32ToAddress`. -/
def Packet.recipient {ι : Type} (p : Packet ι) : Address := BitVec.setWidth 160 p.sendTo

def Packet.amountLD {ι : Type} (p : Packet ι) : U256 := OFTCore.toLD p.amountSD

/-- What the parties run on. The adapter is a contract: no signature recovers to it. -/
structure Network (ι : Type) where
  oz : OpenZeppelin
  lib : RateLimiter
  adapter : { a : Address // a ≠ 0 }
  eid : Option ι → U32
  recoverPermit : ι → Permit → (nonce : U256) → Signature → Option Address
  no_key (p : Permit) (nonce : U256) (signature : Signature) :
    oz.recoverPermit p nonce signature ≠ some adapter.1

/-- The adapter with the canonical token, the satellites, and the messages in flight. -/
structure Mesh (oz : OpenZeppelin) (ι : Type) where
  adapter : FDFIOFTAdapter (FDFIToken oz)
  satellites : ι → FDFIOFTUpgradeable OFTToken
  inFlight : Multiset (Packet ι)

structure SendParam where
  dstEid : U32
  sendTo : Bytes32
  amountLD : U256
  minAmountLD : U256

/-- Holders of a satellite token can transfer, approve and permit, not mint or burn. -/
inductive HolderCall where
  | transfer (dst : Address) (value : U256)
  | transferFrom (src dst : Address) (value : U256)
  | approve (spender : Address) (value : U256)
  | permit (permit : Permit) (signature : Signature)

def OFTToken.permit (recover : Permit → (nonce : U256) → Signature → Option Address) (msg : Msg)
    (p : Permit) (signature : Signature) (s : OFTToken) : Result OFTToken := do
  require (msg.timestamp.toNat ≤ p.deadline.toNat) (.erc2612ExpiredSignature p.deadline)
  let signer ← orError .ecdsaInvalidSignature (recover p (s.nonces p.owner) signature)
  require (signer = p.owner) (.erc2612InvalidSigner signer p.owner)
  ERC20._approve p.owner p.spender p.value
    { s with nonces := Function.update s.nonces p.owner (s.nonces p.owner + 1) }

def OFTToken.exec (recover : Permit → (nonce : U256) → Signature → Option Address) (msg : Msg)
    (call : HolderCall) (s : OFTToken) : Result OFTToken :=
  match call with
  | .transfer dst value => ERC20.transfer msg dst value s
  | .transferFrom src dst value => ERC20.transferFrom msg src dst value s
  | .approve spender value => ERC20.approve msg spender value s
  | .permit permit signature => s.permit recover msg permit signature

inductive MeshEvent (oz : OpenZeppelin) (ι : Type) where
  | token (tx : TokenTx)
  | holder (i : ι) (msg : Msg) (call : HolderCall)
  | adapterAdmin (msg : Msg) (call : BridgeCall (FDFIToken oz))
  | satelliteAdmin (i : ι) (msg : Msg) (call : BridgeCall OFTToken)
  | send (msg : Msg) (param : SendParam) (amountReceivedLD : U256) (packet : Packet ι)
  | deliver (msg : Msg) (packet : Packet ι)

/-- The packet `send` makes of what `_debit` returns. -/
def SendParam.packet {ι : Type} (param : SendParam) (src dst : Option ι)
    (amountReceivedLD : U256) : Packet ι :=
  ⟨src, dst, param.sendTo, OFTCore.toSD amountReceivedLD⟩

section Network

variable {ι : Type}

/-- All contracts freshly deployed and initialised, nothing in flight. No constructor looks at the
token, so its calls from before there was an adapter can come after the launch as well. -/
structure Network.Launched (net : Network ι) (m : Mesh net.oz ι) : Prop where
  adapter : ∃ msg owner_ configs,
    FDFIOFTAdapter.construct net.lib (OFTAdapter.base net.oz net.adapter) msg owner_ configs
      (.deployed net.oz) = .ok m.adapter
  satellites (i : ι) : ∃ msg owner_ configs,
    (FDFIOFTUpgradeable.deployed .deployed).init net.lib OFTToken.base msg configs owner_ =
      .ok (m.satellites i)
  quiet : m.inFlight = 0

variable [DecidableEq ι]

/-- One call succeeds. The adapter contract calls the token in its own hooks only, and never
calls itself. -/
inductive Network.Step (net : Network ι) :
    Mesh net.oz ι → MeshEvent net.oz ι → Mesh net.oz ι → Prop
  | token {m : Mesh net.oz ι} {tx : TokenTx} {t : FDFIToken net.oz}
      (foreign : tx.msg.sender ≠ net.adapter.1) (h : m.adapter.base.exec tx = .ok t) :
      Step net m (.token tx) { m with adapter := { m.adapter with base := t } }
  | holder {m : Mesh net.oz ι} {i : ι} {msg : Msg} {call : HolderCall} {t : OFTToken}
      (h : (m.satellites i).base.exec (net.recoverPermit i) msg call = .ok t) :
      Step net m (.holder i msg call)
        { m with satellites :=
            Function.update m.satellites i { m.satellites i with base := t } }
  | adapterAdmin {m : Mesh net.oz ι} {msg : Msg} {call : BridgeCall (FDFIToken net.oz)}
      {a : FDFIOFTAdapter (FDFIToken net.oz)} (admin : call.isAdmin = true)
      (h : m.adapter.exec net.lib (OFTAdapter.base net.oz net.adapter) msg call = .ok a) :
      Step net m (.adapterAdmin msg call) { m with adapter := a }
  | satelliteAdmin {m : Mesh net.oz ι} {i : ι} {msg : Msg} {call : BridgeCall OFTToken}
      {c : FDFIOFTUpgradeable OFTToken} (admin : call.isAdmin = true)
      (h : (m.satellites i).exec net.lib OFTToken.base msg call = .ok c) :
      Step net m (.satelliteAdmin i msg call)
        { m with satellites := Function.update m.satellites i c }
  | adapterSend {m : Mesh net.oz ι} {msg : Msg} {param : SendParam} {dst : Option ι}
      {out : Debited (FDFIOFTAdapter (FDFIToken net.oz))} {event : RateConsumed}
      (foreign : msg.sender ≠ net.adapter.1) (peer : net.eid dst = param.dstEid)
      (h : m.adapter._debit net.lib (OFTAdapter.base net.oz net.adapter) msg msg.sender
        param.amountLD param.minAmountLD param.dstEid = .ok (out, event)) :
      Step net m
        (.send msg param out.amountReceivedLD (param.packet none dst out.amountReceivedLD))
        { m with
          adapter := out.state
          inFlight := param.packet none dst out.amountReceivedLD ::ₘ m.inFlight }
  | satelliteSend {m : Mesh net.oz ι} {i : ι} {msg : Msg} {param : SendParam} {dst : Option ι}
      {out : Debited (FDFIOFTUpgradeable OFTToken)} (peer : net.eid dst = param.dstEid)
      (h : (m.satellites i)._debit net.lib OFTToken.base msg msg.sender param.amountLD
        param.minAmountLD param.dstEid = .ok out) :
      Step net m
        (.send msg param out.amountReceivedLD (param.packet (some i) dst out.amountReceivedLD))
        { m with
          satellites := Function.update m.satellites i out.state
          inFlight := param.packet (some i) dst out.amountReceivedLD ::ₘ m.inFlight }
  | adapterDeliver {m : Mesh net.oz ι} {msg : Msg} {packet : Packet ι}
      {out : Credited (FDFIOFTAdapter (FDFIToken net.oz))} {event : RateConsumed}
      (sent : packet ∈ m.inFlight) (here : packet.dst = none)
      (h : m.adapter._credit net.lib (OFTAdapter.base net.oz net.adapter) msg packet.recipient
        packet.amountLD (net.eid packet.src) = .ok (out, event)) :
      Step net m (.deliver msg packet)
        { m with adapter := out.state, inFlight := m.inFlight.erase packet }
  | satelliteDeliver {m : Mesh net.oz ι} {i : ι} {msg : Msg} {packet : Packet ι}
      {out : Credited (FDFIOFTUpgradeable OFTToken)}
      (sent : packet ∈ m.inFlight) (here : packet.dst = some i)
      (h : (m.satellites i)._credit OFTToken.base msg packet.recipient packet.amountLD
        (net.eid packet.src) = .ok out) :
      Step net m (.deliver msg packet)
        { m with
          satellites := Function.update m.satellites i out.state
          inFlight := m.inFlight.erase packet }

theorem Network.token_run (net : Network ι) {txs : List TokenTx} {t t' : FDFIToken net.oz}
    (h : Run FDFIToken.Step t txs t') (foreign : ∀ tx ∈ txs, tx.msg.sender ≠ net.adapter.1)
    (m : Mesh net.oz ι) :
    Run net.Step { m with adapter := { m.adapter with base := t } } (txs.map .token)
      { m with adapter := { m.adapter with base := t' } } := by
  induction h with
  | nil t => exact .nil _
  | @cons t t₁ t₂ tx txs head tail ih =>
    exact .cons (.token (foreign _ List.mem_cons_self) head)
      (ih fun tx htx => foreign tx (List.mem_cons_of_mem _ htx))

end Network

end FdfiToken.Evm
