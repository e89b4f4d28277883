import FdfiToken.Evm.Backing
import FdfiToken.Mesh.Conservation
import FdfiToken.Oft.WireFormat

/-!
# The omnichain token

The canonical token with its adapter, satellites on other EVM chains and native stores on
Solana, all peered with each other over one wire. The endpoint delivers a message unmodified, at
most once, to the party it was sent to, and names the true sender.
-/

namespace FdfiToken

open Word Fallible Runs LockIssue BigEndian

def toBytes32 (x : Evm.Bytes32) : Bytes32 := ⟨ofWord 32 x, length_ofWord 32 x⟩

def addressToBytes32 (a : Evm.Address) : Bytes32 := toBytes32 (BitVec.setWidth 256 a)

/-- `OFTMsgCodec`, the contracts' side of the wire. The program reads what the contracts write,
and the contracts read what the program reads. -/
structure OFTMsgCodec where
  encode : (sendTo : Evm.Bytes32) → (amountShared : Evm.U64) → (composeFrom : Evm.Address) →
    (composeMsg : Bytes) → Bytes
  sendTo : Bytes → Evm.Bytes32
  amountSD : Bytes → Evm.U64
  sendTo_encode (to_ : Evm.Bytes32) (amount : Evm.U64) (sender : Evm.Address) (msg : Bytes) :
    MsgCodec.sendTo (encode to_ amount sender msg) = .ok (toBytes32 to_)
  amountSd_encode (to_ : Evm.Bytes32) (amount : Evm.U64) (sender : Evm.Address) (msg : Bytes) :
    MsgCodec.amountSd (encode to_ amount sender msg) = .ok amount
  sendTo_eq {message : Bytes} {to_ : Bytes32} :
    MsgCodec.sendTo message = .ok to_ → toBytes32 (sendTo message) = to_
  amountSD_eq {message : Bytes} {amount : U64} :
    MsgCodec.amountSd message = .ok amount → amountSD message = amount

/-- The canonical chain with its satellites, the stores, and the layout they share. Parties are
the adapter `.inl none`, the satellites `.inl (some i)` and the stores `.inr k`. -/
structure Omnichain (ι κ : Type) where
  evm : Evm.Network ι
  satelliteAddress : ι → Evm.Address
  codec : OFTMsgCodec
  runtime : κ → Runtime
  storeEid : κ → U32

structure OmniMesh (oz : Evm.OpenZeppelin) (ι κ : Type) where
  adapter : Evm.FDFIOFTAdapter (Evm.FDFIToken oz)
  satellites : ι → Evm.FDFIOFTUpgradeable Evm.OFTToken
  stores : κ → World
  inFlight : Multiset Packet

def OmniMesh.evm {oz : Evm.OpenZeppelin} {ι κ : Type} (m : OmniMesh oz ι κ) : Evm.Mesh oz ι :=
  ⟨m.adapter, m.satellites, 0⟩

inductive OmniEvent (oz : Evm.OpenZeppelin) (ι κ : Type) where
  | evm (e : Evm.MeshEvent oz ι)
  | evmSend (party : Option ι) (msg : Evm.Msg) (param : Evm.SendParam) (message : Bytes)
  | evmDeliver (party : Option ι) (msg : Evm.Msg) (packet : Packet)
  | store (k : κ) (e : Event)

namespace Omnichain

section Wire

variable {ι κ : Type} (net : Omnichain ι κ)

/-- The adapter of the canonical token locks; everybody else issues. -/
abbrev hub : Option ι ⊕ κ := .inl none

def eid : Option ι ⊕ κ → U32
  | .inl party => net.evm.eid party
  | .inr k => net.storeEid k

def address (m : OmniMesh net.evm.oz ι κ) : Option ι ⊕ κ → Bytes32
  | .inl none => addressToBytes32 net.evm.adapter.1
  | .inl (some i) => addressToBytes32 (net.satelliteAddress i)
  | .inr k => (m.stores k).storeKey

/-- The packet the endpoint makes of a message from one party to another. -/
def packet (m : OmniMesh net.evm.oz ι κ) (src dst : Option ι ⊕ κ) (message : Bytes) : Packet :=
  ⟨net.eid src, net.address m src, net.eid dst, net.address m dst, message⟩

def storePacket (m : OmniMesh net.evm.oz ι κ) (k : κ) (call : EndpointSendParams) : Packet :=
  ⟨net.eid (.inr k), net.address m (.inr k), call.dstEid, call.receiver, call.message⟩

/-- The packet a store must have been sent for the endpoint to deliver this. -/
def storeDelivery (m : OmniMesh net.evm.oz ι κ) (k : κ) (params : LzReceiveParams) : Packet :=
  ⟨params.srcEid, params.sender, net.eid (.inr k), net.address m (.inr k), params.message⟩

/-- Whether a packet was sent to a party. -/
structure Addressed (m : OmniMesh net.evm.oz ι κ) (party : Option ι ⊕ κ) (p : Packet) : Prop where
  eid : p.dstEid = net.eid party
  receiver : p.receiver = net.address m party

/-- What `_buildMsgAndOptions` makes of the amount `_debit` returned. -/
def message (msg : Evm.Msg) (param : Evm.SendParam) (composeMsg : Bytes)
    (amountReceivedLD : Evm.U256) : Bytes :=
  net.codec.encode param.sendTo (Evm.OFTCore.toSD amountReceivedLD) msg.sender composeMsg

/-- `toAddress` as `_lzReceive` reads it: `bytes32ToAddress` of the recipient. -/
def recipient (p : Packet) : Evm.Address := BitVec.setWidth 160 (net.codec.sendTo p.message)

/-- `_toLD` of the amount `_lzReceive` reads. -/
def amountLD (p : Packet) : Evm.U256 := Evm.OFTCore.toLD (net.codec.amountSD p.message)

/-- Peers are set to parties only, and only the store mints its token. -/
structure Allowed (m : OmniMesh net.evm.oz ι κ) (e : Event) : Prop where
  peering : ∀ eid address, e.peerAddress eid = some address →
    ∃ party, net.eid party = eid ∧ net.address m party = address
  minter : e.mintedOutside = 0

structure Launched (m : OmniMesh net.evm.oz ι κ) : Prop where
  evm : net.evm.Launched m.evm
  genesis : ∀ k, Genesis (net.runtime k) 6 (m.stores k)
  native : ∀ k, (m.stores k).oftStore.oftType = .native
  unminted : ∀ k, (m.stores k).supply = 0
  quiet : m.inFlight = 0

end Wire

section Steps

variable {ι κ : Type} [DecidableEq ι] [DecidableEq κ] (net : Omnichain ι κ)

/-- One party takes a step. A message from outside names a sender that is neither a party nor
the all-zero address, which nobody sends from. -/
inductive Step : OmniMesh net.evm.oz ι κ → OmniEvent net.evm.oz ι κ →
    OmniMesh net.evm.oz ι κ → Prop
  | evm {m : OmniMesh net.evm.oz ι κ} {e : Evm.MeshEvent net.evm.oz ι}
      {n : Evm.Mesh net.evm.oz ι} (step : net.evm.Step m.evm e n) (quiet : n.inFlight = 0) :
      Step m (.evm e) { m with adapter := n.adapter, satellites := n.satellites }
  | adapterSend {m : OmniMesh net.evm.oz ι κ} {msg : Evm.Msg} {param : Evm.SendParam}
      {composeMsg : Bytes} {dst : Option ι ⊕ κ}
      {out : Evm.Debited (Evm.FDFIOFTAdapter (Evm.FDFIToken net.evm.oz))}
      {event : Evm.RateConsumed}
      (foreign : msg.sender ≠ net.evm.adapter.1) (peer : net.eid dst = param.dstEid)
      (h : m.adapter._debit net.evm.lib (Evm.OFTAdapter.base net.evm.oz net.evm.adapter) msg
        msg.sender param.amountLD param.minAmountLD param.dstEid = .ok (out, event)) :
      Step m (.evmSend none msg param (net.message msg param composeMsg out.amountReceivedLD))
        { m with
          adapter := out.state
          inFlight := net.packet m (.inl none) dst
            (net.message msg param composeMsg out.amountReceivedLD) ::ₘ m.inFlight }
  | satelliteSend {m : OmniMesh net.evm.oz ι κ} {i : ι} {msg : Evm.Msg} {param : Evm.SendParam}
      {composeMsg : Bytes} {dst : Option ι ⊕ κ}
      {out : Evm.Debited (Evm.FDFIOFTUpgradeable Evm.OFTToken)}
      (peer : net.eid dst = param.dstEid)
      (h : (m.satellites i)._debit net.evm.lib Evm.OFTToken.base msg msg.sender param.amountLD
        param.minAmountLD param.dstEid = .ok out) :
      Step m
        (.evmSend (some i) msg param (net.message msg param composeMsg out.amountReceivedLD))
        { m with
          satellites := Function.update m.satellites i out.state
          inFlight := net.packet m (.inl (some i)) dst
            (net.message msg param composeMsg out.amountReceivedLD) ::ₘ m.inFlight }
  | adapterDeliver {m : OmniMesh net.evm.oz ι κ} {msg : Evm.Msg} {p : Packet}
      {out : Evm.Credited (Evm.FDFIOFTAdapter (Evm.FDFIToken net.evm.oz))}
      {event : Evm.RateConsumed}
      (sent : p ∈ m.inFlight) (here : net.Addressed m (.inl none) p)
      (h : m.adapter._credit net.evm.lib (Evm.OFTAdapter.base net.evm.oz net.evm.adapter) msg
        (net.recipient p) (net.amountLD p) p.srcEid = .ok (out, event)) :
      Step m (.evmDeliver none msg p)
        { m with adapter := out.state, inFlight := m.inFlight.erase p }
  | satelliteDeliver {m : OmniMesh net.evm.oz ι κ} {i : ι} {msg : Evm.Msg} {p : Packet}
      {out : Evm.Credited (Evm.FDFIOFTUpgradeable Evm.OFTToken)}
      (sent : p ∈ m.inFlight) (here : net.Addressed m (.inl (some i)) p)
      (h : (m.satellites i)._credit Evm.OFTToken.base msg (net.recipient p) (net.amountLD p)
        p.srcEid = .ok out) :
      Step m (.evmDeliver (some i) msg p)
        { m with
          satellites := Function.update m.satellites i out.state
          inFlight := m.inFlight.erase p }
  | store {m : OmniMesh net.evm.oz ι κ} {k : κ} {e : Event} {w : World}
      (step : FdfiToken.Step (net.runtime k) (m.stores k) e w) (quiet : e.isTransfer = false)
      (allowed : net.Allowed m e) :
      Step m (.store k e) { m with stores := Function.update m.stores k w }
  | storeSend {m : OmniMesh net.evm.oz ι κ} {k : κ} {clock : Clock} {accs : SendAccounts}
      {params : SendParams} {out : SendOutcome} {w : World}
      (step : FdfiToken.Step (net.runtime k) (m.stores k)
        (.executed clock (.send accs params) (.sent out)) w) :
      Step m (.store k (.executed clock (.send accs params) (.sent out)))
        { m with
          stores := Function.update m.stores k w
          inFlight := net.storePacket m k out.endpointCall ::ₘ m.inFlight }
  | storeDeliver {m : OmniMesh net.evm.oz ι κ} {k : κ} {clock : Clock} {metas : List LzAccount}
      {params : LzReceiveParams} {out : LzReceiveOutcome} {w : World}
      (step : FdfiToken.Step (net.runtime k) (m.stores k)
        (.executed clock (.lzReceive metas params) (.received out)) w)
      (sent : net.storeDelivery m k params ∈ m.inFlight) :
      Step m (.store k (.executed clock (.lzReceive metas params) (.received out)))
        { m with
          stores := Function.update m.stores k w
          inFlight := m.inFlight.erase (net.storeDelivery m k params) }
  | storeForeign {m : OmniMesh net.evm.oz ι κ} {k : κ} {clock : Clock} {metas : List LzAccount}
      {params : LzReceiveParams} {out : LzReceiveOutcome} {w : World}
      (step : FdfiToken.Step (net.runtime k) (m.stores k)
        (.executed clock (.lzReceive metas params) (.received out)) w)
      (nonzero : params.sender ≠ Bytes32.fill 0)
      (outside : ∀ party, net.eid party = params.srcEid →
        net.address m party ≠ params.sender) :
      Step m (.store k (.executed clock (.lzReceive metas params) (.received out)))
        { m with stores := Function.update m.stores k w }

end Steps

/-- Every ledger is sound, nobody may spend for the adapter, and the stores are native, well
formed and know no peers but parties. -/
structure Sound {ι κ : Type} (net : Omnichain ι κ) (m : OmniMesh net.evm.oz ι κ) : Prop where
  token : m.adapter.base.Sound
  allowances : ∀ spender, m.adapter.base.erc20.allowances net.evm.adapter.1 spender = 0
  satellites : ∀ i, (m.satellites i).base.erc20.Backed
  wellFormed : ∀ k, WellFormed (net.runtime k) 6 (m.stores k)
  native : ∀ k, (m.stores k).oftStore.oftType = .native
  peers : ∀ k eid, (m.stores k).peerAddress eid = Bytes32.fill 0 ∨
    ∃ party, net.eid party = eid ∧ net.address m party = (m.stores k).peerAddress eid

section Sound

variable {ι κ : Type} {net : Omnichain ι κ} {m : OmniMesh net.evm.oz ι κ}

theorem Launched.sound [Fintype ι] (h : net.Launched m) : net.Sound m where
  token := h.evm.sound.token
  allowances := h.evm.sound.allowances
  satellites := h.evm.sound.satellites
  wellFormed k := .of_genesis (h.genesis k)
  native := h.native
  peers k eid := by
    left
    rw [World.peerAddress, (h.genesis k).fresh.2.2 eid]
    rfl

theorem Sound.with_adapter (h : net.Sound m)
    {a : Evm.FDFIOFTAdapter (Evm.FDFIToken net.evm.oz)} (ps : Multiset Packet)
    (htoken : a.base.Sound)
    (hallow : ∀ spender, a.base.erc20.allowances net.evm.adapter.1 spender = 0) :
    net.Sound { m with adapter := a, inFlight := ps } :=
  ⟨htoken, hallow, h.satellites, h.wellFormed, h.native, h.peers⟩

theorem Sound.with_satellite [DecidableEq ι] (h : net.Sound m) {i : ι}
    {c : Evm.FDFIOFTUpgradeable Evm.OFTToken} (ps : Multiset Packet)
    (hback : c.base.erc20.Backed) :
    net.Sound { m with satellites := Function.update m.satellites i c, inFlight := ps } :=
  ⟨h.token, h.allowances,
    Evm.satellites_update (m := m.evm) (P := fun c => c.base.erc20.Backed) h.satellites hback,
    h.wellFormed, h.native, h.peers⟩

private theorem address_update [DecidableEq κ] (m : OmniMesh net.evm.oz ι κ) {k : κ} {w : World}
    (ps : Multiset Packet) (hkey : w.storeKey = (m.stores k).storeKey) (party : Option ι ⊕ κ) :
    net.address { m with stores := Function.update m.stores k w, inFlight := ps } party =
      net.address m party := by
  match party with
  | .inl none => rfl
  | .inl (some i) => rfl
  | .inr j =>
    simp only [address]
    by_cases hj : j = k
    · subst hj
      rw [Function.update_self, hkey]
    · rw [Function.update_of_ne hj]

theorem Sound.with_store [DecidableEq κ] (h : net.Sound m) {k : κ} {e : Event} {w : World}
    (ps : Multiset Packet) (hstep : FdfiToken.Step (net.runtime k) (m.stores k) e w)
    (hpeering : ∀ eid address, e.peerAddress eid = some address →
      ∃ party, net.eid party = eid ∧ net.address m party = address) :
    net.Sound { m with stores := Function.update m.stores k w, inFlight := ps } := by
  have haddress := address_update m ps hstep.sameStore.storeKey
  have hall (P : κ → World → Prop) (hm : ∀ j, P j (m.stores j)) (hw : P k w) (j : κ) :
      P j (Function.update m.stores k w j) := by
    by_cases hj : j = k
    · subst hj
      rwa [Function.update_self]
    · rw [Function.update_of_ne hj]
      exact hm j
  refine ⟨h.token, h.allowances, h.satellites, ?_, ?_, ?_⟩
  · exact hall (fun j w => WellFormed (net.runtime j) 6 w) h.wellFormed
      ((h.wellFormed k).step hstep)
  · exact hall (fun _ w => w.oftStore.oftType = .native) h.native
      (hstep.sameStore.oftType.trans (h.native k))
  · simp only [haddress]
    refine hall (fun _ w => ∀ eid, w.peerAddress eid = Bytes32.fill 0 ∨
      ∃ party, net.eid party = eid ∧ net.address m party = w.peerAddress eid) h.peers ?_
    intro eid
    rw [(hstep.peer eid).1]
    cases hset : e.peerAddress eid with
    | none => exact h.peers k eid
    | some address => exact .inr (hpeering eid address hset)

theorem Sound.not_foreign (h : net.Sound m) {k : κ} {clock : Clock} {metas : List LzAccount}
    {params : LzReceiveParams} {out : LzReceiveOutcome} {w : World}
    (hstep : FdfiToken.Step (net.runtime k) (m.stores k)
      (.executed clock (.lzReceive metas params) (.received out)) w)
    (hnonzero : params.sender ≠ Bytes32.fill 0) :
    ∃ party, net.eid party = params.srcEid ∧ net.address m party = params.sender := by
  obtain ⟨a, peer, received⟩ := hstep.received
  have haddress : (m.stores k).peerAddress params.srcEid = params.sender := by
    rw [World.peerAddress, received.peer_eq]
    exact received.sender
  rw [← haddress] at hnonzero ⊢
  exact (h.peers k params.srcEid).resolve_left hnonzero

end Sound

end Omnichain

namespace Reference

def codec : OFTMsgCodec where
  encode to_ amount sender msg :=
    MsgCodec.encode (toBytes32 to_) amount (addressToBytes32 sender)
      (if msg = [] then none else some msg)
  sendTo message := toWord 256 (message.take 32)
  amountSD message := toWord 64 ((message.drop 32).take 8)
  sendTo_encode to_ amount sender msg := MsgCodec.sendTo_encode ..
  amountSd_encode to_ amount sender msg := MsgCodec.amountSd_encode ..
  sendTo_eq {message to_} h := by
    simp only [MsgCodec.sendTo, bind_eq_ok, orError_eq_ok, slice_eq_some,
      Bytes32.ofSlice_eq_some] at h
    obtain ⟨bytes, ⟨-, rfl⟩, hto⟩ := h
    have hlength := to_.length_toList
    change to_.toList = message.take 32 at hto
    rw [hto] at hlength
    have hspell : ofWord _ (toWord 256 (message.take 32)) = message.take 32 :=
      ofWord_toWord (by rw [hlength]; rfl)
    rw [hlength] at hspell
    ext1
    exact hspell.trans hto.symm
  amountSD_eq {message amount} h := by
    simp only [MsgCodec.amountSd, bind_eq_ok, orError_eq_ok, slice_eq_some, pure_eq_ok] at h
    obtain ⟨bytes, ⟨-, rfl⟩, rfl⟩ := h
    rfl

end Reference

end FdfiToken
