import FdfiToken.Oft.Peers
import FdfiToken.Oft.Solvency

/-!
# Networks of stores

Stores of the program on any chains, with the messages in flight between them. The endpoint
delivers a message unmodified, at most once, and only to the receiver it was sent to; it names
the true sender. Peers are only ever set to stores of the network.
-/

namespace FdfiToken

open Word Fallible Runs

/-- A message on its way, as the endpoint keeps it. -/
structure Packet where
  srcEid : U32
  sender : Pubkey
  dstEid : U32
  receiver : Bytes32
  message : Bytes
deriving DecidableEq

def messageAmountSd (message : Bytes) : ℕ :=
  match MsgCodec.amountSd message with
  | .ok amountSd => amountSd.toNat
  | .error _ => 0

def Packet.amountSd (p : Packet) : ℕ := messageAmountSd p.message

/-- The stores and the chains they are on; the hub is the adapter. -/
structure Network (ι : Type) where
  runtime : ι → Runtime
  eid : ι → U32
  sharedDecimals : U8
  hub : ι

structure Mesh (ι : Type) where
  stores : ι → World
  inFlight : Multiset Packet

/-- What a successful send takes out of circulation, less the fee: burned by a native store,
locked by an adapter. -/
def Event.sentLd : Event → ℕ
  | .executed _ (.send _ _) (.sent out) => out.oftReceipt.amountReceivedLd.toNat
  | _ => 0

/-- What a successful receive puts into circulation: minted by a native store, released by an
adapter. -/
def Event.receivedLd : Event → ℕ
  | .executed _ (.lzReceive _ _) (.received out) => out.amountLd.toNat
  | _ => 0

section Network

variable {ι : Type} [DecidableEq ι]

/-- Peers are set to stores of the network only, and only the store mints a native token. -/
structure Network.Allowed (net : Network ι) (m : Mesh ι) (i : ι) (e : Event) : Prop where
  peering : ∀ eid address, e.peerAddress eid = some address →
    ∃ j, net.eid j = eid ∧ (m.stores j).storeKey = address
  minter : i ≠ net.hub → e.mintedOutside = 0

def Network.packet (net : Network ι) (m : Mesh ι) (i : ι) (call : EndpointSendParams) : Packet :=
  ⟨net.eid i, (m.stores i).storeKey, call.dstEid, call.receiver, call.message⟩

/-- The packet a store must have been sent for the endpoint to deliver this. -/
def Network.delivery (net : Network ι) (m : Mesh ι) (i : ι) (params : LzReceiveParams) : Packet :=
  ⟨params.srcEid, params.sender, net.eid i, (m.stores i).storeKey, params.message⟩

/-- One store takes a step. A message from outside the network names a sender that is neither
one of its stores nor the all-zero address, which nobody sends from. -/
inductive Network.Step (net : Network ι) : Mesh ι → ι × Event → Mesh ι → Prop
  | internal {m : Mesh ι} {i : ι} {e : Event} {w : World}
      (step : FdfiToken.Step (net.runtime i) (m.stores i) e w) (quiet : e.isTransfer = false)
      (allowed : net.Allowed m i e) :
      Step net m (i, e) ⟨Function.update m.stores i w, m.inFlight⟩
  | send {m : Mesh ι} {i : ι} {clock : Clock} {accs : SendAccounts} {params : SendParams}
      {out : SendOutcome} {w : World}
      (step : FdfiToken.Step (net.runtime i) (m.stores i)
        (.executed clock (.send accs params) (.sent out)) w) :
      Step net m (i, .executed clock (.send accs params) (.sent out))
        ⟨Function.update m.stores i w, net.packet m i out.endpointCall ::ₘ m.inFlight⟩
  | deliver {m : Mesh ι} {i : ι} {clock : Clock} {metas : List LzAccount}
      {params : LzReceiveParams} {out : LzReceiveOutcome} {w : World}
      (step : FdfiToken.Step (net.runtime i) (m.stores i)
        (.executed clock (.lzReceive metas params) (.received out)) w)
      (sent : net.delivery m i params ∈ m.inFlight) :
      Step net m (i, .executed clock (.lzReceive metas params) (.received out))
        ⟨Function.update m.stores i w, m.inFlight.erase (net.delivery m i params)⟩
  | foreign {m : Mesh ι} {i : ι} {clock : Clock} {metas : List LzAccount}
      {params : LzReceiveParams} {out : LzReceiveOutcome} {w : World}
      (step : FdfiToken.Step (net.runtime i) (m.stores i)
        (.executed clock (.lzReceive metas params) (.received out)) w)
      (nonzero : params.sender ≠ Bytes32.fill 0)
      (outside : ∀ j, net.eid j = params.srcEid → (m.stores j).storeKey ≠ params.sender) :
      Step net m (i, .executed clock (.lzReceive metas params) (.received out))
        ⟨Function.update m.stores i w, m.inFlight⟩

structure Network.Launched (net : Network ι) (m : Mesh ι) : Prop where
  genesis : ∀ i, Genesis (net.runtime i) net.sharedDecimals (m.stores i)
  hub : (m.stores net.hub).oftStore.oftType = .adapter
  others : ∀ i, i ≠ net.hub → (m.stores i).oftStore.oftType = .native
  unminted : ∀ i, i ≠ net.hub → (m.stores i).supply = 0
  quiet : m.inFlight = 0

section Instructions

variable {net : Network ι} {m : Mesh ι} {i : ι} (ep : Endpoint) {clock : Clock} {w : World}

include ep in
theorem Network.Step.of_setPeerConfig {admin : Pubkey} {params : SetPeerConfigParams}
    (signed : (net.runtime i).signable admin = true)
    (h : SetPeerConfig.apply (net.runtime i) clock admin params (m.stores i) = .ok w)
    (allowed : net.Allowed m i (.executed clock (.setPeerConfig admin params) .done)) :
    Step net m (i, .executed clock (.setPeerConfig admin params) .done)
      ⟨Function.update m.stores i w, m.inFlight⟩ := by
  have hrun : execute (net.runtime i) ep clock (.setPeerConfig admin params) (m.stores i) =
      .ok (w, .done) := by
    rw [execute, h]
    rfl
  refine .internal (.executed (fun k hk => ?_) hrun) rfl allowed
  cases hk
  exact signed

theorem Network.Step.of_send {accs : SendAccounts} {params : SendParams} {out : SendOutcome}
    (signed : (net.runtime i).signable accs.signer = true)
    (h : Send.apply (net.runtime i) ep clock accs params (m.stores i) = .ok (w, out)) :
    Step net m (i, .executed clock (.send accs params) (.sent out))
      ⟨Function.update m.stores i w, net.packet m i out.endpointCall ::ₘ m.inFlight⟩ := by
  have hrun : execute (net.runtime i) ep clock (.send accs params) (m.stores i) =
      .ok (w, .sent out) := by
    rw [execute, h]
    rfl
  refine .send (.executed (fun k hk => ?_) hrun)
  cases hk
  exact signed

theorem Network.Step.of_lzReceive {metas : List LzAccount} {params : LzReceiveParams}
    {out : LzReceiveOutcome}
    (h : LzReceive.apply (net.runtime i) ep clock metas params (m.stores i) = .ok (w, out))
    (sent : net.delivery m i params ∈ m.inFlight) :
    Step net m (i, .executed clock (.lzReceive metas params) (.received out))
      ⟨Function.update m.stores i w, m.inFlight.erase (net.delivery m i params)⟩ := by
  have hrun : execute (net.runtime i) ep clock (.lzReceive metas params) (m.stores i) =
      .ok (w, .received out) := by
    rw [execute, h]
    rfl
  exact .deliver (.executed (fun k hk => by cases hk) hrun) sent

end Instructions

/-- Every store is well formed and of its type, and knows no peers but stores of the network. -/
structure Network.Sound (net : Network ι) (m : Mesh ι) : Prop where
  wellFormed : ∀ i, WellFormed (net.runtime i) net.sharedDecimals (m.stores i)
  hub : (m.stores net.hub).oftStore.oftType = .adapter
  others : ∀ i, i ≠ net.hub → (m.stores i).oftStore.oftType = .native
  peers : ∀ i eid, (m.stores i).peerAddress eid = Bytes32.fill 0 ∨
    ∃ j, net.eid j = eid ∧ (m.stores j).storeKey = (m.stores i).peerAddress eid

variable {net : Network ι} {m m' : Mesh ι} {l : ι × Event}

omit [DecidableEq ι] in
theorem Network.Launched.sound (h : net.Launched m) : net.Sound m where
  wellFormed i := .of_genesis (h.genesis i)
  hub := h.hub
  others := h.others
  peers i eid := by
    left
    rw [World.peerAddress, (h.genesis i).fresh.2.2 eid]
    rfl

/-- The store that moves takes a step of the program; the others stay. -/
theorem Network.Step.store (h : net.Step m l m') :
    ∃ w, FdfiToken.Step (net.runtime l.1) (m.stores l.1) l.2 w ∧
      m'.stores = Function.update m.stores l.1 w := by
  cases h with
  | internal step _ _ => exact ⟨_, step, rfl⟩
  | send step => exact ⟨_, step, rfl⟩
  | deliver step _ => exact ⟨_, step, rfl⟩
  | foreign step _ _ => exact ⟨_, step, rfl⟩

private theorem Network.Step.forall_stores {P : World → World → Prop} (h : net.Step m l m')
    (hrefl : ∀ w, P w w)
    (hstep : ∀ w, FdfiToken.Step (net.runtime l.1) (m.stores l.1) l.2 w → P (m.stores l.1) w)
    (i : ι) : P (m.stores i) (m'.stores i) := by
  obtain ⟨w, hw, hstores⟩ := h.store
  rw [hstores]
  by_cases hi : i = l.1
  · subst hi
    rw [Function.update_self]
    exact hstep w hw
  · rw [Function.update_of_ne hi]
    exact hrefl _

theorem Network.Step.sameStore (h : net.Step m l m') (i : ι) :
    SameStore (m.stores i) (m'.stores i) :=
  h.forall_stores SameStore.refl (fun _ hw => hw.sameStore) i

theorem Network.Step.peering (h : net.Step m l m') (eid : U32) (address : Bytes32)
    (hset : l.2.peerAddress eid = some address) :
    ∃ j, net.eid j = eid ∧ (m.stores j).storeKey = address := by
  cases h with
  | internal _ _ allowed => exact allowed.peering eid address hset
  | send _ => cases hset
  | deliver _ _ => cases hset
  | foreign _ _ _ => cases hset

theorem Network.Sound.step (h : net.Sound m) (hstep : net.Step m l m') : net.Sound m' where
  wellFormed i := by
    obtain ⟨w, hw, hstores⟩ := hstep.store
    rw [hstores]
    by_cases hi : i = l.1
    · subst hi
      rw [Function.update_self]
      exact (h.wellFormed _).step hw
    · rw [Function.update_of_ne hi]
      exact h.wellFormed i
  hub := (hstep.sameStore _).oftType.trans h.hub
  others i hi := (hstep.sameStore i).oftType.trans (h.others i hi)
  peers i eid := by
    have hkey (j : ι) : (m'.stores j).storeKey = (m.stores j).storeKey :=
      (hstep.sameStore j).storeKey
    have haddress : (m'.stores i).peerAddress eid = (m.stores i).peerAddress eid ∨
        l.2.peerAddress eid = some ((m'.stores i).peerAddress eid) := by
      refine hstep.forall_stores (P := fun w w' => w'.peerAddress eid = w.peerAddress eid ∨
        l.2.peerAddress eid = some (w'.peerAddress eid)) (fun _ => .inl rfl) (fun w hw => ?_) i
      have hpeer := (hw.peer eid).1
      cases hset : l.2.peerAddress eid with
      | none =>
        rw [hset] at hpeer
        exact .inl hpeer
      | some address =>
        rw [hset, Option.getD_some] at hpeer
        exact .inr (congrArg some hpeer.symm)
    rcases haddress with hold | hset
    · rw [hold]
      rcases h.peers i eid with hzero | ⟨j, hj, hmember⟩
      · exact .inl hzero
      · exact .inr ⟨j, hj, (hkey j).trans hmember⟩
    · obtain ⟨j, hj, hmember⟩ := hstep.peering eid _ hset
      exact .inr ⟨j, hj, (hkey j).trans hmember⟩

omit [DecidableEq ι] in
theorem Network.Sound.not_foreign (h : net.Sound m) {i : ι} {clock : Clock}
    {metas : List LzAccount} {params : LzReceiveParams} {out : LzReceiveOutcome} {w : World}
    (hstep : FdfiToken.Step (net.runtime i) (m.stores i)
      (.executed clock (.lzReceive metas params) (.received out)) w)
    (hnonzero : params.sender ≠ Bytes32.fill 0) :
    ∃ j, net.eid j = params.srcEid ∧ (m.stores j).storeKey = params.sender := by
  obtain ⟨a, peer, received⟩ := hstep.received
  have haddress : (m.stores i).peerAddress params.srcEid = params.sender := by
    rw [World.peerAddress, received.peer_eq]
    exact received.sender
  rw [← haddress] at hnonzero ⊢
  exact (h.peers i params.srcEid).resolve_left hnonzero

end Network

end FdfiToken
