import FdfiToken.Mesh.EndToEnd
import FdfiToken.Mesh.OmnichainBooks

/-!
# Backing of the omnichain token

Over whole runs: the adapter of the canonical token covers what the other chains issued, and
nothing exists there before the owner opens its gate.
-/

namespace FdfiToken

open Word Fallible Runs LockIssue

namespace Omnichain

section Backing

variable {ι κ : Type} [Fintype ι] [Fintype κ] [DecidableEq ι] [DecidableEq κ]
  {net : Omnichain ι κ} {m m' : OmniMesh net.evm.oz ι κ} {b : Books (Option ι ⊕ κ)}
  {g : Option κ → ℕ}

/-- Issued by satellites and stores or on its way, with 18 decimals, when `g` happened off the
wire. -/
def outstanding (net : Omnichain ι κ) (m : OmniMesh net.evm.oz ι κ) (g : Option κ → ℕ) : ℕ :=
  ∑ i, (m.satellites i).base.erc20.totalSupply.toNat +
    (∑ k, ((m.stores k).supply + g (some k)) / (m.stores k).oftStore.rate +
      (m.inFlight.map Packet.amountSd).sum) * 10 ^ 12

structure Backed (net : Omnichain ι κ) (ls : List (OmniEvent net.evm.oz ι κ))
    (m : OmniMesh net.evm.oz ι κ) : Prop where
  satellites : ∀ i, 10 ^ 12 ∣ (m.satellites i).base.erc20.totalSupply.toNat
  stores : ∀ k, (m.stores k).oftStore.rate ∣ (m.stores k).supply + net.total ls (some k)
  held : net.held m = net.outstanding m (net.total ls) + net.total ls none
  circulating : ∑ a ∈ Finset.univ.erase net.evm.adapter.1, m.adapter.base.erc20.holdings a +
    net.outstanding m (net.total ls) ≤ m.adapter.base.erc20.totalSupply.toNat
  capped : m.adapter.base.erc20.totalSupply.toNat ≤ Evm.maxSupply.toNat

private theorem Refines.outstanding_eq (h : net.Refines m b g) :
    (net.outstanding m g : ℤ) = b.locked * 10 ^ 12 := by
  have hstores (k : κ) : ((((m.stores k).supply + g (some k)) /
      (m.stores k).oftStore.rate : ℕ) : ℤ) = b.issued (.inr k) := by
    have hrate : ((m.stores k).oftStore.rate : ℤ) ≠ 0 := (h.sound.unit_pos (.inr k)).ne'
    push_cast
    rw [h.minted_eq, Int.mul_ediv_cancel _ hrate]
  have hbalanced := h.balanced
  rw [Books.Balanced, outside_eq] at hbalanced
  have hsatellites : ∑ i, ((m.satellites i).base.erc20.totalSupply.toNat : ℤ) =
      (∑ i, b.issued (.inl (some i))) * 10 ^ 12 := by
    rw [Finset.sum_mul]
    exact Finset.sum_congr rfl fun i _ => h.supply_eq i
  unfold outstanding
  rw [Nat.cast_add, Nat.cast_mul, Nat.cast_add, Nat.cast_sum, Nat.cast_sum, hsatellites,
    Finset.sum_congr rfl fun k _ => hstores k, h.inFlight, hbalanced]
  push_cast
  ring

/-- Whatever contracts and programs do, in any order, the adapter of the canonical token holds
exactly what satellites and stores have issued and what is on its way, and beyond that only what
it was given. -/
theorem omnichain_backed {ls : List (OmniEvent net.evm.oz ι κ)} (hm : net.Launched m)
    (hrun : Run net.Step m ls m') : net.Backed ls m' := by
  obtain ⟨b, -, h⟩ := hm.refines hrun
  have hout := h.outstanding_eq
  have hheld := h.held_eq
  have hledger : m'.adapter.base.erc20.totalSupply.toNat = net.held m' +
      ∑ a ∈ Finset.univ.erase net.evm.adapter.1, m'.adapter.base.erc20.holdings a :=
    h.sound.token.backed.trans (Finset.add_sum_erase _ _ (Finset.mem_univ _)).symm
  refine ⟨?_, ?_, by omega, by omega, h.sound.token.capped⟩
  · intro i
    have hsupply : ((10 ^ 12 : ℕ) : ℤ) ∣ (m'.satellites i).base.erc20.totalSupply.toNat := by
      rw [h.supply_eq]
      exact Dvd.intro_left _ rfl
    exact_mod_cast hsupply
  · intro k
    have hminted : ((m'.stores k).oftStore.rate : ℤ) ∣
        ((m'.stores k).supply + net.total ls (some k) : ℕ) := by
      push_cast
      rw [h.minted_eq]
      exact Dvd.intro_left _ rfl
    exact_mod_cast hminted

/-- Until the owner opens the gate of the canonical token nothing exists on any other chain. -/
theorem omnichain_closed {ls : List (OmniEvent net.evm.oz ι κ)} (hm : net.Launched m)
    (hrun : Run net.Step m ls m') (hclosed : m'.adapter.base.transfersEnabled = false) :
    (∀ i, (m'.satellites i).base.erc20.totalSupply = 0) ∧
      (∀ k, (m'.stores k).supply = 0 ∧ net.total ls (some k) = 0) ∧
      ∀ p ∈ m'.inFlight, p.amountSd = 0 := by
  obtain ⟨b, -, h⟩ := hm.refines hrun
  obtain ⟨hflight, hissued⟩ :=
    h.balanced.nothing_out hub h.issued_nonneg (h.gated hclosed)
  refine ⟨?_, ?_, ?_⟩
  · intro i
    have hsupply := h.supply_eq i
    rw [hissued _ (by simp), zero_mul] at hsupply
    exact BitVec.eq_of_toNat_eq (by exact_mod_cast hsupply)
  · intro k
    have hminted := h.minted_eq k
    rw [hissued _ (by simp), zero_mul] at hminted
    omega
  · intro p hp
    have hmem := Multiset.mem_map_of_mem Packet.amountSd hp
    rw [h.inFlight] at hmem
    exact Multiset.sum_eq_zero_iff.mp hflight _ hmem

end Backing

theorem token_run {ι κ : Type} [DecidableEq ι] [DecidableEq κ] (net : Omnichain ι κ)
    {txs : List Evm.TokenTx} {t t' : Evm.FDFIToken net.evm.oz}
    (h : Run Evm.FDFIToken.Step t txs t')
    (foreign : ∀ tx ∈ txs, tx.msg.sender ≠ net.evm.adapter.1) (m : OmniMesh net.evm.oz ι κ) :
    Run net.Step { m with adapter := { m.adapter with base := t } }
      (txs.map fun tx => .evm (.token tx))
      { m with adapter := { m.adapter with base := t' } } := by
  induction h with
  | nil t => exact .nil _
  | @cons t t₁ t₂ tx txs head tail ih =>
    exact .cons
      (@Step.evm _ _ _ _ net { m with adapter := { m.adapter with base := t } } _ _
        (.token (foreign _ List.mem_cons_self) head) rfl)
      (ih fun tx htx => foreign tx (List.mem_cons_of_mem _ htx))

end Omnichain

namespace Reference

open Evm.Reference (msgOf custody custody_ok spoke spoke_ok core)

def omni : Omnichain Unit Unit where
  evm := Evm.Reference.pair
  satelliteAddress _ := 0x5a7e
  codec := codec
  runtime _ := runtime
  storeEid _ := 3

def omniHub : Evm.Result (Evm.FDFIOFTAdapter (Evm.FDFIToken .reference)) :=
  Evm.FDFIOFTAdapter.construct .reference core (msgOf 1) 1
    [⟨2, 8000000000000, 3600⟩, ⟨3, 8000000000000, 3600⟩] (.deployed .reference)

private theorem omniHub_ok : omniHub.isOk = true := by decide

def omniLaunch : OmniMesh omni.evm.oz Unit Unit :=
  ⟨value _ omniHub_ok, fun _ => value _ spoke_ok, fun _ => nativeStore, 0⟩

theorem omniLaunch_launched : omni.Launched omniLaunch where
  evm :=
    { adapter := ⟨msgOf 1, 1, _, eq_ok_value omniHub omniHub_ok⟩
      satellites := fun _ => ⟨msgOf 1, 1, _, eq_ok_value spoke spoke_ok⟩
      quiet := rfl }
  genesis _ := native.store_genesis native_init
  native := by decide
  unminted := by decide
  quiet := rfl

def omniFunded : OmniMesh omni.evm.oz Unit Unit :=
  { omniLaunch with adapter := { omniLaunch.adapter with base := value _ custody_ok } }

def omniPeer (eid : U32) (party : Option Unit ⊕ Unit) (m : OmniMesh omni.evm.oz Unit Unit) :
    Result World :=
  SetPeerConfig.apply runtime (clockAt 10) admin ⟨eid, .peerAddress (omni.address m party)⟩
    (m.stores ())

private theorem hubPeer_ok : (omniPeer 1 (.inl none) omniFunded).isOk = true := by decide

def omniHubPeered : OmniMesh omni.evm.oz Unit Unit :=
  { omniFunded with stores := Function.update omniFunded.stores () (value _ hubPeer_ok) }

private theorem satellitePeer_ok : (omniPeer 2 (.inl (some ())) omniHubPeered).isOk = true :=
    by decide

def omniPeered : OmniMesh omni.evm.oz Unit Unit :=
  { omniHubPeered with
    stores := Function.update omniHubPeered.stores () (value _ satellitePeer_ok) }

def omniOutward : Evm.SendParam :=
  ⟨3, BigEndian.toWord 256 user.toList, 5000000000007, 5000000000000⟩

def omniDebit : Evm.Result
    (Evm.Debited (Evm.FDFIOFTAdapter (Evm.FDFIToken .reference)) × Evm.RateConsumed) :=
  omniPeered.adapter._debit .reference core (msgOf 5) 5 omniOutward.amountLD
    omniOutward.minAmountLD omniOutward.dstEid

private theorem omniDebit_ok : omniDebit.isOk = true := by decide

def omniMessage : Bytes :=
  omni.message (msgOf 5) omniOutward [] (value _ omniDebit_ok).1.amountReceivedLD

def omniSent : OmniMesh omni.evm.oz Unit Unit :=
  { omniPeered with
    adapter := (value _ omniDebit_ok).1.state
    inFlight := omni.packet omniPeered (.inl none) (.inr ()) omniMessage ::ₘ 0 }

def omniDelivery : LzReceiveParams :=
  ⟨1, omni.address omniSent (.inl none), 1, Bytes32.fill 9, omniMessage, []⟩

def omniMetas : List LzAccount :=
  (LzReceiveTypes.apply runtime (clockAt 30) omniDelivery (omniSent.stores ())).toOption.getD []

def omniReceive : Result (World × LzReceiveOutcome) :=
  LzReceive.apply runtime endpoint (clockAt 30) omniMetas omniDelivery (omniSent.stores ())

theorem omniReceive_ok : omniReceive.isOk = true := by decide

def omniReceived : OmniMesh omni.evm.oz Unit Unit :=
  { omniSent with
    stores := Function.update omniSent.stores () (value _ omniReceive_ok).1
    inFlight := omniSent.inFlight.erase (omni.storeDelivery omniSent () omniDelivery) }

def omniAccounts : SendAccounts :=
  ⟨user, (omniReceived.stores ()).recipientAccount runtime user, [admin, storeKey]⟩

def omniOnwardParams : SendParams := ⟨2, addressToBytes32 6, 300, 0, [], none, 5000, 0⟩

def omniOnward : Result (World × SendOutcome) :=
  Send.apply runtime endpoint (clockAt 40) omniAccounts omniOnwardParams (omniReceived.stores ())

theorem omniOnward_ok : omniOnward.isOk = true := by decide

def omniPacket : Packet :=
  omni.storePacket omniReceived () (value _ omniOnward_ok).2.endpointCall

def omniForwarded : OmniMesh omni.evm.oz Unit Unit :=
  { omniReceived with
    stores := Function.update omniReceived.stores () (value _ omniOnward_ok).1
    inFlight := omniPacket ::ₘ omniReceived.inFlight }

def omniCredit : Evm.Result (Evm.Credited (Evm.FDFIOFTUpgradeable Evm.OFTToken)) :=
  (omniForwarded.satellites ())._credit Evm.OFTToken.base (msgOf 9) (omni.recipient omniPacket)
    (omni.amountLD omniPacket) omniPacket.srcEid

set_option maxRecDepth 4096 in
private theorem omniCredit_ok : omniCredit.isOk = true := by decide

def omniCredited : OmniMesh omni.evm.oz Unit Unit :=
  { omniForwarded with
    satellites := Function.update omniForwarded.satellites () (value _ omniCredit_ok).state
    inFlight := omniForwarded.inFlight.erase omniPacket }

def omniHomeward : Evm.SendParam := ⟨1, 5, 1000000000000, 0⟩

def omniBurn : Evm.Result (Evm.Debited (Evm.FDFIOFTUpgradeable Evm.OFTToken)) :=
  (omniCredited.satellites ())._debit .reference Evm.OFTToken.base (msgOf 6) 6
    omniHomeward.amountLD omniHomeward.minAmountLD omniHomeward.dstEid

set_option maxRecDepth 4096 in
private theorem omniBurn_ok : omniBurn.isOk = true := by decide

def omniReturn : Bytes :=
  omni.message (msgOf 6) omniHomeward [] (value _ omniBurn_ok).amountReceivedLD

def omniLast : OmniMesh omni.evm.oz Unit Unit :=
  { omniCredited with
    satellites := Function.update omniCredited.satellites () (value _ omniBurn_ok).state
    inFlight := omni.packet omniCredited (.inl (some ())) (.inl none) omniReturn ::ₘ
      omniCredited.inFlight }

def omniSetPeer (eid : U32) (party : Option Unit ⊕ Unit) : OmniEvent omni.evm.oz Unit Unit :=
  .store () (.executed (clockAt 10)
    (.setPeerConfig admin ⟨eid, .peerAddress (omni.address omniFunded party)⟩) .done)

private theorem receive_step {clock : Clock} {metas : List LzAccount} {params : LzReceiveParams}
    {out : LzReceiveOutcome} {w w' : World}
    (h : LzReceive.apply runtime endpoint clock metas params w = .ok (w', out)) :
    FdfiToken.Step runtime w (.executed clock (.lzReceive metas params) (.received out)) w' := by
  have hrun : execute runtime endpoint clock (.lzReceive metas params) w =
      .ok (w', .received out) := by
    rw [execute, h]
    rfl
  exact .executed (fun k hk => by cases hk) hrun

private theorem send_step {clock : Clock} {accs : SendAccounts} {params : SendParams}
    {out : SendOutcome} {w w' : World} (hsigned : runtime.signable accs.signer = true)
    (h : Send.apply runtime endpoint clock accs params w = .ok (w', out)) :
    FdfiToken.Step runtime w (.executed clock (.send accs params) (.sent out)) w' := by
  have hrun : execute runtime endpoint clock (.send accs params) w = .ok (w', .sent out) := by
    rw [execute, h]
    rfl
  refine .executed (fun k hk => ?_) hrun
  cases hk
  exact hsigned

private theorem omniSetPeer_step {m : OmniMesh omni.evm.oz Unit Unit} {eid : U32}
    (party : Option Unit ⊕ Unit) {w : World} (heid : omni.eid party = eid)
    (haddress : ∀ q, omni.address m q = omni.address omniFunded q)
    (h : omniPeer eid party m = .ok w) :
    omni.Step m (omniSetPeer eid party)
      { m with stores := Function.update m.stores () w } := by
  have hrun : execute runtime endpoint (clockAt 10)
      (.setPeerConfig admin ⟨eid, .peerAddress (omni.address omniFunded party)⟩) (m.stores ()) =
        .ok (w, .done) := by
    rw [omniPeer, haddress] at h
    rw [execute, h]
    rfl
  refine .store (.executed (fun k hk => ?_) hrun) rfl ⟨?_, rfl⟩
  · cases hk
    decide
  · intro eid' address hset
    simp only [Event.peerAddress] at hset
    split at hset
    · rename_i hsame
      cases hset
      exact ⟨party, heid.trans hsame, haddress party⟩
    · cases hset

def omniPreparation : List (OmniEvent omni.evm.oz Unit Unit) :=
  [⟨msgOf 1, .init 1⟩, ⟨msgOf 1, .enableTransfers⟩, ⟨msgOf 1, .mintTo 5 8000000000000⟩,
    ⟨msgOf 5, .approve Evm.Reference.adapter.1 8000000000000⟩,
    ⟨msgOf 1, .mintTo Evm.Reference.adapter.1 8000000000000⟩].map
      (fun tx : Evm.TokenTx => .evm (.token tx)) ++
    [omniSetPeer 1 (.inl none), omniSetPeer 2 (.inl (some ()))]

def omniReceiveEvent : OmniEvent omni.evm.oz Unit Unit :=
  .store () (.executed (clockAt 30) (.lzReceive omniMetas omniDelivery)
    (.received (value _ omniReceive_ok).2))

def omniOnwardEvent : OmniEvent omni.evm.oz Unit Unit :=
  .store () (.executed (clockAt 40) (.send omniAccounts omniOnwardParams)
    (.sent (value _ omniOnward_ok).2))

def omniEvents : List (OmniEvent omni.evm.oz Unit Unit) :=
  omniPreparation ++
    [.evmSend none (msgOf 5) omniOutward omniMessage, omniReceiveEvent, omniOnwardEvent,
      .evmDeliver (some ()) (msgOf 9) omniPacket,
      .evmSend (some ()) (msgOf 6) omniHomeward omniReturn]

theorem omniPeered_run : Run omni.Step omniLaunch omniPreparation omniPeered := by
  have hfunded := omni.token_run (Run.of_foldlM _ (eq_ok_value custody custody_ok)) (by decide)
    omniLaunch
  have haddress (q : Option Unit ⊕ Unit) :
      omni.address omniHubPeered q = omni.address omniFunded q := by
    match q with
    | .inl none => rfl
    | .inl (some ()) => rfl
    | .inr () => decide
  have hhub := omniSetPeer_step (.inl none) rfl (fun _ => rfl) (eq_ok_value _ hubPeer_ok)
  have hsatellite := omniSetPeer_step (m := omniHubPeered) (.inl (some ())) rfl haddress
    (eq_ok_value _ satellitePeer_ok)
  exact hfunded.append (.cons hhub (.cons hsatellite (.nil _)))

theorem omniSent_step :
    omni.Step omniPeered (.evmSend none (msgOf 5) omniOutward omniMessage) omniSent :=
  @Omnichain.Step.adapterSend Unit Unit _ _ omni omniPeered (msgOf 5) omniOutward [] (.inr ()) _ _
    (by decide) rfl (eq_ok_value omniDebit omniDebit_ok)

theorem omniReceived_step : omni.Step omniSent omniReceiveEvent omniReceived :=
  .storeDeliver (receive_step (eq_ok_value omniReceive omniReceive_ok)) (by decide)

theorem omniForwarded_step : omni.Step omniReceived omniOnwardEvent omniForwarded :=
  .storeSend (send_step (by decide) (eq_ok_value omniOnward omniOnward_ok))

theorem omniCredited_step :
    omni.Step omniForwarded (.evmDeliver (some ()) (msgOf 9) omniPacket) omniCredited :=
  .satelliteDeliver (Multiset.mem_cons_self omniPacket omniReceived.inFlight)
    ⟨by decide, by decide⟩ (eq_ok_value omniCredit omniCredit_ok)

theorem omniLast_step :
    omni.Step omniCredited (.evmSend (some ()) (msgOf 6) omniHomeward omniReturn) omniLast :=
  @Omnichain.Step.satelliteSend Unit Unit _ _ omni omniCredited () (msgOf 6) omniHomeward []
    (.inl none) _ rfl (eq_ok_value omniBurn omniBurn_ok)

theorem omniEvents_run : Run omni.Step omniLaunch omniEvents omniLast :=
  omniPeered_run.append (.cons omniSent_step (.cons omniReceived_step (.cons omniForwarded_step
    (.cons omniCredited_step (.cons omniLast_step (.nil _))))))

set_option maxRecDepth 8192 in
theorem omnichain_backed_sample :
    omni.held omniLast = 13000000000000 ∧
      omni.outstanding omniLast (omni.total omniEvents) = 5000000000000 ∧
      ((omniLast.satellites ()).base.erc20.totalSupply, (omniLast.stores ()).supply) =
        (2000000000000, 200) ∧
      (omniLast.inFlight.map Packet.amountSd).sum = 1 ∧
      omni.Backed omniEvents omniLast :=
  ⟨by decide, by decide, by decide, by decide,
    omni.omnichain_backed omniLaunch_launched omniEvents_run⟩

def closedToken : Evm.Result (Evm.FDFIToken .reference) :=
  [⟨msgOf 1, .init 1⟩, ⟨msgOf 1, .mintTo 5 8000000000000⟩].foldlM
    (fun s (tx : Evm.TokenTx) => s.exec tx) (.deployed .reference)

private theorem closedToken_ok : closedToken.isOk = true := by decide

def omniClosed : OmniMesh omni.evm.oz Unit Unit :=
  { omniLaunch with adapter := { omniLaunch.adapter with base := value _ closedToken_ok } }

theorem omnichain_closed_sample :
    omniClosed.adapter.base.erc20.totalSupply = 8000000000000 ∧
      (omniClosed.satellites ()).base.erc20.totalSupply = 0 ∧
      (omniClosed.stores ()).supply = 0 := by
  have hrun := omni.token_run (Run.of_foldlM _ (eq_ok_value closedToken closedToken_ok))
    (by decide) omniLaunch
  have hclosed := omni.omnichain_closed omniLaunch_launched hrun (by decide)
  exact ⟨by decide, hclosed.1 (), (hclosed.2.1 ()).1⟩

end Reference

end FdfiToken
