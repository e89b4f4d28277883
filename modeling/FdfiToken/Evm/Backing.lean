import FdfiToken.Evm.Hooks
import FdfiToken.Evm.Lanes
import Mathlib.Algebra.BigOperators.Group.Multiset.Basic

/-!
# Backing of the EVM mesh

What the adapter holds is what the satellites have issued, what is in flight, and what was given
to it outright. The cap on the canonical token then keeps every amount inside `uint64`.
-/

namespace FdfiToken.Evm

open Word Fallible Shifts Runs

section Mesh

variable {ι : Type} [Fintype ι] {net : Network ι} {m m' : Mesh net.oz ι}
  {l : MeshEvent net.oz ι}

def Network.locked (net : Network ι) (m : Mesh net.oz ι) : ℕ :=
  m.adapter.base.erc20.holdings net.adapter.1

def Mesh.issued {oz : OpenZeppelin} (m : Mesh oz ι) : ℕ :=
  ∑ i, (m.satellites i).base.erc20.totalSupply.toNat

def flightLD (ps : Multiset (Packet ι)) : ℕ := (ps.map fun p => p.amountLD.toNat).sum

/-- What an event gives to the adapter outright: transfers and mints to it, and credits that
name it as their recipient. -/
def Network.donated (net : Network ι) : MeshEvent net.oz ι → ℕ
  | .token tx => tx.paidTo net.adapter.1
  | .deliver _ packet =>
    match packet.dst with
    | none => if packet.recipient = net.adapter.1 then packet.amountLD.toNat else 0
    | some _ => 0
  | _ => 0

/-- Every ledger is sound, nobody may spend for the adapter, and it covers what is out. -/
structure Network.Sound (net : Network ι) (m : Mesh net.oz ι) : Prop where
  token : m.adapter.base.Sound
  allowances : ∀ spender, m.adapter.base.erc20.allowances net.adapter.1 spender = 0
  satellites : ∀ i, (m.satellites i).base.erc20.Backed
  covered : m.issued + flightLD m.inFlight ≤ net.locked m

structure Network.Booked (net : Network ι) (l : MeshEvent net.oz ι) (m m' : Mesh net.oz ι) :
    Prop where
  token : m'.adapter.base.Sound
  allowances : ∀ spender, m'.adapter.base.erc20.allowances net.adapter.1 spender = 0
  satellites : ∀ i, (m'.satellites i).base.erc20.Backed
  books : net.locked m' + (m.issued + flightLD m.inFlight) =
    net.locked m + (m'.issued + flightLD m'.inFlight) + net.donated l

private theorem Network.Sound.booked (hm : net.Sound m) (h : net.Booked l m m') : net.Sound m' where
  token := h.token
  allowances := h.allowances
  satellites := h.satellites
  covered := by
    have hbooks := h.books
    have hcovered := hm.covered
    omega

private theorem Network.Sound.supply_le (hm : net.Sound m) (i : ι) :
    (m.satellites i).base.erc20.totalSupply.toNat ≤ maxSupply.toNat := by
  have hone := Finset.single_le_sum
    (f := fun i => (m.satellites i).base.erc20.totalSupply.toNat) (fun _ _ => Nat.zero_le _)
    (Finset.mem_univ i)
  have hcovered := hm.covered
  have hheld := ERC20.holdings_le_supply hm.token.backed net.adapter.1
  have hcap := hm.token.capped
  unfold Mesh.issued at hcovered
  unfold Network.locked at hcovered
  omega

omit [Fintype ι] in
theorem Network.grantor_ne (net : Network ι) {s s' : FDFIToken net.oz} {tx : TokenTx}
    (foreign : tx.msg.sender ≠ net.adapter.1) (h : s.exec tx = .ok s') :
    tx.grantor ≠ some net.adapter.1 := by
  obtain ⟨msg, call⟩ := tx
  intro hgrant
  cases call with
  | approve spender value => exact foreign (Option.some.inj hgrant)
  | permit p signature =>
    have hsigned := FDFIToken.permit_signed h rfl
    exact net.no_key _ _ _ (hsigned.trans hgrant)
  | _ => cases hgrant

theorem Network.Sound.adapter_call (hm : net.Sound m) {tx : TokenTx} {t : FDFIToken net.oz}
    (hgrant : tx.grantor = none) (h : m.adapter.base.exec tx = .ok t) :
    t.Sound ∧ ∀ spender, t.erc20.allowances net.adapter.1 spender = 0 := by
  refine ⟨hm.token.step h, FDFIToken.exec_allows_nobody ?_ hm.allowances h⟩
  rw [hgrant]
  exact (Option.some_ne_none _).symm

theorem Network.Sound.pulled (hm : net.Sound m) {msg : Msg} {src : Address} {amount : U256}
    {t : FDFIToken net.oz} (hsrc : src ≠ net.adapter.1)
    (h : m.adapter.base.exec ⟨OFTAdapter.callAs net.adapter msg,
      .transferFrom src net.adapter.1 amount⟩ = .ok t) :
    t.erc20.holdings net.adapter.1 = net.locked m + amount.toNat ∧
      amount.toNat ≤ maxSupply.toNat := by
  obtain ⟨hends, f, -, hmoved⟩ := FDFIToken.exec_moved h rfl
  have hupdated := hmoved.ledger_of hm.token.backed
  have hbooks : t.erc20.holdings net.adapter.1 + ERC20.side src amount net.adapter.1 =
      net.locked m + ERC20.side net.adapter.1 amount net.adapter.1 :=
    hupdated.holdings.apply _
  rw [ERC20.side_of_ne _ (Ne.symm hsrc), ERC20.side_self _ net.adapter.2] at hbooks
  refine ⟨hbooks, ?_⟩
  by_cases hzero : src = 0
  · cases hends.mint hzero
  · have hcovered : amount.toNat ≤ m.adapter.base.erc20.holdings src := hupdated.covered hzero
    exact (hcovered.trans (ERC20.holdings_le_supply hm.token.backed src)).trans hm.token.capped

theorem Network.Sound.paid (hm : net.Sound m) {msg : Msg} {dst : Address} {amount : U256}
    {t : FDFIToken net.oz}
    (h : m.adapter.base.exec ⟨OFTAdapter.callAs net.adapter msg, .transfer dst amount⟩ = .ok t) :
    t.erc20.holdings net.adapter.1 + amount.toNat =
      net.locked m + if dst = net.adapter.1 then amount.toNat else 0 := by
  obtain ⟨hends, f, -, hmoved⟩ := FDFIToken.exec_moved h rfl
  have hbooks : t.erc20.holdings net.adapter.1 +
      ERC20.side net.adapter.1 amount net.adapter.1 =
      net.locked m + ERC20.side dst amount net.adapter.1 :=
    (hmoved.ledger_of hm.token.backed).holdings.apply _
  rw [ERC20.side_self _ net.adapter.2] at hbooks
  by_cases hdst : dst = net.adapter.1
  · rw [hdst, ERC20.side_self _ net.adapter.2] at hbooks
    rw [if_pos hdst]
    exact hbooks
  · rw [ERC20.side_of_ne _ (Ne.symm hdst)] at hbooks
    rw [if_neg hdst]
    exact hbooks

theorem Network.Sound.burned (hm : net.Sound m) {i : ι} {amount supply : U256}
    (h : Shift amount.toNat 0 (m.satellites i).base.erc20.totalSupply.toNat supply.toNat) :
    amount.toNat ≤ maxSupply.toNat := by
  have hsupply := hm.supply_le i
  unfold Shift at h
  omega

variable [DecidableEq ι]

private theorem Network.Sound.lossless (hm : net.Sound m) {msg : Msg} {param : SendParam}
    {amountReceivedLD : U256} {packet : Packet ι}
    (h : net.Step m (.send msg param amountReceivedLD packet) m') :
    packet.amountSD.toNat * 10 ^ 12 = amountReceivedLD.toNat := by
  have hfits {amountLD : U256} (hcap : (OFTCore.removeDust amountLD).toNat ≤ maxSupply.toNat) :
      (OFTCore.toSD (OFTCore.removeDust amountLD)).toNat * 10 ^ 12 =
        (OFTCore.removeDust amountLD).toNat := by
    rw [toNat_maxSupply] at hcap
    exact OFTCore.toNat_toSD_removeDust (by omega)
  cases h with
  | @adapterSend msg param dst out event foreign peer h =>
    obtain ⟨hamount, hpull⟩ := OFTAdapter.debit_eq_ok (FDFIOFTAdapter.debit_forwards h)
    have hcap := (hm.pulled foreign hpull).2
    rw [hamount] at hcap
    change out.amountReceivedLD = _ at hamount
    rw [SendParam.packet, hamount]
    exact hfits hcap
  | @satelliteSend i msg param dst out peer h =>
    obtain ⟨hamount, -, hburn⟩ :=
      OFTToken.debit_eq_ok (hm.satellites i) (FDFIOFTUpgradeable.debit_forwards h)
    have hcap := hm.burned hburn
    rw [hamount] at hcap
    change out.amountReceivedLD = _ at hamount
    rw [SendParam.packet, hamount]
    exact hfits hcap

private theorem issued_update {out into : ℕ} {i : ι} {c : FDFIOFTUpgradeable OFTToken}
    (h : Shift out into (m.satellites i).base.erc20.totalSupply.toNat
      c.base.erc20.totalSupply.toNat) (a : FDFIOFTAdapter (FDFIToken net.oz))
    (ps : Multiset (Packet ι)) :
    Shift out into m.issued (Mesh.mk a (Function.update m.satellites i c) ps).issued := by
  have hsum := Shift.sum_update
    (fun j => (m.satellites j).base.erc20.totalSupply.toNat) h
  have hfamily : (fun j => ((Function.update m.satellites i c) j).base.erc20.totalSupply.toNat) =
      Function.update (fun j => (m.satellites j).base.erc20.totalSupply.toNat) i
        c.base.erc20.totalSupply.toNat := by
    funext j
    exact Function.apply_update (fun _ c => c.base.erc20.totalSupply.toNat) m.satellites i c j
  unfold Mesh.issued
  rw [hfamily]
  exact hsum

omit [Fintype ι] in
theorem satellites_update {P : FDFIOFTUpgradeable OFTToken → Prop} (hm : ∀ i, P (m.satellites i))
    {i : ι} {c : FDFIOFTUpgradeable OFTToken} (hc : P c) (j : ι) :
    P (Function.update m.satellites i c j) := by
  by_cases hj : j = i
  · subst hj
    rw [Function.update_self]
    exact hc
  · rw [Function.update_of_ne hj]
    exact hm j

omit [Fintype ι] [DecidableEq ι] in
@[simp] theorem flightLD_cons (p : Packet ι) (ps : Multiset (Packet ι)) :
    flightLD (p ::ₘ ps) = p.amountLD.toNat + flightLD ps := by
  simp [flightLD]

omit [Fintype ι] in
private theorem flightLD_erase {p : Packet ι} {ps : Multiset (Packet ι)} (h : p ∈ ps) :
    p.amountLD.toNat + flightLD (ps.erase p) = flightLD ps := by
  rw [← flightLD_cons, Multiset.cons_erase h]

omit [DecidableEq ι] in
private theorem Network.Sound.book_adapter (hm : net.Sound m)
    {a : FDFIOFTAdapter (FDFIToken net.oz)} {ps : Multiset (Packet ι)} (htoken : a.base.Sound)
    (hallow : ∀ spender, a.base.erc20.allowances net.adapter.1 spender = 0)
    (hbooks : a.base.erc20.holdings net.adapter.1 + flightLD m.inFlight =
      net.locked m + flightLD ps + net.donated l) :
    net.Booked l m ⟨a, m.satellites, ps⟩ := by
  refine ⟨htoken, hallow, hm.satellites, ?_⟩
  change a.base.erc20.holdings net.adapter.1 + (m.issued + flightLD m.inFlight) =
    net.locked m + (m.issued + flightLD ps) + net.donated l
  omega

private theorem Network.Sound.book_satellite (hm : net.Sound m) {i : ι}
    {c : FDFIOFTUpgradeable OFTToken} {ps : Multiset (Packet ι)} {out into : ℕ}
    (hback : c.base.erc20.Backed)
    (hsupply : Shift out into (m.satellites i).base.erc20.totalSupply.toNat
      c.base.erc20.totalSupply.toNat)
    (hbooks : out + flightLD m.inFlight = into + flightLD ps + net.donated l) :
    net.Booked l m ⟨m.adapter, Function.update m.satellites i c, ps⟩ := by
  have hissued := issued_update hsupply m.adapter ps
  refine ⟨hm.token, hm.allowances,
    satellites_update (P := fun c => c.base.erc20.Backed) hm.satellites hback, ?_⟩
  unfold Shift at hissued
  simp only [Network.locked]
  omega

/-- Every step books exactly what it gives to the adapter outright. -/
theorem Network.Sound.step (hm : net.Sound m) (h : net.Step m l m') : net.Booked l m m' := by
  have hstep := h
  cases h with
  | @token tx t foreign h =>
    have hgrant := net.grantor_ne foreign h
    have hreceives := FDFIToken.exec_receives hm.token net.adapter.2 foreign hm.allowances h
    refine hm.book_adapter (hm.token.step h)
      (FDFIToken.exec_allows_nobody hgrant hm.allowances h) ?_
    change t.erc20.holdings net.adapter.1 + flightLD m.inFlight =
      net.locked m + flightLD m.inFlight + tx.paidTo net.adapter.1
    rw [hreceives]
    unfold Network.locked
    omega
  | @holder i msg call t h =>
    obtain ⟨hback, hsupply⟩ := OFTToken.exec_supply (hm.satellites i) h
    have hsame : Shift 0 0 (m.satellites i).base.erc20.totalSupply.toNat
        t.erc20.totalSupply.toNat := congrArg BitVec.toNat hsupply
    exact hm.book_satellite hback hsame (Nat.add_zero _).symm
  | @adapterAdmin msg call a admin h =>
    have hbase := (FDFIOFTAdapter.exec_admin admin h).2
    refine hm.book_adapter ?_ ?_ ?_
    · rw [hbase]
      exact hm.token
    · rw [hbase]
      exact hm.allowances
    · rw [hbase]
      rfl
  | @satelliteAdmin i msg call c admin h =>
    have hbase := (FDFIOFTUpgradeable.exec_admin admin h).2
    have hsame : Shift 0 0 (m.satellites i).base.erc20.totalSupply.toNat
        c.base.erc20.totalSupply.toNat := by
      rw [hbase]
      exact Shift.refl _
    refine hm.book_satellite ?_ hsame (Nat.add_zero _).symm
    rw [hbase]
    exact hm.satellites i
  | @adapterSend msg param dst out event foreign peer h =>
    obtain ⟨-, hpull⟩ := OFTAdapter.debit_eq_ok (FDFIOFTAdapter.debit_forwards h)
    obtain ⟨htoken, hallow⟩ := hm.adapter_call rfl hpull
    have hheld : out.state.base.erc20.holdings net.adapter.1 =
        net.locked m + out.amountReceivedLD.toNat := (hm.pulled foreign hpull).1
    refine hm.book_adapter htoken hallow ?_
    rw [hheld, flightLD_cons, Packet.amountLD, OFTCore.toNat_toLD, hm.lossless hstep]
    change _ = _ + _ + 0
    omega
  | @satelliteSend i msg param dst out peer h =>
    obtain ⟨-, hback, hburn⟩ :=
      OFTToken.debit_eq_ok (hm.satellites i) (FDFIOFTUpgradeable.debit_forwards h)
    refine hm.book_satellite hback hburn ?_
    change out.amountReceivedLD.toNat + _ = _
    rw [flightLD_cons, Packet.amountLD, OFTCore.toNat_toLD, hm.lossless hstep]
    change _ = _ + _ + 0
    omega
  | @adapterDeliver msg packet out event sent here h =>
    have hpay := OFTAdapter.credit_eq_ok (FDFIOFTAdapter.credit_forwards h)
    obtain ⟨htoken, hallow⟩ := hm.adapter_call rfl hpay
    have hpaid := hm.paid hpay
    have hflight := flightLD_erase sent
    refine hm.book_adapter htoken hallow ?_
    have hdonated : net.donated (.deliver msg packet) =
        if packet.recipient = net.adapter.1 then packet.amountLD.toNat else 0 := by
      rw [Network.donated, here]
    rw [hdonated]
    change out.state.base.erc20.holdings _ + _ = _ at hpaid
    omega
  | @satelliteDeliver i msg packet out sent here h =>
    obtain ⟨hback, hmint⟩ :=
      OFTToken.credit_eq_ok (hm.satellites i) (FDFIOFTUpgradeable.credit_forwards h)
    have hflight := flightLD_erase sent
    refine hm.book_satellite hback hmint ?_
    have hdonated : net.donated (.deliver msg packet) = 0 := by
      rw [Network.donated, here]
    rw [hdonated]
    omega

omit [DecidableEq ι] in
theorem Network.Launched.nothing_out (h : net.Launched m) :
    m.issued + flightLD m.inFlight = 0 ∧ net.locked m = 0 := by
  obtain ⟨msg, owner_, configs, hadapter⟩ := h.adapter
  have hissued : m.issued = 0 := by
    refine Finset.sum_eq_zero fun i _ => ?_
    obtain ⟨msg, owner_, configs, hsatellite⟩ := h.satellites i
    rw [FDFIOFTUpgradeable.init_base hsatellite]
    rfl
  rw [hissued, h.quiet, Network.locked, FDFIOFTAdapter.construct_base hadapter]
  exact ⟨rfl, rfl⟩

omit [DecidableEq ι] in
theorem Network.Launched.sound (h : net.Launched m) : net.Sound m := by
  obtain ⟨msg, owner_, configs, hadapter⟩ := h.adapter
  have hbase := FDFIOFTAdapter.construct_base hadapter
  refine ⟨?_, ?_, ?_, ?_⟩
  · rw [hbase]
    exact FDFIToken.sound_deployed net.oz
  · intro spender
    rw [hbase]
    rfl
  · intro i
    obtain ⟨msg, owner_, configs, hsatellite⟩ := h.satellites i
    rw [FDFIOFTUpgradeable.init_base hsatellite]
    exact ERC20.backed_empty
  · rw [h.nothing_out.1]
    exact Nat.zero_le _

def Network.surplus (net : Network ι) (m : Mesh net.oz ι) : ℕ :=
  net.locked m - (m.issued + flightLD m.inFlight)

omit [DecidableEq ι] in
private theorem Network.Sound.surplus_booked (hm : net.Sound m) (h : net.Booked l m m') :
    net.surplus m' = net.surplus m + net.donated l := by
  have hcovered := hm.covered
  have hbooks := h.books
  unfold Network.surplus
  omega

/-- The surplus of a mesh is what was given to the adapter outright. -/
theorem Network.Launched.surplus_run {ls : List (MeshEvent net.oz ι)} (hm : net.Launched m)
    (h : Run net.Step m ls m') : net.Sound m' ∧ net.surplus m' = (ls.map net.donated).sum := by
  have hstep : ∀ m l m', net.Sound m → net.Step m l m' → net.Sound m' :=
    fun _ _ _ hm h => hm.booked (hm.step h)
  refine ⟨h.invariant hstep hm.sound, ?_⟩
  have hledger := h.ledger net.surplus net.donated hstep
    (fun _ _ _ hm h => hm.surplus_booked (hm.step h)) hm.sound
  obtain ⟨hout, hlocked⟩ := hm.nothing_out
  rw [hledger, Network.surplus, hlocked, Nat.zero_sub, Nat.zero_add]

structure Network.Backed (net : Network ι) (ls : List (MeshEvent net.oz ι))
    (m : Mesh net.oz ι) : Prop where
  covered : m.issued + flightLD m.inFlight ≤ net.locked m
  exact_without_gifts : (∀ l ∈ ls, net.donated l = 0) →
    net.locked m = m.issued + flightLD m.inFlight
  surplus : net.locked m = m.issued + flightLD m.inFlight + (ls.map net.donated).sum
  circulating : ∑ a ∈ Finset.univ.erase net.adapter.1, m.adapter.base.erc20.holdings a +
    m.issued + flightLD m.inFlight ≤ m.adapter.base.erc20.totalSupply.toNat
  capped : m.adapter.base.erc20.totalSupply.toNat ≤ maxSupply.toNat
  lossless (msg : Msg) (param : SendParam) (amountReceivedLD : U256) (packet : Packet ι) :
    .send msg param amountReceivedLD packet ∈ ls →
      packet.amountSD.toNat * 10 ^ 12 = amountReceivedLD.toNat
  releasable (packet : Packet ι) : packet ∈ m.inFlight → packet.dst = none →
    packet.amountLD.toNat ≤ net.locked m ∧ ∀ msg e,
      m.adapter._credit net.lib (OFTAdapter.base net.oz net.adapter) msg packet.recipient
          packet.amountLD (net.eid packet.src) = .error e →
        net.lib.capacity msg (m.adapter.rateLimits.inflow (net.eid packet.src) packet.amountLD
          (net.eid packet.src)) = .error e ∨
        packet.recipient = 0 ∨ m.adapter.base.transfersEnabled = false ∨
        net.oz.transferVotingUnits (OFTAdapter.callAs net.adapter msg) net.adapter.1
          packet.recipient packet.amountLD m.adapter.base.votes = .error e

/-- However events interleave, the adapter covers what the satellites issued and what is in
flight, and holds no more than that but for what it was given. -/
theorem Network.run_backed {ls : List (MeshEvent net.oz ι)} (hm : net.Launched m)
    (h : Run net.Step m ls m') : net.Backed ls m' := by
  obtain ⟨hsound, hsurplus⟩ := hm.surplus_run h
  have hcovered := hsound.covered
  unfold Network.surplus at hsurplus
  have hledger : m'.adapter.base.erc20.totalSupply.toNat = net.locked m' +
      ∑ a ∈ Finset.univ.erase net.adapter.1, m'.adapter.base.erc20.holdings a :=
    hsound.token.backed.trans (Finset.add_sum_erase _ _ (Finset.mem_univ _)).symm
  refine ⟨hcovered, ?_, by omega, by omega, hsound.token.capped, ?_, ?_⟩
  · intro hnone
    have hzero : (ls.map net.donated).sum = 0 :=
      List.sum_eq_zero (List.forall_mem_map.mpr hnone)
    omega
  · intro msg param amountReceivedLD packet hsent
    refine h.label_of (I := net.Sound) (Q := fun l => ∀ msg param amountReceivedLD packet,
      l = .send msg param amountReceivedLD packet →
        packet.amountSD.toNat * 10 ^ 12 = amountReceivedLD.toNat)
      (fun _ _ _ hm h => hm.booked (hm.step h)) ?_ hm.sound _ hsent _ _ _ _ rfl
    intro m l m' hm hstep msg param amountReceivedLD packet hl
    subst hl
    exact hm.lossless hstep
  · intro packet hpacket _
    have hpart := flightLD_erase hpacket
    have hle : packet.amountLD.toNat ≤ net.locked m' := by omega
    refine ⟨hle, fun msg e herror => ?_⟩
    rcases FDFIOFTAdapter.credit_eq_error herror with hcapacity | hbase
    · exact .inl hcapacity
    · exact .inr (OFTAdapter.credit_eq_error hle hbase)

end Mesh

namespace Reference

def pair : Network Unit where
  oz := .reference
  lib := .reference
  adapter := adapter
  eid party := if party.isNone then 1 else 2
  recoverPermit _ _ _ _ := none
  no_key _ _ _ h := by cases h

def hub : Result (FDFIOFTAdapter (FDFIToken .reference)) :=
  FDFIOFTAdapter.construct .reference core (msgOf 1) 1 [⟨2, 8000000000000, 3600⟩]
    (.deployed .reference)

def spoke : Result (FDFIOFTUpgradeable OFTToken) :=
  (FDFIOFTUpgradeable.deployed .deployed).init .reference OFTToken.base (msgOf 1)
    [⟨1, 8000000000000, 3600⟩] 1

private theorem hub_ok : hub.isOk = true := by decide

theorem spoke_ok : spoke.isOk = true := by decide

def launched : Mesh pair.oz Unit := ⟨value _ hub_ok, fun _ => value _ spoke_ok, 0⟩

theorem pair_launched : pair.Launched launched where
  adapter := ⟨msgOf 1, 1, _, eq_ok_value hub hub_ok⟩
  satellites _ := ⟨msgOf 1, 1, _, eq_ok_value spoke spoke_ok⟩
  quiet := rfl

def funded : Mesh pair.oz Unit :=
  { launched with adapter := { launched.adapter with base := value _ custody_ok } }

def outward : SendParam := ⟨2, 6, 5000000000007, 5000000000000⟩

def outwardDebit : Result (Debited (FDFIOFTAdapter (FDFIToken .reference)) × RateConsumed) :=
  funded.adapter._debit .reference core (msgOf 5) 5 outward.amountLD outward.minAmountLD
    outward.dstEid

private theorem outwardDebit_ok : outwardDebit.isOk = true := by decide

def outwardPacket : Packet Unit :=
  outward.packet none (some ()) (value _ outwardDebit_ok).1.amountReceivedLD

def outwardCredit : Result (Credited (FDFIOFTUpgradeable OFTToken)) :=
  (value _ spoke_ok)._credit OFTToken.base (msgOf 9) outwardPacket.recipient
    outwardPacket.amountLD 1

private theorem outwardCredit_ok : outwardCredit.isOk = true := by decide

def homeward : SendParam := ⟨1, 5, 2000000000000, 0⟩

def homewardDebit : Result (Debited (FDFIOFTUpgradeable OFTToken)) :=
  (value _ outwardCredit_ok).state._debit .reference OFTToken.base (msgOf 6) 6
    homeward.amountLD homeward.minAmountLD homeward.dstEid

private theorem homewardDebit_ok : homewardDebit.isOk = true := by decide

def homewardPacket : Packet Unit :=
  homeward.packet (some ()) none (value _ homewardDebit_ok).amountReceivedLD

def bridged : Mesh pair.oz Unit where
  adapter := (value _ outwardDebit_ok).1.state
  satellites _ := (value _ homewardDebit_ok).state
  inFlight := {homewardPacket}

def itinerary : List (MeshEvent pair.oz Unit) :=
  [⟨msgOf 1, .init 1⟩, ⟨msgOf 1, .enableTransfers⟩, ⟨msgOf 1, .mintTo 5 8000000000000⟩,
    ⟨msgOf 5, .approve adapter.1 8000000000000⟩,
    ⟨msgOf 1, .mintTo adapter.1 8000000000000⟩].map (fun tx => .token tx) ++
    [.send (msgOf 5) outward (value _ outwardDebit_ok).1.amountReceivedLD outwardPacket,
      .deliver (msgOf 9) outwardPacket,
      .send (msgOf 6) homeward (value _ homewardDebit_ok).amountReceivedLD homewardPacket]

private theorem satellites_one (f : Unit → FDFIOFTUpgradeable OFTToken)
    (c : FDFIOFTUpgradeable OFTToken) : Function.update f () c = fun _ => c := by
  funext i
  exact Function.update_self (f := f) i c

private theorem bridged_run : Run pair.Step launched itinerary bridged := by
  have hfunded := pair.token_run (Run.of_foldlM _ (eq_ok_value custody custody_ok)) (by decide)
    launched
  have hout := @Network.Step.adapterSend Unit _ pair funded (msgOf 5) outward (some ()) _ _
    (by decide) rfl (eq_ok_value outwardDebit outwardDebit_ok)
  have harrive := @Network.Step.satelliteDeliver Unit _ pair
    ⟨(value _ outwardDebit_ok).1.state, launched.satellites, {outwardPacket}⟩ () (msgOf 9)
    outwardPacket _ (Multiset.mem_singleton_self _) rfl
    (eq_ok_value outwardCredit outwardCredit_ok)
  have hback := @Network.Step.satelliteSend Unit _ pair
    ⟨(value _ outwardDebit_ok).1.state, fun _ => (value _ outwardCredit_ok).state, 0⟩ ()
    (msgOf 6) homeward none _ rfl (eq_ok_value homewardDebit homewardDebit_ok)
  rw [satellites_one, Multiset.erase_singleton] at harrive
  rw [satellites_one] at hback
  exact hfunded.append (.cons hout (.cons harrive (.cons hback (.nil _))))

theorem run_backed_sample :
    bridged.issued = 3000000000000 ∧ flightLD bridged.inFlight = 2000000000000 ∧
      (itinerary.map pair.donated).sum = 8000000000000 ∧ pair.locked bridged = 13000000000000 ∧
      pair.Backed itinerary bridged :=
  ⟨by decide, by decide, by decide, by decide, pair.run_backed pair_launched bridged_run⟩

end Reference

end FdfiToken.Evm
