import FdfiToken.Mesh.Omnichain
import Mathlib.Algebra.BigOperators.Ring.Finset

/-!
# The books of the omnichain token

In shared decimals the parties are a lock-and-issue bridge whose hub is the adapter of the
canonical token: contracts and programs, fees, dust and conversions on either side, one book.
-/

namespace FdfiToken

open Word Fallible Runs LockIssue Shifts

def OmniEvent.transfer {oz : Evm.OpenZeppelin} {ι κ : Type} :
    OmniEvent oz ι κ → Option (Transfer (Option ι ⊕ κ))
  | .evm _ => none
  | .evmSend party _ _ message => some (.depart (.inl party) (messageAmountSd message))
  | .evmDeliver party _ p => some (.arrive (.inl party) p.amountSd)
  | .store k e => transferOf (.inr k, e)

namespace Omnichain

section Books

variable {ι κ : Type} (net : Omnichain ι κ)

def held (m : OmniMesh net.evm.oz ι κ) : ℕ := m.adapter.base.erc20.holdings net.evm.adapter.1

/-- What an event does off the wire: given to the adapter outright, under `none`, and burned by
the holders of a store's token, under `some k`. -/
def offWire [DecidableEq κ] : OmniEvent net.evm.oz ι κ → Option κ → ℕ
  | .evm e => Pi.single none (net.evm.donated e)
  | .evmDeliver none _ p =>
    Pi.single none (if net.recipient p = net.evm.adapter.1 then (net.amountLD p).toNat else 0)
  | .store k e => Pi.single (some k) e.burnedOutside
  | _ => 0

def unit (m : OmniMesh net.evm.oz ι κ) : Option ι ⊕ κ → ℤ
  | .inl _ => 10 ^ 12
  | .inr k => (m.stores k).oftStore.rate

/-- What a party owes the wire in its own decimals, when `g` happened off it. -/
def position (m : OmniMesh net.evm.oz ι κ) (g : Option κ → ℕ) : Option ι ⊕ κ → ℤ
  | .inl none => g none - net.held m
  | .inl (some i) => (m.satellites i).base.erc20.totalSupply.toNat
  | .inr k => (m.stores k).supply + g (some k)

theorem outside_eq [Fintype ι] [Fintype κ] [DecidableEq ι] [DecidableEq κ]
    (b : Books (Option ι ⊕ κ)) :
    b.outside hub = ∑ i, b.issued (.inl (some i)) + ∑ k, b.issued (.inr k) := by
  have hall := Finset.add_sum_erase Finset.univ b.issued (Finset.mem_univ (hub : Option ι ⊕ κ))
  rw [Fintype.sum_sum_type, Fintype.sum_option] at hall
  unfold Books.outside
  linarith

end Books

section Refines

variable {ι κ : Type} [Fintype ι] [Fintype κ] [DecidableEq ι] [DecidableEq κ]

/-- The parties and the books of a bridge. Nothing leaves the hub before its gate opens. -/
structure Refines (net : Omnichain ι κ) (m : OmniMesh net.evm.oz ι κ)
    (b : Books (Option ι ⊕ κ)) (g : Option κ → ℕ) : Prop where
  sound : net.Sound m
  balanced : b.Balanced hub
  positions : ∀ party, net.position m g party = b.position hub party * net.unit m party
  inFlight : m.inFlight.map Packet.amountSd = b.inFlight
  readable : ∀ p ∈ m.inFlight, ∃ amount, MsgCodec.amountSd p.message = .ok amount
  gated : m.adapter.base.transfersEnabled = false → b.locked = 0

variable {net : Omnichain ι κ} {m m' : OmniMesh net.evm.oz ι κ} {l : OmniEvent net.evm.oz ι κ}
  {b : Books (Option ι ⊕ κ)} {g : Option κ → ℕ}

omit [Fintype ι] [Fintype κ] [DecidableEq ι] [DecidableEq κ] in
theorem Sound.unit_pos (h : net.Sound m) (party : Option ι ⊕ κ) : 0 < net.unit m party := by
  cases party with
  | inl party => exact Int.pow_pos (by decide)
  | inr k => exact Int.natCast_pos.mpr (h.wellFormed k).rate_pos

namespace Refines

variable (h : net.Refines m b g)

include h

theorem held_eq : (net.held m : ℤ) = b.locked * 10 ^ 12 + g none := by
  have hhub := h.positions hub
  simp only [position, Books.position, if_true, unit] at hhub
  linarith

theorem supply_eq (i : ι) :
    ((m.satellites i).base.erc20.totalSupply.toNat : ℤ) =
      b.issued (.inl (some i)) * 10 ^ 12 :=
  h.positions (.inl (some i))

theorem minted_eq (k : κ) :
    ((m.stores k).supply : ℤ) + g (some k) =
      b.issued (.inr k) * (m.stores k).oftStore.rate :=
  h.positions (.inr k)

theorem issued_nonneg (party : Option ι ⊕ κ) (hparty : party ≠ hub) : 0 ≤ b.issued party := by
  have hposition := h.positions party
  rw [Books.position, if_neg hparty] at hposition
  have hnonneg : 0 ≤ net.position m g party := by
    match party with
    | .inl none => exact absurd rfl hparty
    | .inl (some i) => exact Int.natCast_nonneg _
    | .inr k => exact Int.add_nonneg (Int.natCast_nonneg _) (Int.natCast_nonneg _)
  rw [hposition] at hnonneg
  exact nonneg_of_mul_nonneg_left hnonneg (h.sound.unit_pos party)

theorem evm : net.evm.Sound m.evm := by
  refine ⟨h.sound.token, h.sound.allowances, h.sound.satellites, ?_⟩
  have hstores : 0 ≤ ∑ k, b.issued (.inr k) :=
    Finset.sum_nonneg fun k _ => h.issued_nonneg (.inr k) (by simp)
  have hissued : (m.evm.issued : ℤ) = (∑ i, b.issued (.inl (some i))) * 10 ^ 12 := by
    unfold Evm.Mesh.issued
    push_cast
    rw [Finset.sum_mul]
    exact Finset.sum_congr rfl fun i _ => h.supply_eq i
  have hbalanced := h.balanced
  rw [Books.Balanced, outside_eq] at hbalanced
  have hheld := h.held_eq
  have hempty : Evm.flightLD m.evm.inFlight = 0 := rfl
  change m.evm.issued + Evm.flightLD m.evm.inFlight ≤ net.held m
  rw [hempty]
  omega

end Refines

/-- An event takes `n` local units out of one party's position and leaves the others alone. -/
def Moves (net : Omnichain ι κ) (m : OmniMesh net.evm.oz ι κ) (l : OmniEvent net.evm.oz ι κ)
    (m' : OmniMesh net.evm.oz ι κ) (party : Option ι ⊕ κ) (n : ℤ) : Prop :=
  ∀ g q, net.position m' (g + net.offWire l) q =
    net.position m g q + if q = party then -n else 0

omit [Fintype ι] [Fintype κ] in
private theorem Moves.of_adapter {a : Evm.FDFIOFTAdapter (Evm.FDFIToken net.evm.oz)}
    {ps : Multiset Packet} (gift : ℕ) {n : ℤ} (hoff : net.offWire l = Pi.single none gift)
    (hheld : (a.base.erc20.holdings net.evm.adapter.1 : ℤ) = net.held m + gift + n) :
    net.Moves m l { m with adapter := a, inFlight := ps } hub n := by
  intro g q
  rw [hoff]
  match q with
  | .inl none =>
    simp only [position, held, Pi.add_apply, Pi.single_eq_same, if_true] at hheld ⊢
    push_cast
    linarith
  | .inl (some i) => simp [position]
  | .inr k => simp [position]

omit [Fintype ι] [Fintype κ] in
private theorem Moves.of_satellite {i : ι} {c : Evm.FDFIOFTUpgradeable Evm.OFTToken}
    {ps : Multiset Packet} (out into : ℕ) (hoff : net.offWire l = 0)
    (hsupply : Shift out into (m.satellites i).base.erc20.totalSupply.toNat
      c.base.erc20.totalSupply.toNat) :
    net.Moves m l { m with satellites := Function.update m.satellites i c, inFlight := ps }
      (.inl (some i)) (out - into) := by
  intro g q
  rw [hoff, add_zero]
  match q with
  | .inl none => simp [position, held]
  | .inl (some j) =>
    by_cases hj : j = i
    · subst hj
      unfold Shift at hsupply
      simp only [position, Function.update_self, if_true]
      omega
    · simp [position, hj]
  | .inr k => simp [position]

omit [Fintype ι] [Fintype κ] in
theorem Moves.of_store {k : κ} {w : World} {ps : Multiset Packet} (burned : ℕ) {n : ℤ}
    (hoff : net.offWire l = Pi.single (some k) burned)
    (hsupply : (w.supply : ℤ) + burned = (m.stores k).supply - n) :
    net.Moves m l { m with stores := Function.update m.stores k w, inFlight := ps } (.inr k) n := by
  intro g q
  rw [hoff]
  match q with
  | .inl none => simp [position, held]
  | .inl (some i) => simp [position]
  | .inr j =>
    by_cases hj : j = k
    · subst hj
      simp only [position, Pi.add_apply, Pi.single_eq_same, Function.update_self, if_true]
      push_cast
      linarith
    · simp [position, hj]

omit [Fintype ι] [Fintype κ] in
/-- A move of whole shared units is a release on the books. -/
theorem Moves.release {party : Option ι ⊕ κ} {n : ℤ}
    (hpositions : ∀ q, net.position m g q = b.position hub q * net.unit m q)
    (hunit : ∀ q, net.unit m' q = net.unit m q)
    (hmoves : net.Moves m l m' party (n * net.unit m party)) (q : Option ι ⊕ κ) :
    net.position m' (g + net.offWire l) q =
      (b.release hub party n).position hub q * net.unit m' q := by
  rw [hmoves, hunit, Books.release_position, hpositions]
  by_cases hq : q = party
  · subst hq
    simp only [if_true]
    ring
  · simp [hq]

namespace Refines

variable (h : net.Refines m b g)

include h

private theorem stay {party : Option ι ⊕ κ} (hsound : net.Sound m')
    (hunit : ∀ q, net.unit m' q = net.unit m q) (hmoves : net.Moves m l m' party 0)
    (hflight : m'.inFlight = m.inFlight)
    (hgate : m'.adapter.base.transfersEnabled = false →
      m.adapter.base.transfersEnabled = false) :
    net.Refines m' b (g + net.offWire l) := by
  refine ⟨hsound, h.balanced, ?_, ?_, ?_, fun hclosed => h.gated (hgate hclosed)⟩
  · intro q
    rw [hmoves, hunit, h.positions]
    simp
  · rw [hflight]
    exact h.inFlight
  · rw [hflight]
    exact h.readable

theorem depart (party : Option ι ⊕ κ) (p : Packet) (hsound : net.Sound m')
    (hunit : ∀ q, net.unit m' q = net.unit m q)
    (hmoves : net.Moves m l m' party (p.amountSd * net.unit m party))
    (hflight : m'.inFlight = p ::ₘ m.inFlight)
    (hreadable : ∃ amount, MsgCodec.amountSd p.message = .ok amount)
    (hgate : m'.adapter.base.transfersEnabled = false →
      m.adapter.base.transfersEnabled = false ∧ party ≠ hub) :
    ∃ b', Books.Step hub b (.depart party p.amountSd) b' ∧
      net.Refines m' b' (g + net.offWire l) := by
  have hstep : Books.Step hub b (.depart party p.amountSd) _ := .depart b party p.amountSd
  refine ⟨_, hstep, hsound, hstep.balanced hub h.balanced,
    Moves.release h.positions hunit hmoves, ?_, ?_, ?_⟩
  · rw [hflight, Multiset.map_cons, h.inFlight]
  · rw [hflight]
    intro q hq
    rcases Multiset.mem_cons.mp hq with rfl | hq
    · exact hreadable
    · exact h.readable q hq
  · intro hclosed
    obtain ⟨hold, hparty⟩ := hgate hclosed
    change (b.release hub party _).locked = 0
    rw [Books.release, if_neg hparty]
    exact h.gated hold

theorem arrive (party : Option ι ⊕ κ) {p : Packet} (hsound : net.Sound m')
    (hunit : ∀ q, net.unit m' q = net.unit m q)
    (hmoves : net.Moves m l m' party (-p.amountSd * net.unit m party))
    (sent : p ∈ m.inFlight) (hflight : m'.inFlight = m.inFlight.erase p)
    (hgate : m'.adapter.base.transfersEnabled = false →
      m.adapter.base.transfersEnabled = false ∧ party ≠ hub) :
    ∃ b', Books.Step hub b (.arrive party p.amountSd) b' ∧
      net.Refines m' b' (g + net.offWire l) := by
  have hmem : p.amountSd ∈ b.inFlight := h.inFlight ▸ Multiset.mem_map_of_mem Packet.amountSd sent
  have hstep : Books.Step hub b (.arrive party p.amountSd) _ := .arrive b party p.amountSd hmem
  refine ⟨_, hstep, hsound, hstep.balanced hub h.balanced,
    Moves.release h.positions hunit hmoves, ?_, ?_, ?_⟩
  · rw [hflight, Multiset.map_erase_of_mem _ _ sent, h.inFlight]
  · rw [hflight]
    exact fun q hq => h.readable q (Multiset.mem_of_mem_erase hq)
  · intro hclosed
    obtain ⟨hold, hparty⟩ := hgate hclosed
    change (b.release hub party _).locked = 0
    rw [Books.release, if_neg hparty]
    exact h.gated hold

end Refines

omit [Fintype ι] [Fintype κ] [DecidableEq ι] in
private theorem unit_update {k : κ} {w : World} (ps : Multiset Packet)
    (hsame : SameStore (m.stores k) w) (q : Option ι ⊕ κ) :
    net.unit { m with stores := Function.update m.stores k w, inFlight := ps } q =
      net.unit m q := by
  cases q with
  | inl party => rfl
  | inr j =>
    by_cases hj : j = k
    · subst hj
      simp only [unit, Function.update_self, OFTStore.rate, hsame.ld2sdRate]
    · simp [unit, hj]

private theorem Refines.evm_step (h : net.Refines m b g) {e : Evm.MeshEvent net.evm.oz ι}
    {n : Evm.Mesh net.evm.oz ι} (hstep : net.evm.Step m.evm e n) (hquiet : n.inFlight = 0) :
    net.Refines { m with adapter := n.adapter, satellites := n.satellites } b
      (g + net.offWire (.evm e)) := by
  have hsound := h.sound
  cases hstep with
  | @token tx t foreign hexec =>
    have hgrant := net.evm.grantor_ne foreign hexec
    have hpaid := Evm.FDFIToken.exec_receives hsound.token net.evm.adapter.2 foreign
      hsound.allowances hexec
    refine h.stay (hsound.with_adapter _ (hsound.token.step hexec)
      (Evm.FDFIToken.exec_allows_nobody hgrant hsound.allowances hexec)) (fun _ => rfl)
      (Moves.of_adapter (tx.paidTo net.evm.adapter.1) rfl ?_) rfl ?_
    · rw [add_zero]
      exact_mod_cast hpaid
    · intro hclosed
      by_contra hopen
      have hstays := hsound.token.stays_enabled hexec (Bool.not_eq_false _ ▸ hopen)
      exact Bool.false_ne_true (hclosed.symm.trans hstays)
  | @holder i msg call t hexec =>
    obtain ⟨hback, hsupply⟩ := Evm.OFTToken.exec_supply (hsound.satellites i) hexec
    refine h.stay (hsound.with_satellite _ hback) (fun _ => rfl)
      (Moves.of_satellite 0 0 ?_ ?_) rfl id
    · exact Pi.single_zero _
    · exact congrArg BitVec.toNat hsupply
  | @adapterAdmin msg call a admin hexec =>
    have hbase := (Evm.FDFIOFTAdapter.exec_admin admin hexec).2
    change a.base = m.adapter.base at hbase
    refine h.stay (hsound.with_adapter _ ?_ ?_) (fun _ => rfl)
      (Moves.of_adapter 0 rfl ?_) rfl ?_
    · rw [hbase]
      exact hsound.token
    · rw [hbase]
      exact hsound.allowances
    · rw [hbase]
      simp [held]
    · rw [hbase]
      exact id
  | @satelliteAdmin i msg call c admin hexec =>
    have hbase := (Evm.FDFIOFTUpgradeable.exec_admin admin hexec).2
    change c.base = (m.satellites i).base at hbase
    refine h.stay (hsound.with_satellite _ ?_) (fun _ => rfl)
      (Moves.of_satellite 0 0 ?_ ?_) rfl id
    · rw [hbase]
      exact hsound.satellites i
    · exact Pi.single_zero _
    · rw [hbase]
      exact Shift.refl _
  | adapterSend => exact absurd hquiet (by simp)
  | satelliteSend => exact absurd hquiet (by simp)
  | adapterDeliver sent => exact absurd sent (Multiset.notMem_zero _)
  | satelliteDeliver sent => exact absurd sent (Multiset.notMem_zero _)

private theorem Refines.store_step (h : net.Refines m b g) {k : κ} {e : Event} {w : World}
    (hstep : FdfiToken.Step (net.runtime k) (m.stores k) e w) (hquiet : e.isTransfer = false)
    (hallowed : net.Allowed m e) :
    net.Refines { m with stores := Function.update m.stores k w } b
      (g + net.offWire (.store k e)) := by
  have hsupply := (hstep.quiet hquiet).2
  rw [hallowed.minter] at hsupply
  refine h.stay (h.sound.with_store _ hstep hallowed.peering) (unit_update _ hstep.sameStore)
    (Moves.of_store e.burnedOutside rfl ?_) rfl id
  rw [sub_zero]
  exact_mod_cast hsupply

theorem toSD_lossless {amountLD : Evm.U256}
    (hcap : (Evm.OFTCore.removeDust amountLD).toNat ≤ Evm.maxSupply.toNat) :
    (Evm.OFTCore.toSD (Evm.OFTCore.removeDust amountLD)).toNat * 10 ^ 12 =
      (Evm.OFTCore.removeDust amountLD).toNat := by
  rw [Evm.toNat_maxSupply] at hcap
  exact Evm.OFTCore.toNat_toSD_removeDust (by omega)

private theorem exec_gated {oz : Evm.OpenZeppelin} {s s' : Evm.FDFIToken oz} {tx : Evm.TokenTx}
    {t : Evm.Transfer} (hexec : s.exec tx = .ok s') (hmove : tx.movement = some t)
    (hsrc : t.src ≠ 0) (hdst : t.dst ≠ 0) : s'.transfersEnabled = true := by
  obtain ⟨-, f, -, hmoved⟩ := Evm.FDFIToken.exec_moved hexec hmove
  exact hmoved.transfersEnabled.trans (hmoved.gate hsrc hdst)

omit [Fintype ι] [Fintype κ] [DecidableEq ι] [DecidableEq κ] in
private theorem amountSd_packet (src dst : Option ι ⊕ κ) (msg : Evm.Msg) (param : Evm.SendParam)
    (composeMsg : Bytes) (amountLD : Evm.U256) :
    (net.packet m src dst (net.message msg param composeMsg amountLD)).amountSd =
      (Evm.OFTCore.toSD amountLD).toNat := by
  rw [Packet.amountSd, packet, message, messageAmountSd, net.codec.amountSd_encode]

omit [Fintype ι] [Fintype κ] [DecidableEq ι] [DecidableEq κ] in
private theorem readable_packet (src dst : Option ι ⊕ κ) (msg : Evm.Msg) (param : Evm.SendParam)
    (composeMsg : Bytes) (amountLD : Evm.U256) :
    ∃ amount, MsgCodec.amountSd
      (net.packet m src dst (net.message msg param composeMsg amountLD)).message = .ok amount :=
  ⟨_, net.codec.amountSd_encode ..⟩

omit [Fintype ι] [Fintype κ] [DecidableEq ι] [DecidableEq κ] in
/-- A readable packet is read alike by contracts and programs. -/
theorem amountLD_eq {p : Packet} (hreadable : ∃ amount, MsgCodec.amountSd p.message = .ok amount) :
    (net.amountLD p).toNat = p.amountSd * 10 ^ 12 := by
  obtain ⟨amount, hamount⟩ := hreadable
  rw [amountLD, Evm.OFTCore.toNat_toLD, net.codec.amountSD_eq hamount, Packet.amountSd,
    messageAmountSd, hamount]

namespace Refines

variable (h : net.Refines m b g)

include h

private theorem adapter_send {msg : Evm.Msg} {param : Evm.SendParam} {composeMsg : Bytes}
    {dst : Option ι ⊕ κ} {out : Evm.Debited (Evm.FDFIOFTAdapter (Evm.FDFIToken net.evm.oz))}
    {event : Evm.RateConsumed} (foreign : msg.sender ≠ net.evm.adapter.1)
    (hdebit : m.adapter._debit net.evm.lib (Evm.OFTAdapter.base net.evm.oz net.evm.adapter) msg
      msg.sender param.amountLD param.minAmountLD param.dstEid = .ok (out, event)) :
    ∃ b', Books.Step hub b (.depart hub (messageAmountSd
        (net.message msg param composeMsg out.amountReceivedLD))) b' ∧
      net.Refines
        { m with
          adapter := out.state
          inFlight := net.packet m hub dst
            (net.message msg param composeMsg out.amountReceivedLD) ::ₘ m.inFlight } b'
        (g + net.offWire (.evmSend none msg param
          (net.message msg param composeMsg out.amountReceivedLD))) := by
  obtain ⟨hamount, hpull⟩ := Evm.OFTAdapter.debit_eq_ok (Evm.FDFIOFTAdapter.debit_forwards hdebit)
  change out.amountReceivedLD = _ at hamount
  obtain ⟨htoken, hallow⟩ := h.evm.adapter_call rfl hpull
  obtain ⟨hheld, hcap⟩ := h.evm.pulled foreign hpull
  change out.amountReceivedLD.toNat ≤ _ at hcap
  have hunits := toSD_lossless (hamount ▸ hcap)
  rw [← hamount] at hunits
  refine h.depart hub _ (h.sound.with_adapter _ htoken hallow) (fun _ => rfl)
    (Moves.of_adapter 0 (Pi.single_zero _).symm ?_) rfl
    (readable_packet ..) ?_
  · rw [amountSd_packet]
    change (_ : ℤ) = _ + _ + _ * 10 ^ 12
    change out.state.base.erc20.holdings _ = net.held m + out.amountReceivedLD.toNat at hheld
    rw [hheld, ← hunits]
    push_cast
    ring
  · intro hclosed
    have hopen := exec_gated hpull rfl (Evm.ERC20.transferFrom_eq_ok hpull).1 net.evm.adapter.2
    exact absurd (hclosed.symm.trans hopen) Bool.false_ne_true

private theorem satellite_send {i : ι} {msg : Evm.Msg} {param : Evm.SendParam} {composeMsg : Bytes}
    {dst : Option ι ⊕ κ} {out : Evm.Debited (Evm.FDFIOFTUpgradeable Evm.OFTToken)}
    (hdebit : (m.satellites i)._debit net.evm.lib Evm.OFTToken.base msg msg.sender param.amountLD
      param.minAmountLD param.dstEid = .ok out) :
    ∃ b', Books.Step hub b (.depart (.inl (some i)) (messageAmountSd
        (net.message msg param composeMsg out.amountReceivedLD))) b' ∧
      net.Refines
        { m with
          satellites := Function.update m.satellites i out.state
          inFlight := net.packet m (.inl (some i)) dst
            (net.message msg param composeMsg out.amountReceivedLD) ::ₘ m.inFlight } b'
        (g + net.offWire (.evmSend (some i) msg param
          (net.message msg param composeMsg out.amountReceivedLD))) := by
  obtain ⟨hamount, hback, hburn⟩ := Evm.OFTToken.debit_eq_ok (h.sound.satellites i)
    (Evm.FDFIOFTUpgradeable.debit_forwards hdebit)
  change out.amountReceivedLD = _ at hamount
  have hcap : out.amountReceivedLD.toNat ≤ _ := h.evm.burned hburn
  have hunits := toSD_lossless (hamount ▸ hcap)
  rw [← hamount] at hunits
  refine h.depart (.inl (some i)) _ (h.sound.with_satellite _ hback) (fun _ => rfl) ?_ rfl
    (readable_packet ..) (fun hclosed => ⟨hclosed, by simp⟩)
  have hlocal : ((Evm.OFTCore.toSD out.amountReceivedLD).toNat : ℤ) * 10 ^ 12 =
      out.amountReceivedLD.toNat - (0 : ℕ) := by
    rw [← hunits]
    push_cast
    ring
  rw [amountSd_packet]
  change net.Moves m _ _ _ (_ * 10 ^ 12)
  rw [hlocal]
  exact Moves.of_satellite _ _ rfl hburn

private theorem adapter_deliver {msg : Evm.Msg} {p : Packet}
    {out : Evm.Credited (Evm.FDFIOFTAdapter (Evm.FDFIToken net.evm.oz))}
    {event : Evm.RateConsumed} (sent : p ∈ m.inFlight)
    (hcredit : m.adapter._credit net.evm.lib (Evm.OFTAdapter.base net.evm.oz net.evm.adapter) msg
      (net.recipient p) (net.amountLD p) p.srcEid = .ok (out, event)) :
    ∃ b', Books.Step hub b (.arrive hub p.amountSd) b' ∧
      net.Refines { m with adapter := out.state, inFlight := m.inFlight.erase p } b'
        (g + net.offWire (.evmDeliver none msg p)) := by
  have hpay := Evm.OFTAdapter.credit_eq_ok (Evm.FDFIOFTAdapter.credit_forwards hcredit)
  obtain ⟨htoken, hallow⟩ := h.evm.adapter_call rfl hpay
  have hpaid := h.evm.paid hpay
  have hunits := net.amountLD_eq (h.readable p sent)
  refine h.arrive hub (h.sound.with_adapter _ htoken hallow) (fun _ => rfl)
    (Moves.of_adapter _ rfl ?_) sent rfl ?_
  · change out.state.base.erc20.holdings _ + _ = net.held m + _ at hpaid
    change (_ : ℤ) = _ + _ + -(p.amountSd : ℤ) * 10 ^ 12
    rw [hunits] at hpaid ⊢
    omega
  · intro hclosed
    obtain ⟨hsrc, hdst, -⟩ := Evm.ERC20.transfer_eq_ok.mp hpay
    have hopen := exec_gated hpay rfl hsrc hdst
    exact absurd (hclosed.symm.trans hopen) Bool.false_ne_true

private theorem satellite_deliver {i : ι} {msg : Evm.Msg} {p : Packet}
    {out : Evm.Credited (Evm.FDFIOFTUpgradeable Evm.OFTToken)} (sent : p ∈ m.inFlight)
    (hcredit : (m.satellites i)._credit Evm.OFTToken.base msg (net.recipient p) (net.amountLD p)
      p.srcEid = .ok out) :
    ∃ b', Books.Step hub b (.arrive (.inl (some i)) p.amountSd) b' ∧
      net.Refines
        { m with
          satellites := Function.update m.satellites i out.state
          inFlight := m.inFlight.erase p } b'
        (g + net.offWire (.evmDeliver (some i) msg p)) := by
  obtain ⟨hback, hmint⟩ := Evm.OFTToken.credit_eq_ok (h.sound.satellites i)
    (Evm.FDFIOFTUpgradeable.credit_forwards hcredit)
  have hunits := net.amountLD_eq (h.readable p sent)
  refine h.arrive (.inl (some i)) (h.sound.with_satellite _ hback) (fun _ => rfl) ?_ sent
    rfl (fun hclosed => ⟨hclosed, by simp⟩)
  have hlocal : -(p.amountSd : ℤ) * 10 ^ 12 = (0 : ℕ) - ((net.amountLD p).toNat : ℤ) := by
    rw [hunits]
    push_cast
    ring
  change net.Moves m _ _ _ (_ * 10 ^ 12)
  rw [hlocal]
  exact Moves.of_satellite _ _ rfl hmint

private theorem store_send {k : κ} {clock : Clock} {accs : SendAccounts} {params : SendParams}
    {out : SendOutcome} {w : World} (hstep : FdfiToken.Step (net.runtime k) (m.stores k)
      (.executed clock (.send accs params) (.sent out)) w) :
    ∃ b', Books.Step hub b (.depart (.inr k) (messageAmountSd out.endpointCall.message)) b' ∧
      net.Refines
        { m with
          stores := Function.update m.stores k w
          inFlight := net.storePacket m k out.endpointCall ::ₘ m.inFlight } b'
        (g + net.offWire (.store k (.executed clock (.send accs params) (.sent out)))) := by
  obtain ⟨hsigned, peer, sent⟩ := hstep.sent
  have hburns := sent.burns (h.sound.wellFormed k) (h.sound.native k) hsigned
  obtain ⟨amount, -, hmessage⟩ := sent.message
  refine h.depart (.inr k) (net.storePacket m k out.endpointCall)
    (h.sound.with_store _ hstep (fun _ _ hset => by cases hset))
    (unit_update _ hstep.sameStore) (Moves.of_store 0 rfl ?_) rfl ?_
    (fun hclosed => ⟨hclosed, by simp⟩)
  · rw [sent.units] at hburns
    change (_ : ℤ) + 0 = _ - (messageAmountSd out.endpointCall.message : ℤ) *
      ((m.stores k).oftStore.rate : ℤ)
    zify at hburns
    linarith
  · refine ⟨amount, ?_⟩
    change MsgCodec.amountSd out.endpointCall.message = _
    rw [hmessage, Send.messageOf, MsgCodec.amountSd_encode]

private theorem store_deliver {k : κ} {clock : Clock} {metas : List LzAccount}
    {params : LzReceiveParams} {out : LzReceiveOutcome} {w : World}
    (hstep : FdfiToken.Step (net.runtime k) (m.stores k)
      (.executed clock (.lzReceive metas params) (.received out)) w)
    (hsent : net.storeDelivery m k params ∈ m.inFlight) :
    ∃ b', Books.Step hub b (.arrive (.inr k) (messageAmountSd params.message)) b' ∧
      net.Refines
        { m with
          stores := Function.update m.stores k w
          inFlight := m.inFlight.erase (net.storeDelivery m k params) } b'
        (g + net.offWire (.store k
          (.executed clock (.lzReceive metas params) (.received out)))) := by
  obtain ⟨a, peer, received⟩ := hstep.received
  have hmints := received.mints (h.sound.native k)
  refine h.arrive (.inr k) (p := net.storeDelivery m k params)
    (h.sound.with_store _ hstep (fun _ _ hset => by cases hset))
    (unit_update _ hstep.sameStore) (Moves.of_store 0 rfl ?_) hsent rfl
    (fun hclosed => ⟨hclosed, by simp⟩)
  rw [received.units] at hmints
  change (_ : ℤ) + 0 = _ - -(messageAmountSd params.message : ℤ) *
    ((m.stores k).oftStore.rate : ℤ)
  zify at hmints
  linarith

end Refines

theorem Refines.quiet (h : net.Refines m b g) (hstep : net.Step m l m')
    (hnone : l.transfer = none) : net.Refines m' b (g + net.offWire l) := by
  cases hstep with
  | evm step quiet => exact h.evm_step step quiet
  | store step quiet allowed => exact h.store_step step quiet allowed
  | adapterSend foreign peer hdebit => cases hnone
  | satelliteSend peer hdebit => cases hnone
  | adapterDeliver sent here hcredit => cases hnone
  | satelliteDeliver sent here hcredit => cases hnone
  | storeSend step => cases hnone
  | storeDeliver step sent => cases hnone
  | storeForeign step nonzero outside => cases hnone

theorem Refines.transfer (h : net.Refines m b g) {t : Transfer (Option ι ⊕ κ)}
    (hstep : net.Step m l m') (hsome : l.transfer = some t) :
    ∃ b', Books.Step hub b t b' ∧ net.Refines m' b' (g + net.offWire l) := by
  cases hstep with
  | evm step quiet => cases hsome
  | @store k e w step quiet allowed =>
    cases (transferOf_quiet (i := (Sum.inr k : Option ι ⊕ κ)) quiet).1.symm.trans hsome
  | adapterSend foreign peer hdebit =>
    cases hsome
    exact h.adapter_send foreign hdebit
  | satelliteSend peer hdebit =>
    cases hsome
    exact h.satellite_send hdebit
  | adapterDeliver sent here hcredit =>
    cases hsome
    exact h.adapter_deliver sent hcredit
  | satelliteDeliver sent here hcredit =>
    cases hsome
    exact h.satellite_deliver sent hcredit
  | storeSend step =>
    cases hsome
    exact h.store_send step
  | storeDeliver step sent =>
    cases hsome
    exact h.store_deliver step sent
  | storeForeign step nonzero outside =>
    obtain ⟨party, hparty, haddress⟩ := h.sound.not_foreign step nonzero
    exact absurd haddress (outside party hparty)

private theorem Launched.refines_empty (h : net.Launched m) : net.Refines m Books.empty 0 := by
  refine ⟨h.sound, Books.balanced_empty hub, ?_, ?_, ?_, fun _ => rfl⟩
  · intro party
    match party with
    | .inl none =>
      have hheld : net.held m = 0 := h.evm.nothing_out.2
      simp [position, hheld, Books.position, Books.empty]
    | .inl (some i) =>
      obtain ⟨msg, owner_, configs, hinit⟩ := h.evm.satellites i
      have hbase := Evm.FDFIOFTUpgradeable.init_base hinit
      change (m.satellites i).base = _ at hbase
      simp [position, hbase, Evm.OFTToken.deployed, Evm.ERC20.empty, Books.position, Books.empty]
    | .inr k => simp [position, h.unminted k, Books.position, Books.empty]
  · rw [h.quiet]
    rfl
  · rw [h.quiet]
    exact fun p hp => absurd hp (Multiset.notMem_zero p)

def total (net : Omnichain ι κ) (ls : List (OmniEvent net.evm.oz ι κ)) (x : Option κ) : ℕ :=
  (ls.map fun l => net.offWire l x).sum

/-- A run of the parties is a run of the books. -/
theorem Launched.refines {ls : List (OmniEvent net.evm.oz ι κ)} (h : net.Launched m)
    (hrun : Run net.Step m ls m') :
    ∃ b, Run (Books.Step hub) Books.empty (ls.filterMap OmniEvent.transfer) b ∧
      net.Refines m' b (net.total ls) := by
  have htotal : 0 + (ls.map net.offWire).sum = net.total ls := by
    funext x
    rw [zero_add, Pi.list_sum_apply, List.map_map]
    rfl
  rw [← htotal]
  exact hrun.simulates_booked net.offWire (fun _ _ _ _ _ hR hstep hnone => hR.quiet hstep hnone)
    (fun _ _ _ _ _ _ hR hstep hsome => hR.transfer hstep hsome) h.refines_empty

end Refines

end Omnichain

end FdfiToken
