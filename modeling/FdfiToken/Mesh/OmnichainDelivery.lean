import FdfiToken.Mesh.OmnichainBacking
import FdfiToken.Oft.Deliverability

/-!
# Delivery on the omnichain token

Whatever is in flight can be paid wherever it arrives: the adapter holds enough, a satellite
mints without overflow, and so does a store whose mint has no more than nine decimals.
-/

namespace FdfiToken

open Word Fallible Runs LockIssue

namespace Evm

private theorem ERC20.exists_mint {l : ERC20} {value : U256} (dst : Address)
    (h : l.totalSupply.toNat + value.toNat < 2 ^ 256) : ∃ l', l.update 0 dst value = .ok l' := by
  obtain ⟨supply, hsupply, -⟩ := exists_checkedAdd h
  rw [update, takeFrom, if_pos rfl, hsupply]
  exact ⟨_, rfl⟩

private theorem OFTToken.exists_credit {s : OFTToken} {amountLD : U256} (msg : Msg) (dst : Address)
    (srcEid : U32) (h : s.erc20.totalSupply.toNat + amountLD.toNat < 2 ^ 256) :
    ∃ out, base.credit msg dst amountLD srcEid s = .ok out := by
  have hmint (account : Address) (haccount : account ≠ 0) :
      ∃ s', ERC20._mint msg account amountLD s = .ok s' := by
    obtain ⟨l, hl⟩ := ERC20.exists_mint account h
    refine ⟨{ s with erc20 := l }, ERC20.mint_eq_ok.mpr ⟨haccount, ?_⟩⟩
    change update msg 0 account amountLD s = _
    rw [update, hl]
    rfl
  have hdst : (if dst = 0 then dead else dst) ≠ 0 := by
    split
    · decide
    · assumption
  obtain ⟨s', hs'⟩ := hmint _ hdst
  refine ⟨⟨s', amountLD⟩, ?_⟩
  simp only [base, hs', ok_bind]
  rfl

end Evm

namespace Omnichain

section Delivery

variable {ι κ : Type} [Fintype ι] [Fintype κ] [DecidableEq ι] [DecidableEq κ]
  {net : Omnichain ι κ} {m m' : OmniMesh net.evm.oz ι κ} {b : Books (Option ι ⊕ κ)}
  {g : Option κ → ℕ} {p : Packet}

namespace Refines

variable (h : net.Refines m b g)

include h

/-- The hub has never locked more shared units than the cap. -/
theorem locked_le : b.locked ≤ 2 * 10 ^ 15 := by
  have hheld := h.held_eq
  have hsupply : net.held m ≤ m.adapter.base.erc20.totalSupply.toNat :=
    Evm.ERC20.holdings_le_supply h.sound.token.backed _
  have hcap := h.sound.token.capped
  rw [Evm.toNat_maxSupply] at hcap
  omega

private theorem flight_le (hp : p ∈ m.inFlight) : p.amountSd ≤ b.inFlight.sum := by
  have hmem := Multiset.mem_map_of_mem Packet.amountSd hp
  rw [h.inFlight] at hmem
  exact Multiset.single_le_sum (fun _ _ => Nat.zero_le _) _ hmem

private theorem fits (party : Option ι ⊕ κ) (hparty : party ≠ hub) (hp : p ∈ m.inFlight) :
    b.issued party + p.amountSd ≤ b.locked := by
  have hcovers := h.balanced.covers hub h.issued_nonneg hparty
  have hflight := h.flight_le hp
  omega

private theorem held_covers (hp : p ∈ m.inFlight) : (net.amountLD p).toNat ≤ net.held m := by
  have hunits := net.amountLD_eq (h.readable p hp)
  have hflight := h.flight_le hp
  have houtside : 0 ≤ b.outside hub :=
    Finset.sum_nonneg fun party hparty => h.issued_nonneg party (Finset.ne_of_mem_erase hparty)
  have hbalanced := h.balanced
  unfold Books.Balanced at hbalanced
  have hheld := h.held_eq
  omega

private theorem satellite_fits (i : ι) (hp : p ∈ m.inFlight) :
    (m.satellites i).base.erc20.totalSupply.toNat + (net.amountLD p).toNat < 2 ^ 256 := by
  have hunits := net.amountLD_eq (h.readable p hp)
  have hsupply := h.supply_eq i
  have hfits := h.fits (.inl (some i)) (by simp) hp
  have hlocked := h.locked_le
  omega

private theorem store_fits (k : κ) (hdecimals : (m.stores k).ledger.mint.decimals.toNat ≤ 9)
    (hp : p ∈ m.inFlight) :
    (m.stores k).supply + p.amountSd * (m.stores k).oftStore.rate < 2 ^ 64 := by
  have hminted := h.minted_eq k
  have hfits := h.fits (.inr k) (by simp) hp
  have hlocked := h.locked_le
  have hrate : ((m.stores k).oftStore.rate : ℤ) ≤ 10 ^ 3 := by
    rw [(h.sound.wellFormed k).rate]
    have hsd : (6 : U8).toNat = 6 := rfl
    exact_mod_cast Nat.pow_le_pow_right (by decide) (by omega)
  have hpos := h.sound.unit_pos (.inr k)
  change 0 < ((m.stores k).oftStore.rate : ℤ) at hpos
  have htotal : ((m.stores k).supply : ℤ) + p.amountSd * (m.stores k).oftStore.rate ≤
      2 * 10 ^ 18 := by
    calc ((m.stores k).supply : ℤ) + p.amountSd * (m.stores k).oftStore.rate
        ≤ (b.issued (.inr k) + p.amountSd) * (m.stores k).oftStore.rate := by
          rw [add_mul, ← hminted]
          omega
      _ ≤ b.locked * (m.stores k).oftStore.rate := mul_le_mul_of_nonneg_right hfits hpos.le
      _ ≤ 2 * 10 ^ 15 * (m.stores k).oftStore.rate := mul_le_mul_of_nonneg_right hlocked hpos.le
      _ ≤ 2 * 10 ^ 15 * 10 ^ 3 := mul_le_mul_of_nonneg_left hrate (by norm_num)
      _ = 2 * 10 ^ 18 := by norm_num
  have hword : (2 * 10 ^ 18 : ℤ) < 2 ^ 64 := by norm_num
  exact_mod_cast htotal.trans_lt hword

end Refines

/-- A packet can be paid out at any party. Where the adapter refuses, it is for the event's
capacity query, the zero recipient, the closed gate or the vote checkpoints. -/
structure Deliverable (net : Omnichain ι κ) (m : OmniMesh net.evm.oz ι κ) (p : Packet) : Prop where
  adapter : (net.amountLD p).toNat ≤ net.held m ∧ ∀ msg e,
    m.adapter._credit net.evm.lib (Evm.OFTAdapter.base net.evm.oz net.evm.adapter) msg
        (net.recipient p) (net.amountLD p) p.srcEid = .error e →
      net.evm.lib.capacity msg (m.adapter.rateLimits.inflow p.srcEid (net.amountLD p) p.srcEid) =
          .error e ∨
        net.recipient p = 0 ∨
        (m.adapter.base.transfersEnabled = false ∧ (net.amountLD p).toNat = 0) ∨
        net.evm.oz.transferVotingUnits (Evm.OFTAdapter.callAs net.evm.adapter msg)
          net.evm.adapter.1 (net.recipient p) (net.amountLD p) m.adapter.base.votes = .error e
  satellite (i : ι) (msg : Evm.Msg) : ∃ out,
    (m.satellites i)._credit Evm.OFTToken.base msg (net.recipient p) (net.amountLD p) p.srcEid =
      .ok out
  store (k : κ) : (m.stores k).ledger.mint.decimals.toNat ≤ 9 → ∃ amountSd amountLd supply,
    MsgCodec.amountSd p.message = .ok amountSd ∧
      (m.stores k).oftStore.sd2ld amountSd = .ok amountLd ∧
      checkedAdd (m.stores k).ledger.mint.supply amountLd = some supply

/-- In every reachable state of the omnichain token every packet in flight can be paid, whoever
it is for. -/
theorem omnichain_deliverable {ls : List (OmniEvent net.evm.oz ι κ)} (hm : net.Launched m)
    (hrun : Run net.Step m ls m') (hp : p ∈ m'.inFlight) : net.Deliverable m' p := by
  obtain ⟨b, -, h⟩ := hm.refines hrun
  have hunits := net.amountLD_eq (h.readable p hp)
  refine ⟨⟨h.held_covers hp, ?_⟩, ?_, ?_⟩
  · intro msg e herror
    rcases Evm.FDFIOFTAdapter.credit_eq_error herror with hcapacity | hbase
    · exact .inl hcapacity
    · right
      rcases Evm.OFTAdapter.credit_eq_error (h.held_covers hp) hbase with hzero | hclosed | hvotes
      · exact .inl hzero
      · refine .inr (.inl ⟨hclosed, ?_⟩)
        rw [hunits, (net.omnichain_closed hm hrun hclosed).2.2 p hp, Nat.zero_mul]
      · exact .inr (.inr hvotes)
  · intro i msg
    obtain ⟨out, hout⟩ := Evm.OFTToken.exists_credit msg (net.recipient p) p.srcEid
      (h.satellite_fits i hp)
    refine ⟨⟨{ m'.satellites i with base := out.state }, out.amountReceivedLD⟩, ?_⟩
    simp only [Evm.FDFIOFTUpgradeable._credit, hout, ok_bind]
    rfl
  · intro k hdecimals
    obtain ⟨amountSd, hsd⟩ := h.readable p hp
    have hamount : p.amountSd = amountSd.toNat := by
      rw [Packet.amountSd, messageAmountSd, hsd]
    have hfits := h.store_fits k hdecimals hp
    rw [hamount] at hfits
    obtain ⟨amountLd, hld⟩ := OFTStore.exists_sd2ld.mpr
      (show amountSd.toNat * (m'.stores k).oftStore.rate < 2 ^ 64 by omega)
    have hvalue := OFTStore.sd2ld_eq_ok.mp hld
    rw [← hvalue] at hfits
    obtain ⟨supply, hsupply, -⟩ := exists_checkedAdd hfits
    exact ⟨amountSd, amountLd, supply, hsd, hld, hsupply⟩

end Delivery

end Omnichain

namespace Reference

def omniReturnPacket : Packet := omni.packet omniCredited (.inl (some ())) (.inl none) omniReturn

private theorem omniReturnPacket_sent : omniReturnPacket ∈ omniLast.inFlight :=
  Multiset.mem_cons_self omniReturnPacket omniCredited.inFlight

set_option maxRecDepth 8192 in
theorem omnichain_deliverable_sample :
    omniReturnPacket.amountSd = 1 ∧ omni.Deliverable omniLast omniReturnPacket :=
  ⟨by decide, omni.omnichain_deliverable omniLaunch_launched omniEvents_run omniReturnPacket_sent⟩

end Reference

end FdfiToken
