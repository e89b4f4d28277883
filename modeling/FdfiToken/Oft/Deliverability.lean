import FdfiToken.Oft.Reference

/-!
# Which amounts can be delivered

A message carries its amount in shared decimals, and the receiving store multiplies it up to
its mint's decimals. `init_oft` only asks that the mint has at least the shared decimals, so the
product can overflow for amounts within the token's supply cap.
-/

namespace FdfiToken

open Word Fallible Runs

/-- `FDFIToken.MAX_SUPPLY`, in the 18 decimals of the token contract. -/
def maxSupply : ℕ := 2000000000 * 10 ^ 18

def maxSupplySd (sharedDecimals : U8) : ℕ :=
  if sharedDecimals.toNat ≤ 18 then maxSupply / 10 ^ (18 - sharedDecimals.toNat)
  else maxSupply * 10 ^ (sharedDecimals.toNat - 18)

private theorem maxSupplySd_of_le {sd : U8} (h : sd.toNat ≤ 18) :
    maxSupplySd sd = 2 * 10 ^ (9 + sd.toNat) := by
  have hpos : 0 < 10 ^ (18 - sd.toNat) := Nat.pow_pos (by decide)
  have hsplit : maxSupply = 2 * 10 ^ (9 + sd.toNat) * 10 ^ (18 - sd.toNat) := by
    rw [mul_assoc, ← pow_add, show 9 + sd.toNat + (18 - sd.toNat) = 27 by omega]
    rfl
  rw [maxSupplySd, if_pos h, hsplit, Nat.mul_div_cancel _ hpos]

private theorem le_maxSupplySd {sd : U8} (h : 10 ≤ sd.toNat) : 2 ^ 64 - 1 ≤ maxSupplySd sd := by
  by_cases hle : sd.toNat ≤ 18
  · rw [maxSupplySd_of_le hle]
    calc 2 ^ 64 - 1 ≤ 2 * 10 ^ 19 := by decide
      _ ≤ 2 * 10 ^ (9 + sd.toNat) :=
        Nat.mul_le_mul_left 2 (Nat.pow_le_pow_right (by decide) (by omega))
  · rw [maxSupplySd, if_neg hle]
    calc 2 ^ 64 - 1 ≤ maxSupply * 1 := by decide
      _ ≤ maxSupply * 10 ^ (sd.toNat - 18) :=
        Nat.mul_le_mul_left _ (Nat.pow_pos (by decide))

theorem OFTStore.exists_sd2ld {s : OFTStore} {amountSd : U64} :
    (∃ amountLd, s.sd2ld amountSd = .ok amountLd) ↔ amountSd.toNat * s.rate < 2 ^ 64 := by
  constructor
  · intro h
    obtain ⟨amountLd, hld⟩ := h
    have hvalue := sd2ld_eq_ok.mp hld
    omega
  · intro hfits
    obtain ⟨amountLd, -, hvalue⟩ := exists_fit hfits
    exact ⟨amountLd, sd2ld_eq_ok.mpr hvalue⟩

section Bounds

variable {sd decimals : U8}

private theorem supply_overflows (hsmall : sd.toNat ≤ 9) (hdecimals : 10 ≤ decimals.toNat) :
    2 ^ 64 ≤ maxSupplySd sd * 10 ^ (decimals.toNat - sd.toNat) := by
  calc 2 ^ 64 ≤ 2 * 10 ^ 19 := by decide
    _ ≤ 2 * 10 ^ (9 + decimals.toNat) :=
      Nat.mul_le_mul_left 2 (Nat.pow_le_pow_right (by decide) (by omega))
    _ = maxSupplySd sd * 10 ^ (decimals.toNat - sd.toNat) := by
      rw [maxSupplySd_of_le (by omega), mul_assoc, ← pow_add]
      congr 2
      omega

private theorem word_overflows (hlt : sd.toNat < decimals.toNat) :
    2 ^ 64 ≤ (2 ^ 64 - 1) * 10 ^ (decimals.toNat - sd.toNat) := by
  calc 2 ^ 64 ≤ (2 ^ 64 - 1) * 10 ^ 1 := by decide
    _ ≤ (2 ^ 64 - 1) * 10 ^ (decimals.toNat - sd.toNat) :=
      Nat.mul_le_mul_left _ (Nat.pow_le_pow_right (by decide) (by omega))

private theorem supply_fits (hle : sd.toNat ≤ decimals.toNat) (hnine : decimals.toNat ≤ 9)
    {n : ℕ} (hn : n ≤ maxSupplySd sd) : n * 10 ^ (decimals.toNat - sd.toNat) < 2 ^ 64 := by
  rw [maxSupplySd_of_le (by omega)] at hn
  calc n * 10 ^ (decimals.toNat - sd.toNat)
      ≤ 2 * 10 ^ (9 + sd.toNat) * 10 ^ (decimals.toNat - sd.toNat) := Nat.mul_le_mul_right _ hn
    _ = 2 * 10 ^ (9 + decimals.toNat) := by
      rw [mul_assoc, ← pow_add]
      congr 2
      omega
    _ ≤ 2 * 10 ^ 18 := Nat.mul_le_mul_left 2 (Nat.pow_le_pow_right (by decide) (by omega))
    _ < 2 ^ 64 := by decide

/-- Some amount within the cap overflows unless the mint has at most nine decimals, or no more
than the shared ones. -/
private theorem exists_overflow (hle : sd.toNat ≤ decimals.toNat)
    (hbad : ¬ (decimals.toNat ≤ 9 ∨ decimals = sd)) :
    ∃ amountSd : U64, amountSd.toNat ≤ maxSupplySd sd ∧
      2 ^ 64 ≤ amountSd.toNat * 10 ^ (decimals.toNat - sd.toNat) := by
  rw [not_or, not_le] at hbad
  obtain ⟨hten, hne⟩ := hbad
  have hlt : sd.toNat < decimals.toNat :=
    lt_of_le_of_ne hle (fun heq => hne (BitVec.eq_of_toNat_eq heq.symm))
  by_cases hsmall : sd.toNat ≤ 9
  · have hcap : maxSupplySd sd = 2 * 10 ^ (9 + sd.toNat) := maxSupplySd_of_le (by omega)
    have hpow : 10 ^ (9 + sd.toNat) ≤ 10 ^ 18 := Nat.pow_le_pow_right (by decide) (by omega)
    obtain ⟨amountSd, -, hamount⟩ := exists_fit (w := 64) (n := maxSupplySd sd) (by omega)
    refine ⟨amountSd, hamount.le, ?_⟩
    rw [hamount]
    exact supply_overflows hsmall (by omega)
  · have hcap : 2 ^ 64 - 1 ≤ maxSupplySd sd := le_maxSupplySd (by omega)
    have hones : (BitVec.allOnes 64).toNat = 2 ^ 64 - 1 := by simp
    refine ⟨BitVec.allOnes 64, by omega, ?_⟩
    rw [hones]
    exact word_overflows hlt

end Bounds

section Reachable

variable {rt : Runtime} {sd : U8} {events : List Event} {w : World}

/-- Every amount within the supply cap can be converted exactly when the mint has at most nine
decimals, or no more than the shared ones. -/
theorem deliverable_iff (h : Reaches rt sd events w) :
    (∀ amountSd : U64, amountSd.toNat ≤ maxSupplySd sd →
        ∃ amountLd, w.oftStore.sd2ld amountSd = .ok amountLd) ↔
      w.ledger.mint.decimals.toNat ≤ 9 ∨ w.ledger.mint.decimals = sd := by
  have hle := h.wellFormed.decimals
  have hrate := h.wellFormed.rate
  simp only [OFTStore.exists_sd2ld, hrate]
  constructor
  · intro hall
    by_contra hbad
    obtain ⟨amountSd, hcap, hoverflow⟩ := exists_overflow hle hbad
    have hfits := hall amountSd hcap
    omega
  · intro hgood amountSd hamount
    rcases hgood with hnine | heq
    · exact supply_fits hle hnine hamount
    · rw [heq, Nat.sub_self, pow_zero, mul_one]
      exact amountSd.isLt

end Reachable

/-- A message whose amount cannot be converted is never received, whoever delivers it. -/
theorem LzReceive.not_received {rt : Runtime} {ep : Endpoint} {clock : Clock}
    {metas : List LzAccount} {params : LzReceiveParams} {w : World} {amountSd : U64}
    (hamount : MsgCodec.amountSd params.message = .ok amountSd)
    (hoverflow : 2 ^ 64 ≤ amountSd.toNat * w.oftStore.rate) (r : World × LzReceiveOutcome) :
    LzReceive.apply rt ep clock metas params w ≠ .ok r := by
  intro hrun
  obtain ⟨a, peer, -, hreceived⟩ := apply_received hrun
  obtain ⟨amountSd', hsd, hld⟩ := hreceived.amount
  rw [hamount, Except.ok.injEq] at hsd
  subst hsd
  have hfits := OFTStore.exists_sd2ld.mp ⟨_, hld⟩
  omega

namespace Reference

def parity : Deployment := ⟨.native, 18, 6, none, 0⟩

private theorem parity_init : parity.init.isOk = true := rfl

def parityStore : World := parity.store parity_init

def wholeSupply : U64 := BitVec.ofNat 64 (2 * 10 ^ 15)

/-- With 18 decimals the whole supply cannot be converted, and no delivery of it succeeds. -/
theorem parity_undeliverable :
    Genesis runtime 6 parityStore ∧ wholeSupply.toNat = maxSupplySd 6 ∧
      parityStore.oftStore.sd2ld wholeSupply = .error .panic ∧
      ∀ ep clock metas eid sender nonce guid toAddress composeFrom composeMsg extraData r,
        LzReceive.apply runtime ep clock metas
          ⟨eid, sender, nonce, guid,
            MsgCodec.encode toAddress wholeSupply composeFrom composeMsg, extraData⟩
          parityStore ≠ .ok r := by
  refine ⟨parity.store_genesis parity_init, by decide, by decide, ?_⟩
  intro ep clock metas eid sender nonce guid toAddress composeFrom composeMsg extraData r
  exact LzReceive.not_received (MsgCodec.amountSd_encode ..) (by decide) r

theorem deliverable_iff_sample :
    ∃ amountLd, adapterStore.oftStore.sd2ld wholeSupply = .ok amountLd :=
  (deliverable_iff ⟨adapterStore, adapter.store_genesis adapter_init, .nil _⟩).mpr
    (.inl (by decide)) wholeSupply (by decide)

end Reference

end FdfiToken
