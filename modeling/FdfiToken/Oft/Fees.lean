import FdfiToken.Oft.Store
import FdfiToken.Solana.TokenProgram

/-!
# Fees of a send

The amounts of a transfer: the Token-2022 transfer fee, the removal of dust, the inversion of
the transfer fee, and the OFT's own fee. Adapter stores pay the transfer fee into the escrow,
native stores burn and so pay none.
-/

namespace FdfiToken

open Word Fallible

def maxFeeBasisPoints : U16 := 10000

/-- `MAX_FEE_BASIS_POINTS as u128`. -/
def oneInBasisPoints : U128 := maxFeeBasisPoints.setWidth 128

def ceilDiv (numerator denominator : U128) : Option U128 := do
  let sum ← checkedAdd numerator denominator
  let sum ← checkedSub sum 1
  checkedDiv sum denominator

def calculatePreFeeAmount (fee : TransferFee) (postFeeAmount : U64) : Option U64 :=
  let maximumFee := fee.maximumFee
  let transferFeeBasisPoints : U128 := fee.transferFeeBasisPoints.setWidth 128
  if transferFeeBasisPoints = 0 then
    -- no fee, same amount
    some postFeeAmount
  else if postFeeAmount = 0 then
    -- 0 zero out, 0 in
    some 0
  else if transferFeeBasisPoints = oneInBasisPoints then
    -- 100%, cap at max fee
    checkedAdd maximumFee postFeeAmount
  else do
    let numerator ← checkedMul (postFeeAmount.setWidth 128) oneInBasisPoints
    let denominator ← checkedSub oneInBasisPoints transferFeeBasisPoints
    let rawPreFeeAmount ← ceilDiv numerator denominator
    let rawFee ← checkedSub rawPreFeeAmount (postFeeAmount.setWidth 128)
    if (maximumFee.setWidth 128).toNat ≤ rawFee.toNat then
      checkedAdd postFeeAmount maximumFee
    else
      tryCast 64 rawPreFeeAmount

def getPostFeeAmountLd (tokenMint : Mint) (epoch amountLd : U64) : Result U64 :=
  match tokenMint.transferFeeConfig with
  | some transferFeeConfig =>
    orError .invalidArgument
      ((transferFeeConfig.getEpochFee epoch).calculatePostFeeAmount amountLd)
  | none => return amountLd

def getPreFeeAmountLd (tokenMint : Mint) (epoch amountLd : U64) : Result U64 :=
  match tokenMint.transferFeeConfig with
  | some transferFee =>
    orError .invalidArgument (calculatePreFeeAmount (transferFee.getEpochFee epoch) amountLd)
  | none => return amountLd

def calculateFee (preFeeAmount : U64) (defaultFeeBps : U16) (feeBps : Option U16) : Result U64 :=
  let finalFeeBps : U128 := match feeBps with
    | some bps => bps.setWidth 128
    | none => defaultFeeBps.setWidth 128
  if finalFeeBps = 0 ∨ preFeeAmount = 0 then
    return 0
  else do
    let fee ← orPanic (checkedMul (preFeeAmount.setWidth 128) finalFeeBps)
    let fee ← orPanic (checkedDiv fee oneInBasisPoints)
    return fee.setWidth 64

/-- `compute_fee_and_adjust_amount`: the amounts sent and received and the OFT fee. -/
def computeFeeAndAdjustAmount (amountLd : U64) (oftStore : OFTStore) (tokenMint : Mint)
    (epoch : U64) (feeBps : Option U16) : Result (U64 × U64 × U64) :=
  if oftStore.oftType = .adapter then do
    let postFeeAmountLd ← getPostFeeAmountLd tokenMint epoch amountLd
    let amountReceivedLd ← oftStore.removeDust postFeeAmountLd
    let amountSentLd ← getPreFeeAmountLd tokenMint epoch amountReceivedLd
    -- remove the oft fee from the amount_received_ld
    let fee ← calculateFee amountReceivedLd oftStore.defaultFeeBps feeBps
    let oftFeeLd ← oftStore.removeDust fee
    let amountReceivedLd ← orPanic (checkedSub amountReceivedLd oftFeeLd)
    return (amountSentLd, amountReceivedLd, oftFeeLd)
  else do
    -- if it is Native OFT, there is no transfer fee
    let amountSentLd ← oftStore.removeDust amountLd
    let fee ← calculateFee amountSentLd oftStore.defaultFeeBps feeBps
    let oftFeeLd ← oftStore.removeDust fee
    let amountReceivedLd ← orPanic (checkedSub amountSentLd oftFeeLd)
    return (amountSentLd, amountReceivedLd, oftFeeLd)

private theorem exists_ceilDiv {n d : U128} (hd : 0 < d.toNat)
    (hfit : n.toNat + d.toNat < 2 ^ 128) :
    ∃ c, ceilDiv n d = some c ∧ c.toNat = n.toNat ⌈/⌉ d.toNat := by
  obtain ⟨sum, hsum, hsumv⟩ := exists_checkedAdd hfit
  obtain ⟨pred, hpred, hpredv⟩ := exists_checkedSub (a := sum) (b := 1) (by simp; omega)
  obtain ⟨c, hc, hcv⟩ := exists_checkedDiv (a := pred) hd
  refine ⟨c, by simp only [ceilDiv, hsum, hpred, hc, Option.bind_eq_bind, Option.bind_some], ?_⟩
  have hone : (1 : U128).toNat = 1 := rfl
  rw [hcv, Nat.ceilDiv_eq_add_pred_div]
  congr 1
  omega

section PreFee

variable {fee : TransferFee} {post pre : U64}

private theorem gross_no_fee (h : fee.transferFeeBasisPoints.toNat = 0) (p : ℕ) :
    fee.schedule.gross p = p := by
  have hnet := fee.schedule.net_gross p
  rwa [FeeSchedule.net, fee.schedule.fee_of_rate_zero h, Nat.sub_zero] at hnet

private theorem gross_zero : fee.schedule.gross 0 = 0 :=
  Nat.le_zero.mp ((fee.schedule.gross_le_iff 0 0).mpr (Nat.zero_le _))

private theorem gross_full (h : fee.transferFeeBasisPoints.toNat = 10000) (hpost : post ≠ 0) :
    fee.schedule.gross post.toNat = post.toNat + fee.maximumFee.toNat := by
  have hpos : post.toNat ≠ 0 := fun hzero => hpost (BitVec.eq_of_toNat_eq hzero)
  exact (if_pos h).trans (if_neg hpos)

/-- The `u128` steps of the last branch of `calculate_pre_fee_amount` all succeed. -/
structure PreFeeSteps (fee : TransferFee) (postFeeAmount : U64)
    (num den raw rawFee : U128) : Prop where
  numerator : checkedMul (postFeeAmount.setWidth 128) oneInBasisPoints = some num
  denominator : checkedSub oneInBasisPoints (fee.transferFeeBasisPoints.setWidth 128) = some den
  rawPreFeeAmount : ceilDiv num den = some raw
  rawFee : checkedSub raw (postFeeAmount.setWidth 128) = some rawFee

theorem exists_preFeeSteps (fee : TransferFee) (post : U64)
    (h : fee.transferFeeBasisPoints.toNat < 10000) :
    ∃ num den raw rawFee : U128, PreFeeSteps fee post num den raw rawFee ∧
      raw.toNat = fee.schedule.rawGross post.toNat ∧ rawFee.toNat + post.toNat = raw.toNat := by
  have hpost := post.isLt
  have hone : oneInBasisPoints.toNat = 10000 := rfl
  have hwide : (fee.transferFeeBasisPoints.setWidth 128).toNat =
      fee.transferFeeBasisPoints.toNat := by
    rw [BitVec.toNat_setWidth, Nat.mod_eq_of_lt (by omega)]
  have hwpost : (post.setWidth 128).toNat = post.toNat := by
    rw [BitVec.toNat_setWidth, Nat.mod_eq_of_lt (by omega)]
  obtain ⟨num, hnum, hnumv⟩ := exists_checkedMul (a := post.setWidth 128) (b := oneInBasisPoints)
    (by rw [hwpost, hone]; omega)
  obtain ⟨den, hden, hdenv⟩ := exists_checkedSub (a := oneInBasisPoints)
    (b := fee.transferFeeBasisPoints.setWidth 128) (by rw [hwide, hone]; omega)
  rw [hwpost, hone] at hnumv
  rw [hwide, hone] at hdenv
  obtain ⟨raw, hraw, hrawv⟩ := exists_ceilDiv (n := num) (d := den) (by omega) (by omega)
  have hgross : raw.toNat = fee.schedule.rawGross post.toNat := by
    rw [hrawv, hnumv, show den.toNat = 10000 - fee.transferFeeBasisPoints.toNat by omega]
    rfl
  have hle : post.toNat ≤ fee.schedule.rawGross post.toNat := fee.schedule.le_rawGross _ h
  obtain ⟨diff, hdiff, hdiffv⟩ := exists_checkedSub (a := raw) (b := post.setWidth 128) (by omega)
  exact ⟨num, den, raw, diff, ⟨hnum, hden, hraw, hdiff⟩, hgross, by omega⟩

/-- The code's inversion is the least amount that leaves the wanted one, and it fails exactly
when that amount does not fit. -/
theorem calculatePreFeeAmount_eq_some :
    calculatePreFeeAmount fee post = some pre ↔
      pre.toNat = fee.schedule.gross post.toNat := by
  have hbps := fee.basisPoints_le
  have hwide : (fee.transferFeeBasisPoints.setWidth 128).toNat =
      fee.transferFeeBasisPoints.toNat := by
    rw [BitVec.toNat_setWidth, Nat.mod_eq_of_lt (by omega)]
  dsimp only [calculatePreFeeAmount]
  split
  · rename_i hzero
    have hrate : fee.transferFeeBasisPoints.toNat = 0 := by
      rw [← hwide, hzero]
      rfl
    rw [gross_no_fee hrate, Option.some.injEq, ← BitVec.toNat_inj]
    exact eq_comm
  split
  · rename_i hpost
    subst hpost
    change _ ↔ pre.toNat = fee.schedule.gross 0
    rw [gross_zero, Option.some.injEq, ← BitVec.toNat_inj]
    exact eq_comm
  split
  · rename_i hpost hfull
    have hrate : fee.transferFeeBasisPoints.toNat = 10000 := by
      rw [← hwide, hfull]
      rfl
    rw [checkedAdd_eq_some, gross_full hrate hpost, Nat.add_comm]
  · rename_i hpartial
    have hrate : fee.transferFeeBasisPoints.toNat ≠ 10000 := by
      intro h
      exact hpartial (BitVec.eq_of_toNat_eq (hwide.trans h))
    obtain ⟨num, den, raw, diff, ⟨hnum, hden, hraw, hdiff⟩, hrawv, hdiffv⟩ :=
      exists_preFeeSteps fee post (by omega)
    have hgross : fee.schedule.gross post.toNat =
        min (post.toNat + fee.maximumFee.toNat) raw.toNat := by
      rw [hrawv]
      exact if_neg hrate
    have hmax : (fee.maximumFee.setWidth 128).toNat = fee.maximumFee.toNat := by
      rw [BitVec.toNat_setWidth, Nat.mod_eq_of_lt (by omega)]
    simp only [hnum, hden, hraw, hdiff, Option.bind_eq_bind, Option.bind_some, hmax, hgross]
    split
    · rw [checkedAdd_eq_some]
      omega
    · rw [tryCast_eq_some]
      omega

theorem calculatePreFeeAmount_eq_none :
    calculatePreFeeAmount fee post = none ↔ 2 ^ 64 ≤ fee.schedule.gross post.toNat := by
  constructor
  · intro hnone
    by_contra hfits
    obtain ⟨pre, -, hpre⟩ := exists_fit (w := 64) (Nat.not_le.mp hfits)
    cases hnone.symm.trans (calculatePreFeeAmount_eq_some.mpr hpre)
  · intro hlarge
    rw [Option.eq_none_iff_forall_ne_some]
    intro pre hsome
    have hlt := pre.isLt
    rw [calculatePreFeeAmount_eq_some.mp hsome] at hlt
    omega

end PreFee

namespace Mint

theorem getPostFeeAmountLd_eq_ok {m : Mint} {epoch amount post : U64} :
    getPostFeeAmountLd m epoch amount = .ok post ↔
      post.toNat = (m.schedule epoch).net amount.toNat := by
  unfold getPostFeeAmountLd schedule
  cases m.transferFeeConfig with
  | none =>
    have hnet : (⟨10000, 0, 0, by decide, by decide⟩ : FeeSchedule).net amount.toNat =
        amount.toNat := by
      rw [FeeSchedule.net, FeeSchedule.fee_of_rate_zero _ rfl, Nat.sub_zero]
    simp only [pure_eq_ok, hnet]
    rw [eq_comm, BitVec.toNat_inj]
  | some config =>
    simp only [orError_eq_ok, TransferFee.calculatePostFeeAmount_eq_some]

private theorem getPreFeeAmountLd_eq_ok {m : Mint} {epoch amount pre : U64} :
    getPreFeeAmountLd m epoch amount = .ok pre ↔
      pre.toNat = (m.schedule epoch).gross amount.toNat := by
  unfold getPreFeeAmountLd schedule
  cases m.transferFeeConfig with
  | none =>
    have hgross : (⟨10000, 0, 0, by decide, by decide⟩ : FeeSchedule).gross amount.toNat =
        amount.toNat := by
      have hnet := FeeSchedule.net_gross ⟨10000, 0, 0, by decide, by decide⟩ amount.toNat
      rwa [FeeSchedule.net, FeeSchedule.fee_of_rate_zero _ rfl, Nat.sub_zero] at hnet
    simp only [pure_eq_ok, hgross]
    rw [eq_comm, BitVec.toNat_inj]
  | some config => simp only [orError_eq_ok, calculatePreFeeAmount_eq_some]

end Mint

def effectiveBps (defaultFeeBps : U16) (feeBps : Option U16) : ℕ :=
  (feeBps.getD defaultFeeBps).toNat

private theorem calculateFee_eq_ok {pre fee : U64} {defaultFeeBps : U16} {feeBps : Option U16} :
    calculateFee pre defaultFeeBps feeBps = .ok fee ↔
      fee.toNat = pre.toNat * effectiveBps defaultFeeBps feeBps / 10000 % 2 ^ 64 := by
  have hpre := pre.isLt
  have hwpre : (pre.setWidth 128).toNat = pre.toNat := by
    rw [BitVec.toNat_setWidth, Nat.mod_eq_of_lt (by omega)]
  have hwide (b : U16) : (b.setWidth 128).toNat = b.toNat := by
    rw [BitVec.toNat_setWidth, Nat.mod_eq_of_lt (by omega)]
  have hbps : (match feeBps with
      | some bps => bps.setWidth 128
      | none => defaultFeeBps.setWidth 128 : U128) = (feeBps.getD defaultFeeBps).setWidth 128 := by
    cases feeBps <;> rfl
  have hone : oneInBasisPoints.toNat = 10000 := rfl
  dsimp only [calculateFee]
  rw [hbps, effectiveBps]
  generalize feeBps.getD defaultFeeBps = bps
  have hlt := bps.isLt
  split
  · rename_i hzero
    have hprod : pre.toNat * bps.toNat = 0 := by
      rcases hzero with h | h
      · rw [← hwide bps, h]
        rfl
      · rw [h]
        simp
    rw [pure_eq_ok, hprod, ← BitVec.toNat_inj]
    exact eq_comm
  · have hmul : pre.toNat * bps.toNat < 2 ^ 128 :=
      (Nat.mul_lt_mul'' hpre hlt).trans (by decide)
    obtain ⟨prod, hprod, hprodv⟩ := exists_checkedMul (a := pre.setWidth 128)
      (b := bps.setWidth 128) (by rwa [hwpre, hwide])
    obtain ⟨quot, hquot, hquotv⟩ := exists_checkedDiv (a := prod) (b := oneInBasisPoints)
      (by decide)
    rw [hprodv, hwpre, hwide, hone] at hquotv
    simp only [hprod, hquot, orError, ok_bind, pure_eq_ok]
    rw [← BitVec.toNat_inj, BitVec.toNat_setWidth, hquotv]
    exact eq_comm

def OFTStore.credited (s : OFTStore) (m : Mint) (epoch : U64) (amount : ℕ) : ℕ :=
  if s.oftType = .adapter then (m.schedule epoch).net amount else amount

theorem OFTStore.credited_adapter {s : OFTStore} (h : s.oftType = .adapter) (m : Mint)
    (epoch : U64) (amount : ℕ) : s.credited m epoch amount = (m.schedule epoch).net amount :=
  if_pos h

theorem OFTStore.credited_native {s : OFTStore} (h : s.oftType ≠ .adapter) (m : Mint)
    (epoch : U64) (amount : ℕ) : s.credited m epoch amount = amount := if_neg h

/-- The amounts of a send: what is credited is split without loss, in whole units of the rate,
into what is received and the OFT fee. -/
structure FeeSplit (s : OFTStore) (m : Mint) (epoch : U64) (bps amount sent received fee : ℕ) :
    Prop where
  rate_pos : 0 < s.rate
  split : received + fee = s.credited m epoch amount / s.rate * s.rate
  credited : s.credited m epoch sent = received + fee
  fee_eq : fee = (received + fee) * bps / 10000 % 2 ^ 64 / s.rate * s.rate
  least : s.oftType = .adapter → sent = (m.schedule epoch).gross (received + fee)

section FeeSplit

variable {amount : U64} {s : OFTStore} {m : Mint} {epoch : U64} {feeBps : Option U16}
  {sent received fee : U64}

private theorem computeFee_adapter (hadapter : s.oftType = .adapter) :
    computeFeeAndAdjustAmount amount s m epoch feeBps = .ok (sent, received, fee) ↔
      FeeSplit s m epoch (effectiveBps s.defaultFeeBps feeBps) amount.toNat sent.toNat
        received.toNat fee.toNat := by
  have hnet := (m.schedule epoch).net_le_self amount.toNat
  rw [computeFeeAndAdjustAmount, if_pos hadapter]
  simp only [bind_eq_ok, orError_eq_ok, pure_eq_ok, Prod.mk.injEq,
    Mint.getPostFeeAmountLd_eq_ok, Mint.getPreFeeAmountLd_eq_ok, OFTStore.removeDust_eq_ok,
    calculateFee_eq_ok, checkedSub_eq_some]
  constructor
  · rintro ⟨post, hpost, whole, ⟨hpos, hwhole⟩, pre, hpre, raw, hraw, f, ⟨-, hf⟩, r, hr,
      rfl, rfl, rfl⟩
    have hcred : s.credited m epoch pre.toNat = whole.toNat := by
      rw [OFTStore.credited_adapter hadapter, hpre, FeeSchedule.net_gross]
    refine ⟨hpos, ?_, ?_, ?_, fun _ => ?_⟩
    · rw [OFTStore.credited_adapter hadapter, hr, hwhole, hpost]
    · rw [hcred, hr]
    · rw [hr, hf, hraw]
    · rw [hr, hpre]
  · rintro ⟨hpos, hsplit, hcred, hfee, hleast⟩
    rw [OFTStore.credited_adapter hadapter] at hsplit
    have hdust := Nat.div_mul_le_self ((m.schedule epoch).net amount.toNat) s.rate
    have hamount := amount.isLt
    obtain ⟨post, -, hpost⟩ := exists_fit (w := 64)
      (n := (m.schedule epoch).net amount.toNat) (by omega)
    obtain ⟨whole, -, hwhole⟩ := exists_fit (w := 64)
      (n := received.toNat + fee.toNat) (by omega)
    obtain ⟨raw, -, hraw⟩ := exists_fit (w := 64)
      (n := whole.toNat * effectiveBps s.defaultFeeBps feeBps / 10000 % 2 ^ 64)
      (Nat.mod_lt _ (by decide))
    refine ⟨post, hpost, whole, ⟨hpos, by rw [hwhole, hsplit, hpost]⟩, sent, ?_, raw, hraw, fee,
      ⟨hpos, by rw [hraw, hwhole]; exact hfee⟩, received, hwhole.symm, rfl, rfl, rfl⟩
    rw [hleast hadapter, hwhole]

private theorem computeFee_native (hnative : s.oftType ≠ .adapter) :
    computeFeeAndAdjustAmount amount s m epoch feeBps = .ok (sent, received, fee) ↔
      FeeSplit s m epoch (effectiveBps s.defaultFeeBps feeBps) amount.toNat sent.toNat
        received.toNat fee.toNat := by
  rw [computeFeeAndAdjustAmount, if_neg hnative]
  simp only [bind_eq_ok, orError_eq_ok, pure_eq_ok, Prod.mk.injEq, OFTStore.removeDust_eq_ok,
    calculateFee_eq_ok, checkedSub_eq_some]
  constructor
  · rintro ⟨s', ⟨hpos, hs'⟩, raw, hraw, f, ⟨-, hf⟩, r, hr, rfl, rfl, rfl⟩
    refine ⟨hpos, ?_, ?_, ?_, fun h => absurd h hnative⟩
    · rw [OFTStore.credited_native hnative, hr, hs']
    · rw [OFTStore.credited_native hnative, hr]
    · rw [hr, hf, hraw]
  · rintro ⟨hpos, hsplit, hcred, hfee, -⟩
    rw [OFTStore.credited_native hnative] at hsplit hcred
    obtain ⟨raw, -, hraw⟩ := exists_fit (w := 64)
      (n := sent.toNat * effectiveBps s.defaultFeeBps feeBps / 10000 % 2 ^ 64)
      (Nat.mod_lt _ (by decide))
    exact ⟨sent, ⟨hpos, by rw [hcred, hsplit]⟩, raw, hraw, fee,
      ⟨hpos, by rw [hraw, hcred]; exact hfee⟩, received, hcred.symm, rfl, rfl, rfl⟩

theorem computeFeeAndAdjustAmount_eq_ok :
    computeFeeAndAdjustAmount amount s m epoch feeBps = .ok (sent, received, fee) ↔
      FeeSplit s m epoch (effectiveBps s.defaultFeeBps feeBps) amount.toNat sent.toNat
        received.toNat fee.toNat := by
  by_cases htype : s.oftType = .adapter
  · exact computeFee_adapter htype
  · exact computeFee_native htype

end FeeSplit

namespace FeeSplit

variable {s : OFTStore} {m : Mint} {epoch : U64} {bps amount sent received fee : ℕ}

theorem dvd_fee (h : FeeSplit s m epoch bps amount sent received fee) : s.rate ∣ fee := by
  rw [h.fee_eq]
  exact Nat.dvd_mul_left _ _

theorem dvd_received (h : FeeSplit s m epoch bps amount sent received fee) :
    s.rate ∣ received := by
  have hsum : s.rate ∣ received + fee := by
    rw [h.split]
    exact Nat.dvd_mul_left _ _
  exact (Nat.dvd_add_left h.dvd_fee).mp hsum

end FeeSplit

end FdfiToken
