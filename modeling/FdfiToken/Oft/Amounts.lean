import FdfiToken.Oft.Quotes
import FdfiToken.Oft.SendErrors

/-!
# The amounts of a send

Every amount of a send is a rounding of the amount asked for. The transfer fee and its inversion
are an exact pair, so what is taken from the sender is the least amount that credits the store
the whole shared units it would have been credited, and asking for that amount again changes
nothing.
-/

namespace FdfiToken

open Word Fallible Rounding

theorem TransferFee.fee_eq (f : TransferFee) (x : ℕ) : f.schedule.fee x =
    min f.maximumFee.toNat ((x * f.transferFeeBasisPoints.toNat + 9999) / 10000) := by
  have hpred (n : ℕ) : n + 10000 - 1 = n + 9999 := by omega
  rw [FeeSchedule.fee, Nat.ceilDiv_eq_add_pred_div]
  change min f.maximumFee.toNat ((x * f.transferFeeBasisPoints.toNat + 10000 - 1) / 10000) = _
  rw [hpred]

section PreFee

variable {fee : TransferFee} {post pre : U64}

private theorem TransferFee.exists_postFeeAmount (fee : TransferFee) (x : U64) :
    ∃ p : U64, fee.calculatePostFeeAmount x = some p ∧ p.toNat = fee.schedule.net x.toNat := by
  have hle := fee.schedule.net_le_self x.toNat
  obtain ⟨p, -, hp⟩ := exists_fit (w := 64) (hle.trans_lt x.isLt)
  exact ⟨p, calculatePostFeeAmount_eq_some.mpr hp, hp⟩

private theorem calculatePreFeeAmount_least (h : calculatePreFeeAmount fee post = some pre)
    {x p : U64} (hp : fee.calculatePostFeeAmount x = some p) (hle : post.toNat ≤ p.toNat) :
    pre.toNat ≤ x.toNat := by
  rw [TransferFee.calculatePostFeeAmount_eq_some.mp hp] at hle
  rw [calculatePreFeeAmount_eq_some.mp h]
  exact (fee.schedule.gross_le_iff _ _).mpr hle

private theorem calculatePreFeeAmount_none_iff : calculatePreFeeAmount fee post = none ↔
    ∀ x p : U64, fee.calculatePostFeeAmount x = some p → p.toNat < post.toNat := by
  rw [calculatePreFeeAmount_eq_none]
  constructor
  · intro hlarge x p hp
    rw [TransferFee.calculatePostFeeAmount_eq_some.mp hp]
    by_contra hle
    have hgross := (fee.schedule.gross_le_iff post.toNat x.toNat).mpr (Nat.not_lt.mp hle)
    have hlt := x.isLt
    omega
  · intro hnone
    by_contra hfits
    obtain ⟨x, -, hx⟩ := exists_fit (w := 64) (Nat.not_le.mp hfits)
    obtain ⟨p, hp, hnet⟩ := fee.exists_postFeeAmount x
    have hlt := hnone x p hp
    rw [hnet, hx, FeeSchedule.net_gross] at hlt
    exact lt_irrefl _ hlt

end PreFee

/-- `calculate_pre_fee_amount` is the exact least inverse of the amount after the transfer fee.
It fails only where that inverse does not fit, and never on the way there. -/
theorem calculatePreFeeAmount_exact (fee : TransferFee) (post : U64) :
    (∀ x : U64, ∃ p : U64, fee.calculatePostFeeAmount x = some p ∧
      p.toNat + min fee.maximumFee.toNat
        ((x.toNat * fee.transferFeeBasisPoints.toNat + 9999) / 10000) = x.toNat) ∧
    (∀ pre, calculatePreFeeAmount fee post = some pre →
      fee.calculatePostFeeAmount pre = some post ∧
        ∀ x p : U64, fee.calculatePostFeeAmount x = some p → post.toNat ≤ p.toNat →
          pre.toNat ≤ x.toNat) ∧
    (calculatePreFeeAmount fee post = none ↔
      ∀ x p : U64, fee.calculatePostFeeAmount x = some p → p.toNat < post.toNat) ∧
    (fee.transferFeeBasisPoints.toNat ≠ 10000 →
      ∃ num den raw rawFee, PreFeeSteps fee post num den raw rawFee) := by
  refine ⟨?_, ?_, calculatePreFeeAmount_none_iff, ?_⟩
  · intro x
    obtain ⟨p, hp, hnet⟩ := fee.exists_postFeeAmount x
    refine ⟨p, hp, ?_⟩
    rw [hnet, ← fee.fee_eq]
    exact fee.schedule.net_add_fee x.toNat
  · intro pre hpre
    constructor
    · rw [TransferFee.calculatePostFeeAmount_eq_some, calculatePreFeeAmount_eq_some.mp hpre,
        FeeSchedule.net_gross]
    · intro x p hp hle
      exact calculatePreFeeAmount_least hpre hp hle
  · intro hpartial
    have hbps := fee.basisPoints_le
    obtain ⟨num, den, raw, rawFee, hsteps, -⟩ := exists_preFeeSteps fee post (by omega)
    exact ⟨num, den, raw, rawFee, hsteps⟩

/-- The least amount that credits the store `amount`. -/
def OFTStore.charged (s : OFTStore) (m : Mint) (epoch : U64) (amount : ℕ) : ℕ :=
  if s.oftType = .adapter then (m.schedule epoch).gross amount else amount

section Amounts

variable {s : OFTStore} {m : Mint} {epoch : U64} {bps amount sent received fee : ℕ}

private theorem OFTStore.charged_adapter (h : s.oftType = .adapter) (m : Mint) (epoch : U64)
    (amount : ℕ) : s.charged m epoch amount = (m.schedule epoch).gross amount :=
  if_pos h

private theorem OFTStore.charged_native (h : s.oftType ≠ .adapter) (m : Mint) (epoch : U64)
    (amount : ℕ) : s.charged m epoch amount = amount := if_neg h

private theorem OFTStore.charged_gc (s : OFTStore) (m : Mint) (epoch : U64) :
    GaloisConnection (s.charged m epoch) (s.credited m epoch) := by
  intro x y
  by_cases htype : s.oftType = .adapter
  · rw [charged_adapter htype, credited_adapter htype]
    exact (m.schedule epoch).gross_le_iff x y
  · rw [charged_native htype, credited_native htype]

private theorem OFTStore.credited_charged (s : OFTStore) (m : Mint) (epoch : U64) (amount : ℕ) :
    s.credited m epoch (s.charged m epoch amount) = amount := by
  by_cases htype : s.oftType = .adapter
  · rw [charged_adapter htype, credited_adapter htype, FeeSchedule.net_gross]
  · rw [charged_native htype, credited_native htype]

def OFTStore.coinsertion (s : OFTStore) (m : Mint) (epoch : U64) :
    GaloisCoinsertion (s.charged m epoch) (s.credited m epoch) :=
  (s.charged_gc m epoch).toGaloisCoinsertion fun amount => (s.credited_charged m epoch amount).le

def OFTStore.sentOf (s : OFTStore) (m : Mint) (epoch : U64) : ℕ → ℕ :=
  s.charged m epoch ∘ onGrid s.rate ∘ s.credited m epoch

private theorem OFTStore.interior_sentOf (h : 0 < s.rate) (m : Mint) (epoch : U64) :
    Interior (s.sentOf m epoch) :=
  (interior_onGrid h).conj (s.coinsertion m epoch)

private theorem OFTStore.units_sentOf (h : 0 < s.rate) (m : Mint) (epoch : U64) (amount : ℕ) :
    s.units m epoch (s.sentOf m epoch amount) = s.units m epoch amount := by
  have hgrid := (interior_onGrid h).idem (s.credited m epoch amount)
  rw [units, sentOf, Function.comp_apply, credited_charged]
  exact Nat.eq_of_mul_eq_mul_right h hgrid

private theorem OFTStore.units_mono (s : OFTStore) (m : Mint) (epoch : U64) : Monotone
    (s.units m epoch) :=
  fun _ _ h => Nat.div_le_div_right ((s.charged_gc m epoch).monotone_u h)

private theorem OFTStore.feeUnits_eq_portion {units : ℕ} (hpos : 0 < s.rate) (hbps : bps < 10000)
    (hfits : units * s.rate < 2 ^ 64) : s.feeUnits bps units = portion bps 10000 units := by
  have hle : portion bps 10000 (units * s.rate) ≤ units * s.rate := portion_le hbps.le _
  have hmod : units * s.rate * bps / 10000 % 2 ^ 64 = portion bps 10000 (units * s.rate) :=
    Nat.mod_eq_of_lt (hle.trans_lt hfits)
  rw [feeUnits, hmod, portion_grid hpos]

theorem OFTStore.units_mul_rate_le (s : OFTStore) (m : Mint) (epoch : U64) (amount : ℕ) :
    s.units m epoch amount * s.rate ≤ amount := by
  refine (Nat.div_mul_le_self _ _).trans ?_
  rw [credited]
  split
  · exact (m.schedule epoch).net_le_self amount
  · exact le_rfl

/-- The three amounts, as functions of the amount asked for. -/
theorem feeSplit_iff (hpos : 0 < s.rate) (hbps : bps < 10000) (hamount : amount < 2 ^ 64) :
    FeeSplit s m epoch bps amount sent received fee ↔
      sent = s.sentOf m epoch amount ∧
        received = (s.units m epoch amount - portion bps 10000 (s.units m epoch amount)) * s.rate ∧
        fee = portion bps 10000 (s.units m epoch amount) * s.rate := by
  have hfits := (s.units_mul_rate_le m epoch amount).trans_lt hamount
  have hportion := OFTStore.feeUnits_eq_portion hpos hbps hfits
  constructor
  · intro h
    have hgrid : received + fee = onGrid s.rate (s.credited m epoch amount) := h.split
    refine ⟨?_, ?_, ?_⟩
    · rw [OFTStore.sentOf, Function.comp_apply, Function.comp_apply, ← hgrid]
      by_cases htype : s.oftType = .adapter
      · rw [OFTStore.charged_adapter htype, h.least htype]
      · have hcredited := h.credited
        rw [OFTStore.credited_native htype] at hcredited
        rw [OFTStore.charged_native htype, hcredited]
    · rw [← hportion, h.received_eq]
    · rw [← hportion, h.fee_units]
  · rintro ⟨rfl, rfl, rfl⟩
    have hle := portion_le hbps.le (s.units m epoch amount)
    have hsum : (s.units m epoch amount - portion bps 10000 (s.units m epoch amount)) * s.rate +
        portion bps 10000 (s.units m epoch amount) * s.rate = s.units m epoch amount * s.rate := by
      rw [← Nat.add_mul, Nat.sub_add_cancel hle]
    refine ⟨hpos, hsum, ?_, ?_, ?_⟩
    · rw [hsum]
      exact s.credited_charged m epoch _
    · rw [hsum, ← hportion]
      rfl
    · intro htype
      rw [hsum]
      exact OFTStore.charged_adapter htype m epoch _

/-- What the amounts of a send come to. -/
structure ExactAmounts (s : OFTStore) (m : Mint) (epoch : U64) (bps amount sent received fee : ℕ) :
    Prop where
  sent_le : sent ≤ amount
  credited : s.credited m epoch sent = received + fee
  greatest : IsGreatest {x | s.rate ∣ x ∧ x ≤ s.credited m epoch amount} (received + fee)
  dvd_received : s.rate ∣ received
  dvd_fee : s.rate ∣ fee
  fee_units : fee / s.rate = (received + fee) / s.rate * bps / 10000
  nothing : received = 0 → received + fee = 0

theorem FeeSplit.exact (h : FeeSplit s m epoch bps amount sent received fee) (hbps : bps < 10000)
    (hamount : amount < 2 ^ 64) : ExactAmounts s m epoch bps amount sent received fee := by
  have hpos := h.rate_pos
  obtain ⟨hsent, hreceived, hfee⟩ := (feeSplit_iff hpos hbps hamount).mp h
  have hsum : received + fee = s.units m epoch amount * s.rate := h.split
  refine ⟨?_, h.credited, ?_, h.dvd_received, h.dvd_fee, ?_, ?_⟩
  · rw [hsent]
    exact (OFTStore.interior_sentOf hpos m epoch).le_self amount
  · rw [h.split]
    exact isGreatest_onGrid hpos _
  · rw [hsum, hfee, Nat.mul_div_cancel _ hpos, Nat.mul_div_cancel _ hpos]
    rfl
  · intro hzero
    rw [hsum]
    by_contra hsome
    have hunits : 0 < s.units m epoch amount := Nat.pos_of_mul_pos_right (Nat.pos_of_ne_zero hsome)
    have hlt := portion_lt hbps hunits
    have hrest : 0 < received := by
      rw [hreceived]
      exact Nat.mul_pos (Nat.sub_pos_of_lt hlt) hpos
    omega

end Amounts

section Compute

variable {s : OFTStore} {m : Mint} {epoch : U64} {feeBps : Option U16}

/-- Nothing overflows on the way to the amounts. -/
theorem exists_amounts (hpos : 0 < s.rate) (hbps : effectiveBps s.defaultFeeBps feeBps < 10000)
    (m : Mint) (epoch amount : U64) :
    ∃ sent received fee : U64,
      computeFeeAndAdjustAmount amount s m epoch feeBps = .ok (sent, received, fee) ∧
        FeeSplit s m epoch (effectiveBps s.defaultFeeBps feeBps) amount.toNat sent.toNat
          received.toNat fee.toNat := by
  have hamount := amount.isLt
  have hunits := s.units_mul_rate_le m epoch amount.toNat
  have hportion := portion_le hbps.le (s.units m epoch amount.toNat)
  have hsent := (OFTStore.interior_sentOf hpos m epoch).le_self amount.toNat
  have hfee := Nat.mul_le_mul_right s.rate hportion
  have hreceived := Nat.mul_le_mul_right s.rate (Nat.sub_le (s.units m epoch amount.toNat)
    (portion (effectiveBps s.defaultFeeBps feeBps) 10000 (s.units m epoch amount.toNat)))
  obtain ⟨sent, -, hsentv⟩ := exists_fit (hsent.trans_lt hamount)
  obtain ⟨received, -, hreceivedv⟩ := exists_fit ((hreceived.trans hunits).trans_lt hamount)
  obtain ⟨fee, -, hfeev⟩ := exists_fit ((hfee.trans hunits).trans_lt hamount)
  have hsplit := (feeSplit_iff hpos hbps hamount).mpr ⟨hsentv, hreceivedv, hfeev⟩
  exact ⟨sent, received, fee, computeFeeAndAdjustAmount_eq_ok.mpr hsplit, hsplit⟩

end Compute

theorem Reaches.effectiveBps_lt {rt : Runtime} {sd : U8} {events : List Event} {w : World}
    (h : Reaches rt sd events w) {feeBps : Option U16}
    (hfee : ∀ bps, feeBps = some bps → bps.toNat < 10000) :
    effectiveBps w.oftStore.defaultFeeBps feeBps < 10000 := by
  cases feeBps with
  | none => exact h.wellFormed.defaultFee
  | some bps => exact hfee bps rfl

/-- In every reachable store the amounts are computed without overflow, whatever the mint charges
and whatever amount is asked for, and they are exact: what is taken is at most what was asked for
and credits the store, in whole shared units, all that the amount could, split without loss. -/
theorem amounts_exact {rt : Runtime} {sd : U8} {events : List Event} {w : World}
    (h : Reaches rt sd events w) (m : Mint) (epoch : U64) (feeBps : Option U16)
    (hfee : ∀ bps, feeBps = some bps → bps.toNat < 10000) (amount : U64) :
    (∃ k, w.oftStore.rate = 10 ^ k) ∧ ∃ sent received fee : U64,
      computeFeeAndAdjustAmount amount w.oftStore m epoch feeBps = .ok (sent, received, fee) ∧
        ExactAmounts w.oftStore m epoch (effectiveBps w.oftStore.defaultFeeBps feeBps)
          amount.toNat sent.toNat received.toNat fee.toNat ∧
        ∀ (ledger ledger' : TokenLedger) source authority decimals, ledger.mint = m →
          w.oftStore.oftType = .adapter → source ≠ w.oftStore.tokenEscrow →
          ledger.transferChecked epoch source w.oftStore.tokenEscrow authority sent decimals =
            .ok ledger' →
          ledger'.balance w.oftStore.tokenEscrow =
            ledger.balance w.oftStore.tokenEscrow + (received.toNat + fee.toNat) := by
  have hwf := h.wellFormed
  have hbps := h.effectiveBps_lt hfee
  obtain ⟨sent, received, fee, hrun, hsplit⟩ := exists_amounts hwf.rate_pos hbps m epoch amount
  refine ⟨⟨_, hwf.rate⟩, sent, received, fee, hrun, hsplit.exact hbps amount.isLt, ?_⟩
  rintro ledger ledger' source authority decimals rfl htype hne hmove
  rw [(TokenLedger.transferChecked_moved hne hmove).credited, ← hsplit.credited,
    OFTStore.credited_adapter htype]

private theorem FeeSplit.again {s : OFTStore} {m : Mint} {epoch : U64}
    {bps amount sent received fee : ℕ} (h : FeeSplit s m epoch bps amount sent received fee)
    (hbps : bps < 10000) (hamount : amount < 2 ^ 64) :
    FeeSplit s m epoch bps sent sent received fee := by
  have hpos := h.rate_pos
  have hsent_le := (h.exact hbps hamount).sent_le
  obtain ⟨hsent, hreceived, hfee⟩ := (feeSplit_iff hpos hbps hamount).mp h
  have hunits : s.units m epoch sent = s.units m epoch amount := by
    rw [hsent, OFTStore.units_sentOf hpos]
  refine (feeSplit_iff hpos hbps (hsent_le.trans_lt hamount)).mpr ⟨?_, ?_, ?_⟩
  · have hidem := (OFTStore.interior_sentOf hpos m epoch).idem amount
    rw [← hsent] at hidem
    exact hidem.symm
  · rw [hunits, hreceived]
  · rw [hunits, hfee]

theorem FeeSplit.mono {s : OFTStore} {m : Mint} {epoch : U64}
    {bps a b sent received fee sent' received' fee' : ℕ}
    (h : FeeSplit s m epoch bps a sent received fee)
    (h' : FeeSplit s m epoch bps b sent' received' fee') (hbps : bps < 10000)
    (hb : b < 2 ^ 64) (hle : a ≤ b) : sent ≤ sent' ∧ received ≤ received' ∧ fee ≤ fee' := by
  have hpos := h.rate_pos
  obtain ⟨rfl, rfl, rfl⟩ := (feeSplit_iff hpos hbps (hle.trans_lt hb)).mp h
  obtain ⟨rfl, rfl, rfl⟩ := (feeSplit_iff hpos hbps hb).mp h'
  have hunits := s.units_mono m epoch hle
  refine ⟨(OFTStore.interior_sentOf hpos m epoch).mono hle, ?_, ?_⟩
  · exact Nat.mul_le_mul_right s.rate (rest_mono hbps.le hunits)
  · exact Nat.mul_le_mul_right s.rate (portion_mono bps 10000 hunits)

private theorem World.checkedAmounts_again {w : World} {clock : Clock} {peer : PeerConfig}
    {amount minAmount sent received fee : U64}
    (hbps : effectiveBps w.oftStore.defaultFeeBps peer.feeBps < 10000)
    (h : w.checkedAmounts clock peer amount minAmount = .ok (sent, received, fee)) :
    w.checkedAmounts clock peer sent minAmount = .ok (sent, received, fee) := by
  obtain ⟨hpaused, hsplit, hmin⟩ := Send.checkedAmounts_eq_ok.mp h
  exact Send.checkedAmounts_eq_ok.mpr ⟨hpaused, hsplit.again hbps amount.isLt, hmin⟩

section Again

variable {rt : Runtime} {clock : Clock} {w : World} {peer : PeerConfig} {sent received fee : U64}

private theorem QuoteOFT.apply_again {params : QuoteSendParams}
    (hpeer : w.peers params.dstEid = some peer)
    (hbps : effectiveBps w.oftStore.defaultFeeBps peer.feeBps < 10000)
    (hamounts : w.checkedAmounts clock peer params.amountLd params.minAmountLd =
      .ok (sent, received, fee)) :
    apply rt clock { params with amountLd := sent } w = apply rt clock params w := by
  have hagain := World.checkedAmounts_again hbps hamounts
  rw [apply, apply]
  cases haccount : w.peerAccount rt params.dstEid with
  | error e => rfl
  | ok found =>
    obtain ⟨hfound, -⟩ := World.peerAccount_eq_ok.mp haccount
    obtain rfl : found = peer := Option.some.inj (hfound.symm.trans hpeer)
    simp only [ok_bind, handler, hamounts, hagain]

private theorem Send.apply_again {ep : Endpoint} {accs : SendAccounts} {params : SendParams}
    (hpeer : w.peers params.dstEid = some peer)
    (hbps : effectiveBps w.oftStore.defaultFeeBps peer.feeBps < 10000)
    (hamounts : w.checkedAmounts clock peer params.amountLd params.minAmountLd =
      .ok (sent, received, fee)) :
    apply rt ep clock accs { params with amountLd := sent } w =
      apply rt ep clock accs params w := by
  have hagain := World.checkedAmounts_again hbps hamounts
  have htry : tryAccounts rt accs { params with amountLd := sent } w =
      tryAccounts rt accs params w := rfl
  rw [apply, apply, htry]
  cases haccs : tryAccounts rt accs params w with
  | error e => rfl
  | ok found =>
    obtain rfl : found = peer :=
      Option.some.inj ((tryAccounts_peer haccs).symm.trans hpeer)
    simp only [ok_bind, handler, hamounts, hagain]

end Again

/-- In every reachable store, for every mint and admitted peer fee, the amounts are monotone in
the amount asked for, and asking for the amount that is sent gives the same amounts. Asking for
the amount a quote says is sent gives the same quote and the same send, with the quoted receipt
and above the same minimum. -/
theorem amounts_monotone_idempotent {rt : Runtime} {sd : U8} {events : List Event} {w : World}
    (h : Reaches rt sd events w) (m : Mint) (epoch : U64) (feeBps : Option U16)
    (hfee : ∀ bps, feeBps = some bps → bps.toNat < 10000) :
    (∀ a b : U64, a.toNat ≤ b.toNat → ∃ sent received fee sent' received' fee' : U64,
      computeFeeAndAdjustAmount a w.oftStore m epoch feeBps = .ok (sent, received, fee) ∧
        computeFeeAndAdjustAmount b w.oftStore m epoch feeBps = .ok (sent', received', fee') ∧
        sent.toNat ≤ sent'.toNat ∧ received.toNat ≤ received'.toNat ∧ fee.toNat ≤ fee'.toNat) ∧
    (∀ a : U64, ∃ sent received fee : U64,
      computeFeeAndAdjustAmount a w.oftStore m epoch feeBps = .ok (sent, received, fee) ∧
        computeFeeAndAdjustAmount sent w.oftStore m epoch feeBps = .ok (sent, received, fee)) ∧
    ∀ clock params payInLzToken quote,
      QuoteOFT.apply rt clock (SendParams.quoted params payInLzToken) w = .ok quote →
      let again := { params with amountLd := quote.oftReceipt.amountSentLd }
      params.minAmountLd.toNat ≤ quote.oftReceipt.amountReceivedLd.toNat ∧
      QuoteOFT.apply rt clock (again.quoted payInLzToken) w = .ok quote ∧
      ∀ ep accs, Send.apply rt ep clock accs again w = Send.apply rt ep clock accs params w ∧
        ∀ w' out, Send.apply rt ep clock accs again w = .ok (w', out) →
          out.oftReceipt = quote.oftReceipt := by
  have hpos := h.wellFormed.rate_pos
  have hbps := h.effectiveBps_lt hfee
  refine ⟨?_, ?_, ?_⟩
  · intro a b hle
    obtain ⟨sent, received, fee, hrun, hsplit⟩ := exists_amounts hpos hbps m epoch a
    obtain ⟨sent', received', fee', hrun', hsplit'⟩ := exists_amounts hpos hbps m epoch b
    exact ⟨sent, received, fee, sent', received', fee', hrun, hrun',
      hsplit.mono hsplit' hbps b.isLt hle⟩
  · intro a
    obtain ⟨sent, received, fee, hrun, hsplit⟩ := exists_amounts hpos hbps m epoch a
    exact ⟨sent, received, fee, hrun,
      computeFeeAndAdjustAmount_eq_ok.mpr (hsplit.again hbps a.isLt)⟩
  · intro clock params payInLzToken quote hquote again
    obtain ⟨peer, fee, hpeer, hamounts⟩ := QuoteOFT.amounts_of_apply hquote
    have hpeerBps := h.wellFormed.effectiveBps_lt hpeer
    obtain ⟨-, -, hmin⟩ := Send.checkedAmounts_eq_ok.mp hamounts
    have hrequote : QuoteOFT.apply rt clock (again.quoted payInLzToken) w = .ok quote :=
      (QuoteOFT.apply_again hpeer hpeerBps hamounts).trans hquote
    refine ⟨hmin, hrequote, ?_⟩
    intro ep accs
    have hsame : Send.apply rt ep clock accs again w = Send.apply rt ep clock accs params w :=
      Send.apply_again hpeer hpeerBps hamounts
    refine ⟨hsame, ?_⟩
    intro w' out hsend
    obtain ⟨p, hsent⟩ := Send.apply_sent (hsame ▸ hsend)
    obtain rfl : p = peer := Option.some.inj (hsent.peer_eq.symm.trans hpeer)
    exact (hsent.receipt_eq hamounts).1

namespace Reference

def quotedRunAmounts (amount : U64) : Result (U64 × U64 × U64) :=
  computeFeeAndAdjustAmount amount quotedRun.1.oftStore quotedRun.1.ledger.mint 0 (some 250)

theorem amounts_exact_sample :
    quotedRunAmounts 2000777 = .ok (2000000, 1946000, 49000) ∧
      ExactAmounts quotedRun.1.oftStore quotedRun.1.ledger.mint 0 250 2000777 2000000 1946000
        49000 := by
  have hrun : quotedRunAmounts 2000777 = .ok (2000000, 1946000, 49000) := rfl
  obtain ⟨-, sent, received, fee, hsame, hexact, -⟩ := amounts_exact quotedRun_reaches
    quotedRun.1.ledger.mint 0 (some 250) (fun bps hbps => by cases hbps; decide) 2000777
  cases hrun.symm.trans hsame
  exact ⟨hrun, hexact⟩

private theorem dustyAmounts_ok : (quotedAmounts 2000777).isOk = true := by decide

theorem amounts_monotone_idempotent_sample :
    quotedRunAmounts 2000000 = .ok (2000000, 1946000, 49000) ∧
      quotedRunAmounts 2000777 = quotedRunAmounts 2000000 ∧
      quotedSend 2000777 = quotedSend 2000000 := by
  obtain ⟨-, hagain, hquoted⟩ := amounts_monotone_idempotent quotedRun_reaches
    quotedRun.1.ledger.mint 0 (some 250) (fun bps hbps => by cases hbps; decide)
  have hrun : quotedRunAmounts 2000777 = .ok (2000000, 1946000, 49000) := rfl
  obtain ⟨sent, received, fee, hfirst, hsecond⟩ := hagain 2000777
  cases hrun.symm.trans hfirst
  obtain ⟨-, -, hsends⟩ := hquoted (clockAt 20) (quotedParams 2000777) false _
    (eq_ok_value (quotedAmounts 2000777) dustyAmounts_ok)
  obtain ⟨hsame, -⟩ := hsends endpoint ⟨user, userTokens, [admin, storeKey]⟩
  have hsent : (value _ dustyAmounts_ok).oftReceipt.amountSentLd = 2000000 := by decide
  rw [hsent] at hsame
  exact ⟨hsecond, hrun.trans hsecond.symm, hsame.symm⟩

end Reference

end FdfiToken
