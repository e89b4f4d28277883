import FdfiToken.Evm.Token

/-!
# LayerZero's OFT contracts

The base contracts the bridge overrides forward to, as their documentation describes them: the
adapter locks and releases an existing token, the satellite burns and mints its own. Amounts
are cut to six shared decimals, which travel as `uint64`.
-/

namespace FdfiToken.Evm

open Word Fallible

/-- What `_debit` returns, and the state it leaves. -/
structure Debited (σ : Type) where
  state : σ
  amountSentLD : U256
  amountReceivedLD : U256

def Debited.map {σ τ : Type} (f : σ → τ) (d : Debited σ) : Debited τ :=
  ⟨f d.state, d.amountSentLD, d.amountReceivedLD⟩

structure Credited (σ : Type) where
  state : σ
  amountReceivedLD : U256

def Credited.map {σ τ : Type} (f : σ → τ) (c : Credited σ) : Credited τ :=
  ⟨f c.state, c.amountReceivedLD⟩

/-- An inherited OFT contract with its hooks, on the state they work on. -/
structure OFTBase (σ : Type) where
  init : (delegate : Address) → σ → Result σ
  debit : Msg → (src : Address) → (amountLD minAmountLD : U256) → (dstEid : U32) → σ →
    Result (Debited σ)
  credit : Msg → (dst : Address) → (amountLD : U256) → (srcEid : U32) → σ → Result (Credited σ)

namespace OFTCore

/-- `10 ** (localDecimals - sharedDecimals)`, for 18 and 6 decimals. -/
def decimalConversionRate : U256 := 1000000000000

private theorem toNat_decimalConversionRate : decimalConversionRate.toNat = 10 ^ 12 := by decide

def removeDust (amountLD : U256) : U256 :=
  amountLD / decimalConversionRate * decimalConversionRate

/-- `uint64(amountLD / decimalConversionRate)`, which cuts off high bits. -/
def toSD (amountLD : U256) : U64 := BitVec.setWidth 64 (amountLD / decimalConversionRate)

def toLD (amountSD : U64) : U256 := BitVec.setWidth 256 amountSD * decimalConversionRate

/-- `_debitView`: the amount sent and the amount received. -/
def debitView (amountLD minAmountLD : U256) : Result (U256 × U256) := do
  let amountSentLD := removeDust amountLD
  let amountReceivedLD := amountSentLD
  require (minAmountLD ≤ amountReceivedLD) (.slippageExceeded amountReceivedLD minAmountLD)
  pure (amountSentLD, amountReceivedLD)

theorem toNat_removeDust (amountLD : U256) :
    (removeDust amountLD).toNat = amountLD.toNat / 10 ^ 12 * 10 ^ 12 := by
  have hle := Nat.div_mul_le_self amountLD.toNat (10 ^ 12)
  have hlt := amountLD.isLt
  rw [removeDust, BitVec.toNat_mul, BitVec.toNat_udiv, toNat_decimalConversionRate,
    Nat.mod_eq_of_lt (by omega)]

private theorem toNat_toSD {amountLD : U256} (h : amountLD.toNat < 2 ^ 64 * 10 ^ 12) :
    (toSD amountLD).toNat = amountLD.toNat / 10 ^ 12 := by
  have hdiv : amountLD.toNat / 10 ^ 12 < 2 ^ 64 := Nat.div_lt_of_lt_mul (by omega)
  rw [toSD, BitVec.toNat_setWidth, BitVec.toNat_udiv, toNat_decimalConversionRate,
    Nat.mod_eq_of_lt hdiv]

/-- Whole shared units lose nothing on the wire. -/
theorem toNat_toSD_removeDust {amountLD : U256}
    (h : (removeDust amountLD).toNat < 2 ^ 64 * 10 ^ 12) :
    (toSD (removeDust amountLD)).toNat * 10 ^ 12 = (removeDust amountLD).toNat := by
  have hdust := toNat_removeDust amountLD
  rw [toNat_toSD h]
  omega

theorem toNat_toLD (amountSD : U64) : (toLD amountSD).toNat = amountSD.toNat * 10 ^ 12 := by
  have hlt := amountSD.isLt
  rw [toLD, BitVec.toNat_mul, BitVec.toNat_setWidth, toNat_decimalConversionRate,
    Nat.mod_eq_of_lt (a := amountSD.toNat) (by omega), Nat.mod_eq_of_lt (by omega)]

@[simp] theorem debitView_eq_ok {amountLD minAmountLD : U256} {pair : U256 × U256} :
    debitView amountLD minAmountLD = .ok pair ↔
      minAmountLD ≤ removeDust amountLD ∧ (removeDust amountLD, removeDust amountLD) = pair := by
  simp [debitView]

end OFTCore

namespace OFTAdapter

def callAs (self : { a : Address // a ≠ 0 }) (msg : Msg) : Msg :=
  { msg with sender := self.1, sender_ne := self.2 }

/-- The adapter at `self` over a token: `_debit` pulls into it, `_credit` pays out of it. -/
def base (oz : OpenZeppelin) (self : { a : Address // a ≠ 0 }) : OFTBase (FDFIToken oz) where
  init delegate s := do
    require (delegate ≠ 0) .invalidDelegate
    pure s
  debit msg src amountLD minAmountLD _ s := do
    let (amountSentLD, amountReceivedLD) ← OFTCore.debitView amountLD minAmountLD
    let s ← ERC20.transferFrom (callAs self msg) src self.1 amountSentLD s
    pure ⟨s, amountSentLD, amountReceivedLD⟩
  credit msg dst amountLD _ s := do
    let s ← ERC20.transfer (callAs self msg) dst amountLD s
    pure ⟨s, amountLD⟩

end OFTAdapter

/-- The satellite's own ERC-20 with permit nonces; its `_update` is the inherited one. -/
structure OFTToken where
  erc20 : ERC20
  nonces : Address → U256

namespace OFTToken

def deployed : OFTToken := ⟨.empty, fun _ => 0⟩

def update (_ : Msg) (src dst : Address) (value : U256) (s : OFTToken) : Result OFTToken := do
  let erc20 ← s.erc20.update src dst value
  pure { s with erc20 }

instance : ERC20.Host OFTToken where
  ledger s := s.erc20
  setLedger l s := { s with erc20 := l }
  update := update
  ledger_setLedger _ _ := rfl
  setLedger_ledger _ := rfl
  update_ledger h := by
    simp only [update, bind_eq_ok, pure_eq_ok] at h
    obtain ⟨erc20, hledger, rfl⟩ := h
    exact hledger

/-- `address(0xdead)`. -/
def dead : Address := 0xdead

/-- `_debit` burns from the sender, `_credit` mints to the recipient. -/
def base : OFTBase OFTToken where
  init delegate s := do
    require (delegate ≠ 0) .invalidDelegate
    pure s
  debit msg src amountLD minAmountLD _ s := do
    let (amountSentLD, amountReceivedLD) ← OFTCore.debitView amountLD minAmountLD
    let s ← ERC20._burn msg src amountSentLD s
    pure ⟨s, amountSentLD, amountReceivedLD⟩
  credit msg dst amountLD _ s := do
    let dst := if dst = 0 then dead else dst
    let s ← ERC20._mint msg dst amountLD s
    pure ⟨s, amountLD⟩

end OFTToken

end FdfiToken.Evm
