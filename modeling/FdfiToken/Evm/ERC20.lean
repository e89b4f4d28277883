import FdfiToken.Evm.Runtime
import FdfiToken.Lib.Shift
import Mathlib.Algebra.Order.BigOperators.Group.Finset

/-!
# ERC-20 ledgers

OpenZeppelin's ERC20 with its burnable extension. All movements of value pass `_update`, which
a contract may override; mints come from the zero address and burns go to it.
-/

namespace FdfiToken.Evm

open Word Fallible Shifts

structure Transfer where
  src : Address
  dst : Address
  value : U256
deriving DecidableEq

/-- The storage of ERC20 and the `Transfer` events emitted so far. -/
structure ERC20 where
  totalSupply : U256
  balances : Address → U256
  allowances : Address → Address → U256
  logs : List Transfer

namespace ERC20

def empty : ERC20 := ⟨0, fun _ => 0, fun _ _ => 0, []⟩

/-- The first half of `_update`; only a mint is checked for overflow. -/
def takeFrom (src : Address) (value : U256) (l : ERC20) : Result ERC20 :=
  if src = 0 then do
    let totalSupply ← orError .panic (checkedAdd l.totalSupply value)
    pure { l with totalSupply }
  else do
    let fromBalance := l.balances src
    require (value.toNat ≤ fromBalance.toNat) (.erc20InsufficientBalance src fromBalance value)
    pure { l with balances := Function.update l.balances src (fromBalance - value) }

/-- The second half of `_update`, unchecked. -/
def giveTo (dst : Address) (value : U256) (l : ERC20) : ERC20 :=
  if dst = 0 then { l with totalSupply := l.totalSupply - value }
  else { l with balances := Function.update l.balances dst (l.balances dst + value) }

def update (src dst : Address) (value : U256) (l : ERC20) : Result ERC20 := do
  let l ← l.takeFrom src value
  let l := l.giveTo dst value
  pure { l with logs := l.logs ++ [⟨src, dst, value⟩] }

def setAllowance (owner spender : Address) (value : U256) (l : ERC20) : ERC20 :=
  { l with allowances :=
      Function.update l.allowances owner (Function.update (l.allowances owner) spender value) }

def holdings (l : ERC20) (a : Address) : ℕ := (l.balances a).toNat

def Backed (l : ERC20) : Prop := l.totalSupply.toNat = ∑ a, l.holdings a

theorem backed_empty : empty.Backed := by
  simp [Backed, empty, holdings]

/-- An account's side of a movement; nothing is held at the zero address. -/
def side (account : Address) (value : U256) : Address → ℕ :=
  if account = 0 then 0 else Pi.single account value.toNat

def zeroSide (account : Address) (value : U256) : ℕ := if account = 0 then value.toNat else 0

private theorem sum_side (account : Address) (value : U256) :
    ∑ a, side account value a + zeroSide account value = value.toNat := by
  unfold side zeroSide
  split <;> simp

theorem side_self {account : Address} (value : U256) (h : account ≠ 0) :
    side account value account = value.toNat := by
  rw [side, if_neg h, Pi.single_eq_same]

theorem side_zero (value : U256) : side 0 value = 0 := if_pos rfl

theorem side_of_ne {account a : Address} (value : U256) (h : a ≠ account) :
    side account value a = 0 := by
  unfold side
  split
  · rfl
  · exact Pi.single_eq_of_ne h _

variable {l l' : ERC20} {src dst : Address} {value : U256}

theorem holdings_le_supply (h : l.Backed) (a : Address) : l.holdings a ≤ l.totalSupply.toNat := by
  rw [h]
  exact Finset.single_le_sum (f := l.holdings) (fun _ _ => Nat.zero_le _) (Finset.mem_univ a)

private theorem takeFrom_eq_ok (h : l.takeFrom src value = .ok l') :
    Shift (side src value) 0 l.holdings l'.holdings ∧
      Shift 0 (zeroSide src value) l.totalSupply.toNat l'.totalSupply.toNat ∧
      l'.allowances = l.allowances ∧ l'.logs = l.logs ∧
      (src ≠ 0 → value.toNat ≤ l.holdings src) := by
  unfold takeFrom at h
  split at h
  · rename_i hzero
    simp only [bind_eq_ok, orError_eq_ok, checkedAdd_eq_some, pure_eq_ok] at h
    obtain ⟨supply, hsupply, rfl⟩ := h
    have hside : side src value = 0 := by rw [side, if_pos hzero]
    have hzeroSide : zeroSide src value = value.toNat := by rw [zeroSide, if_pos hzero]
    refine ⟨?_, ?_, rfl, rfl, fun hne => absurd hzero hne⟩
    · rw [hside]
      exact Shift.refl _
    · rw [hzeroSide]
      exact hsupply
  · rename_i hne
    simp only [bind_eq_ok, require_eq_ok, pure_eq_ok] at h
    obtain ⟨_, hle, rfl⟩ := h
    have hzeroSide : zeroSide src value = 0 := by rw [zeroSide, if_neg hne]
    refine ⟨?_, ?_, rfl, rfl, fun _ => hle⟩
    · funext a
      simp only [Pi.add_apply, Pi.zero_apply, holdings]
      by_cases ha : a = src
      · subst ha
        have hsub := BitVec.toNat_sub_of_le (BitVec.le_def.mpr hle)
        rw [Function.update_self, hsub, side_self value hne]
        omega
      · rw [Function.update_of_ne ha, side_of_ne value ha]
    · rw [hzeroSide]
      exact Shift.refl _

private theorem giveTo_moves (dst : Address)
    (h : l.totalSupply.toNat = ∑ a, l.holdings a + value.toNat) :
    Shift 0 (side dst value) l.holdings (l.giveTo dst value).holdings ∧
      Shift (zeroSide dst value) 0 l.totalSupply.toNat (l.giveTo dst value).totalSupply.toNat ∧
      (l.giveTo dst value).logs = l.logs := by
  unfold giveTo
  split
  · rename_i hzero
    have hside : side dst value = 0 := by rw [side, if_pos hzero]
    have hzeroSide : zeroSide dst value = value.toNat := by rw [zeroSide, if_pos hzero]
    refine ⟨?_, ?_, rfl⟩
    · rw [hside]
      exact Shift.refl _
    · have hle : value ≤ l.totalSupply := BitVec.le_def.mpr (by omega)
      have hsub := BitVec.toNat_sub_of_le hle
      rw [hzeroSide]
      unfold Shift
      rw [hsub]
      omega
  · rename_i hne
    have hzeroSide : zeroSide dst value = 0 := by rw [zeroSide, if_neg hne]
    refine ⟨?_, ?_, rfl⟩
    · funext a
      simp only [Pi.add_apply, Pi.zero_apply, holdings]
      by_cases ha : a = dst
      · subst ha
        have hone := Finset.single_le_sum (f := l.holdings) (fun _ _ => Nat.zero_le _)
          (Finset.mem_univ a)
        have hlt := l.totalSupply.isLt
        have hadd := BitVec.toNat_add_of_lt (x := l.balances a) (y := value)
          (by unfold holdings at hone h; omega)
        rw [Function.update_self, hadd, side_self value hne, Nat.add_zero]
      · rw [Function.update_of_ne ha, side_of_ne value ha]
    · rw [hzeroSide]
      exact Shift.refl _

/-- A movement of value between two accounts, of which the zero address holds nothing. -/
structure Updated (t : Transfer) (l l' : ERC20) : Prop where
  holdings : Shift (side t.src t.value) (side t.dst t.value) l.holdings l'.holdings
  totalSupply : Shift (zeroSide t.dst t.value) (zeroSide t.src t.value) l.totalSupply.toNat
    l'.totalSupply.toNat
  logs : l'.logs = l.logs ++ [t]
  covered : t.src ≠ 0 → t.value.toNat ≤ l.holdings t.src

theorem update_allowances (h : l.update src dst value = .ok l') :
    l'.allowances = l.allowances := by
  simp only [update, bind_eq_ok, pure_eq_ok] at h
  obtain ⟨l₁, htake, rfl⟩ := h
  obtain ⟨-, -, hallowances, -⟩ := takeFrom_eq_ok htake
  rw [← hallowances]
  unfold giveTo
  split <;> rfl

theorem update_eq_ok (hl : l.Backed) (h : l.update src dst value = .ok l') :
    Updated ⟨src, dst, value⟩ l l' := by
  simp only [update, bind_eq_ok, pure_eq_ok] at h
  obtain ⟨l₁, htake, rfl⟩ := h
  obtain ⟨hout, hminted, hallowances, hlogs, hcovered⟩ := takeFrom_eq_ok htake
  have hroom : l₁.totalSupply.toNat = ∑ a, l₁.holdings a + value.toNat := by
    have hsum := hout.sum
    have hside := sum_side src value
    unfold Shift at hsum hminted
    rw [hl] at hminted
    simp only [Pi.zero_apply, Finset.sum_const_zero] at hsum
    omega
  obtain ⟨hin, hburned, hlogs'⟩ := giveTo_moves dst hroom
  refine ⟨?_, ?_, ?_, hcovered⟩
  · have hboth := hout.trans hin
    rw [add_zero, zero_add] at hboth
    exact hboth
  · have hboth := hminted.trans hburned
    rw [zero_add, add_zero] at hboth
    exact hboth
  · rw [← hlogs, ← hlogs']

theorem Updated.backed {t : Transfer} (h : Updated t l l') (hl : l.Backed) : l'.Backed := by
  have hsum := h.holdings.sum
  have hsupply := h.totalSupply
  have hout := sum_side t.src t.value
  have hin := sum_side t.dst t.value
  unfold Shift at hsum hsupply
  unfold Backed at hl ⊢
  omega

theorem exists_update (dst : Address) (hsrc : src ≠ 0) (h : value.toNat ≤ l.holdings src) :
    ∃ l', l.update src dst value = .ok l' := by
  have htake : l.takeFrom src value =
      .ok { l with balances := Function.update l.balances src (l.balances src - value) } := by
    unfold holdings at h
    rw [takeFrom, if_neg hsrc]
    simp [require, h]
  exact ⟨_, by rw [update, htake]; rfl⟩

/-- A contract that inherits ERC20: where it keeps the ledger, and its own `_update`, which
must go through `super._update` and touch the ledger nowhere else. -/
class Host (σ : Type) where
  ledger : σ → ERC20
  setLedger : ERC20 → σ → σ
  update : Msg → Address → Address → U256 → σ → Result σ
  ledger_setLedger (l : ERC20) (s : σ) : ledger (setLedger l s) = l
  setLedger_ledger (s : σ) : setLedger (ledger s) s = s
  update_ledger {msg : Msg} {src dst : Address} {value : U256} {s s' : σ} :
    update msg src dst value s = .ok s' → (ledger s).update src dst value = .ok (ledger s')

section Entry

variable {σ : Type} [Host σ] (msg : Msg)

def _transfer (src dst : Address) (value : U256) (s : σ) : Result σ := do
  require (src ≠ 0) (.erc20InvalidSender 0)
  require (dst ≠ 0) (.erc20InvalidReceiver 0)
  Host.update msg src dst value s

def _mint (account : Address) (value : U256) (s : σ) : Result σ := do
  require (account ≠ 0) (.erc20InvalidReceiver 0)
  Host.update msg 0 account value s

def _burn (account : Address) (value : U256) (s : σ) : Result σ := do
  require (account ≠ 0) (.erc20InvalidSender 0)
  Host.update msg account 0 value s

def _approve (owner spender : Address) (value : U256) (s : σ) : Result σ := do
  require (owner ≠ 0) (.erc20InvalidApprover 0)
  require (spender ≠ 0) (.erc20InvalidSpender 0)
  pure (Host.setLedger ((Host.ledger s).setAllowance owner spender value) s)

def _spendAllowance (owner spender : Address) (value : U256) (s : σ) : Result σ :=
  let currentAllowance := (Host.ledger s).allowances owner spender
  if currentAllowance < BitVec.allOnes 256 then do
    require (value.toNat ≤ currentAllowance.toNat)
      (.erc20InsufficientAllowance spender currentAllowance value)
    _approve owner spender (currentAllowance - value) s
  else pure s

def transfer (dst : Address) (value : U256) (s : σ) : Result σ :=
  _transfer msg msg.sender dst value s

def approve (spender : Address) (value : U256) (s : σ) : Result σ :=
  _approve msg.sender spender value s

def transferFrom (src dst : Address) (value : U256) (s : σ) : Result σ := do
  let s ← _spendAllowance src msg.sender value s
  _transfer msg src dst value s

def burn (value : U256) (s : σ) : Result σ := _burn msg msg.sender value s

def burnFrom (account : Address) (value : U256) (s : σ) : Result σ := do
  let s ← _spendAllowance account msg.sender value s
  _burn msg account value s

variable {msg} {s s' : σ} {owner spender account : Address}

@[simp] theorem transfer_eq_ok : _transfer msg src dst value s = .ok s' ↔
    src ≠ 0 ∧ dst ≠ 0 ∧ Host.update msg src dst value s = .ok s' := by
  simp [_transfer]

@[simp] theorem mint_eq_ok : _mint msg account value s = .ok s' ↔
    account ≠ 0 ∧ Host.update msg 0 account value s = .ok s' := by
  simp [_mint]

@[simp] theorem burn_eq_ok : _burn msg account value s = .ok s' ↔
    account ≠ 0 ∧ Host.update msg account 0 value s = .ok s' := by
  simp [_burn]

@[simp] theorem approve_eq_ok : _approve owner spender value s = .ok s' ↔
    owner ≠ 0 ∧ spender ≠ 0 ∧
      Host.setLedger ((Host.ledger s).setAllowance owner spender value) s = s' := by
  simp [_approve]

private theorem setAllowance_self (l : ERC20) (owner spender : Address) :
    l.setAllowance owner spender (l.allowances owner spender) = l := by
  simp [setAllowance]

private theorem spendAllowance_eq_ok (h : _spendAllowance owner spender value s = .ok s') :
    value.toNat ≤ ((Host.ledger s).allowances owner spender).toNat ∧
      ∃ left : U256, left.toNat ≤ ((Host.ledger s).allowances owner spender).toNat ∧
        s' = Host.setLedger ((Host.ledger s).setAllowance owner spender left) s := by
  simp only [_spendAllowance] at h
  split at h
  · simp only [bind_eq_ok, require_eq_ok, approve_eq_ok] at h
    obtain ⟨_, hle, -, -, hs⟩ := h
    have hsub := BitVec.toNat_sub_of_le (BitVec.le_def.mpr hle)
    exact ⟨hle, _, by rw [hsub]; exact Nat.sub_le _ _, hs.symm⟩
  · rename_i hmax
    cases h
    rw [BitVec.lt_def, BitVec.toNat_allOnes] at hmax
    have hlt := value.isLt
    refine ⟨by omega, (Host.ledger s).allowances owner spender, le_rfl, ?_⟩
    rw [setAllowance_self, Host.setLedger_ledger]

theorem transferFrom_eq_ok (h : transferFrom msg src dst value s = .ok s') :
    src ≠ 0 ∧ dst ≠ 0 ∧ value.toNat ≤ ((Host.ledger s).allowances src msg.sender).toNat ∧
      ∃ left : U256, left.toNat ≤ ((Host.ledger s).allowances src msg.sender).toNat ∧
        Host.update msg src dst value
          (Host.setLedger ((Host.ledger s).setAllowance src msg.sender left) s) = .ok s' := by
  simp only [transferFrom, bind_eq_ok, transfer_eq_ok] at h
  obtain ⟨s₁, hspend, hsrc, hdst, hupdate⟩ := h
  obtain ⟨hle, left, hleft, rfl⟩ := spendAllowance_eq_ok hspend
  exact ⟨hsrc, hdst, hle, left, hleft, hupdate⟩

theorem burnFrom_eq_ok (h : burnFrom msg account value s = .ok s') :
    account ≠ 0 ∧ value.toNat ≤ ((Host.ledger s).allowances account msg.sender).toNat ∧
      ∃ left : U256, left.toNat ≤ ((Host.ledger s).allowances account msg.sender).toNat ∧
        Host.update msg account 0 value
          (Host.setLedger ((Host.ledger s).setAllowance account msg.sender left) s) = .ok s' := by
  simp only [burnFrom, bind_eq_ok, burn_eq_ok] at h
  obtain ⟨s₁, hspend, haccount, hupdate⟩ := h
  obtain ⟨hle, left, hleft, rfl⟩ := spendAllowance_eq_ok hspend
  exact ⟨haccount, hle, left, hleft, hupdate⟩

end Entry

private theorem allowances_setAllowance (l : ERC20) (owner spender : Address) (value : U256) :
    (l.setAllowance owner spender value).allowances =
      Function.update l.allowances owner (Function.update (l.allowances owner) spender value) :=
  rfl

theorem setAllowance_le (l : ERC20) {owner spender : Address} {left : U256}
    (h : left.toNat ≤ (l.allowances owner spender).toNat) (a b : Address) :
    ((l.setAllowance owner spender left).allowances a b).toNat ≤ (l.allowances a b).toNat := by
  rw [allowances_setAllowance]
  by_cases ha : a = owner
  · subst ha
    by_cases hb : b = spender
    · subst hb
      simpa using h
    · simp [hb]
  · simp [ha]

end ERC20

end FdfiToken.Evm
