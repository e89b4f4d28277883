import FdfiToken.Lib.FeeSchedule
import FdfiToken.Solana.Runtime
import Mathlib.Logic.Function.Basic

/-!
# The token program

SPL Token and Token-2022 as far as the program uses them: one mint with its token accounts,
`transfer_checked`, `burn` and `mint_to`, and the transfer-fee extension. A transfer takes the
whole amount from its source and withholds the fee at the destination. What else the token program
looks at (frozen accounts, further extensions, rent) is kept as the calls it accepts.
-/

namespace FdfiToken

open Word Fallible

/-- A Token-2022 fee; the token program rejects more than 10000 basis points. -/
structure TransferFee where
  epoch : U64
  maximumFee : U64
  transferFeeBasisPoints : U16
  basisPoints_le : transferFeeBasisPoints.toNat ≤ 10000
deriving DecidableEq

namespace TransferFee

def schedule (f : TransferFee) : FeeSchedule :=
  ⟨10000, f.transferFeeBasisPoints.toNat, f.maximumFee.toNat, by decide, f.basisPoints_le⟩

/-- `min(maximum_fee, ceil(amount * basis_points / 10000))`. -/
def calculateFee (f : TransferFee) (amount : U64) : U64 :=
  BitVec.ofNat 64 (f.schedule.fee amount.toNat)

def calculatePostFeeAmount (f : TransferFee) (amount : U64) : Option U64 :=
  checkedSub amount (f.calculateFee amount)

@[simp] theorem toNat_calculateFee (f : TransferFee) (amount : U64) :
    (f.calculateFee amount).toNat = f.schedule.fee amount.toNat := by
  have hle := f.schedule.fee_le_self amount.toNat
  rw [calculateFee, BitVec.toNat_ofNat, Nat.mod_eq_of_lt (by omega)]

theorem calculatePostFeeAmount_eq_some {f : TransferFee} {amount post : U64} :
    f.calculatePostFeeAmount amount = some post ↔ post.toNat = f.schedule.net amount.toNat := by
  have hnet := f.schedule.net_add_fee amount.toNat
  rw [calculatePostFeeAmount, checkedSub_eq_some, toNat_calculateFee]
  omega

end TransferFee

structure TransferFeeConfig where
  olderTransferFee : TransferFee
  newerTransferFee : TransferFee
deriving DecidableEq

def TransferFeeConfig.getEpochFee (c : TransferFeeConfig) (epoch : U64) : TransferFee :=
  if c.newerTransferFee.epoch.toNat ≤ epoch.toNat then c.newerTransferFee else c.olderTransferFee

structure Mint where
  mintAuthority : Option Pubkey
  supply : U64
  decimals : U8
  transferFeeConfig : Option TransferFeeConfig
deriving DecidableEq

namespace Mint

/-- What the mint charges in an epoch; a mint without the extension charges nothing. -/
def schedule (m : Mint) (epoch : U64) : FeeSchedule :=
  match m.transferFeeConfig with
  | some config => (config.getEpochFee epoch).schedule
  | none => ⟨10000, 0, 0, by decide, by decide⟩

def transferFee (m : Mint) (epoch amount : U64) : U64 :=
  match m.transferFeeConfig with
  | some config => (config.getEpochFee epoch).calculateFee amount
  | none => 0

@[simp] theorem toNat_transferFee (m : Mint) (epoch amount : U64) :
    (m.transferFee epoch amount).toNat = (m.schedule epoch).fee amount.toNat := by
  unfold transferFee schedule
  cases m.transferFeeConfig with
  | none => exact (FeeSchedule.fee_of_rate_zero _ rfl _).symm
  | some config => simp

end Mint

structure TokenAccount where
  owner : Pubkey
  amount : U64
  withheldAmount : U64
deriving DecidableEq

/-- A multisig that one signature satisfies. -/
structure Multisig where
  signers : List Pubkey
deriving DecidableEq

/-- A call of the token program, or of the associated token program for a new account. -/
inductive TokenInstruction where
  | create (key owner : Pubkey)
  | transferChecked (source dest authority : Pubkey) (amount : ℕ)
  | burn (source authority : Pubkey) (amount : ℕ)
  | mintTo (dest authority : Pubkey) (amount : ℕ)
deriving DecidableEq

/-- One mint, the program that owns it, its token accounts, and the 1-of-n multisigs. `accepts`
is the verdict on a call of everything that is not kept here: whether the accounts are frozen,
the extensions other than the transfer fee, and who pays the rent of a new account. -/
structure TokenLedger where
  mintKey : Pubkey
  tokenProgram : Pubkey
  mint : Mint
  accounts : Pubkey → Option TokenAccount
  multisigs : Pubkey → Option Multisig
  accepts : TokenInstruction → Bool

namespace TokenLedger

def balance (l : TokenLedger) (key : Pubkey) : ℕ := ((l.accounts key).map (·.amount.toNat)).getD 0

def withheld (l : TokenLedger) (key : Pubkey) : ℕ :=
  ((l.accounts key).map (·.withheldAmount.toNat)).getD 0

def ownerOf (l : TokenLedger) (key : Pubkey) : Option Pubkey := (l.accounts key).map (·.owner)

def set (l : TokenLedger) (key : Pubkey) (account : TokenAccount) : TokenLedger :=
  { l with accounts := Function.update l.accounts key (some account) }

def account (l : TokenLedger) (key : Pubkey) : Result TokenAccount :=
  orError .tokenProgram (l.accounts key)

/-- `transfer_checked`. A transfer to the source account itself is checked and moves nothing. -/
def transferChecked (l : TokenLedger) (epoch : U64) (source dest authority : Pubkey)
    (amount : U64) (decimals : U8) : Result TokenLedger := do
  require (l.accepts (.transferChecked source dest authority amount.toNat) = true) .tokenProgram
  let sourceAccount ← l.account source
  let destAccount ← l.account dest
  require (sourceAccount.owner = authority) .tokenProgram
  require (l.mint.decimals = decimals) .tokenProgram
  let left ← orError .tokenProgram (checkedSub sourceAccount.amount amount)
  if source = dest then
    return l
  else
    let fee := l.mint.transferFee epoch amount
    let credited ← orError .tokenProgram (checkedSub amount fee)
    let received ← orError .tokenProgram (checkedAdd destAccount.amount credited)
    let withheld ← orError .tokenProgram (checkedAdd destAccount.withheldAmount fee)
    return (l.set source { sourceAccount with amount := left }).set dest
      { destAccount with amount := received, withheldAmount := withheld }

def burn (l : TokenLedger) (source authority : Pubkey) (amount : U64) : Result TokenLedger := do
  require (l.accepts (.burn source authority amount.toNat) = true) .tokenProgram
  let sourceAccount ← l.account source
  require (sourceAccount.owner = authority) .tokenProgram
  let left ← orError .tokenProgram (checkedSub sourceAccount.amount amount)
  let supply ← orError .tokenProgram (checkedSub l.mint.supply amount)
  return { l.set source { sourceAccount with amount := left } with
    mint := { l.mint with supply := supply } }

/-- Whether `signer` alone can act for `authority`: as itself, or as one of the signers of a
1-of-n multisig. -/
def signsFor (l : TokenLedger) (signer authority : Pubkey) : Prop :=
  authority = signer ∨ ∃ m, l.multisigs authority = some m ∧ signer ∈ m.signers

instance (l : TokenLedger) (signer authority : Pubkey) : Decidable (l.signsFor signer authority) :=
  match h : l.multisigs authority with
  | none => decidable_of_iff (authority = signer) (by simp [signsFor, h])
  | some m => decidable_of_iff (authority = signer ∨ signer ∈ m.signers) (by simp [signsFor, h])

def mintTo (l : TokenLedger) (dest authority signer : Pubkey) (amount : U64) :
    Result TokenLedger := do
  require (l.accepts (.mintTo dest authority amount.toNat) = true) .tokenProgram
  let destAccount ← l.account dest
  require (l.mint.mintAuthority = some authority) .tokenProgram
  require (l.signsFor signer authority) .tokenProgram
  let received ← orError .tokenProgram (checkedAdd destAccount.amount amount)
  let supply ← orError .tokenProgram (checkedAdd l.mint.supply amount)
  return { l.set dest { destAccount with amount := received } with
    mint := { l.mint with supply := supply } }

/-- The associated-token part of `init_if_needed`: an account that is not there is created
empty for `owner`, one that is there must belong to `owner`. -/
def initIfNeeded (l : TokenLedger) (key owner : Pubkey) : Result TokenLedger :=
  match l.accounts key with
  | none => do
    require (l.accepts (.create key owner) = true) .tokenProgram
    return l.set key ⟨owner, 0, 0⟩
  | some account => do
    require (account.owner = owner) .constraint
    return l

/-- The ledgers differ at most in the accounts `touched` and in the supply, and an existing
account keeps its owner. -/
structure Frame (l l' : TokenLedger) (touched : List Pubkey) : Prop where
  accounts : ∀ k, k ∉ touched → l'.accounts k = l.accounts k
  ownerOf : ∀ k o, l.ownerOf k = some o → l'.ownerOf k = some o
  mintKey : l'.mintKey = l.mintKey
  tokenProgram : l'.tokenProgram = l.tokenProgram
  decimals : l'.mint.decimals = l.mint.decimals

@[simp] theorem set_accounts (l : TokenLedger) (key : Pubkey) (account : TokenAccount) :
    (l.set key account).accounts = Function.update l.accounts key (some account) := rfl

@[simp] theorem set_mint (l : TokenLedger) (key : Pubkey) (account : TokenAccount) :
    (l.set key account).mint = l.mint := rfl

theorem Frame.balance {l l' : TokenLedger} {touched : List Pubkey} (h : l.Frame l' touched)
    {k : Pubkey} (hk : k ∉ touched) : l'.balance k = l.balance k := by
  rw [TokenLedger.balance, h.accounts k hk, TokenLedger.balance]

theorem Frame.refl (l : TokenLedger) (touched : List Pubkey) : l.Frame l touched :=
  ⟨fun _ _ => rfl, fun _ _ h => h, rfl, rfl, rfl⟩

theorem Frame.trans {l l' l'' : TokenLedger} {touched touched' : List Pubkey}
    (h : l.Frame l' touched) (h' : l'.Frame l'' touched') :
    l.Frame l'' (touched ++ touched') where
  accounts k hk := by
    rw [List.mem_append, not_or] at hk
    rw [h'.accounts k hk.2, h.accounts k hk.1]
  ownerOf k o ho := h'.ownerOf k o (h.ownerOf k o ho)
  mintKey := h'.mintKey.trans h.mintKey
  tokenProgram := h'.tokenProgram.trans h.tokenProgram
  decimals := h'.decimals.trans h.decimals

theorem balance_of_account {l : TokenLedger} {key : Pubkey} {account : TokenAccount}
    (h : l.accounts key = some account) : l.balance key = account.amount.toNat := by
  simp [balance, h]

theorem withheld_of_account {l : TokenLedger} {key : Pubkey} {account : TokenAccount}
    (h : l.accounts key = some account) : l.withheld key = account.withheldAmount.toNat := by
  simp [withheld, h]

theorem ownerOf_of_account {l : TokenLedger} {key : Pubkey} {account : TokenAccount}
    (h : l.accounts key = some account) : l.ownerOf key = some account.owner := by
  simp [ownerOf, h]

theorem balance_set (l : TokenLedger) (key k : Pubkey) (a : TokenAccount) :
    (l.set key a).balance k = if k = key then a.amount.toNat else l.balance k := by
  by_cases hk : k = key
  · simp [balance, hk]
  · simp [balance, hk]

theorem withheld_set (l : TokenLedger) (key k : Pubkey) (a : TokenAccount) :
    (l.set key a).withheld k = if k = key then a.withheldAmount.toNat else l.withheld k := by
  by_cases hk : k = key
  · simp [withheld, hk]
  · simp [withheld, hk]

theorem ownerOf_set (l : TokenLedger) (key k : Pubkey) (a : TokenAccount) :
    (l.set key a).ownerOf k = if k = key then some a.owner else l.ownerOf k := by
  by_cases hk : k = key
  · simp [ownerOf, hk]
  · simp [ownerOf, hk]

private theorem frame_set {l : TokenLedger} {key : Pubkey} (new : TokenAccount)
    (h : ∀ o, l.ownerOf key = some o → new.owner = o) : l.Frame (l.set key new) [key] := by
  refine ⟨?_, ?_, rfl, rfl, rfl⟩
  · intro k hk
    rw [List.mem_singleton] at hk
    simp [hk]
  · intro k o ho
    rw [ownerOf_set]
    by_cases hk : k = key
    · subst hk
      rw [if_pos rfl, h o ho]
    · rw [if_neg hk]
      exact ho

private theorem Frame.with_supply {l l' : TokenLedger} {touched : List Pubkey}
    (h : l.Frame l' touched)
    (supply : U64) : l.Frame { l' with mint := { l'.mint with supply := supply } } touched :=
  ⟨h.accounts, h.ownerOf, h.mintKey, h.tokenProgram, h.decimals⟩

theorem balance_lt (l : TokenLedger) (key : Pubkey) : l.balance key < 2 ^ 64 := by
  unfold balance
  cases l.accounts key with
  | none => simp
  | some account => exact account.amount.isLt

theorem transferChecked_self {l l' : TokenLedger} {epoch amount : U64} {key authority : Pubkey}
    {decimals : U8} (h : l.transferChecked epoch key key authority amount decimals = .ok l') :
    l' = l := by
  simp only [transferChecked, bind_eq_ok, if_true, pure_eq_ok] at h
  obtain ⟨_, -, _, -, _, -, _, -, _, -, _, -, rfl⟩ := h
  rfl

theorem transferChecked_owner {l l' : TokenLedger} {epoch amount : U64}
    {source dest authority : Pubkey} {decimals : U8}
    (h : l.transferChecked epoch source dest authority amount decimals = .ok l') :
    l.ownerOf source = some authority := by
  simp only [transferChecked, account, bind_eq_ok, orError_eq_ok, require_eq_ok,
    exists_const] at h
  obtain ⟨-, src, hsrc, _, -, howner, -⟩ := h
  simp [ownerOf, hsrc, howner]

private theorem transferChecked_accepted {l l' : TokenLedger} {epoch amount : U64}
    {source dest authority : Pubkey} {decimals : U8}
    (h : l.transferChecked epoch source dest authority amount decimals = .ok l') :
    l.accepts (.transferChecked source dest authority amount.toNat) = true := by
  simp only [transferChecked, bind_eq_ok, require_eq_ok, exists_const] at h
  exact h.1

theorem burn_accepts {l l' : TokenLedger} {source authority : Pubkey} {amount : U64}
    (h : l.burn source authority amount = .ok l') : l'.accepts = l.accepts := by
  simp only [burn, bind_eq_ok, pure_eq_ok] at h
  obtain ⟨_, -, _, -, _, -, _, -, _, -, rfl⟩ := h
  rfl

private theorem burn_accepted {l l' : TokenLedger} {source authority : Pubkey} {amount : U64}
    (h : l.burn source authority amount = .ok l') :
    l.accepts (.burn source authority amount.toNat) = true := by
  simp only [burn, bind_eq_ok, require_eq_ok, exists_const] at h
  exact h.1

/-- A transfer between two accounts. -/
structure Moved (l l' : TokenLedger) (source dest : Pubkey) (debit credit fee : ℕ) : Prop where
  frame : l.Frame l' [source, dest]
  mint : l'.mint = l.mint
  debited : l'.balance source + debit = l.balance source
  credited : l'.balance dest = l.balance dest + credit
  charged : l'.withheld dest = l.withheld dest + fee

/-- What a transfer between two accounts writes. -/
theorem transferChecked_eq_ok {l l' : TokenLedger} {epoch amount : U64}
    {source dest authority : Pubkey} {decimals : U8} (hne : source ≠ dest)
    (h : l.transferChecked epoch source dest authority amount decimals = .ok l') :
    ∃ (src dst : TokenAccount) (left received withheld : U64),
      l.accounts source = some src ∧ l.accounts dest = some dst ∧
        left.toNat + amount.toNat = src.amount.toNat ∧
        received.toNat = dst.amount.toNat + (l.mint.schedule epoch).net amount.toNat ∧
        withheld.toNat = dst.withheldAmount.toNat + (l.mint.schedule epoch).fee amount.toNat ∧
        l' = (l.set source { src with amount := left }).set dest
          { dst with amount := received, withheldAmount := withheld } := by
  simp only [transferChecked, account, bind_eq_ok, orError_eq_ok, require_eq_ok, exists_const,
    if_neg hne, pure_eq_ok, checkedSub_eq_some, checkedAdd_eq_some] at h
  obtain ⟨-, src, hsrc, dst, hdst, rfl, -, left, hleft, credited, hcred, received, hrec,
    withheld, hwith, rfl⟩ := h
  have hnet := (l.mint.schedule epoch).net_add_fee amount.toNat
  rw [Mint.toNat_transferFee] at hcred hwith
  exact ⟨src, dst, left, received, withheld, hsrc, hdst, hleft, by omega, hwith, rfl⟩

theorem transferChecked_moved {l l' : TokenLedger} {epoch amount : U64}
    {source dest authority : Pubkey} {decimals : U8} (hne : source ≠ dest)
    (h : l.transferChecked epoch source dest authority amount decimals = .ok l') :
    l.Moved l' source dest amount.toNat ((l.mint.schedule epoch).net amount.toNat)
      ((l.mint.schedule epoch).fee amount.toNat) := by
  obtain ⟨src, dst, left, received, withheld, hsrc, hdst, hleft, hreceived, hwithheld, rfl⟩ :=
    transferChecked_eq_ok hne h
  have hout : l.Frame (l.set source { src with amount := left }) [source] :=
    frame_set _ fun o ho => Option.some.inj ((ownerOf_of_account hsrc).symm.trans ho)
  have hdst' : (l.set source { src with amount := left }).ownerOf dest = some dst.owner := by
    rw [ownerOf_set, if_neg (Ne.symm hne), ownerOf_of_account hdst]
  have hin := frame_set { dst with amount := received, withheldAmount := withheld }
    fun o ho => Option.some.inj (hdst'.symm.trans ho)
  refine ⟨hout.trans hin, rfl, ?_, ?_, ?_⟩
  · rw [balance_set, if_neg hne, balance_set, if_pos rfl, balance_of_account hsrc]
    exact hleft
  · rw [balance_set, if_pos rfl, balance_of_account hdst]
    exact hreceived
  · rw [withheld_set, if_pos rfl, withheld_of_account hdst]
    exact hwithheld

theorem transferChecked_frame {l l' : TokenLedger} {epoch amount : U64}
    {source dest authority : Pubkey} {decimals : U8}
    (h : l.transferChecked epoch source dest authority amount decimals = .ok l') :
    l.Frame l' [source, dest] ∧ l'.mint = l.mint := by
  by_cases hne : source = dest
  · subst hne
    rw [transferChecked_self h]
    exact ⟨Frame.refl l _, rfl⟩
  · have hmoved := transferChecked_moved hne h
    exact ⟨hmoved.frame, hmoved.mint⟩

structure Burned (l l' : TokenLedger) (source : Pubkey) (amount : ℕ) : Prop where
  frame : l.Frame l' [source]
  debited : l'.balance source + amount = l.balance source
  supply : l'.mint.supply.toNat + amount = l.mint.supply.toNat
  config : l'.mint.transferFeeConfig = l.mint.transferFeeConfig

theorem burn_eq_ok {l l' : TokenLedger} {source authority : Pubkey} {amount : U64}
    (h : l.burn source authority amount = .ok l') :
    ∃ (src : TokenAccount) (left supply : U64),
      l.accounts source = some src ∧ src.owner = authority ∧
        left.toNat + amount.toNat = src.amount.toNat ∧
        supply.toNat + amount.toNat = l.mint.supply.toNat ∧
        l' = { l.set source { src with amount := left } with
          mint := { l.mint with supply := supply } } := by
  simp only [burn, account, bind_eq_ok, orError_eq_ok, require_eq_ok, exists_const, pure_eq_ok,
    checkedSub_eq_some] at h
  obtain ⟨-, src, hsrc, howner, left, hleft, supply, hsupply, rfl⟩ := h
  exact ⟨src, left, supply, hsrc, howner, hleft, hsupply, rfl⟩

theorem burn_burned {l l' : TokenLedger} {source authority : Pubkey} {amount : U64}
    (h : l.burn source authority amount = .ok l') :
    l.Burned l' source amount.toNat ∧ l.ownerOf source = some authority := by
  obtain ⟨src, left, supply, hsrc, rfl, hleft, hsupply, rfl⟩ := burn_eq_ok h
  have howner := ownerOf_of_account hsrc
  have hframe : l.Frame (l.set source { src with amount := left }) [source] :=
    frame_set _ fun o ho => Option.some.inj (howner.symm.trans ho)
  refine ⟨⟨hframe.with_supply supply, ?_, hsupply, rfl⟩, howner⟩
  change (l.set source { src with amount := left }).balance source + _ = _
  rw [balance_set, if_pos rfl, balance_of_account hsrc]
  exact hleft

structure Minted (l l' : TokenLedger) (dest : Pubkey) (amount : ℕ) : Prop where
  frame : l.Frame l' [dest]
  credited : l'.balance dest = l.balance dest + amount
  supply : l'.mint.supply.toNat = l.mint.supply.toNat + amount
  config : l'.mint.transferFeeConfig = l.mint.transferFeeConfig

theorem mintTo_eq_ok {l l' : TokenLedger} {dest authority signer : Pubkey} {amount : U64}
    (h : l.mintTo dest authority signer amount = .ok l') :
    ∃ (dst : TokenAccount) (received supply : U64),
      l.accounts dest = some dst ∧ received.toNat = dst.amount.toNat + amount.toNat ∧
        supply.toNat = l.mint.supply.toNat + amount.toNat ∧
        l' = { l.set dest { dst with amount := received } with
          mint := { l.mint with supply := supply } } := by
  simp only [mintTo, account, bind_eq_ok, orError_eq_ok, require_eq_ok, exists_const, pure_eq_ok,
    checkedAdd_eq_some] at h
  obtain ⟨-, dst, hdst, -, -, received, hreceived, supply, hsupply, rfl⟩ := h
  exact ⟨dst, received, supply, hdst, hreceived, hsupply, rfl⟩

theorem mintTo_minted {l l' : TokenLedger} {dest authority signer : Pubkey} {amount : U64}
    (h : l.mintTo dest authority signer amount = .ok l') : l.Minted l' dest amount.toNat := by
  obtain ⟨dst, received, supply, hdst, hreceived, hsupply, rfl⟩ := mintTo_eq_ok h
  have hframe : l.Frame (l.set dest { dst with amount := received }) [dest] :=
    frame_set _ fun o ho => Option.some.inj ((ownerOf_of_account hdst).symm.trans ho)
  refine ⟨hframe.with_supply supply, ?_, hsupply, rfl⟩
  change (l.set dest { dst with amount := received }).balance dest = _
  rw [balance_set, if_pos rfl, balance_of_account hdst]
  exact hreceived

theorem initIfNeeded_spec {l l' : TokenLedger} {key owner : Pubkey}
    (h : l.initIfNeeded key owner = .ok l') :
    l.Frame l' [key] ∧ l'.mint = l.mint ∧ l'.multisigs = l.multisigs ∧
      (∀ k, l'.balance k = l.balance k) ∧ l'.ownerOf key = some owner := by
  unfold initIfNeeded at h
  split at h
  · rename_i hnone
    simp only [bind_eq_ok, require_eq_ok, exists_const, pure_eq_ok] at h
    obtain ⟨-, rfl⟩ := h
    have howner : l.ownerOf key = none := by simp [ownerOf, hnone]
    refine ⟨frame_set _ fun o ho => ?_, rfl, rfl, ?_, by simp [ownerOf]⟩
    · cases howner.symm.trans ho
    · intro k
      rw [balance_set]
      by_cases hk : k = key
      · subst hk
        simp [balance, hnone]
      · rw [if_neg hk]
  · rename_i account hsome
    simp only [bind_eq_ok, require_eq_ok, exists_const, pure_eq_ok] at h
    obtain ⟨rfl, rfl⟩ := h
    exact ⟨Frame.refl _ _, rfl, rfl, fun _ => rfl, by simp [ownerOf, hsome]⟩

private theorem exists_account {l : TokenLedger} {key : Pubkey} :
    (∃ account, l.account key = .ok account) ↔ (l.ownerOf key).isSome := by
  simp [account, ownerOf, Option.isSome_iff_exists]

structure Transferable (l : TokenLedger) (epoch : U64) (source dest authority : Pubkey)
    (amount : ℕ) : Prop where
  accepted : l.accepts (.transferChecked source dest authority amount) = true
  owner : l.ownerOf source = some authority
  present : (l.ownerOf dest).isSome
  covered : amount ≤ l.balance source
  room : l.balance dest + (l.mint.schedule epoch).net amount < 2 ^ 64
  withheldRoom : l.withheld dest + (l.mint.schedule epoch).fee amount < 2 ^ 64

theorem exists_transferChecked_iff {l : TokenLedger} {epoch amount : U64}
    {source dest authority : Pubkey} (hne : source ≠ dest) :
    (∃ l', l.transferChecked epoch source dest authority amount l.mint.decimals = .ok l') ↔
      l.Transferable epoch source dest authority amount.toNat := by
  constructor
  · intro h
    obtain ⟨l', h⟩ := h
    have howner := transferChecked_owner h
    obtain ⟨src, dst, left, received, withheld, hsrc, hdst, hleft, hreceived, hwithheld, -⟩ :=
      transferChecked_eq_ok hne h
    have hroom := received.isLt
    have hwithheldRoom := withheld.isLt
    refine ⟨transferChecked_accepted h, howner, by simp [ownerOf, hdst], ?_, ?_, ?_⟩
    · rw [balance_of_account hsrc]
      omega
    · rw [balance_of_account hdst]
      omega
    · rw [withheld_of_account hdst]
      omega
  · intro h
    obtain ⟨src, hsrc, howner⟩ := Option.map_eq_some_iff.mp h.owner
    obtain ⟨dst, hdst⟩ := exists_account.mpr h.present
    rw [account, orError_eq_ok] at hdst
    have hcovered := h.covered
    have hroom := h.room
    have hwithheldRoom := h.withheldRoom
    rw [balance_of_account hsrc] at hcovered
    rw [balance_of_account hdst] at hroom
    rw [withheld_of_account hdst] at hwithheldRoom
    have hfee := (l.mint.schedule epoch).fee_le_self amount.toNat
    have hnet := (l.mint.schedule epoch).net_add_fee amount.toNat
    have hcharged := l.mint.toNat_transferFee epoch amount
    obtain ⟨left, hleft, -⟩ := exists_checkedSub hcovered
    obtain ⟨credited, hcredited, hvalue⟩ := exists_checkedSub
      (show (l.mint.transferFee epoch amount).toNat ≤ amount.toNat by omega)
    obtain ⟨received, hreceived, -⟩ := exists_checkedAdd
      (show dst.amount.toNat + credited.toNat < 2 ^ 64 by omega)
    obtain ⟨withheld, hwithheld, -⟩ := exists_checkedAdd
      (show dst.withheldAmount.toNat + (l.mint.transferFee epoch amount).toNat < 2 ^ 64 by omega)
    simp only [transferChecked, account, bind_eq_ok, orError_eq_ok, require_eq_ok, exists_const,
      if_neg hne, pure_eq_ok]
    exact ⟨_, h.accepted, src, hsrc, dst, hdst, howner, trivial, left, hleft, credited, hcredited,
      received, hreceived, withheld, hwithheld, rfl⟩

structure Burnable (l : TokenLedger) (source authority : Pubkey) (amount : ℕ) : Prop where
  accepted : l.accepts (.burn source authority amount) = true
  owner : l.ownerOf source = some authority
  covered : amount ≤ l.balance source
  supplied : amount ≤ l.mint.supply.toNat

theorem exists_burn_iff {l : TokenLedger} {source authority : Pubkey} {amount : U64} :
    (∃ l', l.burn source authority amount = .ok l') ↔
      l.Burnable source authority amount.toNat := by
  constructor
  · intro h
    obtain ⟨l', h⟩ := h
    obtain ⟨hburned, howner⟩ := burn_burned h
    have hdebited := hburned.debited
    have hsupply := hburned.supply
    exact ⟨burn_accepted h, howner, by omega, by omega⟩
  · intro h
    obtain ⟨src, hsrc, howner⟩ := Option.map_eq_some_iff.mp h.owner
    have hcovered := h.covered
    rw [balance_of_account hsrc] at hcovered
    obtain ⟨left, hleft, -⟩ := exists_checkedSub hcovered
    obtain ⟨supply, hsupply, -⟩ := exists_checkedSub h.supplied
    simp only [burn, account, bind_eq_ok, orError_eq_ok, require_eq_ok, exists_const, pure_eq_ok]
    exact ⟨_, h.accepted, src, hsrc, howner, left, hleft, supply, hsupply, rfl⟩

structure Mintable (l : TokenLedger) (dest authority signer : Pubkey) (amount : ℕ) : Prop where
  accepted : l.accepts (.mintTo dest authority amount) = true
  present : (l.ownerOf dest).isSome
  mintAuthority : l.mint.mintAuthority = some authority
  signs : l.signsFor signer authority
  room : l.balance dest + amount < 2 ^ 64
  supplyRoom : l.mint.supply.toNat + amount < 2 ^ 64

theorem exists_mintTo_iff {l : TokenLedger} {dest authority signer : Pubkey} {amount : U64} :
    (∃ l', l.mintTo dest authority signer amount = .ok l') ↔
      l.Mintable dest authority signer amount.toNat := by
  constructor
  · intro h
    obtain ⟨l', h⟩ := h
    simp only [mintTo, account, bind_eq_ok, orError_eq_ok, require_eq_ok, exists_const,
      pure_eq_ok, checkedAdd_eq_some] at h
    obtain ⟨haccepted, dst, hdst, hauthority, hsigns, received, hreceived, supply, hsupply, -⟩ := h
    have hroom := received.isLt
    have hsupplyRoom := supply.isLt
    refine ⟨haccepted, by simp [ownerOf, hdst], hauthority, hsigns, ?_, by omega⟩
    rw [balance_of_account hdst]
    omega
  · intro h
    obtain ⟨dst, hdst⟩ := exists_account.mpr h.present
    rw [account, orError_eq_ok] at hdst
    have hroom := h.room
    rw [balance_of_account hdst] at hroom
    obtain ⟨received, hreceived, -⟩ := exists_checkedAdd hroom
    obtain ⟨supply, hsupply, -⟩ := exists_checkedAdd h.supplyRoom
    simp only [mintTo, account, bind_eq_ok, orError_eq_ok, require_eq_ok, exists_const, pure_eq_ok]
    exact ⟨_, h.accepted, dst, hdst, h.mintAuthority, h.signs, received, hreceived, supply, hsupply,
      rfl⟩

theorem initIfNeeded_accepts {l l' : TokenLedger} {key owner : Pubkey}
    (h : l.initIfNeeded key owner = .ok l') : l'.accepts = l.accepts := by
  unfold initIfNeeded at h
  split at h
  all_goals
    simp only [bind_eq_ok, pure_eq_ok] at h
    obtain ⟨-, -, rfl⟩ := h
    rfl

theorem exists_initIfNeeded_iff {l : TokenLedger} {key owner : Pubkey} :
    (∃ l', l.initIfNeeded key owner = .ok l') ↔
      (l.ownerOf key = none → l.accepts (.create key owner) = true) ∧
        ∀ o, l.ownerOf key = some o → o = owner := by
  unfold initIfNeeded ownerOf
  cases l.accounts key with
  | none => simp
  | some account => simp

theorem initIfNeeded_withheld {l l' : TokenLedger} {key owner : Pubkey}
    (h : l.initIfNeeded key owner = .ok l') (k : Pubkey) : l'.withheld k = l.withheld k := by
  unfold initIfNeeded at h
  cases haccount : l.accounts key with
  | none =>
    simp only [haccount, bind_eq_ok, require_eq_ok, exists_const, pure_eq_ok] at h
    obtain ⟨-, rfl⟩ := h
    rw [withheld_set]
    by_cases hk : k = key
    · subst hk
      simp [withheld, haccount]
    · rw [if_neg hk]
  | some account =>
    simp only [haccount, bind_eq_ok, pure_eq_ok] at h
    obtain ⟨-, -, rfl⟩ := h
    rfl

end TokenLedger

end FdfiToken
