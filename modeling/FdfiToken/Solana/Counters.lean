import FdfiToken.Lib.Shift
import FdfiToken.Solana.TokenProgram

/-!
# The counters of a ledger

A ledger is its owners and its counters: balances, withheld fees and the supply. Every operation
of the token program shifts the counters by amounts that do not depend on them.
-/

namespace FdfiToken

open Word Fallible Shifts

inductive Counter where
  | balance (key : Pubkey)
  | withheld (key : Pubkey)
  | supply
deriving DecidableEq

namespace TokenLedger

def counter (l : TokenLedger) : Counter → ℕ
  | .balance key => l.balance key
  | .withheld key => l.withheld key
  | .supply => l.mint.supply.toNat

/-- `n` at one counter. -/
def only (c : Counter) (n : ℕ) : Counter → ℕ := Pi.single c n

def Alike (l l' : TokenLedger) : Prop :=
  l' = { l with
    accounts := l'.accounts
    mint := { l.mint with supply := l'.mint.supply } }

theorem Alike.trans {l l' l'' : TokenLedger} (h : l.Alike l') (h' : l'.Alike l'') :
    l.Alike l'' := by
  rw [Alike, h', h]

/-- A shift of the counters that opens the accounts `opened` says, each for its owner. -/
structure Shifted (l l' : TokenLedger) (out into : Counter → ℕ) (opened : Pubkey → Option Pubkey) :
    Prop where
  alike : l.Alike l'
  shift : Shift out into l.counter l'.counter
  ownerOf : ∀ k, l'.ownerOf k = (l.ownerOf k).or (opened k)
  opens : ∀ k o, opened k = some o → l'.ownerOf k = some o

namespace Shifted

variable {l l' l'' l₁ l₂ l₁₂ l₂₁ : TokenLedger} {out into out' into' : Counter → ℕ}
  {opened opened' : Pubkey → Option Pubkey}

theorem refl (l : TokenLedger) : l.Shifted l 0 0 fun _ => none :=
  ⟨rfl, Shift.refl _, fun _ => Option.or_none.symm, fun _ _ h => by cases h⟩

theorem trans (h : l.Shifted l' out into opened)
    (h' : l'.Shifted l'' out' into' fun _ => none) :
    l.Shifted l'' (out + out') (into + into') opened where
  alike := h.alike.trans h'.alike
  shift := h.shift.trans h'.shift
  ownerOf k := by rw [h'.ownerOf, Option.or_none, h.ownerOf]
  opens k o ho := by rw [h'.ownerOf, Option.or_none, h.opens k o ho]

end Shifted

/-- A ledger is its owners and its counters. -/
theorem Alike.eq_of_counter {l l' : TokenLedger} (h : l.Alike l')
    (hcounter : l'.counter = l.counter)
    (howner : ∀ k, l'.ownerOf k = l.ownerOf k) : l' = l := by
  have hsupply : l'.mint.supply = l.mint.supply :=
    BitVec.eq_of_toNat_eq (congrFun hcounter .supply)
  have haccounts : l'.accounts = l.accounts := by
    funext k
    have hbalance : l'.balance k = l.balance k := congrFun hcounter (.balance k)
    have hwithheld : l'.withheld k = l.withheld k := congrFun hcounter (.withheld k)
    have hk := howner k
    simp only [balance, withheld, ownerOf] at hbalance hwithheld hk
    cases ha : l.accounts k with
    | none =>
      rw [ha, Option.map_none, Option.map_eq_none_iff] at hk
      exact hk
    | some a =>
      rw [ha, Option.map_some, Option.map_eq_some_iff] at hk
      obtain ⟨b, hb, hkowner⟩ := hk
      rw [ha, hb] at hbalance hwithheld
      rw [hb, Option.some.injEq, TokenAccount.mk.injEq]
      exact ⟨hkowner, BitVec.eq_of_toNat_eq hbalance, BitVec.eq_of_toNat_eq hwithheld⟩
  rw [h, hsupply, haccounts]

/-- Two shifts that both go through in either order lead to the same ledger. Accounts that both
open have the same owner. -/
theorem Shifted.commute {l l₁ l₂ l₁₂ l₂₁ : TokenLedger} {out into out' into' : Counter → ℕ}
    {opened opened' : Pubkey → Option Pubkey} (h₁ : l.Shifted l₁ out into opened)
    (h₁₂ : l₁.Shifted l₁₂ out' into' opened') (h₂ : l.Shifted l₂ out' into' opened')
    (h₂₁ : l₂.Shifted l₂₁ out into opened) : l₁₂ = l₂₁ := by
  have halike : l₂₁.Alike l₁₂ := by
    rw [Alike, h₁.alike.trans h₁₂.alike, h₂.alike.trans h₂₁.alike]
  refine halike.eq_of_counter (h₁.shift.commute h₁₂.shift h₂.shift h₂₁.shift) ?_
  intro k
  have hopens := h₁₂.opens k
  rw [h₁₂.ownerOf, h₁.ownerOf] at hopens ⊢
  rw [h₂₁.ownerOf, h₂.ownerOf]
  cases howner : l.ownerOf k with
  | some o => rfl
  | none =>
    rw [howner] at hopens
    cases hf : opened k with
    | none => simp
    | some o =>
      cases hg : opened' k with
      | none => simp
      | some o' =>
        rw [hf] at hopens
        exact hopens o' hg

private theorem set_shifted {l : TokenLedger} {key : Pubkey} {old : TokenAccount}
    (new : TokenAccount)
    (out into fee : ℕ) (hold : l.accounts key = some old) (howner : new.owner = old.owner)
    (hamount : new.amount.toNat + out = old.amount.toNat + into)
    (hwithheld : new.withheldAmount.toNat = old.withheldAmount.toNat + fee) :
    l.Shifted (l.set key new) (only (.balance key) out)
      (only (.balance key) into + only (.withheld key) fee) fun _ => none := by
  refine ⟨rfl, ?_, ?_, fun _ _ h => by cases h⟩
  · funext c
    cases c with
    | balance k =>
      change (l.set key new).balance k + _ = l.balance k + (_ + _)
      by_cases hk : k = key
      · subst hk
        simpa [balance_set, only, balance_of_account hold] using hamount
      · simp [balance_set, only, hk]
    | withheld k =>
      change (l.set key new).withheld k + _ = l.withheld k + (_ + _)
      by_cases hk : k = key
      · subst hk
        simpa [withheld_set, only, withheld_of_account hold] using hwithheld
      · simp [withheld_set, only, hk]
    | supply => simp [counter, only]
  · intro k
    rw [ownerOf_set, Option.or_none]
    by_cases hk : k = key
    · subst hk
      simp [ownerOf, hold, howner]
    · rw [if_neg hk]

private theorem supply_shifted (l : TokenLedger) (supply : U64) (out into : ℕ)
    (h : supply.toNat + out = l.mint.supply.toNat + into) :
    l.Shifted { l with mint := { l.mint with supply := supply } } (only .supply out)
      (only .supply into) fun _ => none := by
  refine ⟨rfl, ?_, fun _ => Option.or_none.symm, fun _ _ h => by cases h⟩
  funext c
  cases c with
  | balance k => simp [counter, only, balance]
  | withheld k => simp [counter, only, withheld]
  | supply => simpa [counter, only] using h

@[simp] theorem only_zero (c : Counter) : only c 0 = 0 := Pi.single_zero c

theorem transferChecked_shifted {l l' : TokenLedger} {epoch amount : U64}
    {source dest authority : Pubkey} {decimals : U8} (hne : source ≠ dest)
    (h : l.transferChecked epoch source dest authority amount decimals = .ok l') :
    l.Shifted l' (only (.balance source) amount.toNat)
      (only (.balance dest) ((l.mint.schedule epoch).net amount.toNat) +
        only (.withheld dest) ((l.mint.schedule epoch).fee amount.toNat)) fun _ => none := by
  obtain ⟨src, dst, left, received, withheld, hsrc, hdst, hleft, hreceived, hwithheld, rfl⟩ :=
    transferChecked_eq_ok hne h
  have hsource := set_shifted { src with amount := left } amount.toNat 0 0 hsrc rfl hleft rfl
  have hdst' : (l.set source { src with amount := left }).accounts dest = some dst := by
    rw [set_accounts, Function.update_of_ne (Ne.symm hne), hdst]
  have hdest := set_shifted { dst with amount := received, withheldAmount := withheld } 0
    ((l.mint.schedule epoch).net amount.toNat) ((l.mint.schedule epoch).fee amount.toNat) hdst' rfl
    hreceived hwithheld
  simpa using hsource.trans hdest

theorem burn_shifted {l l' : TokenLedger} {source authority : Pubkey} {amount : U64}
    (h : l.burn source authority amount = .ok l') :
    l.Shifted l' (only (.balance source) amount.toNat + only .supply amount.toNat) 0
      fun _ => none := by
  obtain ⟨src, left, supply, hsrc, -, hleft, hsupply, rfl⟩ := burn_eq_ok h
  have hsource := set_shifted { src with amount := left } amount.toNat 0 0 hsrc rfl hleft rfl
  have hburned := supply_shifted (l.set source { src with amount := left }) supply amount.toNat 0
    hsupply
  simpa using hsource.trans hburned

theorem mintTo_shifted {l l' : TokenLedger} {dest authority signer : Pubkey} {amount : U64}
    (h : l.mintTo dest authority signer amount = .ok l') :
    l.Shifted l' 0 (only (.balance dest) amount.toNat + only .supply amount.toNat)
      fun _ => none := by
  obtain ⟨dst, received, supply, hdst, hrec, hsupply, rfl⟩ := mintTo_eq_ok h
  have hdest := set_shifted { dst with amount := received } 0 amount.toNat 0 hdst rfl hrec rfl
  have hminted := supply_shifted (l.set dest { dst with amount := received }) supply 0 amount.toNat
    hsupply
  simpa using hdest.trans hminted

theorem initIfNeeded_shifted {l l' : TokenLedger} {key owner : Pubkey}
    (h : l.initIfNeeded key owner = .ok l') :
    l.Shifted l' 0 0 fun k => if k = key then some owner else none := by
  obtain ⟨-, -, -, hbalance, howner⟩ := initIfNeeded_spec h
  have hopens : ∀ k o, (if k = key then some owner else none) = some o →
      l'.ownerOf k = some o := by
    intro k o ho
    split at ho
    · rename_i hk
      subst hk
      rw [← ho]
      exact howner
    · cases ho
  unfold initIfNeeded at h
  split at h
  · rename_i hnone
    simp only [bind_eq_ok, require_eq_ok, exists_const, pure_eq_ok] at h
    obtain ⟨-, rfl⟩ := h
    refine ⟨rfl, ?_, ?_, hopens⟩
    · funext c
      cases c with
      | balance k => exact congrArg (· + 0) (hbalance k)
      | withheld k =>
        change (l.set key ⟨owner, 0, 0⟩).withheld k + 0 = l.withheld k + 0
        rw [withheld_set]
        split
        · rename_i hk
          subst hk
          simp [withheld, hnone]
        · rfl
      | supply => rfl
    · intro k
      rw [ownerOf_set]
      by_cases hk : k = key
      · subst hk
        simp [ownerOf, hnone]
      · simp [hk]
  · rename_i account hsome
    simp only [bind_eq_ok, require_eq_ok, exists_const, pure_eq_ok] at h
    obtain ⟨rfl, rfl⟩ := h
    refine ⟨rfl, Shift.refl _, ?_, hopens⟩
    intro k
    by_cases hk : k = key
    · subst hk
      simp [ownerOf, hsome]
    · simp [hk]

end TokenLedger

end FdfiToken
