import FdfiToken.Solana.Runtime
import Mathlib.Tactic.Ring

/-!
# The OFT store

The program's main account and its conversions between local and shared decimals. Over `Nat`
the conversions are exact on dust-free amounts.
-/

namespace FdfiToken

open Word Fallible

inductive OFTType where
  | native
  | adapter
deriving DecidableEq

theorem OFTType.ne_adapter {t : OFTType} (h : t = .native) : t ≠ .adapter := by
  rw [h]
  exact OFTType.noConfusion

structure OFTStore where
  oftType : OFTType
  ld2sdRate : U64
  tokenMint : Pubkey
  tokenEscrow : Pubkey
  endpointProgram : Pubkey
  bump : U8
  tvlLd : U64
  admin : Pubkey
  defaultFeeBps : U16
  paused : Bool
  pauser : Option Pubkey
  unpauser : Option Pubkey
deriving DecidableEq

namespace OFTStore

def ld2sd (s : OFTStore) (amountLd : U64) : Result U64 := orPanic (checkedDiv amountLd s.ld2sdRate)

def sd2ld (s : OFTStore) (amountSd : U64) : Result U64 := orPanic (checkedMul amountSd s.ld2sdRate)

def removeDust (s : OFTStore) (amountLd : U64) : Result U64 := do
  let dust ← orPanic (checkedRem amountLd s.ld2sdRate)
  orPanic (checkedSub amountLd dust)

/-- The rate over `Nat`. -/
def rate (s : OFTStore) : ℕ := s.ld2sdRate.toNat

@[simp] theorem ld2sd_eq_ok {s : OFTStore} {a b : U64} :
    s.ld2sd a = .ok b ↔ 0 < s.rate ∧ b.toNat = a.toNat / s.rate := by
  simp [ld2sd, rate]

@[simp] theorem sd2ld_eq_ok {s : OFTStore} {a b : U64} :
    s.sd2ld a = .ok b ↔ b.toNat = a.toNat * s.rate := by
  simp [sd2ld, rate]

@[simp] theorem removeDust_eq_ok {s : OFTStore} {a b : U64} :
    s.removeDust a = .ok b ↔ 0 < s.rate ∧ b.toNat = a.toNat / s.rate * s.rate := by
  have hdiv := Nat.div_add_mod a.toNat s.rate
  rw [Nat.mul_comm] at hdiv
  simp only [removeDust, bind_eq_ok, orError_eq_ok, checkedRem_eq_some, checkedSub_eq_some]
  change (∃ d : U64, (0 < s.rate ∧ d.toNat = a.toNat % s.rate) ∧ b.toNat + d.toNat = a.toNat) ↔ _
  constructor
  · rintro ⟨d, ⟨hpos, hd⟩, hb⟩
    exact ⟨hpos, by omega⟩
  · rintro ⟨hpos, hb⟩
    have hmod : a.toNat % s.rate < 2 ^ 64 := (Nat.mod_le _ _).trans_lt a.isLt
    refine ⟨BitVec.ofNat 64 (a.toNat % s.rate), ⟨hpos, ?_⟩, ?_⟩
    · rw [BitVec.toNat_ofNat, Nat.mod_eq_of_lt hmod]
    · rw [BitVec.toNat_ofNat, Nat.mod_eq_of_lt hmod]
      omega

end OFTStore

structure LzReceiveTypesAccounts where
  oftStore : Pubkey
  tokenMint : Pubkey
deriving DecidableEq

end FdfiToken
